import Mcla.Refcount.Native

/-! # The generated bodies

The recompiled guest functions, as `mcla_native_refcount_test.cpp`
transliterates them, and the hooks of `mcla_native_refcount.cpp` that choose
between a native helper and its generated body.  A body takes its recursive
`bl` as an argument; `fuel` bounds both the depth of the calls and the retries
of a reservation loop.
-/
namespace Mcla.Refcount
open ByteMemory ByteMemory.Memory

/-- `REX_CHECK_GLOBAL_LOCK()` outside a locked region. -/
def kCheckGlobalLock : BitVec 64 := 0x8000

/-- `mtmsrd`: the two mask bits of `msr` come from a register. -/
def mtmsrd (r : BitVec 64) (s : Machine) : Machine :=
  { s with ctx.msr := u32 r &&& 0x8020 ||| s.ctx.msr &&& ~~~0x8020 }

/-- `REF_STWCX`: store if the word still holds the reserved one. -/
def stwcx (ea value : BitVec 32) (s : Machine) : Machine :=
  let (stored, _, mem) := compareExchange s.mem ea (u32 s.ctx.reserved) (byteSwap32 value)
  { s with mem := mem, ctx.cr0 := ⟨0, 0, flag stored, s.ctx.xer.so⟩ }

/-- `lwarx` into the reservation. -/
def lwarx (ea : BitVec 32) (s : Machine) : Machine :=
  { s with ctx.reserved := setU32 s.ctx.reserved (s.mem.word ea) }

/-- Repeat `region` until its `stwcx.` succeeds. -/
def retry (region : Machine → Machine) : Nat → Machine → Option Machine
  | 0, _ => none
  | fuel + 1, s =>
      let s := region s
      if s.ctx.cr0.eq = 0 then retry region fuel s else some s

/-- The prologue of `sub_82422160` and `sub_824221D8`. -/
def prologue (s : Machine) : Machine :=
  let s := { s with ctx.r12 := s.ctx.lr }
  let s := { s with mem := s.mem.store32 (u32 s.ctx.r1 - 8) (u32 s.ctx.r12) }
  let s := { s with mem := s.mem.store64 (u32 s.ctx.r1 - 16) s.ctx.r31 }
  let ea := u32 s.ctx.r1 - 96
  let s := { s with mem := s.mem.store32 ea (u32 s.ctx.r1) }
  { s with ctx.r1 := setU32 s.ctx.r1 ea }

/-- The epilogue of `sub_82422160` and `sub_824221D8`. -/
def epilogue (s : Machine) : Machine :=
  let s := { s with ctx.r1 := s.ctx.r1 + 96 }
  let s := { s with ctx.r12 := ofU32 (s.mem.load32 (u32 s.ctx.r1 - 8)) }
  let s := { s with ctx.lr := s.ctx.r12 }
  { s with ctx.r31 := s.mem.load64 (u32 s.ctx.r1 - 16) }

/-- The region at `loc_82422174` (`delta = 1`) and `loc_824221F0` (`-1`). -/
def countRegion (delta : BitVec 64) (s : Machine) : Machine :=
  let s := { s with ctx.r9 := kCheckGlobalLock }
  let s := mtmsrd s.ctx.r13 s
  let s := lwarx (u32 s.ctx.r11) s
  let s := { s with ctx.r10 := ofU32 (byteSwap32 (u32 s.ctx.reserved)) }
  let s := { s with ctx.r10 := s.ctx.r10 + delta }
  let s := stwcx (u32 s.ctx.r11) (u32 s.ctx.r10) s
  mtmsrd s.ctx.r9 s

/-- `rlwinm r,r,0,1,1` as the recompiler writes it. -/
def rlwinmFlag (r : BitVec 64) : BitVec 64 :=
  (ofU32 (u32 r) ||| r <<< 32).rotateLeft 0 &&& 0x40000000

/-- The header tests of the bodies on the object in register `p`, by the
condition bits: fall through to the parent's call or branch away. -/
def refHeaderTest (p : BitVec 64) (s : Machine) : Bool × Machine :=
  let s := { s with ctx.r11 := ofU32 (s.mem.load32 (u32 p + 0)) }
  let s := { s with ctx.r10 := ofU32 (u32 s.ctx.r11 &&& 0xF) }
  let s := { s with ctx.cr6 := .compareU32 (u32 s.ctx.r10) 4 s.ctx.xer }
  if s.ctx.cr6.eq = 0 then (false, s)
  else
    let s := { s with ctx.r11 := rlwinmFlag s.ctx.r11 }
    let s := { s with ctx.cr0 := .compareS32 (u32 s.ctx.r11) 0 s.ctx.xer }
    (s.ctx.cr0.eq = 0, s)

/-- The tests of `RefAddRef` after the count. -/
def refAddRefTest (s : Machine) : Bool × Machine :=
  let s := { s with ctx.r31 := s.ctx.r10 }
  let s := { s with ctx.cr6 := .compareU32 (u32 s.ctx.r31) 1 s.ctx.xer }
  if s.ctx.cr6.eq = 0 then (false, s) else refHeaderTest s.ctx.r3 s

/-- `loc_824221BC`. -/
def loc_824221BC (s : Machine) : Machine :=
  let s := { s with ctx.r3 := s.ctx.r31 }
  epilogue s

/-- `loc_82422238`. -/
def loc_82422238 (destroy : Destroy) (s : Machine) : Machine :=
  let s := { s with ctx.r3 := s.ctx.r31 }
  let s := { s with ctx.lr := 0x82422240 }
  let s := callDestroy destroy s
  let s := { s with ctx.r3 := 0 }
  epilogue s

/-- `RefAddRef`, the body of `sub_82422160`. -/
def refAddRefBody (bl : Machine → Option Machine) (fuel : Nat) (s : Machine) : Option Machine :=
  let s := prologue s
  let s := { s with ctx.r11 := s.ctx.r3 + 4 }
  (retry (countRegion 1) fuel s).bind fun s =>
  let tested := refAddRefTest s
  let s := tested.2
  if tested.1 then
    let s := { s with ctx.r3 := ofU32 (s.mem.load32 (u32 s.ctx.r3 + 24)) }
    let s := { s with ctx.lr := 0x824221BC }
    (bl s).map loc_824221BC
  else some (loc_824221BC s)

/-- `RefRelease` from where the count is zero. -/
def refReleaseZero (bl : Machine → Option Machine) (destroy : Destroy) (s : Machine) :
    Option Machine :=
  let tested := refHeaderTest s.ctx.r31 s
  let s := tested.2
  if tested.1 then
    let s := { s with ctx.r3 := ofU32 (s.mem.load32 (u32 s.ctx.r31 + 24)) }
    let s := { s with ctx.lr := 0x82422238 }
    (bl s).map (loc_82422238 destroy)
  else some (loc_82422238 destroy s)

/-- `RefRelease` from the end of the counting region. -/
def refReleaseTest (bl : Machine → Option Machine) (destroy : Destroy) (s : Machine) :
    Option Machine :=
  let s := { s with ctx.r3 := s.ctx.r10 }
  let s := { s with ctx.cr6 := .compareU32 (u32 s.ctx.r3) 0 s.ctx.xer }
  if s.ctx.cr6.eq = 0 then some (epilogue s) else refReleaseZero bl destroy s

/-- `RefRelease`, the body of `sub_824221D8`. -/
def refReleaseBody (bl : Machine → Option Machine) (destroy : Destroy) (fuel : Nat)
    (s : Machine) : Option Machine :=
  let s := prologue s
  let s := { s with ctx.r31 := s.ctx.r3 }
  let s := { s with ctx.r11 := s.ctx.r31 + 4 }
  (retry (countRegion (-1)) fuel s).bind (refReleaseTest bl destroy)

/-- `RefAddRef`. -/
def refAddRef : Nat → Machine → Option Machine
  | 0, _ => none
  | fuel + 1, s => refAddRefBody (refAddRef fuel) (fuel + 1) s

/-- `RefRelease`. -/
def refRelease (destroy : Destroy) : Nat → Machine → Option Machine
  | 0, _ => none
  | fuel + 1, s => refReleaseBody (refRelease destroy fuel) destroy (fuel + 1) s

/-! ## The interlocked bodies -/

/-- `RefExchange` (`sub_821CE080`). -/
def refExchange (fuel : Nat) (s : Machine) : Option Machine :=
  (retry (fun s =>
    let s := { s with ctx.r10 := kCheckGlobalLock }
    let s := mtmsrd s.ctx.r13 s
    let s := lwarx (u32 s.ctx.r3) s
    let s := { s with ctx.r11 := ofU32 (byteSwap32 (u32 s.ctx.reserved)) }
    let s := stwcx (u32 s.ctx.r3) (u32 s.ctx.r4) s
    mtmsrd s.ctx.r10 s) fuel s).map fun s => { s with ctx.r3 := s.ctx.r11 }

/-- `RefCompareExchange` up to `bne cr6,0x821ce0c8`. -/
def loc_821CE0A0 (s : Machine) : Machine :=
  let s := { s with ctx.r10 := kCheckGlobalLock }
  let s := mtmsrd s.ctx.r13 s
  let s := lwarx (u32 s.ctx.r3) s
  let s := { s with ctx.r11 := ofU32 (byteSwap32 (u32 s.ctx.reserved)) }
  { s with ctx.cr6 := .compareS32 (u32 s.ctx.r11) (u32 s.ctx.r5) s.ctx.xer }

/-- `RefCompareExchange` (`sub_821CE0A0`): a mismatch stores the old word back
and does not retry. -/
def refCompareExchange : Nat → Machine → Option Machine
  | 0, _ => none
  | fuel + 1, s =>
      let s := loc_821CE0A0 s
      if s.ctx.cr6.eq = 0 then
        let s := stwcx (u32 s.ctx.r3) (u32 s.ctx.r11) s
        let s := mtmsrd s.ctx.r10 s
        some { s with ctx.r3 := s.ctx.r11 }
      else
        let s := stwcx (u32 s.ctx.r3) (u32 s.ctx.r4) s
        let s := mtmsrd s.ctx.r10 s
        if s.ctx.cr0.eq = 0 then refCompareExchange fuel s
        else some { s with ctx.r3 := s.ctx.r11 }

/-- `RefAdd` (`sub_821CE0D8`, `sub_821CE100`). -/
def refAdd (delta : BitVec 32) (fuel : Nat) (s : Machine) : Option Machine :=
  (retry (fun s =>
    let s := { s with ctx.r10 := kCheckGlobalLock }
    let s := mtmsrd s.ctx.r13 s
    let s := lwarx (u32 s.ctx.r3) s
    let s := { s with ctx.r11 := ofU32 (byteSwap32 (u32 s.ctx.reserved)) }
    let s := { s with ctx.r11 := s.ctx.r11 + delta.signExtend 64 }
    let s := stwcx (u32 s.ctx.r3) (u32 s.ctx.r11) s
    mtmsrd s.ctx.r10 s) fuel s).map fun s => { s with ctx.r3 := s.ctx.r11 }

/-- `RefExchangeAdd` (`sub_821CE128`). -/
def refExchangeAdd (fuel : Nat) (s : Machine) : Option Machine :=
  (retry (fun s =>
    let s := { s with ctx.r9 := kCheckGlobalLock }
    let s := mtmsrd s.ctx.r13 s
    let s := lwarx (u32 s.ctx.r3) s
    let s := { s with ctx.r11 := ofU32 (byteSwap32 (u32 s.ctx.reserved)) }
    let s := { s with ctx.r10 := s.ctx.r4 + s.ctx.r11 }
    let s := stwcx (u32 s.ctx.r3) (u32 s.ctx.r10) s
    mtmsrd s.ctx.r9 s) fuel s).map fun s => { s with ctx.r3 := s.ctx.r11 }

/-! ## The hooks

`wanted` is the `mcla_native_d3d_refcount` or `mcla_native_xapi_interlocked`
setting, read once at start. -/

/-- The hook of AddRef.  A body's `bl 0x82422160` comes back to the hook. -/
def sub_82422160 (wanted : Bool) : Nat → Machine → Option Machine
  | 0, _ => none
  | fuel + 1, s =>
      if wanted then
        (addRef (sub_82422160 wanted fuel) (fuel + 1) s).bind fun (handled, s) =>
        if handled then some s else refAddRefBody (sub_82422160 wanted fuel) (fuel + 1) s
      else refAddRefBody (sub_82422160 wanted fuel) (fuel + 1) s

/-- The hook of Release. -/
def sub_824221D8 (wanted : Bool) (destroy : Destroy) : Nat → Machine → Option Machine
  | 0, _ => none
  | fuel + 1, s =>
      if wanted then
        (releaseFast (fuel + 1) s).bind fun (step, self, s) =>
        match step with
        | .done => some s
        | .destroy => releaseDestroy (sub_824221D8 wanted destroy fuel) destroy self s
        | .notHandled => refReleaseBody (sub_824221D8 wanted destroy fuel) destroy (fuel + 1) s
      else refReleaseBody (sub_824221D8 wanted destroy fuel) destroy (fuel + 1) s

/-- The shape of the interlocked hooks: the native helper if it is wanted and
handles the call, else the generated body. -/
def interlockedHook (wanted : Bool) (native : Machine → Option (Bool × Machine))
    (body : Machine → Option Machine) (s : Machine) : Option Machine :=
  if wanted then
    (native s).bind fun (handled, s) => if handled then some s else body s
  else body s

def sub_821CE080 (wanted : Bool) (fuel : Nat) : Machine → Option Machine :=
  interlockedHook wanted (fun s => some (interlockedExchange s)) (refExchange fuel)

def sub_821CE0A0 (wanted : Bool) (fuel : Nat) : Machine → Option Machine :=
  interlockedHook wanted (fun s => some (interlockedCompareExchange s)) (refCompareExchange fuel)

def sub_821CE0D8 (wanted : Bool) (fuel : Nat) : Machine → Option Machine :=
  interlockedHook wanted (interlockedAdd 1 fuel) (refAdd 1 fuel)

def sub_821CE100 (wanted : Bool) (fuel : Nat) : Machine → Option Machine :=
  interlockedHook wanted (interlockedAdd (-1) fuel) (refAdd (-1) fuel)

def sub_821CE128 (wanted : Bool) (fuel : Nat) : Machine → Option Machine :=
  interlockedHook wanted (interlockedExchangeAdd fuel) (refExchangeAdd fuel)

end Mcla.Refcount

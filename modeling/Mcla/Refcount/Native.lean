import Mcla.Refcount.Context

/-! # The native helpers

`mcla_native_refcount.h`: the reference count and interlocked helpers as the
host runs them.  A `bool` result says whether the helper handled the call; it
does not when the word is misaligned, and then nothing has changed.  `fuel`
bounds the retries of the compare-exchange loop.
-/
namespace Mcla.Refcount
open ByteMemory ByteMemory.Memory

def kMsrInterruptsEnabled : BitVec 64 := 0x8000
def kMsrMask : BitVec 32 := 0x8020

def kAddRefParentReturn : BitVec 64 := 0x824221BC
def kReleaseParentReturn : BitVec 64 := 0x82422238
def kReleaseDestroyReturn : BitVec 64 := 0x82422240

/-- One compare-exchange of the raw word at `ea`: whether it stored, the raw
word it saw, and the memory. -/
def compareExchange (m : Memory) (ea expected desired : BitVec 32) : Bool × BitVec 32 × Memory :=
  if m.word ea = expected then (true, expected, m.setWord ea desired)
  else (false, m.word ea, m)

/-- The loop of `UpdateBe32`: retry with the raw word last seen. -/
def updateBe32Loop (update : BitVec 32 → BitVec 32) (m : Memory) (ea : BitVec 32) :
    Nat → BitVec 32 → Option (BitVec 32 × Memory)
  | 0, _ => none
  | fuel + 1, raw =>
      match compareExchange m ea raw (byteSwap32 (update (byteSwap32 raw))) with
      | (true, raw', m') => some (raw', m')
      | (false, raw', m') => updateBe32Loop update m' ea fuel raw'

/-- `UpdateBe32`: the old word in host order, the old raw word, the memory. -/
def updateBe32 (fuel : Nat) (update : BitVec 32 → BitVec 32) (m : Memory) (ea : BitVec 32) :
    Option (BitVec 32 × BitVec 32 × Memory) :=
  (updateBe32Loop update m ea fuel (m.word ea)).map fun (raw, m') => (byteSwap32 raw, raw, m')

def aligned32 (ea : BitVec 32) : Bool := ea &&& 3 == 0

/-- `ReservationEffects`: `msr`, the reservation, and a successful `stwcx.` in CR0. -/
def reservationEffects (c : PPCContext) (rawOld : BitVec 32) : PPCContext :=
  { c with
    msr := u32 (kMsrInterruptsEnabled &&& ofU32 kMsrMask ||| ofU32 (c.msr &&& ~~~kMsrMask))
    reserved := setU32 c.reserved rawOld
    cr0 := ⟨0, 0, 1, c.xer.so⟩ }

/-- `PushFrame`: the prologue of the generated bodies. -/
def pushFrame (s : Machine) : Machine :=
  let s := { s with ctx.r12 := s.ctx.lr }
  let s := { s with mem := s.mem.store32 (u32 s.ctx.r1 - 8) (u32 s.ctx.r12) }
  let s := { s with mem := s.mem.store64 (u32 s.ctx.r1 - 16) s.ctx.r31 }
  let ea := u32 s.ctx.r1 - 96
  let s := { s with mem := s.mem.store32 ea (u32 s.ctx.r1) }
  { s with ctx.r1 := setU32 s.ctx.r1 ea }

/-- `PopFrame`: the epilogue of the generated bodies. -/
def popFrame (s : Machine) : Machine :=
  let s := { s with ctx.r1 := s.ctx.r1 + 96 }
  let s := { s with ctx.r12 := ofU32 (s.mem.load32 (u32 s.ctx.r1 - 8)) }
  let s := { s with ctx.lr := s.ctx.r12 }
  { s with ctx.r31 := s.mem.load64 (u32 s.ctx.r1 - 16) }

/-- `LeafReturn`: `lr` and `r12` end as the 32-bit reload of the saved LR. -/
def leafReturn (c : PPCContext) : PPCContext :=
  let c := { c with r12 := ofU32 (u32 c.lr) }
  { c with lr := c.r12 }

/-- What `AddRef` and `ReleaseFast` do with the old word: the store, `r9`, the
reservation, and the new count in `r10`. -/
def countEffects (delta : BitVec 64) (old rawOld : BitVec 32) (mem : Memory) (s : Machine) :
    Machine :=
  let s := { s with mem := mem, ctx.r9 := kMsrInterruptsEnabled }
  let s := { s with ctx := reservationEffects s.ctx rawOld }
  let s := { s with ctx.r10 := ofU32 old }
  { s with ctx.r10 := s.ctx.r10 + delta }

/-- The parent rule on the header of the object in register `p`, as `AddRef` and
`ReleaseDestroy` test it: whether the parent is called, and the registers the
tests leave.  `lwz r11,0(p); clrlwi r10,r11,28; cmplwi cr6,r10,4;
rlwinm. r11,r11,0,1,1`. -/
def headerTest (p : BitVec 64) (s : Machine) : Bool × Machine :=
  let s := { s with ctx.r11 := ofU32 (s.mem.load32 (u32 p + 0)) }
  let s := { s with ctx.r10 := ofU32 (u32 s.ctx.r11 &&& 0xF) }
  let s := { s with ctx.cr6 := .compareU32 (u32 s.ctx.r10) 4 s.ctx.xer }
  if u32 s.ctx.r10 = 4 then
    let s := { s with ctx.r11 := ofU32 (u32 s.ctx.r11 &&& 0x40000000) }
    let s := { s with ctx.cr0 := .compareS32 (u32 s.ctx.r11) 0 s.ctx.xer }
    (u32 s.ctx.r11 ≠ 0, s)
  else (false, s)

/-- The tests of `AddRef` on the new count in `r10`, then on the header. -/
def addRefTest (s : Machine) : Bool × Machine :=
  let s := { s with ctx.cr6 := .compareU32 (u32 s.ctx.r10) 1 s.ctx.xer }
  if u32 s.ctx.r10 = 1 then headerTest s.ctx.r3 s else (false, s)

/-- The guest call of the parent in `AddRef`, inside the original frame. -/
def addRefEnter (count : BitVec 64) (s : Machine) : Machine :=
  let s := pushFrame s
  let s := { s with ctx.r31 := count }
  let s := { s with ctx.r3 := ofU32 (s.mem.load32 (u32 s.ctx.r3 + 24)) }
  { s with ctx.lr := kAddRefParentReturn }

/-- The return of `AddRef` from that frame. -/
def addRefLeave (s : Machine) : Machine :=
  let s := { s with ctx.r3 := s.ctx.r31 }
  popFrame s

/-- The return of `AddRef` without a frame. -/
def addRefLeaf (count : BitVec 64) (s : Machine) : Machine :=
  let s := { s with ctx.r3 := count }
  { s with ctx := leafReturn s.ctx }

/-- `AddRef` (`sub_82422160`); `addRefParent` is the guest call for the parent. -/
def addRef (addRefParent : Machine → Option Machine) (fuel : Nat) (s : Machine) :
    Option (Bool × Machine) :=
  let counter := u32 s.ctx.r3 + 4
  if !aligned32 counter then some (false, s)
  else
    let s := { s with ctx.r11 := s.ctx.r3 + 4 }
    (updateBe32 fuel (fun v => v + 1) s.mem counter).bind fun (old, rawOld, mem) =>
    let s := countEffects 1 old rawOld mem s
    let count := s.ctx.r10
    let tested := addRefTest s
    if tested.1 then
      (addRefParent (addRefEnter count tested.2)).map fun s => (true, addRefLeave s)
    else some (true, addRefLeaf count tested.2)

/-- How `releaseFast` left the call. -/
inductive ReleaseStep where
  | notHandled | done | destroy
deriving DecidableEq

/-- `mr r3,r10; cmplwi cr6,r3,0`. -/
def compareCount (s : Machine) : Machine :=
  let s := { s with ctx.r3 := s.ctx.r10 }
  { s with ctx.cr6 := .compareU32 (u32 s.ctx.r3) 0 s.ctx.xer }

/-- The end of `ReleaseFast`, on the new count in `r10`. -/
def releaseTest (s : Machine) : ReleaseStep × Machine :=
  let s := compareCount s
  if u32 s.ctx.r3 ≠ 0 then (.done, { s with ctx := leafReturn s.ctx })
  else (.destroy, s)

/-- `ReleaseFast` (`sub_824221D8` without the zero path): the step, the entry
`r3` that the zero path needs, and the machine. -/
def releaseFast (fuel : Nat) (s : Machine) : Option (ReleaseStep × BitVec 64 × Machine) :=
  let counter := u32 s.ctx.r3 + 4
  if !aligned32 counter then some (.notHandled, 0, s)
  else
    let self := s.ctx.r3
    let s := { s with ctx.r11 := s.ctx.r3 + 4 }
    (updateBe32 fuel (fun v => v - 1) s.mem counter).map fun (old, rawOld, mem) =>
    let tested := releaseTest (countEffects (-1) old rawOld mem s)
    (tested.1, self, tested.2)

/-- The guest call of the parent in `ReleaseDestroy`. -/
def releaseEnter (s : Machine) : Machine :=
  let s := { s with ctx.r3 := ofU32 (s.mem.load32 (u32 s.ctx.r31 + 24)) }
  { s with ctx.lr := kReleaseParentReturn }

/-- The end of `ReleaseDestroy`: destroy the object and return 0. -/
def releaseFinish (destroy : Destroy) (s : Machine) : Machine :=
  let s := { s with ctx.r3 := s.ctx.r31 }
  let s := { s with ctx.lr := kReleaseDestroyReturn }
  let s := callDestroy destroy s
  let s := { s with ctx.r3 := 0 }
  popFrame s

/-- `ReleaseDestroy` inside its frame, with the object in `r31`. -/
def releaseZero (releaseParent : Machine → Option Machine) (destroy : Destroy) (s : Machine) :
    Option Machine :=
  let tested := headerTest s.ctx.r31 s
  if tested.1 then (releaseParent (releaseEnter tested.2)).map (releaseFinish destroy)
  else some (releaseFinish destroy tested.2)

/-- `ReleaseDestroy`: the zero path of `sub_824221D8` inside the original frame. -/
def releaseDestroy (releaseParent : Machine → Option Machine) (destroy : Destroy)
    (self : BitVec 64) (s : Machine) : Option Machine :=
  let s := pushFrame s
  releaseZero releaseParent destroy { s with ctx.r31 := self }

/-! ## The interlocked helpers -/

/-- `InterlockedExchange` (`sub_821CE080`). -/
def interlockedExchange (s : Machine) : Bool × Machine :=
  let ea := u32 s.ctx.r3
  if !aligned32 ea then (false, s)
  else
    let rawOld := s.mem.word ea
    let s := { s with mem := s.mem.setWord ea (byteSwap32 (u32 s.ctx.r4)) }
    let s := { s with ctx.r10 := kMsrInterruptsEnabled }
    let s := { s with ctx := reservationEffects s.ctx rawOld }
    let s := { s with ctx.r11 := ofU32 (byteSwap32 rawOld) }
    (true, { s with ctx.r3 := s.ctx.r11 })

/-- `InterlockedCompareExchange` (`sub_821CE0A0`). -/
def interlockedCompareExchange (s : Machine) : Bool × Machine :=
  let ea := u32 s.ctx.r3
  if !aligned32 ea then (false, s)
  else
    let (_, raw, mem) :=
      compareExchange s.mem ea (byteSwap32 (u32 s.ctx.r5)) (byteSwap32 (u32 s.ctx.r4))
    let s := { s with mem := mem, ctx.r10 := kMsrInterruptsEnabled }
    let s := { s with ctx := reservationEffects s.ctx raw }
    let s := { s with ctx.r11 := ofU32 (byteSwap32 raw) }
    let s := { s with ctx.cr6 := .compareS32 (u32 s.ctx.r11) (u32 s.ctx.r5) s.ctx.xer }
    (true, { s with ctx.r3 := s.ctx.r11 })

/-- `InterlockedAdd` (`sub_821CE0D8` with `delta = 1`, `sub_821CE100` with `-1`). -/
def interlockedAdd (delta : BitVec 32) (fuel : Nat) (s : Machine) : Option (Bool × Machine) :=
  let ea := u32 s.ctx.r3
  if !aligned32 ea then some (false, s)
  else
    (updateBe32 fuel (fun v => v + delta) s.mem ea).bind fun (old, rawOld, mem) =>
    let s := { s with mem := mem, ctx.r10 := kMsrInterruptsEnabled }
    let s := { s with ctx := reservationEffects s.ctx rawOld }
    let s := { s with ctx.r11 := ofU32 old }
    let s := { s with ctx.r11 := s.ctx.r11 + delta.signExtend 64 }
    some (true, { s with ctx.r3 := s.ctx.r11 })

/-- `InterlockedExchangeAdd` (`sub_821CE128`). -/
def interlockedExchangeAdd (fuel : Nat) (s : Machine) : Option (Bool × Machine) :=
  let ea := u32 s.ctx.r3
  if !aligned32 ea then some (false, s)
  else
    let addend := u32 s.ctx.r4
    (updateBe32 fuel (fun v => v + addend) s.mem ea).bind fun (old, rawOld, mem) =>
    let s := { s with mem := mem, ctx.r9 := kMsrInterruptsEnabled }
    let s := { s with ctx := reservationEffects s.ctx rawOld }
    let s := { s with ctx.r11 := ofU32 old }
    let s := { s with ctx.r10 := s.ctx.r4 + s.ctx.r11 }
    some (true, { s with ctx.r3 := s.ctx.r11 })

end Mcla.Refcount

import Mcla.Library.ByteMemory

/-! # The guest context and machine

The registers the helpers read or write, with the views of a register as an
unsigned 32-bit word, and the machine they run on: a context, the guest memory
and the log of the destroy calls made so far.  `mr`, `addi` and the like act on
whole 64-bit registers; addresses and compares use the low word.
-/
namespace Mcla.Refcount
open ByteMemory BitVec

/-- `Register.u32`: the low word of a register. -/
def u32 (r : BitVec 64) : BitVec 32 := r.setWidth 32

/-- Assigning `Register.u32`: the high word stays. -/
def setU32 (r : BitVec 64) (v : BitVec 32) : BitVec 64 := r.extractLsb' 32 32 ++ v

/-- Assigning a 32-bit value to `Register.u64`: it is zero extended. -/
def ofU32 (v : BitVec 32) : BitVec 64 := v.setWidth 64

/-- A condition bit as the `uint8_t` it is stored in. -/
def flag (b : Bool) : BitVec 8 := if b then 1 else 0

/-- The fixed-point exception register. -/
structure XER where
  (so ov ca : BitVec 8)

/-- A condition register field. -/
structure CR where
  (lt gt eq so : BitVec 8)

/-- `compare<uint32_t>`. -/
def CR.compareU32 (left right : BitVec 32) (xer : XER) : CR :=
  ⟨flag (left.ult right), flag (right.ult left), flag (left == right), xer.so⟩

/-- `compare<int32_t>`. -/
def CR.compareS32 (left right : BitVec 32) (xer : XER) : CR :=
  ⟨flag (left.slt right), flag (right.slt left), flag (left == right), xer.so⟩

/-- The registers of a guest thread that the helpers, the generated bodies or
the destroy stand-in name. -/
structure PPCContext where
  (r1 r3 r4 r5 r9 r10 r11 r12 r13 r31 lr ctr : BitVec 64)
  xer : XER
  reserved : BitVec 64
  msr : BitVec 32
  cr0 : CR
  cr6 : CR

/-- One call of the guest destroy: the object in `r3` and the return address. -/
structure DestroyCall where
  object : BitVec 32
  lr : BitVec 64

/-- A thread's context, the guest memory, and the destroy calls so far. -/
structure Machine where
  ctx : PPCContext
  mem : Memory
  destroyed : List DestroyCall

/-- The guest destroy `sub_82421AA8`, which is guest code: what it does to the
context and the memory. -/
abbrev Destroy := PPCContext → Memory → PPCContext × Memory

/-- `bl 0x82421aa8`. -/
def callDestroy (destroy : Destroy) (s : Machine) : Machine where
  ctx := (destroy s.ctx s.mem).1
  mem := (destroy s.ctx s.mem).2
  destroyed := s.destroyed ++ [⟨u32 s.ctx.r3, s.ctx.lr⟩]

/-! ## The register views -/

@[simp] theorem u32_ofU32 (v : BitVec 32) : u32 (ofU32 v) = v := by
  simp [u32, ofU32]

@[simp] theorem u32_setU32 (r : BitVec 64) (v : BitVec 32) : u32 (setU32 r v) = v := by
  ext i hi
  simp only [u32, setU32, getElem_setWidth, getLsbD_append]
  grind

@[simp] theorem u32_add (r k : BitVec 64) : u32 (r + k) = u32 r + u32 k :=
  setWidth_add r k (by decide)

/-- A frame that does not reach below address zero is popped back exactly. -/
theorem setU32_sub_add (r : BitVec 64) {d : BitVec 32} (h : d ≤ u32 r) :
    setU32 r (u32 r - d) + ofU32 d = r := by
  have hlow : (u32 r - d).toNat + d.toNat = (u32 r).toNat := by
    rw [le_def] at h
    rw [toNat_sub_of_le h]
    omega
  have hlt : (u32 r).toNat < 2 ^ 32 := (u32 r).isLt
  have hhi : (r.extractLsb' 32 32).toNat < 2 ^ 32 := (r.extractLsb' 32 32).isLt
  have hr : r.toNat = (r.extractLsb' 32 32).toNat <<< 32 + (u32 r).toNat := by
    rw [Nat.shiftLeft_add_eq_or_of_lt hlt, ← toNat_append, u32, high_append_low]
  apply eq_of_toNat_eq
  rw [hr, setU32, ofU32, toNat_add, toNat_append,
    ← Nat.shiftLeft_add_eq_or_of_lt (u32 r - d).isLt, toNat_setWidth, Nat.shiftLeft_eq]
  omega

end Mcla.Refcount

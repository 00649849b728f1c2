import Mcla.Refcount.Bodies

/-! # The interlocked helpers

Each interlocked helper is straight-line code around one reservation, with no
frame and no call.  Its generated body leaves `interlockedResult`, and so does
the native helper on an aligned word, so the hook equals the body on every
machine.
-/
namespace Mcla.Refcount
open ByteMemory ByteMemory.Memory

section Interlocked
variable {s : Machine}

theorem u32_signExtend (d : BitVec 32) : u32 (d.signExtend 64) = d := by
  ext i hi
  simp only [u32, BitVec.getElem_setWidth, BitVec.getLsbD_signExtend]
  grind

/-- A native helper that handles every aligned word as the body does makes the
hook equal to the body. -/
theorem interlockedHook_eq (wanted : Bool) {native : Machine → Option (Bool × Machine)}
    {body : Machine → Option Machine} {t : Machine}
    (hmis : aligned32 (u32 s.ctx.r3) = false → native s = some (false, s))
    (hal : aligned32 (u32 s.ctx.r3) = true → native s = some (true, t))
    (hbody : body s = some t) : interlockedHook wanted native body s = some t := by
  cases wanted with
  | false => exact hbody
  | true =>
    cases h : aligned32 (u32 s.ctx.r3) with
    | false =>
      rw [interlockedHook, if_pos rfl, hmis h, Option.bind_some]
      exact hbody
    | true =>
      rw [interlockedHook, if_pos rfl, hal h, Option.bind_some]
      rfl

/-- What an interlocked helper leaves: `old` is returned in `r3`, `m` is the
memory, and the reservation is left as by a successful `stwcx.`. -/
def interlockedResult (r10 r11 : BitVec 64) (mem : Memory) (s : Machine) : Machine where
  ctx := { s.ctx with
    r10 := r10
    msr := 0x8000 ||| s.ctx.msr &&& ~~~0x8020
    reserved := setU32 s.ctx.reserved (s.mem.word (u32 s.ctx.r3))
    cr0 := ⟨0, 0, 1, s.ctx.xer.so⟩
    r11 := r11
    r3 := r11 }
  mem := mem
  destroyed := s.destroyed

theorem refExchange_eq (n : Nat) :
    refExchange (n + 1) s = some (interlockedResult 0x8000 (ofU32 (s.mem.load32 (u32 s.ctx.r3)))
      (s.mem.store32 (u32 s.ctx.r3) (u32 s.ctx.r4)) s) := by
  simp only [refExchange, retry, lwarx, stwcx, mtmsrd, compareExchange, u32_setU32, if_true, flag,
    msr_mtmsrd_mtmsrd, setWord_eq_store32]
  rfl

theorem sub_821CE080_eq (wanted : Bool) (n : Nat) :
    sub_821CE080 wanted (n + 1) s = refExchange (n + 1) s := by
  rw [refExchange_eq]
  refine interlockedHook_eq wanted (fun h => ?_) (fun h => ?_) (refExchange_eq n)
  · simp only [interlockedExchange, h, Bool.not_false, if_true]
  · simp only [interlockedExchange, h, Bool.not_true, Bool.false_eq_true, if_false,
      reservationEffects, msr_reservationEffects, setWord_eq_store32]
    rfl

theorem refAdd_eq (delta : BitVec 32) (n : Nat) :
    refAdd delta (n + 1) s = some (interlockedResult 0x8000
      (ofU32 (s.mem.load32 (u32 s.ctx.r3)) + delta.signExtend 64)
      (s.mem.store32 (u32 s.ctx.r3) (s.mem.load32 (u32 s.ctx.r3) + delta)) s) := by
  simp only [refAdd, retry, lwarx, stwcx, mtmsrd, compareExchange, u32_setU32, if_true, flag,
    msr_mtmsrd_mtmsrd, setWord_eq_store32, u32_add, u32_ofU32, u32_signExtend]
  rfl

theorem interlockedAdd_eq (delta : BitVec 32) (wanted : Bool) (n : Nat) :
    interlockedHook wanted (interlockedAdd delta (n + 1)) (refAdd delta (n + 1)) s =
      refAdd delta (n + 1) s := by
  rw [refAdd_eq]
  refine interlockedHook_eq wanted (fun h => ?_) (fun h => ?_) (refAdd_eq delta n)
  · simp only [interlockedAdd, h, Bool.not_false, if_true]
  · simp only [interlockedAdd, h, Bool.not_true, Bool.false_eq_true, if_false, updateBe32_succ,
      Option.bind_some, reservationEffects, msr_reservationEffects]
    rfl

theorem refExchangeAdd_eq (n : Nat) :
    refExchangeAdd (n + 1) s = some { interlockedResult
      (s.ctx.r4 + ofU32 (s.mem.load32 (u32 s.ctx.r3))) (ofU32 (s.mem.load32 (u32 s.ctx.r3)))
      (s.mem.store32 (u32 s.ctx.r3) (s.mem.load32 (u32 s.ctx.r3) + u32 s.ctx.r4)) s with
      ctx.r9 := 0x8000 } := by
  have hcomm : u32 s.ctx.r4 + s.mem.load32 (u32 s.ctx.r3) =
      s.mem.load32 (u32 s.ctx.r3) + u32 s.ctx.r4 := BitVec.add_comm _ _
  rw [← hcomm]
  simp only [refExchangeAdd, retry, lwarx, stwcx, mtmsrd, compareExchange, u32_setU32, if_true,
    flag, msr_mtmsrd_mtmsrd, setWord_eq_store32, u32_add, u32_ofU32]
  rfl

theorem sub_821CE128_eq (wanted : Bool) (n : Nat) :
    sub_821CE128 wanted (n + 1) s = refExchangeAdd (n + 1) s := by
  rw [refExchangeAdd_eq]
  refine interlockedHook_eq wanted (fun h => ?_) (fun h => ?_) (refExchangeAdd_eq n)
  · simp only [interlockedExchangeAdd, h, Bool.not_false, if_true]
  · simp only [interlockedExchangeAdd, h, Bool.not_true, Bool.false_eq_true, if_false,
      updateBe32_succ, Option.bind_some, reservationEffects, msr_reservationEffects]
    rfl

/-- The memory after a compare-exchange. -/
def exchanged (s : Machine) : Memory :=
  if s.mem.load32 (u32 s.ctx.r3) = u32 s.ctx.r5 then
    s.mem.store32 (u32 s.ctx.r3) (u32 s.ctx.r4)
  else s.mem

/-- The `stwcx.` of a word that still holds the reserved one. -/
theorem stwcx_reserved {ea value : BitVec 32} (h : s.mem.word ea = u32 s.ctx.reserved) :
    stwcx ea value s =
      { s with mem := s.mem.store32 ea value, ctx.cr0 := ⟨0, 0, 1, s.ctx.xer.so⟩ } := by
  simp only [stwcx, compareExchange, h, if_true, flag, setWord_eq_store32]

/-- On a mismatch the body stores the old word back, which changes nothing. -/
theorem refCompareExchange_eq (n : Nat) :
    refCompareExchange (n + 1) s = some { interlockedResult 0x8000
      (ofU32 (s.mem.load32 (u32 s.ctx.r3))) (exchanged s) s with
      ctx.cr6 := .compareS32 (s.mem.load32 (u32 s.ctx.r3)) (u32 s.ctx.r5) s.ctx.xer } := by
  have hone : ¬ (1 : BitVec 8) = 0 := by decide
  have hmem : (loc_821CE0A0 s).mem = s.mem := rfl
  have hr3 : (loc_821CE0A0 s).ctx.r3 = s.ctx.r3 := rfl
  have hres : (loc_821CE0A0 s).mem.word (u32 (loc_821CE0A0 s).ctx.r3) =
      u32 (loc_821CE0A0 s).ctx.reserved := (u32_setU32 _ _).symm
  have hr11 : u32 (loc_821CE0A0 s).ctx.r11 = s.mem.load32 (u32 s.ctx.r3) := by
    simp only [loc_821CE0A0, lwarx, mtmsrd, u32_setU32, u32_ofU32]
    rfl
  have hcr6 : (loc_821CE0A0 s).ctx.cr6.eq = 0 ↔ s.mem.load32 (u32 s.ctx.r3) ≠ u32 s.ctx.r5 := by
    rw [← hr11]
    exact compareS32_eq_zero _ _ _
  by_cases heq : s.mem.load32 (u32 s.ctx.r3) = u32 s.ctx.r5
  · have hex : exchanged s = s.mem.store32 (u32 s.ctx.r3) (u32 s.ctx.r4) := if_pos heq
    rw [refCompareExchange, if_neg (fun h => hcr6.mp h heq), stwcx_reserved hres, hex]
    refine (if_neg hone).trans ?_
    simp only [loc_821CE0A0, lwarx, mtmsrd, msr_mtmsrd_mtmsrd, u32_setU32, u32_ofU32,
      interlockedResult]
    rfl
  · have hex : exchanged s = s.mem := if_neg heq
    rw [refCompareExchange, if_pos (hcr6.mpr heq), stwcx_reserved hres, hex, hr11, hmem, hr3,
      store32_load32]
    simp only [loc_821CE0A0, lwarx, mtmsrd, msr_mtmsrd_mtmsrd, u32_setU32, u32_ofU32,
      interlockedResult]
    rfl

theorem sub_821CE0A0_eq (wanted : Bool) (n : Nat) :
    sub_821CE0A0 wanted (n + 1) s = refCompareExchange (n + 1) s := by
  rw [refCompareExchange_eq]
  refine interlockedHook_eq wanted (fun h => ?_) (fun h => ?_) (refCompareExchange_eq n)
  · simp only [interlockedCompareExchange, h, Bool.not_false, if_true]
  · have hword : s.mem.word (u32 s.ctx.r3) = byteSwap32 (u32 s.ctx.r5) ↔
        s.mem.load32 (u32 s.ctx.r3) = u32 s.ctx.r5 := by
      rw [word_eq_load32, byteSwap32_inj]
    simp only [interlockedCompareExchange, h, Bool.not_true, Bool.false_eq_true, if_false,
      compareExchange, hword]
    by_cases heq : s.mem.load32 (u32 s.ctx.r3) = u32 s.ctx.r5
    · have hold : byteSwap32 (s.mem.word (u32 s.ctx.r3)) = u32 s.ctx.r5 := heq
      simp only [exchanged, heq, if_true, reservationEffects, msr_reservationEffects,
        setWord_eq_store32, u32_ofU32, interlockedResult, ← hword.mpr heq, hold]
      rfl
    · simp only [exchanged, heq, if_false, reservationEffects, msr_reservationEffects, u32_ofU32]
      rfl

end Interlocked
end Mcla.Refcount

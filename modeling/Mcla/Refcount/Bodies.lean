import Mcla.Refcount.Generated
import Mcla.Refcount.Walk

/-! # One level of AddRef and Release

Both implementations of a helper do the same three things at each level: count,
test the header, then either return or call the parent.  This module brings
each body into that form.  The generated bodies do it inside a frame that the
native fast path never writes, so the form has to move a frame across the count
and the tests: `countWord_inFrame` and `headerTest_inFrame`.
-/
namespace Mcla.Refcount
open ByteMemory ByteMemory.Memory BitVec

/-! ## The counting region -/

/-- The machine after the counting region, with `r11` set to the counter. -/
def countWord (delta : BitVec 64) (s : Machine) : Machine where
  ctx := { s.ctx with
    r11 := s.ctx.r3 + 4
    r9 := kCheckGlobalLock
    msr := 0x8000 ||| s.ctx.msr &&& ~~~0x8020
    reserved := setU32 s.ctx.reserved (s.mem.word (u32 s.ctx.r3 + 4))
    cr0 := ⟨0, 0, 1, s.ctx.xer.so⟩
    r10 := ofU32 (s.mem.load32 (u32 s.ctx.r3 + 4)) + delta }
  mem := s.mem.store32 (u32 s.ctx.r3 + 4) (s.mem.load32 (u32 s.ctx.r3 + 4) + u32 delta)
  destroyed := s.destroyed

theorem countWord_mem {w : Walk} {delta : BitVec 64} (h : u32 delta = w.delta) (s : Machine) :
    (countWord delta s).mem = counted w s.mem (u32 s.ctx.r3) := by
  rw [counted, newCount, ← h]
  rfl

theorem countWord_r10 {w : Walk} {delta : BitVec 64} (h : u32 delta = w.delta) (s : Machine) :
    u32 (countWord delta s).ctx.r10 = newCount w s.mem (u32 s.ctx.r3) := by
  rw [newCount, ← h, countWord, u32_add, u32_ofU32]

theorem updateBe32_succ (n : Nat) (update : BitVec 32 → BitVec 32) (m : Memory) (ea : BitVec 32) :
    updateBe32 (n + 1) update m ea =
      some (m.load32 ea, m.word ea, m.store32 ea (update (m.load32 ea))) := by
  simp [updateBe32, updateBe32Loop, compareExchange, load32, store32]

theorem u32_or (x y : BitVec 64) : u32 (x ||| y) = u32 x ||| u32 y := setWidth_or

theorem msr_reservationEffects (msr : BitVec 32) :
    u32 (kMsrInterruptsEnabled &&& ofU32 kMsrMask ||| ofU32 (msr &&& ~~~kMsrMask)) =
      0x8000 ||| msr &&& ~~~0x8020 := by
  have h : kMsrInterruptsEnabled &&& ofU32 kMsrMask = ofU32 0x8000 := by decide
  rw [h, u32_or, u32_ofU32, u32_ofU32, kMsrMask]

/-- The second `mtmsrd` undoes the first, whatever `r13` holds. -/
theorem msr_mtmsrd_mtmsrd (r13 : BitVec 64) (msr : BitVec 32) :
    u32 kCheckGlobalLock &&& 0x8020 |||
        (u32 r13 &&& 0x8020 ||| msr &&& ~~~0x8020) &&& ~~~0x8020 =
      0x8000 ||| msr &&& ~~~0x8020 := by
  have h : u32 kCheckGlobalLock &&& 0x8020 = 0x8000 := by decide
  rw [h]
  ext i hi
  simp only [getElem_or, getElem_and, getElem_not]
  grind

theorem countRegion_eq (delta : BitVec 64) (s : Machine) (h : s.ctx.r11 = s.ctx.r3 + 4) :
    countRegion delta s = countWord delta s := by
  have h4 : u32 4 = 4 := by decide
  simp only [countRegion, countWord, lwarx, stwcx, mtmsrd, compareExchange, h, u32_add, h4,
    u32_setU32, u32_ofU32, if_true, flag, setWord_eq_store32, msr_mtmsrd_mtmsrd]
  rfl

/-- On one thread the reservation always holds, so the region runs once. -/
theorem retry_countRegion (delta : BitVec 64) (n : Nat) (s : Machine) :
    retry (countRegion delta) (n + 1) { s with ctx.r11 := s.ctx.r3 + 4 } =
      some (countWord delta s) := by
  rw [retry, countRegion_eq _ _ rfl]
  rfl

/-! ## The header test -/

theorem rlwinmFlag_eq (r : BitVec 64) : rlwinmFlag r = ofU32 (u32 r &&& 0x40000000) := by
  have hk : (0x40000000 : BitVec 64) = ofU32 0x40000000 := by decide
  have hrot (x : BitVec 64) : x.rotateLeft 0 = x := by
    simp [BitVec.rotateLeft, BitVec.rotateLeftAux, ushiftRight_eq_zero]
  rw [rlwinmFlag, hrot, hk]
  generalize (0x40000000 : BitVec 32) = k
  ext i hi
  simp only [ofU32, u32, getElem_and, getElem_or, getElem_setWidth,
    getElem_shiftLeft, getLsbD_setWidth, getLsbD_and]
  grind

theorem flag_beq_eq_zero (x y : BitVec 32) : flag (x == y) = 0 ↔ x ≠ y := by
  by_cases h : x = y
  · subst y
    simp only [flag, beq_self_eq_true, if_true, ne_eq, not_true_eq_false, iff_false]
    decide
  · simp only [flag, beq_eq_false_iff_ne.mpr h, Bool.false_eq_true, if_false, true_iff]
    exact h

theorem compareU32_eq_zero (x y : BitVec 32) (xer : XER) :
    (CR.compareU32 x y xer).eq = 0 ↔ x ≠ y := flag_beq_eq_zero x y

theorem compareS32_eq_zero (x y : BitVec 32) (xer : XER) :
    (CR.compareS32 x y xer).eq = 0 ↔ x ≠ y := flag_beq_eq_zero x y

theorem headerTest_fst (p : BitVec 64) (s : Machine) :
    (headerTest p s).1 = decide (ParentRule (s.mem.load32 (u32 p))) := by
  simp only [headerTest, u32_ofU32, add_zero, ParentRule]
  split <;> simp_all

/-- The header test writes `r10`, `r11` and the condition registers only. -/
theorem headerTest_snd (p : BitVec 64) (s : Machine) : ∃ r10 r11 cr0 cr6,
    (headerTest p s).2 =
      { s with ctx := { s.ctx with r10 := r10, r11 := r11, cr0 := cr0, cr6 := cr6 } } := by
  simp only [headerTest]
  split <;> exact ⟨_, _, _, _, rfl⟩

theorem refHeaderTest_eq (p : BitVec 64) (s : Machine) : refHeaderTest p s = headerTest p s := by
  simp only [refHeaderTest, headerTest, u32_ofU32, compareU32_eq_zero, compareS32_eq_zero,
    rlwinmFlag_eq, ne_eq]
  split_ifs <;> rfl

theorem countEffects_eq (delta : BitVec 64) (s : Machine) :
    countEffects delta (s.mem.load32 (u32 s.ctx.r3 + 4)) (s.mem.word (u32 s.ctx.r3 + 4))
        (s.mem.store32 (u32 s.ctx.r3 + 4) (s.mem.load32 (u32 s.ctx.r3 + 4) + u32 delta))
        { s with ctx.r11 := s.ctx.r3 + 4 } =
      countWord delta s := by
  simp only [countEffects, countWord, reservationEffects, msr_reservationEffects]
  rfl

/-! ## AddRef -/

theorem addRef_eq {f : Machine → Option Machine} {n : Nat} {s : Machine}
    (h : aligned32 (u32 s.ctx.r3 + 4) = true) :
    addRef f (n + 1) s =
      if (addRefTest (countWord 1 s)).1 then
        (f (addRefEnter (countWord 1 s).ctx.r10 (addRefTest (countWord 1 s)).2)).map
          fun t => (true, addRefLeave t)
      else some (true, addRefLeaf (countWord 1 s).ctx.r10 (addRefTest (countWord 1 s)).2) := by
  have hone : (1 : BitVec 32) = u32 1 := by decide
  simp only [addRef, h, updateBe32_succ, Option.bind_some, Bool.not_true, Bool.false_eq_true,
    if_false, hone, countEffects_eq]

theorem addRefTest_fst (s : Machine) :
    (addRefTest s).1 = decide (u32 s.ctx.r10 = 1 ∧ ParentRule (s.mem.load32 (u32 s.ctx.r3))) := by
  simp only [addRefTest]
  split_ifs with h
  · simp only [headerTest_fst, h, true_and]
  · simp only [h, false_and, decide_false]

theorem addRefTest_snd (s : Machine) : ∃ r10 r11 cr0 cr6,
    (addRefTest s).2 =
      { s with ctx := { s.ctx with r10 := r10, r11 := r11, cr0 := cr0, cr6 := cr6 } } := by
  simp only [addRefTest]
  split_ifs with h
  · obtain ⟨r10, r11, cr0, cr6, hsnd⟩ := headerTest_snd s.ctx.r3
      { s with ctx.cr6 := .compareU32 (u32 s.ctx.r10) 1 s.ctx.xer }
    exact ⟨r10, r11, cr0, cr6, hsnd⟩
  · exact ⟨_, _, _, _, rfl⟩

theorem refAddRefTest_eq (s : Machine) :
    refAddRefTest s = ((addRefTest s).1, { (addRefTest s).2 with ctx.r31 := s.ctx.r10 }) := by
  simp only [refAddRefTest, addRefTest, compareU32_eq_zero, refHeaderTest_eq, headerTest, ne_eq,
    ite_not]
  split_ifs <;> rfl

variable (f : Machine → Option Machine)

theorem refAddRefBody_eq (n : Nat) (s : Machine) :
    refAddRefBody f (n + 1) s = let t := countWord 1 (pushFrame s)
      let u := { (addRefTest t).2 with ctx.r31 := t.ctx.r10 }
      if (addRefTest t).1 then
        (f { u with
          ctx.r3 := ofU32 (u.mem.load32 (u32 u.ctx.r3 + 24))
          ctx.lr := kAddRefParentReturn }).map addRefLeave
      else some (addRefLeave u) := by
  have hprologue : prologue s = pushFrame s := rfl
  have hleave : loc_824221BC = addRefLeave := rfl
  simp only [refAddRefBody, hprologue, retry_countRegion, Option.bind_some, refAddRefTest_eq,
    hleave, kAddRefParentReturn]

/-! ## Release -/

theorem releaseFast_eq {n : Nat} {s : Machine} (h : aligned32 (u32 s.ctx.r3 + 4) = true) :
    releaseFast (n + 1) s =
      some ((releaseTest (countWord (-1) s)).1, s.ctx.r3, (releaseTest (countWord (-1) s)).2) := by
  have hneg : (-1 : BitVec 32) = u32 (-1) := by decide
  have hsub (v : BitVec 32) : v - 1 = v + u32 (-1) := by rw [← hneg, BitVec.sub_eq_add_neg]
  simp only [releaseFast, h, updateBe32_succ, Option.map_some, Bool.not_true, Bool.false_eq_true,
    if_false, hsub, countEffects_eq]

theorem releaseTest_of_ne {s : Machine} (h : u32 s.ctx.r10 ≠ 0) :
    releaseTest s = (.done, { compareCount s with ctx := leafReturn (compareCount s).ctx }) :=
  if_pos h

theorem releaseTest_of_eq {s : Machine} (h : u32 s.ctx.r10 = 0) :
    releaseTest s = (.destroy, compareCount s) :=
  if_neg (not_not.mpr h)

theorem loc_82422238_eq (destroy : Destroy) : loc_82422238 destroy = releaseFinish destroy := by
  funext s
  simp only [loc_82422238, releaseFinish, kReleaseDestroyReturn, epilogue, popFrame]

theorem refReleaseZero_eq (destroy : Destroy) (s : Machine) :
    refReleaseZero f destroy s = releaseZero f destroy s := by
  simp only [refReleaseZero, releaseZero, refHeaderTest_eq, loc_82422238_eq, releaseEnter,
    kReleaseParentReturn]

theorem refReleaseTest_eq (destroy : Destroy) (s : Machine) :
    refReleaseTest f destroy s = if u32 s.ctx.r10 ≠ 0 then some (popFrame (compareCount s))
      else releaseZero f destroy (compareCount s) := by
  have hepilogue : epilogue = popFrame := rfl
  simp only [refReleaseTest, compareCount, hepilogue, refReleaseZero_eq, compareU32_eq_zero]

theorem refReleaseBody_eq (destroy : Destroy) (n : Nat) (s : Machine) :
    refReleaseBody f destroy (n + 1) s =
      refReleaseTest f destroy (countWord (-1) { pushFrame s with ctx.r31 := s.ctx.r3 }) := by
  have hprologue : prologue s = pushFrame s := rfl
  have hr3 : (pushFrame s).ctx.r3 = s.ctx.r3 := rfl
  have hretry := retry_countRegion (-1) n { pushFrame s with ctx.r31 := s.ctx.r3 }
  rw [refReleaseBody, hprologue]
  generalize pushFrame s = u at hr3 hretry ⊢
  simp only [hr3] at hretry ⊢
  rw [hretry, Option.bind_some]

/-! ## Frames -/

variable (sp lr : BitVec 32)

/-- The stores of a frame at `sp`: the saved LR, `r31` and the back chain. -/
def frameStore (r31 : BitVec 64) (m : Memory) : Memory :=
  ((m.store32 (sp - 8) lr).store64 (sp - 16) r31).store32 (sp - 96) sp

theorem pushFrame_eq (s : Machine) :
    pushFrame s =
      { s with
        ctx.r12 := s.ctx.lr
        ctx.r1 := setU32 s.ctx.r1 (u32 s.ctx.r1 - 96)
        mem := frameStore (u32 s.ctx.r1) (u32 s.ctx.lr) s.ctx.r31 s.mem } := rfl

theorem agreeOff_frameStore (r31 : BitVec 64) (m : Memory) :
    AgreeOff (below sp 96) (frameStore sp lr r31 m) m := by
  have h12 : sp - 16 + 4 = sp - 12 := by bv_omega
  have hsub (d : BitVec 32) (hd : 4 ≤ d.toNat) (hn : d.toNat ≤ 96) :
      wordAt (sp - d) ⊆ below sp 96 := wordAt_subset_below sp d hd hn
  refine (agreeOff_store32 (hsub 96 (by decide) (by decide)) _).trans ?_
  refine (agreeOff_store64 (hsub 16 (by decide) (by decide)) ?_ _).trans ?_
  · rw [h12]
    exact hsub 12 (by decide) (by decide)
  · exact agreeOff_store32 (hsub 8 (by decide) (by decide)) _

theorem frameStore_store32 {sp lr : BitVec 32} {r31 : BitVec 64} {m : Memory} {a v : BitVec 32}
    (h : Disjoint (wordAt a) (below sp 96)) :
    frameStore sp lr r31 (m.store32 a v) = (frameStore sp lr r31 m).store32 a v := by
  have h12 : sp - 16 + 4 = sp - 12 := by bv_omega
  have hdis (d : BitVec 32) (hd : 4 ≤ d.toNat) (hn : d.toNat ≤ 96) :
      Disjoint (wordAt a) (wordAt (sp - d)) := h.mono_right (wordAt_subset_below sp d hd hn)
  simp only [frameStore, store64, h12]
  rw [store32_comm (hdis 8 (by decide) (by decide)), store32_comm (hdis 16 (by decide) (by decide)),
    store32_comm (hdis 12 (by decide) (by decide)), store32_comm (hdis 96 (by decide) (by decide))]

theorem load32_frameStore (r31 : BitVec 64) (m : Memory) :
    (frameStore sp lr r31 m).load32 (sp - 8) = lr := by
  have h12 : sp - 16 + 4 = sp - 12 := by bv_omega
  have hdis (d : BitVec 32) (hd : 12 ≤ d.toNat) (hn : d.toNat ≤ 96) :
      Disjoint (wordAt (sp - 8)) (wordAt (sp - d)) := by
    refine Set.disjoint_left.mpr fun x hx hy => ?_
    rw [mem_wordAt] at hx hy
    bv_omega
  rw [frameStore, store64, h12, load32_store32_of_disjoint (hdis 96 (by decide) (by decide)),
    load32_store32_of_disjoint (hdis 12 (by decide) (by decide)),
    load32_store32_of_disjoint (hdis 16 (by decide) (by decide)), load32_store32]

theorem load64_frameStore (r31 : BitVec 64) (m : Memory) :
    (frameStore sp lr r31 m).load64 (sp - 16) = r31 := by
  have hdis (d : BitVec 32) (hd : 12 ≤ d.toNat) (hn : d.toNat ≤ 16) :
      Disjoint (wordAt (sp - d)) (wordAt (sp - 96)) := by
    refine Set.disjoint_left.mpr fun x hx hy => ?_
    rw [mem_wordAt] at hx hy
    bv_omega
  have h12 : sp - 16 + 4 = sp - 12 := by bv_omega
  rw [frameStore, load64, h12, load32_store32_of_disjoint (hdis 16 (by decide) (by decide)),
    load32_store32_of_disjoint (hdis 12 (by decide) (by decide)), ← h12, ← load64, load64_store64]

section Frames
variable {s : Machine} {p : BitVec 64}

variable (r31 : BitVec 64)

/-- Inside a new frame, with `r31` for the body's own use. -/
def inFrame (s : Machine) : Machine := { pushFrame s with ctx.r31 := r31 }

theorem agreeOff_inFrame (s : Machine) :
    AgreeOff (below (u32 s.ctx.r1) 96) (inFrame r31 s).mem s.mem := agreeOff_frameStore _ _ _ _

theorem load32_inFrame {a : Addr} (h : Disjoint (wordAt a) (below (u32 s.ctx.r1) 96)) :
    (inFrame r31 s).mem.load32 a = s.mem.load32 a := (agreeOff_inFrame r31 s).load32 h

/-- Counting commutes with the frame. -/
theorem countWord_inFrame (r31 delta : BitVec 64)
    (h : Disjoint (wordAt (u32 s.ctx.r3 + 4)) (below (u32 s.ctx.r1) 96)) :
    countWord delta (inFrame r31 s) = inFrame r31 (countWord delta s) := by
  have hload := load32_inFrame r31 h
  have hword : (inFrame r31 s).mem.word (u32 s.ctx.r3 + 4) = s.mem.word (u32 s.ctx.r3 + 4) := by
    rw [word_eq_load32, hload, ← word_eq_load32]
  have hr3 : (inFrame r31 s).ctx.r3 = s.ctx.r3 := rfl
  rw [countWord, hr3, hload, hword]
  simp only [inFrame, countWord, pushFrame_eq, frameStore_store32 h]

/-- So does the header test. -/
theorem headerTest_inFrame (h : Disjoint (wordAt (u32 p)) (below (u32 s.ctx.r1) 96)) :
    headerTest p (inFrame r31 s) = ((headerTest p s).1, inFrame r31 (headerTest p s).2) := by
  have hload := load32_inFrame r31 h
  simp only [headerTest, add_zero, hload]
  split <;> rfl

theorem addRefTest_inFrame
    (h : u32 s.ctx.r10 = 1 → Disjoint (wordAt (u32 s.ctx.r3)) (below (u32 s.ctx.r1) 96)) :
    addRefTest (inFrame r31 s) = ((addRefTest s).1, inFrame r31 (addRefTest s).2) := by
  have hr10 : (inFrame r31 s).ctx.r10 = s.ctx.r10 := rfl
  by_cases hone : u32 s.ctx.r10 = 1
  · simp only [addRefTest, hr10, hone, if_true]
    exact headerTest_inFrame r31 (s := { s with ctx.cr6 := .compareU32 1 1 s.ctx.xer }) (h hone)
  · simp only [addRefTest, hr10, hone, if_false]
    rfl

theorem compareCount_inFrame : compareCount (inFrame r31 s) = inFrame r31 (compareCount s) := rfl

/-- Popping the frame is the leaf return. -/
theorem popFrame_inFrame (h : 96 ≤ (u32 s.ctx.r1).toNat) :
    popFrame (inFrame r31 s) = { inFrame r31 s with ctx := leafReturn s.ctx } := by
  have hr1 : setU32 s.ctx.r1 (u32 s.ctx.r1 - 96) + 96 = s.ctx.r1 := by
    have h96 : (96 : BitVec 64) = ofU32 96 := by decide
    rw [h96]
    exact setU32_sub_add _ (le_def.mpr h)
  have hlr := load32_frameStore (u32 s.ctx.r1) (u32 s.ctx.lr) s.ctx.r31 s.mem
  have hr31 := load64_frameStore (u32 s.ctx.r1) (u32 s.ctx.lr) s.ctx.r31 s.mem
  simp only [popFrame, inFrame, pushFrame_eq, hr1, hlr, hr31, leafReturn]

end Frames

end Mcla.Refcount

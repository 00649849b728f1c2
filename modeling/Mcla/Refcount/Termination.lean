import Mcla.Library.MarkedRun
import Mcla.Refcount.Simulation

/-! # The native walks end

The native AddRef and Release, followed from one call to the call of the parent, up to the first
destroy.  Parents are read from memory that the walk changes, nothing says that they are acyclic,
and the words of two objects may overlap.  But a call goes on to a parent only when it makes its
counter `edge`, and no such counter is changed before the walk ends: the counter words are aligned,
so two of them are one word or apart, and the frames lie elsewhere.
-/
namespace Mcla.Refcount
open ByteMemory ByteMemory.Memory MarkedRun BitVec

/-- The machine in which the native code calls the helper for the parent, if it does. -/
def nativeCall : Walk → Machine → Option Machine
  | .addRef, s =>
    let tested := addRefTest (countWord 1 s)
    if tested.1 then some (addRefEnter (countWord 1 s).ctx.r10 tested.2) else none
  | .release, s =>
    let counted := releaseTest (countWord (-1) s)
    if counted.1 = .destroy then
      let tested := headerTest s.ctx.r3 (inFrame s.ctx.r3 counted.2)
      if tested.1 then some (releaseEnter tested.2) else none
    else none

/-- The hook of the walk, with the native helper wanted. -/
def native : Walk → Destroy → Nat → Machine → Option Machine
  | .addRef, _ => sub_82422160 true
  | .release, destroy => sub_824221D8 true destroy

/-- What follows the parent's call. -/
def nativeLeave : Walk → Destroy → Machine → Machine
  | .addRef, _ => addRefLeave
  | .release, destroy => releaseFinish destroy

/-- What follows when no parent is called. -/
def nativeDone : Walk → Destroy → Machine → Machine
  | .addRef, _, s => addRefLeaf (countWord 1 s).ctx.r10 (addRefTest (countWord 1 s)).2
  | .release, destroy, s =>
    let counted := releaseTest (countWord (-1) s)
    if counted.1 = .destroy then
      releaseFinish destroy (headerTest s.ctx.r3 (inFrame s.ctx.r3 counted.2)).2
    else counted.2

/-- The counter of the object that a call is about. -/
def counterOf (s : Machine) : Addr := u32 s.ctx.r3 + 4

/-- The calls of a walk, the first `n` of them. -/
abbrev calls (w : Walk) (n : Nat) (s : Machine) : List Machine := run (nativeCall w) n s

section Calls
variable {w : Walk} {destroy : Destroy} {s e : Machine}

theorem aligned32_iff {a : Addr} : aligned32 a = true ↔ a.toNat % 4 = 0 := by
  have h3 : (3 : BitVec 32).toNat = 2 ^ 2 - 1 := rfl
  rw [aligned32, beq_iff_eq, ← toNat_inj, toNat_and, h3,
    Nat.and_two_pow_sub_one_eq_mod]
  rfl

theorem aligned32_counter (h : aligned32 (u32 s.ctx.r3) = true) :
    aligned32 (counterOf s) = true := by
  have h4 : (4 : BitVec 32).toNat = 4 := rfl
  rw [aligned32_iff] at h ⊢
  rw [counterOf, toNat_add, h4]
  omega

theorem div_four_of_mem_wordAt {a x : Addr} (ha : aligned32 a = true) (hx : x ∈ wordAt a) :
    x.toNat / 4 = a.toNat / 4 := by
  rw [aligned32_iff] at ha
  have hlt := a.isLt
  have h1 : (1 : BitVec 32).toNat = 1 := rfl
  have h2 : (2 : BitVec 32).toNat = 2 := rfl
  have h3 : (3 : BitVec 32).toNat = 3 := rfl
  rcases mem_wordAt.mp hx with rfl | rfl | rfl | rfl
  · rfl
  · rw [toNat_add, h1]
    omega
  · rw [toNat_add, h2]
    omega
  · rw [toNat_add, h3]
    omega

/-- Two aligned words are one word or apart. -/
theorem wordAt_disjoint_of_aligned {a b : Addr} (ha : aligned32 a = true)
    (hb : aligned32 b = true) (h : a ≠ b) : Disjoint (wordAt a) (wordAt b) := by
  refine Set.disjoint_left.mpr fun x hx hy => h (eq_of_toNat_eq ?_)
  have hdiv := (div_four_of_mem_wordAt ha hx).symm.trans (div_four_of_mem_wordAt hb hy)
  rw [aligned32_iff] at ha hb
  omega

theorem releaseTest_ne_notHandled (s : Machine) : (releaseTest s).1 ≠ .notHandled := by
  by_cases hzero : u32 s.ctx.r10 = 0
  · rw [releaseTest_of_eq hzero]
    exact ReleaseStep.noConfusion
  · rw [releaseTest_of_ne hzero]
    exact ReleaseStep.noConfusion

/-- **The native helper recurses as the calls go.** -/
theorem native_succ (n : Nat) (h : aligned32 (u32 s.ctx.r3) = true) :
    native w destroy (n + 1) s = (nativeCall w s).elim (some (nativeDone w destroy s))
      fun e => (native w destroy n e).map (nativeLeave w destroy) := by
  have hcounter := aligned32_counter h
  cases w with
  | addRef =>
    have hlevel : native .addRef destroy (n + 1) s = sub_82422160 true (n + 1) s := rfl
    rw [hlevel, sub_82422160, if_pos rfl, addRef_eq hcounter, nativeCall, nativeDone]
    generalize addRefTest (countWord 1 s) = u
    generalize (countWord 1 s).ctx.r10 = count
    obtain ⟨up, t⟩ := u
    cases up with
    | false => rfl
    | true =>
      rw [if_pos rfl, if_pos rfl]
      change _ = (sub_82422160 true n (addRefEnter count t)).map addRefLeave
      cases sub_82422160 true n (addRefEnter count t) <;> rfl
  | release =>
    have hlevel : native .release destroy (n + 1) s = sub_824221D8 true destroy (n + 1) s := rfl
    rw [hlevel, sub_824221D8, if_pos rfl, releaseFast_eq hcounter, Option.bind_some, nativeCall,
      nativeDone]
    have hnot := releaseTest_ne_notHandled (countWord (-1) s)
    generalize releaseTest (countWord (-1) s) = counted at hnot ⊢
    obtain ⟨step, t⟩ := counted
    cases step with
    | notHandled => exact absurd rfl hnot
    | done => rfl
    | destroy =>
      have hzero (f : Machine → Option Machine) : releaseDestroy f destroy s.ctx.r3 t =
          releaseZero f destroy (inFrame s.ctx.r3 t) := rfl
      dsimp only
      rw [hzero, releaseZero, inFrame_r31, if_pos rfl, if_pos rfl]
      generalize headerTest s.ctx.r3 (inFrame s.ctx.r3 t) = tested
      obtain ⟨up, u⟩ := tested
      cases up with
      | false => rfl
      | true => rfl

theorem compareCount_r1 (s : Machine) : (compareCount s).ctx.r1 = s.ctx.r1 := rfl

theorem compareCount_destroyed (s : Machine) : (compareCount s).destroyed = s.destroyed := rfl

theorem releaseEnter_mem (s : Machine) : (releaseEnter s).mem = s.mem := rfl

theorem releaseEnter_destroyed (s : Machine) : (releaseEnter s).destroyed = s.destroyed := rfl

theorem inFrame_destroyed (r31 : BitVec 64) (s : Machine) :
    (inFrame r31 s).destroyed = s.destroyed := rfl

theorem headerTest_destroyed (p : BitVec 64) (s : Machine) :
    (headerTest p s).2.destroyed = s.destroyed := by
  obtain ⟨_, _, _, _, h⟩ := headerTest_snd p s
  rw [h]

theorem nativeCall_release (hzero : u32 (countWord (-1) s).ctx.r10 = 0)
    (h : nativeCall .release s = some e) : u32 e.ctx.r1 = u32 s.ctx.r1 - 96 ∧
      AgreeOff (below (u32 s.ctx.r1) 96) e.mem (countWord (-1) s).mem ∧
      e.destroyed = s.destroyed := by
  rw [nativeCall, releaseTest_of_eq hzero, if_pos rfl] at h
  obtain ⟨-, he⟩ := Option.ite_none_right_eq_some.mp h
  rw [← Option.some.inj he, releaseEnter_r1, releaseEnter_mem, releaseEnter_destroyed,
    headerTest_r1, headerTest_mem, headerTest_destroyed, inFrame_r1, inFrame_destroyed,
    u32_setU32, compareCount_r1, compareCount_destroyed]
  have hframe := agreeOff_inFrame s.ctx.r3 (compareCount (countWord (-1) s))
  rw [compareCount_r1, compareCount_mem] at hframe
  exact ⟨rfl, hframe, rfl⟩

/-- **One call of the parent**: it is made on the transition, below one more frame, and the counter
and that frame are all that has changed. -/
theorem nativeCall_eq_some (h : nativeCall w s = some e) :
    newCount w s.mem (u32 s.ctx.r3) = w.edge ∧ u32 e.ctx.r1 = u32 s.ctx.r1 - 96 ∧
      AgreeOff (below (u32 s.ctx.r1) 96) e.mem (counted w s.mem (u32 s.ctx.r3)) ∧
      e.destroyed = s.destroyed := by
  cases w with
  | addRef =>
    have hdelta : u32 1 = Walk.addRef.delta := by decide
    rw [← countWord_mem hdelta, ← countWord_r10 hdelta]
    have htest := addRefTest_fst (countWord 1 s)
    have hr1 : (countWord 1 s).ctx.r1 = s.ctx.r1 := rfl
    have hlog : (countWord 1 s).destroyed = s.destroyed := rfl
    rw [nativeCall] at h
    rw [← hr1, ← hlog]
    obtain ⟨r10, r11, cr0, cr6, hsnd⟩ := addRefTest_snd (countWord 1 s)
    generalize countWord 1 s = t at *
    by_cases hup : (addRefTest t).1 = true
    · rw [if_pos hup, Option.some.injEq] at h
      rw [hup] at htest
      subst h
      rw [hsnd]
      exact ⟨(of_decide_eq_true htest.symm).1, u32_setU32 _ _, agreeOff_frameStore _ _ _ _, rfl⟩
    · rw [if_neg hup] at h
      cases h
  | release =>
    by_cases hzero : u32 (countWord (-1) s).ctx.r10 = 0
    · obtain ⟨hr1, hmem, hlog⟩ := nativeCall_release hzero h
      have hdelta : u32 (-1) = Walk.release.delta := by decide
      rw [← countWord_mem hdelta, ← countWord_r10 hdelta]
      exact ⟨hzero, hr1, hmem, hlog⟩
    · rw [nativeCall, releaseTest_of_ne hzero, if_neg ReleaseStep.noConfusion] at h
      cases h

/-! ## The whole walk -/

/-- Each call of a walk finds its frame in the area that holds one for each of them. -/
theorem frame_subset {n room : Nat} (hroom : 96 * (calls w n s).length ≤ room) :
    ∀ e ∈ calls w n s, below (u32 e.ctx.r1) 96 ⊆ below (u32 s.ctx.r1) room := by
  induction n generalizing s room with
  | zero => exact fun e he => absurd he List.not_mem_nil
  | succ n ih =>
    rcases hnext : nativeCall w s with _ | t
    · rw [calls, run_succ_of_none hnext] at hroom ⊢
      exact List.forall_mem_singleton.mpr (below_mono _ hroom)
    · rw [calls, run_succ_of_some hnext, List.length_cons] at hroom
      rw [calls, run_succ_of_some hnext]
      obtain ⟨-, hr1, -, -⟩ := nativeCall_eq_some hnext
      have h96 : (96 : BitVec 32).toNat = 96 := rfl
      refine List.forall_mem_cons.mpr ⟨below_mono _ (by omega), fun e he => ?_⟩
      have hlen : 96 * (calls w n t).length ≤ room - 96 := by
        rw [calls]
        omega
      have hlow := ih hlen e he
      rw [hr1] at hlow
      exact hlow.trans (below_sub_subset _ 96 (by omega))

/-- The destroy log does not change on the way up. -/
theorem destroyed_calls {n : Nat} : ∀ e ∈ calls w n s, e.destroyed = s.destroyed := by
  induction n generalizing s with
  | zero => exact fun e he => absurd he List.not_mem_nil
  | succ n ih =>
    rcases hnext : nativeCall w s with _ | t
    · rw [calls, run_succ_of_none hnext]
      exact List.forall_mem_singleton.mpr rfl
    · rw [calls, run_succ_of_some hnext]
      obtain ⟨-, -, -, hlog⟩ := nativeCall_eq_some hnext
      exact List.forall_mem_cons.mpr ⟨rfl, fun e he => (ih e he).trans hlog⟩

/-- A call whose counter is an aligned word clear of the frames in `area`, its own among them. -/
structure InArea (area : Set Addr) (s : Machine) : Prop where
  aligned : aligned32 (counterOf s) = true
  clear : Disjoint (wordAt (counterOf s)) area
  frame : below (u32 s.ctx.r1) 96 ⊆ area

/-- An aligned word, clear of the frames, that holds the count on which the walk goes on. -/
def AtEdge (w : Walk) (area : Set Addr) (a : Addr) (s : Machine) : Prop :=
  aligned32 a = true ∧ Disjoint (wordAt a) area ∧ s.mem.load32 a = w.edge

theorem old_of_edge {m : Memory} {p : Addr} (h : newCount w m p = w.edge) :
    m.load32 (p + 4) = w.edge - w.delta :=
  eq_sub_of_add_eq h

theorem edge_sub_delta_ne (w : Walk) : w.edge - w.delta ≠ w.edge := by
  cases w <;> decide

theorem marking (w : Walk) (area : Set Addr) :
    Marking (nativeCall w) (InArea area) counterOf (AtEdge w area) where
  fresh {s t} _ hcall hmarked := by
    obtain ⟨hedge, -, -, -⟩ := nativeCall_eq_some hcall
    exact edge_sub_delta_ne w ((old_of_edge hedge).symm.trans hmarked.2.2)
  marks {s t} hs _ hcall := by
    obtain ⟨hedge, -, hmem, -⟩ := nativeCall_eq_some hcall
    refine ⟨hs.aligned, hs.clear, ?_⟩
    rw [hmem.load32 (hs.clear.mono_right hs.frame), ← hedge]
    exact load32_store32 _ _ _
  keeps {s t a} hs _ hcall hmarked := by
    obtain ⟨hedge, -, hmem, -⟩ := nativeCall_eq_some hcall
    obtain ⟨haligned, hclear, hload⟩ := hmarked
    refine ⟨haligned, hclear, ?_⟩
    -- the counter of this call is another word, since it does not yet hold `edge`
    have hne : a ≠ counterOf s := by
      rintro rfl
      exact edge_sub_delta_ne w ((old_of_edge hedge).symm.trans hload)
    rw [hmem.load32 (hclear.mono_right hs.frame), counted, ← hload]
    exact load32_store32_of_disjoint (wordAt_disjoint_of_aligned haligned hs.aligned hne)

/-- **The native walks end.**  A walk among finitely many objects, whose addresses are aligned and
whose words are clear of the frames of its calls, makes at most one call more than there are
objects, whatever the parents are.  All counters but the last go to `edge` and stay there, so they
are distinct words, and the destroys come after. -/
theorem native_ends (w : Walk) (destroy : Destroy) (s : Machine) (objects : Finset Addr)
    (hobjects : ∀ e ∈ calls w (objects.card + 1) s, u32 e.ctx.r3 ∈ objects)
    (haligned : ∀ e ∈ calls w (objects.card + 1) s, aligned32 (u32 e.ctx.r3) = true)
    (hclear : ∀ e ∈ calls w (objects.card + 1) s,
      ∀ a ∈ [u32 e.ctx.r3, u32 e.ctx.r3 + 4, u32 e.ctx.r3 + 24],
        Disjoint (wordAt a)
          (below (u32 s.ctx.r1) (96 * (calls w (objects.card + 1) s).length))) :
    (∀ n > objects.card, calls w n s = calls w (objects.card + 1) s ∧
      (native w destroy n s).isSome = true) ∧
    (∀ e ∈ calls w (objects.card + 1) s, e.destroyed = s.destroyed) ∧
    (∀ e ∈ (calls w (objects.card + 1) s).dropLast, e.mem.load32 (counterOf e) = w.edge - w.delta) ∧
    ((calls w (objects.card + 1) s).Pairwise fun e later =>
      later.mem.load32 (counterOf e) = w.edge) ∧
    ((calls w (objects.card + 1) s).dropLast.map counterOf).Nodup := by
  have hgood : ∀ e ∈ calls w (objects.card + 1) s,
      InArea (below (u32 s.ctx.r1) (96 * (calls w (objects.card + 1) s).length)) e :=
    fun e he => ⟨aligned32_counter (haligned e he), hclear e he _ (by simp [counterOf]),
      frame_subset le_rfl e he⟩
  have hmarking := marking w (below (u32 s.ctx.r1) (96 * (calls w (objects.card + 1) s).length))
  have hkeys : ∀ e ∈ calls w (objects.card + 1) s, counterOf e ∈ objects.image (· + 4) :=
    fun e he => Finset.mem_image_of_mem _ (hobjects e he)
  have hcard : (objects.image (· + 4)).card ≤ objects.card := Finset.card_image_le
  have hend (n : Nat) (hn : n > objects.card) :
      calls w n s = calls w (objects.card + 1) s := by
    obtain ⟨m, rfl⟩ := Nat.exists_eq_add_of_lt hn
    have hrun := hmarking.ends (Finset.empty_subset _)
      (fun k hk => absurd hk (Finset.notMem_empty k)) (fun e he => ⟨hgood e he, hkeys e he⟩)
      (by rw [Finset.card_empty]; omega) m
    rwa [Nat.add_right_comm] at hrun
  refine ⟨fun n hn => ⟨hend n hn, ?_⟩, destroyed_calls, fun e he => ?_, ?_, hmarking.nodup hgood⟩
  · have hpast := (hend (n + 1) (Nat.lt_succ_of_lt hn)).trans (hend n hn).symm
    refine isSome_of_run_eq (fun n s h => native_succ n h) (fun e he => haligned e ?_)
      (Nat.zero_lt_of_lt hn) hpast
    exact hend n hn ▸ he
  · obtain ⟨t, ht⟩ := step_of_mem_dropLast he
    exact old_of_edge (nativeCall_eq_some ht).1
  · exact (hmarking.pairwise hgood).imp fun hmarked => hmarked.2.2

/-- An object with no reference that is its own parent. -/
def ownParent : Memory :=
  ((show Memory from fun _ => 0).store32 0x1000 0x40000004).store32 0x1018 0x1000

theorem native_ends_ownParent :
    (native .addRef fakeDestroy 2 (callOn 0x1000 0x10000 ownParent)).isSome = true := by
  have hself : ∀ e ∈ calls .addRef 2 (callOn 0x1000 0x10000 ownParent), u32 e.ctx.r3 = 0x1000 := by
    decide
  have hlength : (calls .addRef 2 (callOn 0x1000 0x10000 ownParent)).length = 2 := by decide
  refine ((native_ends .addRef fakeDestroy (callOn 0x1000 0x10000 ownParent) {0x1000} ?_ ?_ ?_).1 2
    (by decide)).2
  · exact fun e he => Finset.mem_singleton.mpr (hself e he)
  · exact fun e he => hself e he ▸ rfl
  · intro e he a ha
    rw [hself e he] at ha
    change Disjoint _ (below _ (96 * (calls .addRef 2 (callOn 0x1000 0x10000 ownParent)).length))
    rw [hlength]
    simp only [List.mem_cons, List.not_mem_nil, or_false] at ha
    rcases ha with rfl | rfl | rfl <;> exact wordAt_disjoint_of_le (by decide)

end Calls
end Mcla.Refcount

import Mcla.Refcount.Bodies

/-! # The native helpers refine the generated bodies

From one context and memory, a native helper and the generated body it replaces
end with the same registers, the same destroy calls and the same memory outside
the dead area below the stack pointer.  For AddRef and Release the proof goes
level by level: both implementations enter the parent's call in the same machine,
because the native code builds the original frame exactly there, and a level that
ends without that call differs only by the frame it did not write.
-/
namespace Mcla.Refcount
open ByteMemory ByteMemory.Memory

/-- **Equal outside `R`**: the same registers, the same destroy calls, and the
same memory outside `R`. -/
structure SameOutside (R : Set Addr) (s t : Machine) : Prop where
  ctx : s.ctx = t.ctx
  destroyed : s.destroyed = t.destroyed
  mem : AgreeOff R s.mem t.mem

theorem SameOutside.refl (R : Set Addr) (s : Machine) : SameOutside R s s :=
  ⟨rfl, rfl, AgreeOff.refl R s.mem⟩

theorem SameOutside.mono {R R' : Set Addr} {s t : Machine} (h : SameOutside R s t)
    (hR : R ⊆ R') : SameOutside R' s t :=
  ⟨h.ctx, h.destroyed, h.mem.mono hR⟩

/-- **The calling convention of the guest destroy**: it restores the stack
pointer, and the dead bytes below that pointer influence neither the registers
it leaves nor the memory outside them. -/
structure DestroyAbi (destroy : Destroy) : Prop where
  sp : ∀ c m, (destroy c m).1.r1 = c.r1
  dead : ∀ c m m' n, n ≤ (u32 c.r1).toNat → AgreeOff (below (u32 c.r1) n) m m' →
    (destroy c m).1 = (destroy c m').1 ∧
      AgreeOff (below (u32 c.r1) n) (destroy c m).2 (destroy c m').2

/-- A stand-in for the guest destroy: it stores in its own frame and clobbers
the volatile registers. -/
def fakeDestroy : Destroy := fun c m =>
  ({ c with
    r3 := 0xDEAD000000000333
    r4 := 0xDEAD000000000444
    r5 := 0xDEAD000000000555
    r9 := 0xDEAD000000000999
    r10 := 0xDEAD000000000AAA
    r11 := 0xDEAD000000000BBB
    r12 := 0xDEAD000000000CCC
    cr0 := ⟨1, 0, 0, 0⟩
    cr6 := ⟨0, 1, 0, 0⟩
    ctr := 0xC7C7 }, m.store32 (u32 c.r1 - 32) 0xD5D5D5D5)

theorem fakeDestroy_abi : DestroyAbi fakeDestroy where
  sp _ _ := rfl
  dead _ _ _ _ _ h := ⟨rfl, h.store32 _ _⟩

/-- A machine about to call a helper on the object at `object`, with stack pointer `sp`. -/
def callOn (object sp : BitVec 64) (mem : Memory) : Machine where
  ctx :=
    { r1 := sp, r3 := object, r4 := 0, r5 := 0, r9 := 0, r10 := 0, r11 := 0, r12 := 0, r13 := 0
      r31 := 0, lr := 0x82001000, ctr := 0, xer := ⟨0, 0, 0⟩, reserved := 0, msr := 0
      cr0 := ⟨0, 0, 0, 0⟩, cr6 := ⟨0, 0, 0, 0⟩ }
  mem := mem
  destroyed := []

/-! ## Returning through a frame -/

section Return
variable {s t : Machine} {room : Nat}

variable {sp : BitVec 32}

/-- A frame above the dead area is popped alike. -/
theorem SameOutside.popFrame (h : SameOutside (below (sp - 96) room) s t)
    (hsp : u32 s.ctx.r1 = sp - 96) (hroom : room + 96 ≤ 2 ^ 32) :
    SameOutside (below (sp - 96) room) (popFrame s) (popFrame t) := by
  have htop : u32 (s.ctx.r1 + 96) = sp := by
    have h96 : u32 96 = 96 := by decide
    rw [u32_add, hsp, h96]
    bv_omega
  have hword (d : BitVec 32) (hd : 4 ≤ d.toNat) (hd' : d.toNat ≤ 96) :
      s.mem.load32 (sp - d) = t.mem.load32 (sp - d) :=
    h.mem.load32 (wordAt_disjoint_below sp 96 d hd hd' hroom)
  have h12 : sp - 16 + 4 = sp - 12 := by bv_omega
  have hlr := hword 8 (by decide) (by decide)
  have hr31 : s.mem.load64 (sp - 16) = t.mem.load64 (sp - 16) := by
    rw [load64, load64, h12, hword 16 (by decide) (by decide), hword 12 (by decide) (by decide)]
  refine ⟨?_, h.destroyed, h.mem⟩
  simp only [Refcount.popFrame, ← h.ctx, htop, hlr, hr31]

theorem SameOutside.callDestroy {destroy : Destroy} (habi : DestroyAbi destroy)
    (h : SameOutside (below sp room) s t) (hsp : u32 s.ctx.r1 = sp) (hroom : room ≤ sp.toNat) :
    SameOutside (below sp room) (callDestroy destroy s) (callDestroy destroy t) := by
  subst hsp
  obtain ⟨hctx, hmem⟩ := habi.dead s.ctx s.mem t.mem room hroom h.mem
  refine ⟨?_, ?_, ?_⟩
  · simp only [Refcount.callDestroy, ← h.ctx, hctx]
  · simp only [Refcount.callDestroy, ← h.ctx, h.destroyed]
  · simp only [Refcount.callDestroy, ← h.ctx]
    exact hmem

theorem SameOutside.addRefLeave (h : SameOutside (below (sp - 96) room) s t)
    (hsp : u32 s.ctx.r1 = sp - 96) (hroom : room + 96 ≤ 2 ^ 32) :
    SameOutside (below (sp - 96) room) (addRefLeave s) (addRefLeave t) := by
  have h' : SameOutside (below (sp - 96) room) { s with ctx.r3 := s.ctx.r31 }
      { t with ctx.r3 := t.ctx.r31 } := ⟨by simp only [h.ctx], h.destroyed, h.mem⟩
  exact h'.popFrame hsp hroom

theorem SameOutside.releaseFinish {destroy : Destroy} (habi : DestroyAbi destroy)
    (h : SameOutside (below (sp - 96) room) s t) (hsp : u32 s.ctx.r1 = sp - 96)
    (hroom : room ≤ (sp - 96).toNat) (hroom' : room + 96 ≤ 2 ^ 32) :
    SameOutside (below (sp - 96) room) (releaseFinish destroy s) (releaseFinish destroy t) := by
  have h₁ : SameOutside (below (sp - 96) room)
      { s with ctx.r3 := s.ctx.r31, ctx.lr := kReleaseDestroyReturn }
      { t with ctx.r3 := t.ctx.r31, ctx.lr := kReleaseDestroyReturn } :=
    ⟨by simp only [h.ctx], h.destroyed, h.mem⟩
  have h₂ := h₁.callDestroy habi hsp hroom
  have hr1 := habi.sp { s.ctx with r3 := s.ctx.r31, lr := kReleaseDestroyReturn } s.mem
  have h₃ : SameOutside (below (sp - 96) room)
      { Refcount.callDestroy destroy
          { s with ctx.r3 := s.ctx.r31, ctx.lr := kReleaseDestroyReturn } with ctx.r3 := 0 }
      { Refcount.callDestroy destroy
          { t with ctx.r3 := t.ctx.r31, ctx.lr := kReleaseDestroyReturn } with ctx.r3 := 0 } :=
    ⟨by simp only [h₂.ctx], h₂.destroyed, h₂.mem⟩
  refine h₃.popFrame ?_ hroom'
  rw [← hsp]
  exact congrArg u32 hr1

end Return

/-! ## One level -/

/-- **One level of a walk**, for two implementations whose parent calls are `f`
and `g`: with no parent both end, equal outside the frame at the stack pointer;
with a parent both call it in the same machine and `leave` its result.  `W` are
addresses that a destroy leaves alone as long as they are clear of its `stack`
bytes below the frame. -/
inductive Level (W : Set Addr) (stack : Nat) (w : Walk) (leave : Machine → Machine)
    (f g : Machine → Option Machine) (s : Machine) (x y : Option Machine) : Prop where
  | leaf (a b : Machine)
      (parent : parent? w s.mem (u32 s.ctx.r3) = none)
      (left : x = some a) (right : y = some b)
      (same : 96 ≤ (u32 s.ctx.r1).toNat → SameOutside (below (u32 s.ctx.r1) 96) a b)
      (sp : a.ctx.r1 = s.ctx.r1 ∨ a.ctx.r1 = setU32 s.ctx.r1 (u32 s.ctx.r1 - 96) + 96)
      (mem : Disjoint W (below (u32 s.ctx.r1 - 96) stack) →
        AgreeOff (Wᶜ ∪ below (u32 s.ctx.r1) 96) a.mem (counted w s.mem (u32 s.ctx.r3)))
  | call (e : Machine)
      (parent : parent? w s.mem (u32 s.ctx.r3) = some (u32 e.ctx.r3))
      (left : x = (f e).map leave) (right : y = (g e).map leave)
      (sp : e.ctx.r1 = setU32 s.ctx.r1 (u32 s.ctx.r1 - 96))
      (mem : AgreeOff (below (u32 s.ctx.r1) 96) (counted w s.mem (u32 s.ctx.r3)) e.mem)

/-- What the return from a parent's call keeps. -/
structure Leaves (leave : Machine → Machine) : Prop where
  same : ∀ {s t : Machine} {sp : BitVec 32} {room : Nat},
    SameOutside (below (sp - 96) room) s t → u32 s.ctx.r1 = sp - 96 →
    room ≤ (sp - 96).toNat → room + 96 ≤ 2 ^ 32 →
    SameOutside (below (sp - 96) room) (leave s) (leave t)
  sp : ∀ s, (leave s).ctx.r1 = s.ctx.r1 + 96

theorem setU32_frame {r : BitVec 64} (h : 96 ≤ (u32 r).toNat) : setU32 r (u32 r - 96) + 96 = r := by
  have h96 : (96 : BitVec 64) = ofU32 96 := by decide
  rw [h96]
  exact setU32_sub_add r (BitVec.le_def.mpr h)

theorem u32_frame (r : BitVec 64) : u32 (setU32 r (u32 r - 96) + 96) = u32 r := by
  have h96 : u32 96 = 96 := by decide
  rw [u32_add, u32_setU32, h96]
  bv_omega

section Walks
variable {W : Set Addr} {stack : Nat} {w : Walk} {leave : Machine → Machine}
  {f g : Nat → Machine → Option Machine}

/-- The machine in which a level calls the parent keeps its walk clear. -/
theorem StackClear.enter {s e : Machine} {room : Nat}
    (h : StackClear w s.mem (u32 s.ctx.r3) (u32 s.ctx.r1) room)
    (hpar : parent? w s.mem (u32 s.ctx.r3) = some (u32 e.ctx.r3))
    (hsp : e.ctx.r1 = setU32 s.ctx.r1 (u32 s.ctx.r1 - 96))
    (hmem : AgreeOff (below (u32 s.ctx.r1) 96) (counted w s.mem (u32 s.ctx.r3)) e.mem) :
    u32 e.ctx.r1 = u32 s.ctx.r1 - 96 ∧
      StackClear w e.mem (u32 e.ctx.r3) (u32 e.ctx.r1) (room - 96) ∧
      below (u32 s.ctx.r1 - 96) (room - 96) ⊆ below (u32 s.ctx.r1) room := by
  have hroom := h.room_pos
  have hlow : u32 e.ctx.r1 = u32 s.ctx.r1 - 96 := by rw [hsp, u32_setU32]
  refine ⟨hlow, ?_, below_sub_subset _ 96 ?_⟩
  · rw [hlow]
    exact h.next hpar hmem
  · have h96 : (96 : BitVec 32).toNat = 96 := rfl
    omega

theorem StackClear.head_frame {s : Machine} {room : Nat}
    (h : StackClear w s.mem (u32 s.ctx.r3) (u32 s.ctx.r1) room) :
    ∀ a ∈ wordsRead w s.mem (u32 s.ctx.r3), Disjoint (wordAt a) (below (u32 s.ctx.r1) 96) :=
  fun a ha => (h.head a ha).mono_right (below_mono _ h.room_pos)

/-- **The walk lemma.**  If every level of two implementations is a `Level`, then
on a walk that keeps clear of the stack both return, equal outside the dead area
and with the stack pointer restored. -/
theorem same_of_levels (hleave : Leaves leave) (hlevel : ∀ n s,
      (∀ a ∈ wordsRead w s.mem (u32 s.ctx.r3), Disjoint (wordAt a) (below (u32 s.ctx.r1) 96)) →
      Level W stack w leave (f n) (g n) s (f (n + 1) s) (g (n + 1) s)) :
    ∀ (fuel : Nat) (s : Machine) (room : Nat),
      StackClear w s.mem (u32 s.ctx.r3) (u32 s.ctx.r1) room →
      room ≤ (u32 s.ctx.r1).toNat → room < 96 * (fuel + 1) →
      ∃ a b, f fuel s = some a ∧ g fuel s = some b ∧
        SameOutside (below (u32 s.ctx.r1) room) a b ∧ a.ctx.r1 = s.ctx.r1 := by
  intro fuel
  induction fuel with
  | zero =>
    intro s room hclear _ hfuel
    have hroom := hclear.room_pos
    omega
  | succ n ih =>
    intro s room hclear hroom hfuel
    have hpos := hclear.room_pos
    have hframe : 96 ≤ (u32 s.ctx.r1).toNat := by omega
    cases hlevel n s hclear.head_frame with
    | leaf a b hpar ha hb hsame hsp hmem =>
      refine ⟨a, b, ha, hb, (hsame hframe).mono (below_mono _ hpos), ?_⟩
      rcases hsp with h | h
      · exact h
      · rw [h, setU32_frame hframe]
    | call e hpar ha hb hsp hmem =>
      obtain ⟨hlow, hnext, hdead⟩ := hclear.enter hpar hsp hmem
      have hnat : (u32 s.ctx.r1 - 96).toNat = (u32 s.ctx.r1).toNat - 96 := by bv_omega
      have hlt := (u32 s.ctx.r1).isLt
      obtain ⟨a, b, hfa, hgb, hsame, ha1⟩ := ih e (room - 96) hnext
        (by rw [hlow]; omega) (by omega)
      rw [hlow] at hsame
      rw [hfa] at ha
      rw [hgb] at hb
      have hkeep := hleave.same hsame (by rw [ha1, hlow]) (by omega) (by omega)
      refine ⟨leave a, leave b, ha, hb, hkeep.mono hdead, ?_⟩
      rw [hleave.sp, ha1, hsp, setU32_frame hframe]

/-- **The counters of a walk.**  A walk that returned ended, and on the addresses
that destroys leave alone it left the memory that its visits describe. -/
theorem walked_of_levels (hzero : ∀ s, f 0 s = none) (hsp : ∀ s, (leave s).ctx.r1 = s.ctx.r1 + 96)
    (hmem : ∀ s, Disjoint W (below (u32 s.ctx.r1) stack) → AgreeOff Wᶜ (leave s).mem s.mem)
    (hlevel : ∀ n s,
      (∀ a ∈ wordsRead w s.mem (u32 s.ctx.r3), Disjoint (wordAt a) (below (u32 s.ctx.r1) 96)) →
      Level W stack w leave (f n) (g n) s (f (n + 1) s) (g (n + 1) s)) :
    ∀ (fuel : Nat) (s a : Machine) (room : Nat),
      StackClear w s.mem (u32 s.ctx.r3) (u32 s.ctx.r1) room →
      Disjoint W (below (u32 s.ctx.r1) (room + stack)) → f fuel s = some a →
      u32 a.ctx.r1 = u32 s.ctx.r1 ∧ ∃ m, Walked w s.mem (u32 s.ctx.r3) m ∧ AgreeOff Wᶜ a.mem m := by
  intro fuel
  induction fuel with
  | zero =>
    intro s a room _ _ hrun
    rw [hzero s] at hrun
    cases hrun
  | succ n ih =>
    intro s a room hclear hW hrun
    have hpos := hclear.room_pos
    have h96 : (96 : BitVec 32).toNat = 96 := rfl
    have hlow : Disjoint W (below (u32 s.ctx.r1 - 96) stack) :=
      hW.mono_right (below_sub_subset _ 96 (by omega))
    have hframe : Disjoint W (below (u32 s.ctx.r1) 96) := hW.mono_right (below_mono _ (by omega))
    have hdrop : Wᶜ ∪ below (u32 s.ctx.r1) 96 ⊆ Wᶜ :=
      Set.union_subset (subset_refl _) fun x hx hxW => Set.disjoint_left.mp hframe hxW hx
    cases hlevel n s hclear.head_frame with
    | leaf a' b hpar ha hb hsame hr1 hleaf =>
      rw [hrun, Option.some.injEq] at ha
      subst ha
      refine ⟨?_, _, .stop hpar, (hleaf hlow).mono hdrop⟩
      rcases hr1 with h | h
      · rw [h]
      · rw [h, u32_frame]
    | call e hpar ha hb hr1 hcall =>
      obtain ⟨hsp', hnext, -⟩ := hclear.enter hpar hr1 hcall
      rw [hrun] at ha
      obtain ⟨a', hfa, rfl⟩ := Option.map_eq_some_iff.mp ha.symm
      have hW' : Disjoint W (below (u32 e.ctx.r1) (room - 96 + stack)) := by
        rw [hsp']
        exact hW.mono_right (below_sub_subset _ 96 (by omega))
      obtain ⟨ha1, m, hwalked, hagree⟩ := ih e a' (room - 96) hnext hW' hfa
      obtain ⟨m', hwalked', hcongr⟩ := hwalked.congr hcall.symm fun k v hv x hx =>
        (hclear.enter_reads hpar hcall k v hv x hx).mono_right (below_mono _ hpos)
      refine ⟨?_, m', .climb hpar hwalked', ?_⟩
      · have h96' : u32 96 = 96 := by decide
        rw [hsp, u32_add, ha1, hsp', h96']
        bv_omega
      · have hleave := hmem a' (by rw [ha1, hsp']; exact hlow)
        exact (hleave.trans hagree).trans (hcongr.mono (Set.subset_union_right.trans hdrop))

end Walks

theorem leaves_addRefLeave : Leaves addRefLeave where
  same h hsp _ hroom := h.addRefLeave hsp hroom
  sp _ := rfl

/-! ## AddRef -/

section AddRef
variable {s : Machine} {count : BitVec 64}

/-- Without a parent the native AddRef differs by the frame it did not write. -/
theorem addRefLeaf_sameOutside (h : 96 ≤ (u32 s.ctx.r1).toNat) :
    SameOutside (below (u32 s.ctx.r1) 96) (addRefLeaf count s)
      (addRefLeave (inFrame count s)) := by
  have hpop : addRefLeave (inFrame count s) =
      popFrame (inFrame count { s with ctx.r3 := count }) := rfl
  rw [hpop, popFrame_inFrame count (s := { s with ctx.r3 := count }) h]
  exact ⟨rfl, rfl, (agreeOff_inFrame count { s with ctx.r3 := count }).symm⟩

theorem refAddRefBody_level (f : Machine → Option Machine) (n : Nat)
    (hcounter : Disjoint (wordAt (u32 s.ctx.r3 + 4)) (below (u32 s.ctx.r1) 96))
    (hheader : u32 (countWord 1 s).ctx.r10 = 1 →
      Disjoint (wordAt (u32 s.ctx.r3)) (below (u32 s.ctx.r1) 96)) :
    refAddRefBody f (n + 1) s =
      if (addRefTest (countWord 1 s)).1 then
        (f (addRefEnter (countWord 1 s).ctx.r10 (addRefTest (countWord 1 s)).2)).map addRefLeave
      else
        some (addRefLeave (inFrame (countWord 1 s).ctx.r10 (addRefTest (countWord 1 s)).2)) := by
  have hcount : countWord 1 (pushFrame s) = inFrame s.ctx.r31 (countWord 1 s) :=
    countWord_inFrame s.ctx.r31 1 hcounter
  have htest := addRefTest_inFrame s.ctx.r31 (s := countWord 1 s) hheader
  simp only [refAddRefBody_eq, hcount, htest]
  generalize addRefTest (countWord 1 s) = u
  generalize countWord 1 s = t
  rfl

variable (wanted : Bool)

/-- How the hook of AddRef ends a level without a parent. -/
def addRefDone (s : Machine) : Machine :=
  if wanted && aligned32 (u32 s.ctx.r3 + 4) then
    addRefLeaf (countWord 1 s).ctx.r10 (addRefTest (countWord 1 s)).2
  else addRefLeave (inFrame (countWord 1 s).ctx.r10 (addRefTest (countWord 1 s)).2)

theorem sub_82422160_level (n : Nat)
    (hcounter : Disjoint (wordAt (u32 s.ctx.r3 + 4)) (below (u32 s.ctx.r1) 96))
    (hheader : u32 (countWord 1 s).ctx.r10 = 1 →
      Disjoint (wordAt (u32 s.ctx.r3)) (below (u32 s.ctx.r1) 96)) :
    sub_82422160 wanted (n + 1) s =
      if (addRefTest (countWord 1 s)).1 then
        (sub_82422160 wanted n
          (addRefEnter (countWord 1 s).ctx.r10 (addRefTest (countWord 1 s)).2)).map addRefLeave
      else some (addRefDone wanted s) := by
  have hbody := refAddRefBody_level (sub_82422160 wanted n) n hcounter hheader
  cases wanted with
  | false =>
    rw [sub_82422160, if_neg Bool.false_ne_true, hbody]
    rfl
  | true =>
    cases hal : aligned32 (u32 s.ctx.r3 + 4) with
    | false =>
      have hnative : addRef (sub_82422160 true n) (n + 1) s = some (false, s) := by
        simp only [addRef, hal, Bool.not_false, if_true]
      rw [sub_82422160, if_pos rfl, hnative, Option.bind_some, addRefDone, hal]
      exact hbody
    | true =>
      rw [sub_82422160, if_pos rfl, addRef_eq hal, addRefDone, hal]
      generalize addRefTest (countWord 1 s) = u
      generalize (countWord 1 s).ctx.r10 = count
      cases u.1
      · rfl
      · cases hcall : sub_82422160 true n (addRefEnter count u.2) <;> rfl

theorem addRefDone_sameOutside (hr1 : (addRefTest (countWord 1 s)).2.ctx.r1 = s.ctx.r1)
    (hroom : 96 ≤ (u32 s.ctx.r1).toNat) :
    SameOutside (below (u32 s.ctx.r1) 96) (addRefDone wanted s)
      (addRefLeave (inFrame (countWord 1 s).ctx.r10 (addRefTest (countWord 1 s)).2)) := by
  unfold addRefDone
  split_ifs
  · rw [← hr1] at hroom ⊢
    exact addRefLeaf_sameOutside hroom
  · exact SameOutside.refl _ _

theorem addRefDone_mem (hr1 : (addRefTest (countWord 1 s)).2.ctx.r1 = s.ctx.r1) :
    AgreeOff (below (u32 s.ctx.r1) 96) (addRefDone wanted s).mem
      (addRefTest (countWord 1 s)).2.mem := by
  unfold addRefDone
  split_ifs
  · exact AgreeOff.refl _ _
  · rw [← hr1]
    exact agreeOff_inFrame (countWord 1 s).ctx.r10 _

theorem addRefDone_r1 (hr1 : (addRefTest (countWord 1 s)).2.ctx.r1 = s.ctx.r1) :
    (addRefDone wanted s).ctx.r1 = s.ctx.r1 ∨
      (addRefDone wanted s).ctx.r1 = setU32 s.ctx.r1 (u32 s.ctx.r1 - 96) + 96 := by
  unfold addRefDone
  split_ifs
  · exact .inl hr1
  · right
    rw [← hr1]
    rfl

/-- **One level of AddRef**, as the hook and as the generated body. -/
theorem addRef_level {W : Set Addr} (stack : Nat) (wanted : Bool) (n : Nat) (s : Machine)
    (hhead : ∀ a ∈ wordsRead .addRef s.mem (u32 s.ctx.r3),
      Disjoint (wordAt a) (below (u32 s.ctx.r1) 96)) :
    Level W stack .addRef addRefLeave (sub_82422160 wanted n) (refAddRef n) s
      (sub_82422160 wanted (n + 1) s) (refAddRef (n + 1) s) := by
  have hdelta : u32 1 = Walk.addRef.delta := by decide
  have hmem := countWord_mem hdelta s
  have hr10 := countWord_r10 hdelta s
  have hr1 : (countWord 1 s).ctx.r1 = s.ctx.r1 := rfl
  have hr3 : (countWord 1 s).ctx.r3 = s.ctx.r3 := rfl
  have hcounter := hhead _ counter_mem_wordsRead
  have hheader : u32 (countWord 1 s).ctx.r10 = 1 →
      Disjoint (wordAt (u32 s.ctx.r3)) (below (u32 s.ctx.r1) 96) := by
    intro hone
    exact hhead _ (header_mem_wordsRead (hr10.symm.trans hone))
  have hhook := sub_82422160_level wanted n hcounter hheader
  have hbody : refAddRef (n + 1) s = _ := refAddRefBody_level (refAddRef n) n hcounter hheader
  have htest := addRefTest_fst (countWord 1 s)
  rw [hr10, hmem, hr3] at htest
  obtain ⟨r10, r11, cr0, cr6, hsnd⟩ := addRefTest_snd (countWord 1 s)
  have htested1 : (addRefTest (countWord 1 s)).2.ctx.r1 = s.ctx.r1 := by rw [hsnd]; rfl
  have htested3 : (addRefTest (countWord 1 s)).2.ctx.r3 = s.ctx.r3 := by rw [hsnd]; rfl
  have htestedm : (addRefTest (countWord 1 s)).2.mem = (countWord 1 s).mem := by rw [hsnd]
  have hdone := addRefDone_sameOutside wanted htested1
  have hdonem := addRefDone_mem wanted htested1
  have hdone1 := addRefDone_r1 wanted htested1
  generalize addRefTest (countWord 1 s) = u at *
  generalize (countWord 1 s).ctx.r10 = count at *
  have hframe : AgreeOff (below (u32 s.ctx.r1) 96) (counted .addRef s.mem (u32 s.ctx.r3))
      (inFrame count u.2).mem := by
    rw [← hmem, ← htestedm, ← htested1]
    exact (agreeOff_inFrame count u.2).symm
  by_cases hpar : newCount .addRef s.mem (u32 s.ctx.r3) = Walk.addRef.edge ∧
      ParentRule ((counted .addRef s.mem (u32 s.ctx.r3)).load32 (u32 s.ctx.r3))
  · have hup : u.1 = true := htest.trans (decide_eq_true hpar)
    rw [if_pos hup] at hhook hbody
    refine .call (addRefEnter count u.2) ?_ hhook hbody ?_ hframe
    · have hfield : Disjoint (wordAt (u32 s.ctx.r3 + 24)) (below (u32 s.ctx.r1) 96) :=
        hhead _ (by simp [wordsRead, hpar])
      have hload := hframe.load32 hfield
      have he : u32 (addRefEnter count u.2).ctx.r3 =
          (inFrame count u.2).mem.load32 (u32 u.2.ctx.r3 + 24) := u32_ofU32 _
      rw [parent?, if_pos hpar, he, htested3, ← hload]
    · rw [← htested1]
      rfl
  · have hup : ¬ u.1 = true := by
      rw [htest]
      exact fun h => hpar (of_decide_eq_true h)
    rw [if_neg hup] at hhook hbody
    refine .leaf _ _ (if_neg hpar) hhook hbody hdone ?_ ?_
    · exact hdone1
    · intro _
      rw [← hmem, ← htestedm]
      exact hdonem.mono Set.subset_union_right

end AddRef
/-! ## Release -/

section Release
variable {s : Machine} {destroy : Destroy}

theorem headerTest_r1 (p : BitVec 64) (s : Machine) : (headerTest p s).2.ctx.r1 = s.ctx.r1 := by
  obtain ⟨_, _, _, _, h⟩ := headerTest_snd p s
  rw [h]

theorem headerTest_mem (p : BitVec 64) (s : Machine) : (headerTest p s).2.mem = s.mem := by
  obtain ⟨_, _, _, _, h⟩ := headerTest_snd p s
  rw [h]

theorem compareCount_mem (s : Machine) : (compareCount s).mem = s.mem := rfl

theorem releaseCounted_r1 (delta : BitVec 64) (s : Machine) :
    (compareCount (countWord delta s)).ctx.r1 = s.ctx.r1 := rfl

theorem releaseZero_inFrame (f : Machine → Option Machine)
    (hheader : Disjoint (wordAt (u32 s.ctx.r3)) (below (u32 s.ctx.r1) 96)) {t : Machine}
    (ht : t.ctx.r1 = s.ctx.r1) :
    releaseZero f destroy (inFrame s.ctx.r3 t) =
      if (headerTest s.ctx.r3 t).1 then
        (f (releaseEnter (inFrame s.ctx.r3 (headerTest s.ctx.r3 t).2))).map (releaseFinish destroy)
      else some (releaseFinish destroy (inFrame s.ctx.r3 (headerTest s.ctx.r3 t).2)) := by
  have htest : headerTest s.ctx.r3 (inFrame s.ctx.r3 t) = _ :=
    headerTest_inFrame s.ctx.r3 (by rw [ht]; exact hheader)
  have hr31 : (inFrame s.ctx.r3 t).ctx.r31 = s.ctx.r3 := rfl
  simp only [releaseZero, hr31, htest]

theorem refReleaseBody_level (destroy : Destroy) (f : Machine → Option Machine) (n : Nat)
    (hcounter : Disjoint (wordAt (u32 s.ctx.r3 + 4)) (below (u32 s.ctx.r1) 96)) :
    refReleaseBody f destroy (n + 1) s =
      if u32 (countWord (-1) s).ctx.r10 ≠ 0 then
        some (popFrame (inFrame s.ctx.r3 (compareCount (countWord (-1) s))))
      else releaseZero f destroy (inFrame s.ctx.r3 (compareCount (countWord (-1) s))) := by
  have hframe : { pushFrame s with ctx.r31 := s.ctx.r3 } = inFrame s.ctx.r3 s := rfl
  have hcount := countWord_inFrame s.ctx.r3 (-1) hcounter
  have hr10 : (inFrame s.ctx.r3 (countWord (-1) s)).ctx.r10 = (countWord (-1) s).ctx.r10 := rfl
  rw [refReleaseBody_eq, hframe, hcount, refReleaseTest_eq, hr10, compareCount_inFrame]

theorem inFrame_r1 (r31 : BitVec 64) (s : Machine) :
    (inFrame r31 s).ctx.r1 = setU32 s.ctx.r1 (u32 s.ctx.r1 - 96) := rfl

theorem inFrame_r31 (r31 : BitVec 64) (s : Machine) : (inFrame r31 s).ctx.r31 = r31 := rfl

theorem releaseEnter_r3 (s : Machine) :
    (releaseEnter s).ctx.r3 = ofU32 (s.mem.load32 (u32 s.ctx.r31 + 24)) := rfl

theorem releaseEnter_r1 (s : Machine) : (releaseEnter s).ctx.r1 = s.ctx.r1 := rfl

/-- How Release ends a level whose count stays positive: the leaf return of the
native code, or the frame of the generated body. -/
def releaseDone (native : Bool) (self : BitVec 64) (t : Machine) : Machine :=
  if native then { t with ctx := leafReturn t.ctx } else popFrame (inFrame self t)

theorem releaseDone_sameOutside (native : Bool) (self : BitVec 64) {t : Machine}
    (hroom : 96 ≤ (u32 t.ctx.r1).toNat) :
    SameOutside (below (u32 t.ctx.r1) 96) (releaseDone native self t)
      (popFrame (inFrame self t)) := by
  cases native with
  | false => exact SameOutside.refl _ _
  | true =>
    rw [popFrame_inFrame _ hroom]
    exact ⟨rfl, rfl, (agreeOff_inFrame self t).symm⟩

theorem releaseDone_mem (native : Bool) (self : BitVec 64) (t : Machine) :
    AgreeOff (below (u32 t.ctx.r1) 96) (releaseDone native self t).mem t.mem := by
  cases native with
  | false => exact agreeOff_inFrame self t
  | true => exact AgreeOff.refl _ _

theorem releaseDone_r1 (native : Bool) (self : BitVec 64) (t : Machine) :
    (releaseDone native self t).ctx.r1 = t.ctx.r1 ∨
      (releaseDone native self t).ctx.r1 = setU32 t.ctx.r1 (u32 t.ctx.r1 - 96) + 96 := by
  cases native with
  | false => exact .inr rfl
  | true => exact .inl rfl

theorem releaseFinish_r1 (hsp : ∀ c m, (destroy c m).1.r1 = c.r1) (s : Machine) :
    (releaseFinish destroy s).ctx.r1 = s.ctx.r1 + 96 :=
  congrArg (· + 96) (hsp { s.ctx with r3 := s.ctx.r31, lr := kReleaseDestroyReturn } s.mem)

theorem releaseFinish_mem {W : Set Addr} {stack : Nat}
    (hkeep : ∀ c m, Disjoint W (below (u32 c.r1) stack) → AgreeOff Wᶜ (destroy c m).2 m)
    {s : Machine} (h : Disjoint W (below (u32 s.ctx.r1) stack)) :
    AgreeOff Wᶜ (releaseFinish destroy s).mem s.mem :=
  hkeep { s.ctx with r3 := s.ctx.r31, lr := kReleaseDestroyReturn } s.mem h

theorem leaves_releaseFinish (habi : DestroyAbi destroy) : Leaves (releaseFinish destroy) where
  same h hsp hroom hroom' := h.releaseFinish habi hsp hroom hroom'
  sp := releaseFinish_r1 habi.sp

theorem sub_824221D8_level (destroy : Destroy) (wanted : Bool) (n : Nat)
    (hcounter : Disjoint (wordAt (u32 s.ctx.r3 + 4)) (below (u32 s.ctx.r1) 96)) :
    sub_824221D8 wanted destroy (n + 1) s =
      if u32 (countWord (-1) s).ctx.r10 ≠ 0 then some (releaseDone (wanted && aligned32 (u32 s.ctx.r3 + 4)) s.ctx.r3
        (compareCount (countWord (-1) s)))
      else releaseZero (sub_824221D8 wanted destroy n) destroy
        (inFrame s.ctx.r3 (compareCount (countWord (-1) s))) := by
  have hbody := refReleaseBody_level destroy (sub_824221D8 wanted destroy n) n hcounter
  cases wanted with
  | false =>
    rw [sub_824221D8, if_neg Bool.false_ne_true, hbody, Bool.false_and, releaseDone,
      if_neg Bool.false_ne_true]
  | true =>
    cases hal : aligned32 (u32 s.ctx.r3 + 4) with
    | false =>
      have hnative : releaseFast (n + 1) s = some (.notHandled, 0, s) := by
        simp only [releaseFast, hal, Bool.not_false, if_true]
      rw [sub_824221D8, if_pos rfl, hnative, Option.bind_some, Bool.and_false, releaseDone,
        if_neg Bool.false_ne_true, ← hbody]
    | true =>
      rw [sub_824221D8, if_pos rfl, releaseFast_eq hal, Option.bind_some, Bool.and_true,
        releaseDone, if_pos rfl]
      by_cases hzero : u32 (countWord (-1) s).ctx.r10 = 0
      · rw [if_neg (not_not.mpr hzero), releaseTest_of_eq hzero]
        generalize compareCount (countWord (-1) s) = t
        rfl
      · rw [if_pos hzero, releaseTest_of_ne hzero]

/-- **One level of Release**, as the hook and as the generated body.  A level
whose count reaches zero ends in the same frame on both sides. -/
theorem release_level {W : Set Addr} {stack : Nat} (hsp : ∀ c m, (destroy c m).1.r1 = c.r1)
    (hkeep : ∀ c m, Disjoint W (below (u32 c.r1) stack) → AgreeOff Wᶜ (destroy c m).2 m)
    (wanted : Bool) (n : Nat) (s : Machine) (hhead : ∀ a ∈ wordsRead .release s.mem (u32 s.ctx.r3),
      Disjoint (wordAt a) (below (u32 s.ctx.r1) 96)) :
    Level W stack .release (releaseFinish destroy) (sub_824221D8 wanted destroy n)
      (refRelease destroy n) s (sub_824221D8 wanted destroy (n + 1) s)
      (refRelease destroy (n + 1) s) := by
  have hdelta : u32 (-1) = Walk.release.delta := by decide
  have hmem := countWord_mem hdelta s
  have hr10 := countWord_r10 hdelta s
  have hcounter := hhead _ counter_mem_wordsRead
  have hhook := sub_824221D8_level destroy wanted n hcounter
  have hbody : refRelease destroy (n + 1) s = _ :=
    refReleaseBody_level destroy (refRelease destroy n) n hcounter
  have hcr1 : (compareCount (countWord (-1) s)).ctx.r1 = s.ctx.r1 := releaseCounted_r1 (-1) s
  have hcmem : (compareCount (countWord (-1) s)).mem = counted .release s.mem (u32 s.ctx.r3) := by
    rw [compareCount_mem, hmem]
  generalize compareCount (countWord (-1) s) = t at *
  generalize (countWord (-1) s).ctx.r10 = count at *
  generalize (wanted && aligned32 (u32 s.ctx.r3 + 4)) = native at *
  have hdone := releaseDone_sameOutside native s.ctx.r3 (t := t)
  have hdonem := releaseDone_mem native s.ctx.r3 t
  rw [hcr1] at hdone hdonem
  have hframe (u : Machine) (hur1 : u.ctx.r1 = s.ctx.r1)
      (hum : u.mem = counted .release s.mem (u32 s.ctx.r3)) :
      AgreeOff (below (u32 s.ctx.r1) 96) (counted .release s.mem (u32 s.ctx.r3))
        (inFrame s.ctx.r3 u).mem := by
    rw [← hum, ← hur1]
    exact (agreeOff_inFrame s.ctx.r3 u).symm
  by_cases hzero : u32 count = 0
  · rw [if_neg (not_not.mpr hzero)] at hhook hbody
    have hedge : newCount .release s.mem (u32 s.ctx.r3) = Walk.release.edge := hr10.symm.trans hzero
    have hheader := hhead _ (header_mem_wordsRead hedge)
    rw [releaseZero_inFrame _ hheader hcr1] at hhook hbody
    have htest := headerTest_fst s.ctx.r3 t
    rw [hcmem] at htest
    have hur1 := (headerTest_r1 s.ctx.r3 t).trans hcr1
    have hum := (headerTest_mem s.ctx.r3 t).trans hcmem
    generalize headerTest s.ctx.r3 t = u at *
    have hfr := hframe u.2 hur1 hum
    by_cases hrule : ParentRule ((counted .release s.mem (u32 s.ctx.r3)).load32 (u32 s.ctx.r3))
    · have hup : u.1 = true := htest.trans (decide_eq_true hrule)
      rw [if_pos hup] at hhook hbody
      refine .call _ ?_ hhook hbody ?_ hfr
      · have hfield : Disjoint (wordAt (u32 s.ctx.r3 + 24)) (below (u32 s.ctx.r1) 96) :=
          hhead _ (by simp [wordsRead, hedge, hrule])
        rw [parent?, if_pos ⟨hedge, hrule⟩, releaseEnter_r3, inFrame_r31, u32_ofU32,
          ← hfr.load32 hfield]
      · rw [releaseEnter_r1, inFrame_r1, hur1]
    · have hup : ¬ u.1 = true := by
        rw [htest]
        exact fun h => hrule (of_decide_eq_true h)
      rw [if_neg hup] at hhook hbody
      refine .leaf _ _ (if_neg fun h => hrule h.2) hhook hbody (fun _ => .refl _ _) ?_ ?_
      · exact .inr (by rw [releaseFinish_r1 hsp, inFrame_r1, hur1])
      · intro hW
        have hlow : Disjoint W (below (u32 (inFrame s.ctx.r3 u.2).ctx.r1) stack) := by
          rw [inFrame_r1, u32_setU32, hur1]
          exact hW
        refine ((releaseFinish_mem hkeep hlow).mono Set.subset_union_left).trans ?_
        exact hfr.symm.mono Set.subset_union_right
  · rw [if_pos hzero] at hhook hbody
    have hpar : parent? .release s.mem (u32 s.ctx.r3) = none :=
      if_neg fun h => hzero (hr10.trans h.1)
    refine .leaf _ _ hpar hhook hbody hdone ?_ ?_
    · rw [← hcr1]
      exact releaseDone_r1 native s.ctx.r3 t
    · intro _
      rw [← hcmem]
      exact hdonem.mono Set.subset_union_right

end Release
end Mcla.Refcount

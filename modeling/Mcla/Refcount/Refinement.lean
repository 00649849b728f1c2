import Mcla.Refcount.Interlocked
import Mcla.Refcount.Simulation

/-! # Refinement of the generated bodies

The helpers together: whichever implementation a hook chooses, a call ends as the
generated body does.  The one thing the native code relies on is that the stack
pointer has room below it for the frames of the walk; without that room a
generated frame is not popped exactly, and `addRef_without_stack` shows the
difference in `r1`.
-/
namespace Mcla.Refcount
open ByteMemory ByteMemory.Memory

/-- **The native helpers refine the generated bodies.** -/
theorem native_refines_generated (wanted : Bool) {destroy : Destroy} (habi : DestroyAbi destroy)
    (fuel : Nat) (s : Machine) :
    (∀ room, StackClear .addRef s.mem (u32 s.ctx.r3) (u32 s.ctx.r1) room →
      room ≤ (u32 s.ctx.r1).toNat → room < 96 * (fuel + 1) →
      ∃ a b, sub_82422160 wanted fuel s = some a ∧ refAddRef fuel s = some b ∧
        SameOutside (below (u32 s.ctx.r1) room) a b) ∧
    (∀ room, StackClear .release s.mem (u32 s.ctx.r3) (u32 s.ctx.r1) room →
      room ≤ (u32 s.ctx.r1).toNat → room < 96 * (fuel + 1) →
      ∃ a b, sub_824221D8 wanted destroy fuel s = some a ∧ refRelease destroy fuel s = some b ∧
        SameOutside (below (u32 s.ctx.r1) room) a b) ∧
    (∃ a, sub_821CE080 wanted (fuel + 1) s = some a ∧ refExchange (fuel + 1) s = some a) ∧
    (∃ a, sub_821CE0A0 wanted (fuel + 1) s = some a ∧ refCompareExchange (fuel + 1) s = some a) ∧
    (∃ a, sub_821CE0D8 wanted (fuel + 1) s = some a ∧ refAdd 1 (fuel + 1) s = some a) ∧
    (∃ a, sub_821CE100 wanted (fuel + 1) s = some a ∧ refAdd (-1) (fuel + 1) s = some a) ∧
    (∃ a, sub_821CE128 wanted (fuel + 1) s = some a ∧ refExchangeAdd (fuel + 1) s = some a) := by
  refine ⟨fun room hclear hroom hfuel => ?_, fun room hclear hroom hfuel => ?_, ?_, ?_, ?_, ?_, ?_⟩
  · obtain ⟨a, b, ha, hb, hsame, -⟩ :=
      same_of_levels (W := ∅) leaves_addRefLeave (addRef_level 0 wanted) fuel s room
        hclear hroom hfuel
    exact ⟨a, b, ha, hb, hsame⟩
  · have hkeep : ∀ c m, Disjoint ∅ (below (u32 c.r1) 0) → AgreeOff (∅)ᶜ (destroy c m).2 m :=
      fun _ _ _ x hx => absurd (Set.notMem_empty x) hx
    obtain ⟨a, b, ha, hb, hsame, -⟩ :=
      same_of_levels (leaves_releaseFinish habi) (release_level habi.sp hkeep wanted) fuel s room
        hclear hroom hfuel
    exact ⟨a, b, ha, hb, hsame⟩
  · exact ⟨_, (sub_821CE080_eq wanted fuel).trans (refExchange_eq fuel), refExchange_eq fuel⟩
  · exact ⟨_, (sub_821CE0A0_eq wanted fuel).trans (refCompareExchange_eq fuel),
      refCompareExchange_eq fuel⟩
  · exact ⟨_, (interlockedAdd_eq 1 wanted fuel).trans (refAdd_eq 1 fuel), refAdd_eq 1 fuel⟩
  · exact ⟨_, (interlockedAdd_eq (-1) wanted fuel).trans (refAdd_eq (-1) fuel), refAdd_eq (-1) fuel⟩
  · exact ⟨_, (sub_821CE128_eq wanted fuel).trans (refExchangeAdd_eq fuel), refExchangeAdd_eq fuel⟩

/-- An object with one reference whose parent, with five, follows the rule. -/
def childAndParent : Memory :=
  ((((show Memory from fun _ => 0).store32 0x1000 0x40000004).store32 0x1004 1).store32 0x1018
    0x2000).store32 0x2004 5

theorem native_refines_generated_chain :
    (∃ a b, sub_82422160 true 2 (callOn 0x1000 0x10000 childAndParent) = some a ∧
      refAddRef 2 (callOn 0x1000 0x10000 childAndParent) = some b ∧
      SameOutside (below 0x10000 192) a b) ∧
    ∃ a b, sub_824221D8 true fakeDestroy 2 (callOn 0x1000 0x10000 childAndParent) = some a ∧
      refRelease fakeDestroy 2 (callOn 0x1000 0x10000 childAndParent) = some b ∧
      SameOutside (below 0x10000 192) a b := by
  have h := native_refines_generated true fakeDestroy_abi 2
    (callOn 0x1000 0x10000 childAndParent)
  have hup : StackClear .addRef childAndParent 0x1000 0x10000 192 := by
    have hreads : wordsRead .addRef childAndParent 0x1000 = [0x1004] := by decide
    refine .of_stop (by decide) (fun a ha => ?_) (by decide)
    rw [hreads, List.mem_singleton] at ha
    subst ha
    exact wordAt_disjoint_of_le (by decide)
  have hdown : StackClear .release childAndParent 0x1000 0x10000 192 := by
    have hreads : wordsRead .release childAndParent 0x1000 ++
        wordsRead .release (counted .release childAndParent 0x1000) 0x2000 =
          [0x1004, 0x1000, 0x1018, 0x2004] := by decide
    refine .of_parent (q := 0x2000) (by decide) (by decide) (fun a ha => ?_)
      (by decide)
    rw [hreads] at ha
    simp only [List.mem_cons, List.not_mem_nil, or_false] at ha
    rcases ha with rfl | rfl | rfl | rfl <;> exact wordAt_disjoint_of_le (by decide)
  exact ⟨h.1 192 hup (by decide) (by decide), h.2.1 192 hdown (by decide) (by decide)⟩

/-- **No room below the stack pointer.**  With `r1 = 0` the generated body pushes
its frame below address zero and pops it with a carry into the high word of `r1`;
the native leaf, which pushes nothing, leaves `r1` alone. -/
theorem addRef_without_stack :
    ¬ ∀ (s : Machine) (room fuel : Nat) (a b : Machine),
      StackClear .addRef s.mem (u32 s.ctx.r3) (u32 s.ctx.r1) room →
      aligned32 (u32 s.ctx.r3) = true →
      sub_82422160 true fuel s = some a → refAddRef fuel s = some b →
      a.ctx.r1 = b.ctx.r1 := by
  intro h
  have hclear : StackClear .addRef childAndParent 0x2000 0 96 := by
    have hreads : wordsRead .addRef childAndParent 0x2000 = [0x2004] := by decide
    refine .of_stop (by decide) (fun a ha => ?_) (by decide)
    rw [hreads, List.mem_singleton] at ha
    subst ha
    refine Set.disjoint_left.mpr fun x hx hy => ?_
    rw [mem_wordAt] at hx
    rw [mem_below] at hy
    bv_omega
  have hnative : (sub_82422160 true 1 (callOn 0x2000 0 childAndParent)).map (·.ctx.r1) =
      some 0 := by decide
  have hbody : (refAddRef 1 (callOn 0x2000 0 childAndParent)).map (·.ctx.r1) =
      some 0x100000000 := by decide
  obtain ⟨a, ha, ha1⟩ := Option.map_eq_some_iff.mp hnative
  obtain ⟨b, hb, hb1⟩ := Option.map_eq_some_iff.mp hbody
  have hsame := h _ 96 1 a b hclear (by decide) ha hb
  rw [ha1, hb1] at hsame
  exact absurd hsame (by decide)

end Mcla.Refcount

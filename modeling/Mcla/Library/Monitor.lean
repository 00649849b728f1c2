import Mathlib

/-! # Threads and a lock

Any number of threads, each at a point of its program, take atomic steps on what they share, in any
order.  Where some points are held under a lock, at most one thread is at such a point
(`exclusive`), and a property of what the lock protects can be followed through the holder: it
holds while the lock is free, and in the form for its point while a thread holds the lock
(`protected_of_reachable`).
-/
namespace Monitor

/-- What the parties share, and where each of them stands. -/
structure World (τ σ π : Type) where
  shared : σ
  point : τ → π

variable {τ σ π : Type} [DecidableEq τ] {step : σ → π → σ → π → Prop} {init : σ} {start : π}
  {w : World τ σ π}

/-- One thread moves to a point. -/
def World.move (w : World τ σ π) (t : τ) (s : σ) (p : π) : World τ σ π :=
  ⟨s, Function.update w.point t p⟩

theorem move_shared (t : τ) (s : σ) (p : π) : (w.move t s p).shared = s := rfl

theorem move_self (t : τ) (s : σ) (p : π) : (w.move t s p).point t = p := Function.update_self ..

theorem move_other {t u : τ} (h : u ≠ t) (s : σ) (p : π) : (w.move t s p).point u = w.point u :=
  Function.update_of_ne h ..

/-- After any steps of the threads, which all begin at one point. -/
inductive Reachable (step : σ → π → σ → π → Prop) (init : σ) (start : π) : World τ σ π → Prop where
  | init : Reachable step init start ⟨init, fun _ => start⟩
  | step {w : World τ σ π} {t : τ} {s : σ} {p : π} : Reachable step init start w →
      step w.shared (w.point t) s p → Reachable step init start (w.move t s p)

/-- What every step keeps. -/
theorem Reachable.shared_invariant {inv : σ → Prop} (h : Reachable step init start w)
    (hinit : inv init) (hstep : ∀ {s p s' p'}, step s p s' p' → inv s → inv s') : inv w.shared := by
  induction h with
  | init => exact hinit
  | step _ h ih => exact hstep h ih

theorem Reachable.mono {other : σ → π → σ → π → Prop} (h : Reachable step init start w)
    (hstep : ∀ {s p s' p'}, step s p s' p' → other s p s' p') : Reachable other init start w := by
  induction h with
  | init => exact .init
  | step _ h ih => exact ih.step (hstep h)

/-- A thread may take its steps alone. -/
theorem Reachable.alone (h : Reachable step init start w) (t : τ) {s : σ} {p : π}
    (hsteps : Relation.ReflTransGen (fun a b : σ × π => step a.1 a.2 b.1 b.2)
      (w.shared, w.point t) (s, p)) : Reachable step init start (w.move t s p) := by
  generalize hlast : (s, p) = last at hsteps
  induction hsteps generalizing s p with
  | refl =>
    obtain ⟨rfl, rfl⟩ := Prod.mk.inj hlast
    rw [World.move, Function.update_eq_self]
    exact h
  | @tail middle last _ hstep ih =>
    subst hlast
    have hmiddle := ih (s := middle.1) (p := middle.2) rfl
    have hnext := Reachable.step (t := t) (s := s) (p := p) hmiddle
      (by rw [move_self]; exact hstep)
    rw [World.move, World.move, Function.update_idem] at hnext
    exact hnext

/-- How the steps use a lock. -/
structure Locking (step : σ → π → σ → π → Prop) (locked : σ → Bool) (holds : π → Bool) : Prop where
  outside {s p s' p'} : step s p s' p' → holds p = false → holds p' = false → locked s' = locked s
  acquire {s p s' p'} : step s p s' p' → holds p = false → holds p' = true →
    locked s = false ∧ locked s' = true
  inside {s p s' p'} : step s p s' p' → holds p = true → holds p' = true → locked s' = locked s
  release {s p s' p'} : step s p s' p' → holds p = true → holds p' = false → locked s' = false

/-- A property of what the lock protects, while it is free and at the points of its holder. -/
structure Protects (step : σ → π → σ → π → Prop) (holds : π → Bool) (free : σ → Prop)
    (held : σ → π → Prop) : Prop where
  outside {s p s' p'} : step s p s' p' → holds p = false → holds p' = false →
    (free s → free s') ∧ ∀ q, holds q = true → held s q → held s' q
  acquire {s p s' p'} : step s p s' p' → holds p = false → holds p' = true → free s → held s' p'
  inside {s p s' p'} : step s p s' p' → holds p = true → holds p' = true → held s p → held s' p'
  release {s p s' p'} : step s p s' p' → holds p = true → holds p' = false → held s p → free s'

section Lock
variable {locked : σ → Bool} {holds : π → Bool} {free : σ → Prop} {held : σ → π → Prop}

/-- **Mutual exclusion**: the lock is taken by the thread that is at a held point. -/
theorem exclusive (hlock : Locking step locked holds) (hinit : locked init = false)
    (hstart : holds start = false) (h : Reachable step init start w) :
    (locked w.shared = true ↔ ∃ t, holds (w.point t) = true) ∧
      ∀ t u, holds (w.point t) = true → holds (w.point u) = true → t = u := by
  induction h with
  | init =>
    refine ⟨⟨fun h => ?_, fun ⟨_, h⟩ => ?_⟩, fun _ _ h => ?_⟩
    · rw [hinit] at h
      cases h
    · rw [hstart] at h
      cases h
    · rw [hstart] at h
      cases h
  | @step w t s p _ hstep ih =>
    obtain ⟨hiff, hone⟩ := ih
    by_cases hbefore : holds (w.point t) = true
    · have hothers : ∀ u, u ≠ t → holds (w.point u) ≠ true := fun u hne hu =>
        hne (hone u t hu hbefore)
      have hafter : ∀ u, holds ((w.move t s p).point u) = true → u = t := by
        intro u hu
        by_contra hne
        rw [move_other hne] at hu
        exact hothers u hne hu
      refine ⟨?_, fun u v hu hv => (hafter u hu).trans (hafter v hv).symm⟩
      by_cases hheld : holds p = true
      · rw [move_shared, hlock.inside hstep hbefore hheld, hiff]
        exact ⟨fun _ => ⟨t, by rw [move_self]; exact hheld⟩, fun _ => ⟨t, hbefore⟩⟩
      · rw [move_shared, hlock.release hstep hbefore (Bool.not_eq_true _ ▸ hheld)]
        refine ⟨fun h => ?_, fun ⟨u, hu⟩ => ?_⟩
        · cases h
        · rw [hafter u hu, move_self] at hu
          exact absurd hu hheld
    · rw [Bool.not_eq_true] at hbefore
      by_cases hheld : holds p = true
      · obtain ⟨hunlocked, hlocked⟩ := hlock.acquire hstep hbefore hheld
        have hnone : ∀ u, holds (w.point u) ≠ true := by
          intro u hu
          have hlocked' := hiff.mpr ⟨u, hu⟩
          rw [hunlocked] at hlocked'
          cases hlocked'
        have hafter : ∀ u, holds ((w.move t s p).point u) = true → u = t := by
          intro u hu
          by_contra hne
          rw [move_other hne] at hu
          exact hnone u hu
        refine ⟨⟨fun _ => ⟨t, by rw [move_self]; exact hheld⟩, fun _ => hlocked⟩,
          fun u v hu hv => (hafter u hu).trans (hafter v hv).symm⟩
      · rw [Bool.not_eq_true] at hheld
        have hsame : ∀ u, holds ((w.move t s p).point u) = holds (w.point u) := by
          intro u
          by_cases hu : u = t
          · rw [hu, move_self, hheld, hbefore]
          · rw [move_other hu]
        rw [move_shared, hlock.outside hstep hbefore hheld, hiff]
        simp only [hsame]
        exact ⟨trivial, hone⟩

/-- **The rule of the lock.** -/
theorem protected_of_reachable (hlock : Locking step locked holds)
    (hprotects : Protects step holds free held) (hinit : locked init = false)
    (hstart : holds start = false) (hfree : free init) (h : Reachable step init start w) :
    (locked w.shared = false → free w.shared) ∧
      ∀ t, holds (w.point t) = true → held w.shared (w.point t) := by
  induction h with
  | init =>
    refine ⟨fun _ => hfree, fun t ht => ?_⟩
    rw [hstart] at ht
    cases ht
  | @step w t s p hreach hstep ih =>
    obtain ⟨hfree', hheld'⟩ := ih
    obtain ⟨hiff, hone⟩ := exclusive hlock hinit hstart hreach
    obtain ⟨hiff', hone'⟩ := exclusive hlock hinit hstart (hreach.step hstep)
    by_cases hbefore : holds (w.point t) = true
    · have hheld := hheld' t hbefore
      by_cases hafter : holds p = true
      · refine ⟨fun hunlocked => ?_, fun u hu => ?_⟩
        · have hlocked := hiff'.mpr ⟨t, by rw [move_self]; exact hafter⟩
          rw [hunlocked] at hlocked
          cases hlocked
        · have hut : u = t := hone' u t hu (by rw [move_self]; exact hafter)
          rw [hut, move_self]
          exact hprotects.inside hstep hbefore hafter hheld
      · rw [Bool.not_eq_true] at hafter
        refine ⟨fun _ => hprotects.release hstep hbefore hafter hheld, fun u hu => ?_⟩
        by_cases hut : u = t
        · rw [hut, move_self, hafter] at hu
          cases hu
        · rw [move_other hut] at hu
          exact absurd (hone u t hu hbefore) hut
    · rw [Bool.not_eq_true] at hbefore
      by_cases hafter : holds p = true
      · obtain ⟨hunlocked, hlocked⟩ := hlock.acquire hstep hbefore hafter
        refine ⟨fun hunlocked' => ?_, fun u hu => ?_⟩
        · rw [move_shared, hlocked] at hunlocked'
          cases hunlocked'
        · have hut : u = t := hone' u t hu (by rw [move_self]; exact hafter)
          rw [hut, move_self]
          exact hprotects.acquire hstep hbefore hafter (hfree' hunlocked)
      · rw [Bool.not_eq_true] at hafter
        obtain ⟨hkeepsFree, hkeepsHeld⟩ := hprotects.outside hstep hbefore hafter
        refine ⟨fun hunlocked => hkeepsFree (hfree' ?_), fun u hu => ?_⟩
        · rw [← hlock.outside hstep hbefore hafter]
          exact hunlocked
        · by_cases hut : u = t
          · rw [hut, move_self, hafter] at hu
            cases hu
          · rw [move_other hut] at hu ⊢
            exact hkeepsHeld _ hu (hheld' u hu)

end Lock

end Monitor

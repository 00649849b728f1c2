import Mathlib

/-! # Episodes of a run

A run has episodes: some calls begin one, and it lasts for as long as the states show it.  A state
within an episode has a history: the call that began it, and the calls since (`exists_episode`).
What holds when an episode begins, and is kept while it lasts, holds of every such history
(`Episode.induction`).
-/
namespace Episodes
open List

section Run
variable {S C : Type} {step : S → C → S} {start : S}

/-- The state after the calls. -/
def run (step : S → C → S) (start : S) (calls : List C) : S := calls.foldl step start

@[simp] theorem run_nil : run step start [] = start := rfl

@[simp] theorem run_append (calls more : List C) :
    run step start (calls ++ more) = run step (run step start calls) more := foldl_append

@[simp] theorem run_cons (call : C) (calls : List C) :
    run step start (call :: calls) = run step (step start call) calls := rfl

/-- **The invariant rule.** -/
theorem run_induction {P : S → Prop} (hstart : P start) (hstep : ∀ s call, P s → P (step s call))
    (calls : List C) : P (run step start calls) := by
  induction calls generalizing start with
  | nil => exact hstart
  | cons call calls ih => exact ih (hstep start call hstart)

variable (step start) (begins : S → C → Prop) (lasts : S → Prop)

/-- An episode that `first` began after the calls `before`, and that has lasted over `after`. -/
structure Episode (before : List C) (first : C) (after : List C) : Prop where
  begun : begins (run step start before) first
  lasting : ∀ l r, after = l ++ r → lasts (run step start (before ++ first :: l))
  single : ∀ l call r, after = l ++ call :: r → ¬begins (run step start (before ++ first :: l)) call

variable {step start begins lasts}

theorem Episode.single_call {before : List C} {first : C}
    (hbegun : begins (run step start before) first)
    (h : lasts (step (run step start before) first)) :
    Episode step start begins lasts before first [] where
  begun := hbegun
  lasting := by
    intro l r heq
    obtain ⟨rfl, -⟩ := append_eq_nil_iff.mp heq.symm
    rw [run_append]
    exact h
  single := by
    intro l call r heq
    exact absurd heq.symm (append_ne_nil_of_right_ne_nil _ (cons_ne_nil _ _))

/-- One call more. -/
theorem Episode.snoc {before after : List C} {first call : C}
    (h : Episode step start begins lasts before first after)
    (hcall : ¬begins (run step start (before ++ first :: after)) call)
    (hlasts : lasts (step (run step start (before ++ first :: after)) call)) :
    Episode step start begins lasts before first (after ++ [call]) where
  begun := h.begun
  lasting := by
    intro l r heq
    rcases eq_nil_or_concat' r with rfl | ⟨r, c, rfl⟩
    · rw [append_nil] at heq
      subst heq
      rw [← cons_append, ← append_assoc, run_append]
      exact hlasts
    · rw [← append_assoc] at heq
      exact h.lasting l r (append_inj_left' heq rfl)
  single := by
    intro l c r heq
    rcases eq_nil_or_concat' r with rfl | ⟨r, d, rfl⟩
    · obtain ⟨rfl, hc⟩ := append_inj' heq rfl
      cases hc
      exact hcall
    · rw [← cons_append, ← append_assoc] at heq
      exact h.single l c r (append_inj_left' heq rfl)

/-- A state within an episode has its history. -/
theorem exists_episode (hstart : ¬lasts start)
    (hbegins : ∀ calls call, begins (run step start calls) call →
      lasts (step (run step start calls) call))
    (hstep : ∀ calls call, lasts (step (run step start calls) call) →
      ¬begins (run step start calls) call → lasts (run step start calls))
    (calls : List C) (h : lasts (run step start calls)) : ∃ before first after,
      calls = before ++ first :: after ∧ Episode step start begins lasts before first after := by
  induction calls using reverseRecOn with
  | nil => exact absurd h hstart
  | append_singleton calls call ih =>
    rw [run_append] at h
    by_cases hcall : begins (run step start calls) call
    · exact ⟨calls, call, [], rfl, .single_call hcall (hbegins _ _ hcall)⟩
    · obtain ⟨before, first, after, rfl, hepisode⟩ := ih (hstep _ _ h hcall)
      refine ⟨before, first, after ++ [call], ?_, hepisode.snoc hcall h⟩
      rw [append_assoc, cons_append]

/-- **The rule for what holds throughout an episode.** -/
theorem Episode.induction {before after : List C} {first : C} {R : List C → S → Prop}
    (h : Episode step start begins lasts before first after)
    (hbegin : R [] (step (run step start before) first))
    (hkeep : ∀ l call s, R l s → lasts s → ¬begins s call → lasts (step s call) →
      R (l ++ [call]) (step s call)) : R after (run step start (before ++ first :: after)) := by
  induction after using reverseRecOn with
  | nil =>
    rw [run_append]
    exact hbegin
  | append_singleton after call ih =>
    have hshort : Episode step start begins lasts before first after :=
      ⟨h.begun, fun l r heq => h.lasting l (r ++ [call]) (by rw [heq, append_assoc]),
        fun l c r heq => h.single l c (r ++ [call]) (by rw [heq, append_assoc]; rfl)⟩
    have hafter := h.lasting (after ++ [call]) [] (append_nil _).symm
    rw [← cons_append, ← append_assoc, run_append] at hafter ⊢
    exact hkeep _ _ _ (ih hshort) (hshort.lasting after [] (append_nil _).symm)
      (h.single after call [] rfl) hafter

end Run

end Episodes

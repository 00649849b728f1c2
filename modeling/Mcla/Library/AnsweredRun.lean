import Mathlib

/-! # Runs with answers

A machine takes calls one after another and answers each; a run is the state it ends in with
the answers it gave, oldest first.  What holds at the start and is kept by every call holds
after every run.
-/
namespace AnsweredRun
open List
variable {S C A : Type} {step : S → C → S × A} {start : S}

/-- The state after the calls, and the answers to them. -/
def run (step : S → C → S × A) (start : S) (calls : List C) : S × List A :=
  calls.foldl (fun s call => ((step s.1 call).1, s.2 ++ [(step s.1 call).2])) (start, [])

theorem run_append (calls : List C) (call : C) :
    run step start (calls ++ [call]) =
      ((step (run step start calls).1 call).1,
        (run step start calls).2 ++ [(step (run step start calls).1 call).2]) := by
  simp [run]

/-- **The invariant rule.** -/
theorem run_induction {P : S → List A → Prop} (hstart : P start [])
    (hstep : ∀ s as call, P s as → P (step s call).1 (as ++ [(step s call).2]))
    (calls : List C) : P (run step start calls).1 (run step start calls).2 := by
  induction calls using reverseRecOn with
  | nil => exact hstart
  | append_singleton calls call ih =>
    rw [run_append]
    exact hstep _ _ call ih

/-- The state does not depend on the answers. -/
theorem run_fst (calls : List C) :
    (run step start calls).1 = calls.foldl (fun s call => (step s call).1) start := by
  induction calls using reverseRecOn with
  | nil => rfl
  | append_singleton calls call ih => rw [run_append, foldl_append, ih]; rfl

theorem run_fst_append (calls more : List C) :
    (run step start (calls ++ more)).1 =
      more.foldl (fun s call => (step s call).1) (run step start calls).1 := by
  rw [run_fst, run_fst, foldl_append]

/-- A state that no call leaves is never left. -/
theorem foldl_fixed {s : S} (h : ∀ call, (step s call).1 = s) (more : List C) :
    more.foldl (fun s call => (step s call).1) s = s := by
  induction more with
  | nil => rfl
  | cons call more ih => rw [foldl_cons, h call, ih]

theorem length_run (calls : List C) : (run step start calls).2.length = calls.length := by
  induction calls using reverseRecOn with
  | nil => rfl
  | append_singleton calls call ih => simp [run_append, ih]

/-! ### A list with one item more -/

variable {α : Type} {xs : List α} {x a : α} {n : Nat}

theorem getElem?_snoc (h : (xs ++ [x])[n]? = some a) : xs[n]? = some a ∨ n = xs.length ∧ a = x := by
  rw [getElem?_append] at h
  split at h
  · exact Or.inl h
  · rename_i hn
    obtain ⟨hlt, heq⟩ := List.getElem?_eq_some_iff.mp h
    rw [length_singleton] at hlt
    have hzero : n - xs.length = 0 := by omega
    simp only [hzero, getElem_cons_zero] at heq
    exact Or.inr ⟨by omega, heq.symm⟩

theorem getElem?_before (h : xs[n]? = some a) : (xs ++ [x])[n]? = some a := by
  rw [getElem?_append_left (List.getElem?_eq_some_iff.mp h).1]
  exact h

theorem getElem?_last (xs : List α) (x : α) : (xs ++ [x])[xs.length]? = some x := by
  simp

theorem lt_length (h : xs[n]? = some a) : n < xs.length := (List.getElem?_eq_some_iff.mp h).1

/-! ### What stands where -/

/-- The `n`th item has the property. -/
def At (P : α → Prop) (xs : List α) (n : Nat) : Prop := ∃ a, xs[n]? = some a ∧ P a

variable {P : α → Prop}

theorem not_at_nil : ¬At P [] n := by
  rintro ⟨a, ha, -⟩
  simp at ha

theorem At.lt (h : At P xs n) : n < xs.length := by
  obtain ⟨a, ha, -⟩ := h
  exact lt_length ha

theorem At.before (h : At P xs n) (x : α) : At P (xs ++ [x]) n := by
  obtain ⟨a, ha, hP⟩ := h
  exact ⟨a, getElem?_before ha, hP⟩

theorem At.last (xs : List α) (h : P x) : At P (xs ++ [x]) xs.length := ⟨x, getElem?_last xs x, h⟩

theorem At.snoc (h : At P (xs ++ [x]) n) : At P xs n ∨ n = xs.length ∧ P x := by
  obtain ⟨a, ha, hP⟩ := h
  rcases getElem?_snoc ha with hold | ⟨hn, rfl⟩
  · exact Or.inl ⟨a, hold, hP⟩
  · exact Or.inr ⟨hn, hP⟩

theorem At.of_snoc (h : At P (xs ++ [x]) n) (hx : ¬P x) : At P xs n := by
  rcases h.snoc with hold | ⟨-, hnew⟩
  · exact hold
  · exact absurd hnew hx

theorem At.of_snoc_lt (h : At P (xs ++ [x]) n) (hn : n < xs.length) : At P xs n := by
  rcases h.snoc with hold | ⟨heq, -⟩
  · exact hold
  · omega

/-- The numbers that items have grow along the list. -/
def Rises (P : α → Nat → Prop) (xs : List α) : Prop :=
  ∀ m n i j, At (P · i) xs m → At (P · j) xs n → m < n → i < j

theorem rises_nil (P : α → Nat → Prop) : Rises P [] := by
  intro m n i j h
  exact absurd h not_at_nil

theorem Rises.snoc {P : α → Nat → Prop} (h : Rises P xs)
    (hx : ∀ j, P x j → ∀ m i, At (P · i) xs m → i < j) : Rises P (xs ++ [x]) := by
  intro m n i j hi hj hlt
  have hn := hj.lt
  rw [length_append, length_singleton] at hn
  have hi' := hi.of_snoc_lt (by omega)
  rcases hj.snoc with hold | ⟨-, hnew⟩
  · exact h m n i j hi' hold hlt
  · exact hx j hnew m i hi'

/-- A number that rises stands once. -/
theorem Rises.once {P : α → Nat → Prop} (h : Rises P xs) {m i : Nat}
    (hm : At (P · i) xs m) (hn : At (P · i) xs n) : m = n := by
  rcases Nat.lt_trichotomy m n with hlt | heq | hlt
  · have := h m n i i hm hn hlt
    omega
  · exact heq
  · have := h n m i i hn hm hlt
    omega

end AnsweredRun

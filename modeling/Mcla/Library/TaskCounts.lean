import Mathlib

/-! # Counting tasks

Tasks run side by side, each with its own place in its program; a list holds the places.  One
task moves at a time, so a count of the tasks at certain places changes by the place it left
and the one it came to.
-/
namespace TaskCounts
open List
variable {α : Type} {xs : List α} {a b : α} {i : Nat} {p q : α → Bool}

/-- One for a task that counts. -/
def unit (p : α → Bool) (a : α) : Nat := if p a then 1 else 0

theorem countP_set (h : xs[i]? = some a) (p : α → Bool) (b : α) :
    (xs.set i b).countP p + unit p a = xs.countP p + unit p b := by
  induction xs generalizing i with
  | nil => simp at h
  | cons x xs ih =>
    cases i with
    | zero =>
      simp only [getElem?_cons_zero, Option.some.injEq] at h
      subst h
      simp only [set_cons_zero, countP_cons, unit]
      omega
    | succ i =>
      simp only [getElem?_cons_succ] at h
      have := ih h
      simp only [set_cons_succ, countP_cons]
      omega

theorem countP_snoc (xs : List α) (p : α → Bool) (b : α) :
    (xs ++ [b]).countP p = xs.countP p + unit p b := by
  simp [unit, countP_cons]

theorem unit_le_countP (h : xs[i]? = some a) (p : α → Bool) : unit p a ≤ xs.countP p := by
  unfold unit
  split
  · rename_i hp
    exact countP_pos_iff.mpr ⟨a, mem_of_getElem? h, hp⟩
  · omega

/-- Where only one task can count, the count is its own. -/
theorem countP_alone (h : xs[i]? = some a)
    (halone : ∀ j b, xs[j]? = some b → p b = true → j = i) : xs.countP p = unit p a := by
  induction xs generalizing i with
  | nil => simp at h
  | cons x xs ih =>
    cases i with
    | zero =>
      simp only [getElem?_cons_zero, Option.some.injEq] at h
      subst h
      have hzero : xs.countP p = 0 := by
        rw [countP_eq_zero]
        intro b hb hp
        obtain ⟨j, hj⟩ := mem_iff_getElem?.mp hb
        have := halone (j + 1) b (by simpa using hj) hp
        omega
      simp [countP_cons, hzero, unit]
    | succ i =>
      simp only [getElem?_cons_succ] at h
      have hx : p x = false := by
        by_contra hp
        have := halone 0 x (by simp) (by simpa using hp)
        omega
      have htail : ∀ j b, xs[j]? = some b → p b = true → j = i := fun j b hb hp =>
        Nat.succ.inj (halone (j + 1) b (by simpa using hb) hp)
      rw [countP_cons, ih h htail]
      simp [hx]

theorem countP_le (xs : List α) (h : ∀ a, p a = true → q a = true) : xs.countP p ≤ xs.countP q :=
  countP_mono_left fun a _ => h a

/-- A place in the list after one task moved. -/
theorem getElem?_set_cases {j : Nat} (h : (xs.set i b)[j]? = some a) :
    j = i ∧ a = b ∨ j ≠ i ∧ xs[j]? = some a := by
  rw [getElem?_set] at h
  by_cases heq : i = j
  · simp only [heq, if_true] at h
    split at h
    · exact Or.inl ⟨heq.symm, (Option.some.inj h).symm⟩
    · cases h
  · rw [if_neg heq] at h
    exact Or.inr ⟨Ne.symm heq, h⟩

end TaskCounts

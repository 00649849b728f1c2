import Mathlib

/-! # Marks on pairs

Items arrive one after another, and an item is marked when another one that is there is
related to it.  The marks are kept up as items arrive: a newcomer is compared with each item
before it, and a related pair marks both.  For a symmetric relation this gives every item its
mark, so that the order of arrival does not matter.
-/
namespace PairMarks
open List
variable {α : Type} [DecidableEq α] {R : α → α → Bool} {xs ys : List α}

/-- Every item with its mark. -/
def marked (R : α → α → Bool) (xs : List α) : List (α × Bool) :=
  xs.map fun x => (x, (xs.erase x).any (R x))

/-- The newcomer `x` is compared with all items before it. -/
theorem marked_append (hR : ∀ a b, R a b = R b a) (xs : List α) (x : α) :
    marked R (xs ++ [x]) =
      (marked R xs).map (fun m => (m.1, m.2 || R x m.1)) ++ [(x, xs.any (R x))] := by
  unfold marked
  rw [map_append, map_map]
  congr 1
  · apply map_congr_left
    intro y hy
    simp [erase_append_left _ hy, hR x y]
  · have hperm : ((xs ++ [x]).erase x).Perm xs := by
      have h := (perm_append_singleton x xs).erase x
      rwa [erase_cons_head] at h
    simp [hperm.any_eq]

theorem marked_perm (h : xs.Perm ys) : (marked R xs).Perm (marked R ys) := by
  have hmark : ∀ x, (xs.erase x).any (R x) = (ys.erase x).any (R x) := fun x => (h.erase x).any_eq
  simp only [marked, hmark]
  exact h.map _

theorem erase_any_iff {i : Nat} (hi : i < xs.length) (p : α → Bool) :
    (xs.erase xs[i]).any p ↔ ∃ k, ∃ hk : k < xs.length, k ≠ i ∧ p xs[k] := by
  have hperm : (xs.erase xs[i]).Perm (xs.eraseIdx i) :=
    (perm_cons_erase (getElem_mem hi)).symm.trans
      (getElem_cons_eraseIdx_perm hi).symm |>.cons_inv
  rw [hperm.any_eq, any_eq_true]
  constructor
  · rintro ⟨y, hy, hp⟩
    obtain ⟨k, hk, hne, rfl⟩ := mem_eraseIdx_iff_getElem.mp hy
    exact ⟨k, hk, hne, hp⟩
  · rintro ⟨k, hk, hne, hp⟩
    exact ⟨xs[k], mem_eraseIdx_iff_getElem.mpr ⟨k, hk, hne, rfl⟩, hp⟩

/-- An item is marked exactly when another one, at another place, is related to it. -/
theorem marked_getElem {i : Nat} (hi : i < (marked R xs).length) (hx : i < xs.length) :
    (marked R xs)[i].2 = true ↔ ∃ k, ∃ hk : k < xs.length, k ≠ i ∧ R xs[i] xs[k] := by
  simp only [marked, getElem_map]
  exact erase_any_iff hx _

end PairMarks

import Mathlib

/-! # Numbered tables

A table whose rows carry their own number, the first being row 1.  Rows are only ever added
at the end and changed in place, so a number names the same row for good.  The second half
counts the items that point into a table, row by row.
-/
namespace NumberedTable
open List Option
variable {α β : Type} {id : α → Nat} {rows : List α} {a b : α} {f : α → α}

/-- Each row is numbered by its place, from one. -/
def Numbered (id : α → Nat) (rows : List α) : Prop := ∀ i a, rows[i]? = some a → id a = i + 1

theorem numbered_nil : Numbered id [] := by
  intro i a h
  simp at h

theorem Numbered.append (h : Numbered id rows) (hrow : id a = rows.length + 1) :
    Numbered id (rows ++ [a]) := by
  intro i b hb
  rw [getElem?_append] at hb
  split at hb
  · exact h i b hb
  · rename_i hge
    obtain ⟨hi, rfl⟩ := List.getElem?_eq_some_iff.mp hb
    rw [length_singleton] at hi
    have hlast : i - rows.length = 0 := by omega
    simp only [hlast, getElem_cons_zero, hrow]
    omega

theorem Numbered.modify (h : Numbered id rows) (hf : ∀ a, id (f a) = id a) (i : Nat) :
    Numbered id (rows.modify i f) := by
  intro k b hb
  rw [getElem?_modify] at hb
  obtain ⟨a, ha, rfl⟩ := map_eq_some_iff.mp hb
  split
  · rw [hf]
    exact h k a ha
  · exact h k a ha

/-- A row is found under its number. -/
theorem Numbered.get (h : Numbered id rows) (ha : a ∈ rows) : rows[id a - 1]? = some a := by
  obtain ⟨i, hi⟩ := mem_iff_getElem?.mp ha
  rw [h i a hi, Nat.add_sub_cancel]
  exact hi

theorem Numbered.range (h : Numbered id rows) (ha : a ∈ rows) : 1 ≤ id a ∧ id a ≤ rows.length := by
  obtain ⟨i, hi⟩ := mem_iff_getElem?.mp ha
  have hlt := (List.getElem?_eq_some_iff.mp hi).1
  rw [h i a hi]
  omega

theorem Numbered.inj (h : Numbered id rows) (ha : a ∈ rows) (hb : b ∈ rows)
    (heq : id a = id b) : a = b := by
  have hfound := h.get ha
  rw [heq, h.get hb] at hfound
  exact (some.inj hfound).symm

/-- The numbers in their order. -/
theorem Numbered.map_eq (h : Numbered id rows) : rows.map id = List.range' 1 rows.length := by
  refine ext_getElem? fun i => ?_
  rw [getElem?_map]
  rcases Nat.lt_or_ge i rows.length with hi | hi
  · rw [getElem?_eq_getElem hi, getElem?_range' hi, map_some, h i _ (getElem?_eq_getElem hi)]
    simp [Nat.add_comm]
  · rw [getElem?_eq_none hi, getElem?_eq_none (by simpa using hi), map_none]

theorem mem_modify {i : Nat} (h : b ∈ rows.modify i f) :
    b ∈ rows ∨ ∃ a, rows[i]? = some a ∧ b = f a := by
  obtain ⟨k, hk⟩ := mem_iff_getElem?.mp h
  rw [getElem?_modify] at hk
  obtain ⟨a, ha, rfl⟩ := map_eq_some_iff.mp hk
  split
  · rename_i heq
    exact .inr ⟨a, heq ▸ ha, rfl⟩
  · exact .inl (mem_of_getElem? ha)

/-- A relation between the rows, in their order, that the changed row keeps. -/
theorem pairwise_modify {R : α → α → Prop} {i : Nat} (h : rows.Pairwise R)
    (hf : ∀ a, rows[i]? = some a → (∀ b ∈ rows, R b a → R b (f a)) ∧ ∀ b ∈ rows, R a b → R (f a) b) :
    (rows.modify i f).Pairwise R := by
  induction rows generalizing i with
  | nil => simp
  | cons c rows ih =>
    obtain ⟨hc, hrows⟩ := pairwise_cons.mp h
    cases i with
    | zero =>
      rw [modify_zero_cons, pairwise_cons]
      refine ⟨fun b hb => ?_, hrows⟩
      exact (hf c rfl).2 b (mem_cons_of_mem _ hb) (hc b hb)
    | succ i =>
      rw [modify_succ_cons, pairwise_cons]
      refine ⟨fun b hb => ?_, ih hrows fun a ha => ?_⟩
      · rcases mem_modify hb with hb | ⟨a, ha, rfl⟩
        · exact hc b hb
        · exact (hf a (by simpa using ha)).1 c mem_cons_self (hc a (mem_of_getElem? ha))
      · obtain ⟨hleft, hright⟩ := hf a (by simpa using ha)
        exact ⟨fun b hb => hleft b (mem_cons_of_mem _ hb),
          fun b hb => hright b (mem_cons_of_mem _ hb)⟩

/-- Of two rows the one with the smaller number comes first. -/
theorem Numbered.of_pairwise {R : α → α → Prop} (h : Numbered id rows) (hpairs : rows.Pairwise R)
    (ha : a ∈ rows) (hb : b ∈ rows) (hlt : id a < id b) : R a b := by
  obtain ⟨i, hi, rfl⟩ := mem_iff_getElem.mp ha
  obtain ⟨k, hk, rfl⟩ := mem_iff_getElem.mp hb
  rw [h i _ (getElem?_eq_getElem hi), h k _ (getElem?_eq_getElem hk)] at hlt
  exact pairwise_iff_getElem.mp hpairs i k hi hk (by omega)

/-- What the rows of a table are after one of them was changed. -/
theorem Numbered.mem_modify (h : Numbered id rows) {i : Nat} :
    b ∈ rows.modify i f ↔ (b ∈ rows ∧ id b ≠ i + 1) ∨ ∃ a, rows[i]? = some a ∧ b = f a := by
  constructor
  · intro hb
    obtain ⟨k, hk⟩ := mem_iff_getElem?.mp hb
    rw [getElem?_modify] at hk
    obtain ⟨a, ha, rfl⟩ := map_eq_some_iff.mp hk
    split
    · rename_i heq
      exact .inr ⟨a, heq ▸ ha, rfl⟩
    · rename_i hne
      refine .inl ⟨mem_of_getElem? ha, ?_⟩
      rw [h k a ha]
      omega
  · rintro (⟨hb, hne⟩ | ⟨a, ha, rfl⟩)
    · obtain ⟨k, hk⟩ := mem_iff_getElem?.mp hb
      have hnum := h k b hk
      refine mem_iff_getElem?.mpr ⟨k, ?_⟩
      rw [getElem?_modify, hk, Option.map_eq_map, map_some, if_neg (by omega)]
    · refine mem_iff_getElem?.mpr ⟨i, ?_⟩
      rw [getElem?_modify, ha, Option.map_eq_map, map_some, if_pos rfl]

theorem countP_modify (p : α → Bool) {i : Nat} (h : rows[i]? = some a) :
    (rows.modify i f).countP p + (if p a then 1 else 0) =
      rows.countP p + (if p (f a) then 1 else 0) := by
  induction rows generalizing i with
  | nil => simp at h
  | cons b rows ih =>
    cases i with
    | zero =>
      obtain rfl := some.inj h
      rw [modify_zero_cons, countP_cons, countP_cons]
      omega
    | succ i =>
      have hrest := ih (by simpa using h)
      rw [modify_succ_cons, countP_cons, countP_cons]
      omega

theorem Numbered.init {rows' : List α} (h : Numbered id (rows ++ rows')) : Numbered id rows := by
  intro i a ha
  have hi := (List.getElem?_eq_some_iff.mp ha).1
  exact h i a (by rw [getElem?_append_left hi, ha])

/-- One row carries a number. -/
theorem Numbered.sum_ite (h : Numbered id rows) {k : Nat} :
    (rows.map fun a => if k = id a then 1 else 0).sum =
      if 1 ≤ k ∧ k ≤ rows.length then 1 else 0 := by
  induction rows using reverseRecOn with
  | nil =>
    rw [if_neg]
    · rfl
    · rw [length_nil]
      omega
  | append_singleton rows a ih =>
    have hlast : id a = rows.length + 1 := h rows.length a (by simp)
    rw [map_append, sum_append, ih h.init, map_singleton, sum_singleton, hlast,
      length_append, length_singleton]
    split_ifs <;> omega

/-- Items that point at rows, counted row by row. -/
theorem Numbered.sum_countP (h : Numbered id rows) (own : β → Nat) (p : β → Bool) (items : List β)
    (hown : ∀ b ∈ items, 1 ≤ own b ∧ own b ≤ rows.length) :
    (rows.map fun a => items.countP fun b => own b = id a ∧ p b).sum = items.countP p := by
  induction items with
  | nil => simp
  | cons b items ih =>
    obtain ⟨hb, hitems⟩ := forall_mem_cons.mp hown
    have hone : (rows.map fun a => if own b = id a ∧ p b = true then 1 else 0).sum =
        if p b = true then 1 else 0 := by
      by_cases hp : p b = true
      · simp only [hp, and_true, if_true]
        rw [h.sum_ite, if_pos hb]
      · simp [hp]
    simp only [countP_cons, decide_eq_true_eq, sum_map_add, ih hitems, hone]

end NumberedTable

import Mathlib

/-! # Components of overlapping intervals

Intervals `[entry, exit]` that are sorted by entry fall into components: one that begins after
all before it have ended opens a new component.  Components follow one another strictly, so in
any order that respects the intervals the elements of one component come before those of the
next.
-/
namespace Mcla.Intervals
open List
variable {α : Type*} (entry exit : α → Nat)

/-- The components, where `group` is open and ends at `last`. -/
def grow (group : List α) (last : Nat) : List α → List (List α)
  | [] => [group]
  | row :: rows =>
    if entry row > last then group :: grow [row] (exit row) rows
    else grow (group ++ [row]) (max last (exit row)) rows

/-- The groups of items that touch. -/
def components : List α → List (List α)
  | [] => []
  | row :: rows => grow entry exit [row] (exit row) rows

variable {entry exit}

theorem grow_flatten (group : List α) (last : Nat) (rows : List α) :
    (grow entry exit group last rows).flatten = group ++ rows := by
  induction rows generalizing group last with
  | nil => simp [grow]
  | cons row rows ih =>
    unfold grow
    split
    · rw [flatten_cons, ih]
      rfl
    · rw [ih, append_assoc]
      rfl

theorem components_flatten (rows : List α) : (components entry exit rows).flatten = rows := by
  cases rows with
  | nil => rfl
  | cons row rows => exact grow_flatten [row] (exit row) rows

theorem grow_ne_nil {group : List α} (hgroup : group ≠ []) (last : Nat) (rows : List α) :
    ∀ g ∈ grow entry exit group last rows, g ≠ [] := by
  induction rows generalizing group last with
  | nil =>
    intro g hg
    rwa [mem_singleton.mp hg]
  | cons row rows ih =>
    unfold grow
    split
    · intro g hg
      rcases mem_cons.mp hg with rfl | hg
      · exact hgroup
      · exact ih (cons_ne_nil _ _) _ g hg
    · exact ih (by simp) _

theorem components_ne_nil (rows : List α) : ∀ g ∈ components entry exit rows, g ≠ [] := by
  cases rows with
  | nil => simp [components]
  | cons row rows => exact grow_ne_nil (cons_ne_nil _ _) _ rows

variable (entry exit) in
/-- All of `g` have ended when any of `h` begins. -/
def Before (g h : List α) : Prop := ∀ a ∈ g, ∀ b ∈ h, exit a < entry b

theorem grow_pairwise {group : List α} {last : Nat} {rows : List α}
    (hrows : rows.Pairwise fun a b => entry a ≤ entry b) (hgroup : ∀ a ∈ group, exit a ≤ last) :
    (grow entry exit group last rows).Pairwise (Before entry exit) := by
  induction rows generalizing group last with
  | nil => exact pairwise_singleton _ _
  | cons row rows ih =>
    obtain ⟨hfirst, hrest⟩ := pairwise_cons.mp hrows
    unfold grow
    split
    · rename_i hlate
      refine pairwise_cons.mpr ⟨fun g hg a ha b hb => ?_, ih hrest (by simp)⟩
      have hmem : b ∈ row :: rows := by
        have hflat := mem_flatten.mpr ⟨g, hg, hb⟩
        rwa [grow_flatten] at hflat
      have hb : entry row ≤ entry b := by
        rcases mem_cons.mp hmem with rfl | hmem
        · exact Nat.le_refl _
        · exact hfirst b hmem
      exact Nat.lt_of_le_of_lt (hgroup a ha) (Nat.lt_of_lt_of_le hlate hb)
    · refine ih hrest fun a ha => ?_
      rcases mem_append.mp ha with ha | ha
      · exact (hgroup a ha).trans (le_max_left _ _)
      · rw [mem_singleton.mp ha]
        exact le_max_right _ _

/-- The components of sorted intervals follow one another. -/
theorem components_pairwise {rows : List α} (hrows : rows.Pairwise fun a b => entry a ≤ entry b) :
    (components entry exit rows).Pairwise (Before entry exit) := by
  cases rows with
  | nil => exact .nil
  | cons row rows => exact grow_pairwise (pairwise_cons.mp hrows).2 (by simp)

/-- The first components are the components of what they hold. -/
theorem grow_take (group : List α) (last : Nat) (rows : List α) (k : Nat) :
    ∃ rest, ((grow entry exit group last rows).take (k + 1)).flatten = group ++ rest ∧
      grow entry exit group last rest = (grow entry exit group last rows).take (k + 1) := by
  induction rows generalizing group last k with
  | nil => exact ⟨[], by simp [grow], by simp [grow]⟩
  | cons row rows ih =>
    unfold grow
    by_cases hlate : entry row > last
    · rw [if_pos hlate]
      cases k with
      | zero => exact ⟨[], by simp, by simp⟩
      | succ k =>
        obtain ⟨rest, hflat, hgrow⟩ := ih [row] (exit row) k
        refine ⟨row :: rest, by rw [take_succ_cons, flatten_cons, hflat]; rfl, ?_⟩
        dsimp only
        rw [if_pos hlate, hgrow, ← take_succ_cons]
    · rw [if_neg hlate]
      obtain ⟨rest, hflat, hgrow⟩ := ih (group ++ [row]) (max last (exit row)) k
      refine ⟨row :: rest, by rw [hflat, append_assoc]; rfl, ?_⟩
      dsimp only
      rw [if_neg hlate, hgrow]

theorem components_take (rows : List α) (k : Nat) :
    components entry exit ((components entry exit rows).take k).flatten =
      (components entry exit rows).take k := by
  cases rows with
  | nil => simp [components]
  | cons row rows =>
    cases k with
    | zero => simp [components]
    | succ k =>
      obtain ⟨rest, hflat, hgrow⟩ := @grow_take _ entry exit [row] (exit row) rows k
      show components entry exit (List.flatten ((grow entry exit [row] (exit row) rows).take (k + 1))) =
        (grow entry exit [row] (exit row) rows).take (k + 1)
      rw [hflat, ← hgrow]
      rfl

/-- Components of intervals that are carried over by `f`. -/
theorem grow_map {β : Type*} {entry' exit' : β → Nat} {f : α → β} {group rows : List α} {last : Nat}
    (h : ∀ row ∈ rows, entry' (f row) = entry row ∧ exit' (f row) = exit row) :
    grow entry' exit' (group.map f) last (rows.map f) =
      (grow entry exit group last rows).map (List.map f) := by
  induction rows generalizing group last with
  | nil => rfl
  | cons row rows ih =>
    obtain ⟨⟨hentry, hexit⟩, hrest⟩ := forall_mem_cons.mp h
    simp only [map_cons, grow, hentry, hexit]
    split
    · have hnext := @ih [row] (exit row) hrest
      rw [map_cons, map_nil] at hnext
      rw [hnext, map_cons]
    · have hnext := @ih (group ++ [row]) (max last (exit row)) hrest
      rwa [map_append] at hnext

theorem components_map {β : Type*} {entry' exit' : β → Nat} {f : α → β} {rows : List α}
    (h : ∀ row ∈ rows, entry' (f row) = entry row ∧ exit' (f row) = exit row) :
    components entry' exit' (rows.map f) = (components entry exit rows).map (List.map f) := by
  cases rows with
  | nil => rfl
  | cons row rows =>
    obtain ⟨⟨-, hexit⟩, hrest⟩ := forall_mem_cons.mp h
    have hgrow := @grow_map _ entry exit _ entry' exit' f [row] rows (exit row) hrest
    simp only [map_cons, components, hexit]
    exact hgrow

/-- In an order of `g` and `h` together in which none of `h` comes before one of `g`, those of
`g` come first. -/
theorem exists_split {β : Type*} {order : List β} {p : β → Prop}
    (horder : order.Pairwise fun a b => p b → p a) :
    ∃ first rest, order = first ++ rest ∧ (∀ a ∈ first, p a) ∧ ∀ b ∈ rest, ¬ p b := by
  classical
  induction order with
  | nil => exact ⟨[], [], rfl, by simp, by simp⟩
  | cons a order ih =>
    obtain ⟨hfirst, hrest⟩ := pairwise_cons.mp horder
    by_cases ha : p a
    · obtain ⟨first, rest, rfl, hyes, hno⟩ := ih hrest
      exact ⟨a :: first, rest, rfl, forall_mem_cons.mpr ⟨ha, hyes⟩, hno⟩
    · refine ⟨[], a :: order, rfl, by simp, forall_mem_cons.mpr ⟨ha, fun b hb => ?_⟩⟩
      exact fun hb' => ha (hfirst b hb hb')

end Mcla.Intervals

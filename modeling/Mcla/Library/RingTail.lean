import Mathlib

/-! # The tail of a history in a ring

A ring of cells is written one after another, round and round; a cursor and a count say which cells
were written last.  It keeps the end of the history of what was written (`contents_of_holds`), and
no more than its cells.
-/
namespace RingTail
open List

/-- A ring of cells, the next of them and how many are filled. -/
structure Ring (α : Type) where
  cells : List α
  (next count : Nat)

section Ring
variable {α : Type}

/-- A new value takes the place of the oldest. -/
def Ring.push (r : Ring α) (a : α) : Ring α where
  cells := r.cells.set r.next a
  next := (r.next + 1) % r.cells.length
  count := if r.count < r.cells.length then r.count + 1 else r.count

/-- The cells that are in use, the oldest first. -/
def Ring.contents (r : Ring α) (blank : α) : List α :=
  (List.range r.count).map fun i =>
    r.cells.getD (((r.next + r.cells.length - r.count) % r.cells.length + i) % r.cells.length) blank

/-- The ring holds the end of a history. -/
structure Holds (r : Ring α) (history : List α) : Prop where
  pos : 0 < r.cells.length
  next : r.next = history.length % r.cells.length
  count : r.count = min history.length r.cells.length
  cells : ∀ i, history.length - r.count ≤ i → i < history.length →
    r.cells[i % r.cells.length]? = history[i]?

variable {r : Ring α} {history : List α}

theorem holds_nil (hpos : 0 < r.cells.length) (hnext : r.next = 0) (hcount : r.count = 0) :
    Holds r [] where
  pos := hpos
  next := by rw [hnext, length_nil, Nat.zero_mod]
  count := by rw [hcount, length_nil, Nat.zero_min]
  cells := fun i _ hi => absurd hi (Nat.not_lt_zero i)

/-- Two places of the history that are less than a round apart stand in two cells. -/
theorem mod_ne_of_lt {i j n : Nat} (hlt : i < j) (hnear : j < i + n) : i % n ≠ j % n := by
  intro heq
  have hdvd := (Nat.modEq_iff_dvd' (Nat.le_of_lt hlt)).mp heq
  have hle := Nat.le_of_dvd (by omega) hdvd
  omega

theorem Holds.push (h : Holds r history) (a : α) : Holds (r.push a) (history ++ [a]) := by
  have hlength : (r.push a).cells.length = r.cells.length := length_set
  have hpos := h.pos
  have hcount : (r.push a).count = min (history.length + 1) r.cells.length := by
    have := h.count
    unfold Ring.push
    dsimp only
    split <;> omega
  refine ⟨?_, ?_, ?_, ?_⟩
  · rw [hlength]
    exact h.pos
  · rw [hlength, length_append, length_singleton]
    change (r.next + 1) % r.cells.length = _
    rw [h.next, Nat.mod_add_mod]
  · rw [hcount, hlength, length_append, length_singleton]
  · intro i hlow hlt
    rw [length_append, length_singleton] at hlow hlt
    rw [hlength]
    change (r.cells.set r.next a)[i % r.cells.length]? = _
    rw [getElem?_set, h.next]
    by_cases hlast : i = history.length
    · subst hlast
      rw [if_pos rfl, if_pos (Nat.mod_lt _ hpos), getElem?_concat_length]
    · have hbefore : i < history.length := by omega
      have hne : i % r.cells.length ≠ history.length % r.cells.length :=
        mod_ne_of_lt hbefore (by omega)
      rw [if_neg (Ne.symm hne), getElem?_append_left hbefore]
      refine h.cells i ?_ hbefore
      have := h.count
      omega

/-- What the ring gives is the end of the history. -/
theorem contents_of_holds (h : Holds r history) (blank : α) :
    r.contents blank = history.drop (history.length - min history.length r.cells.length) := by
  have hpos := h.pos
  apply ext_getElem?
  intro i
  rw [Ring.contents, getElem?_map, getElem?_drop, ← h.count]
  by_cases hi : i < r.count
  · have hle : r.count ≤ history.length := by
      rw [h.count]
      exact Nat.min_le_left _ _
    have hsize : r.count ≤ r.cells.length := by
      rw [h.count]
      exact Nat.min_le_right _ _
    -- the cell of the place `i` after the oldest that is kept
    have hplace : ((r.next + r.cells.length - r.count) % r.cells.length + i) % r.cells.length =
        (history.length - r.count + i) % r.cells.length := by
      rw [Nat.mod_add_mod, h.next]
      have hround : history.length % r.cells.length + r.cells.length - r.count + i +
          r.cells.length * (history.length / r.cells.length) =
          history.length - r.count + i + r.cells.length := by
        have := Nat.mod_add_div history.length r.cells.length
        omega
      have := congrArg (· % r.cells.length) hround
      simpa only [Nat.add_mul_mod_self_left, Nat.add_mod_right] using this
    have hcell := h.cells (history.length - r.count + i) (by omega) (by omega)
    rw [getElem?_range hi, Option.map_some, hplace, ← hcell, getD_eq_getElem?_getD]
    have hlt := Nat.mod_lt (history.length - r.count + i) hpos
    rw [getElem?_eq_getElem hlt]
    rfl
  · have hrange : (List.range r.count)[i]? = none := getElem?_eq_none (by rw [length_range]; omega)
    rw [hrange, Option.map_none]
    have hcount := h.count
    exact (getElem?_eq_none (by omega)).symm

end Ring

end RingTail

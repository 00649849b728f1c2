import Mathlib

/-! # Records in a row

A log is records one after another, in a byte string that another program may have
written and that may end anywhere.  A framing says whether a byte string begins with a
valid record and how long it is; it reads nothing after the record.  Its reading of a byte
string is the longest row of valid records at the front, and to cut the byte string
somewhere only cuts that row.
-/
namespace RecordLog
open List

/-- How a valid record in front is told. -/
structure Framing (α : Type) where
  /-- The length of the valid record in front. -/
  size : List α → Option Nat
  pos : ∀ {b n}, size b = some n → 0 < n
  le : ∀ {b n}, size b = some n → n ≤ b.length
  here : ∀ {b n}, size b = some n → ∀ rest, size (b.take n ++ rest) = some n

namespace Framing
variable {α : Type} (F : Framing α)

/-- The whole of it is one valid record. -/
def IsRecord (r : List α) : Prop := F.size r = some r.length

/-- Valid records that stand one after another at the front of `b`. -/
def Row (b : List α) (rs : List (List α)) : Prop := (∀ r ∈ rs, F.IsRecord r) ∧ rs.flatten <+: b

/-- The records read off with `fuel` steps. -/
def readN : Nat → List α → List (List α)
  | 0, _ => []
  | fuel + 1, b =>
    match F.size b with
    | none => []
    | some n => b.take n :: readN fuel (b.drop n)

/-- The records at the front of `b`. -/
def read (b : List α) : List (List α) := F.readN b.length b

variable {F}

variable {b : List α}

theorem isRecord_take {n : Nat} (h : F.size b = some n) : F.IsRecord (b.take n) := by
  have hhere := F.here h []
  rw [append_nil] at hhere
  rw [IsRecord, hhere, length_take, Nat.min_eq_left (F.le h)]

theorem IsRecord.size_append {r : List α} (h : F.IsRecord r) (rest : List α) :
    F.size (r ++ rest) = some r.length := by
  have hhere := F.here h rest
  rwa [take_length] at hhere

theorem IsRecord.length_pos {r : List α} (h : F.IsRecord r) : 0 < r.length := F.pos h

/-- Fuel for the length of the byte string is enough. -/
theorem readN_eq_read {fuel : Nat} (h : b.length ≤ fuel) : F.readN fuel b = F.read b := by
  have haux : ∀ fuel' fuel (b : List α), b.length ≤ fuel → b.length ≤ fuel' →
      F.readN fuel b = F.readN fuel' b := by
    intro fuel'
    induction fuel' with
    | zero =>
      intro fuel b hfuel hzero
      obtain rfl := length_eq_zero_iff.mp (Nat.le_zero.mp hzero)
      have hnone : F.size [] = none := by
        cases hsize : F.size [] with
        | none => rfl
        | some n => exact absurd (F.le hsize) (Nat.not_le.mpr (F.pos hsize))
      cases fuel with
      | zero => rfl
      | succ fuel => simp only [readN, hnone]
    | succ fuel' ih =>
      intro fuel b hfuel hfuel'
      cases hsize : F.size b with
      | none => cases fuel <;> simp only [readN, hsize]
      | some n =>
        have hpos := F.pos hsize
        have hle := F.le hsize
        obtain ⟨fuel, rfl⟩ : ∃ k, fuel = k + 1 := ⟨fuel - 1, by omega⟩
        simp only [readN, hsize]
        rw [ih fuel (b.drop n) (by rw [length_drop]; omega)
          (by rw [length_drop]; omega)]
  exact haux b.length fuel b h le_rfl

theorem read_none (h : F.size b = none) : F.read b = [] := by
  rw [← readN_eq_read (Nat.le_succ b.length)]
  simp only [readN, h]

theorem read_some {n : Nat} (h : F.size b = some n) : F.read b = b.take n :: F.read (b.drop n) := by
  have hpos := F.pos h
  have hle := F.le h
  rw [← readN_eq_read (Nat.le_succ b.length)]
  simp only [readN, h]
  rw [readN_eq_read (by rw [length_drop]; omega)]

/-- Induction along the records that are read. -/
theorem read_induction {P : List α → Prop} (none : ∀ b, F.size b = none → P b)
    (some : ∀ b n, F.size b = some n → P (b.drop n) → P b) (b : List α) : P b := by
  induction hlength : b.length using Nat.strong_induction_on generalizing b with
  | _ k ih =>
    cases hsize : F.size b with
    | none => exact none b hsize
    | some n =>
      have hpos := F.pos hsize
      have hle := F.le hsize
      exact some b n hsize (ih (b.drop n).length (by rw [length_drop]; omega) _ rfl)

theorem read_row (b : List α) : F.Row b (F.read b) := by
  induction b using read_induction (F := F) with
  | none b h =>
    rw [read_none h]
    exact ⟨fun r hr => (not_mem_nil hr).elim, nil_prefix⟩
  | some b n h ih =>
    rw [read_some h]
    refine ⟨forall_mem_cons.mpr ⟨isRecord_take h, ih.1⟩, ?_⟩
    rw [flatten_cons]
    conv_rhs => rw [← take_append_drop n b]
    exact (prefix_append_right_inj _).mpr ih.2

/-- No row of records at the front goes on after those that are read. -/
theorem row_prefix_read {rs : List (List α)} (h : F.Row b rs) : rs <+: F.read b := by
  induction rs generalizing b with
  | nil => exact nil_prefix
  | cons r rs ih =>
    obtain ⟨hrecords, hpre⟩ := h
    obtain ⟨hr, hrs⟩ := forall_mem_cons.mp hrecords
    obtain ⟨rest, rfl⟩ := hpre
    rw [flatten_cons, append_assoc]
    rw [read_some (hr.size_append _), take_left, drop_left]
    exact cons_prefix_cons.mpr ⟨rfl, ih ⟨hrs, prefix_append _ _⟩⟩

/-- What is read of records one after another are the records. -/
theorem read_flatten {rs : List (List α)} (h : ∀ r ∈ rs, F.IsRecord r) :
    F.read rs.flatten = rs := by
  have hrow := row_prefix_read (b := rs.flatten) ⟨h, prefix_rfl⟩
  have hread := (read_row (F := F) rs.flatten).2.length_le
  obtain ⟨more, hmore⟩ := hrow
  rw [← hmore, flatten_append, length_append] at hread
  have hall := (read_row (F := F) rs.flatten).1
  rw [← hmore] at hall
  cases more with
  | nil => rw [← hmore, append_nil]
  | cons r more =>
    have hpos := (hall r (mem_append_right _ mem_cons_self)).length_pos
    rw [flatten_cons, length_append] at hread
    omega

/-- To cut a byte string cuts the records that are read of it. -/
theorem read_take_prefix (b : List α) (m : Nat) : F.read (b.take m) <+: F.read b := by
  refine row_prefix_read ⟨(read_row _).1, ?_⟩
  exact (read_row (F := F) (b.take m)).2.trans (List.take_prefix m b)

end Framing
end RecordLog

import Mathlib

/-! # Blocks of keys and values

Keys with values, each as `key=value` with a terminator, and one more terminator after the last:
the form of an environment.  A reader takes text up to the next terminator until it meets an empty
one, and splits each at its first `=`.  What was written is read back when no key has an `=`, no
key or value has a terminator, and no key is empty.
-/
namespace KeyedBlock
open List

variable {α : Type}

/-- One key with its value and the terminator. -/
def row (equals terminator : α) (entry : List α × List α) : List α :=
  entry.1 ++ equals :: (entry.2 ++ [terminator])

/-- The rows, and the end of the block. -/
def encode (equals terminator : α) (entries : List (List α × List α)) : List α :=
  entries.flatMap (row equals terminator) ++ [terminator]

section Decode
variable [DecidableEq α]

/-- The text before the first `c`, and the text after it. -/
def splitFirst (c : α) : List α → Option (List α × List α)
  | [] => none
  | d :: rest => if d = c then some ([], rest) else (splitFirst c rest).map fun p => (d :: p.1, p.2)

/-- The reader; every row has its terminator, so the length of the text is enough of `fuel`. -/
def decodeRows (equals terminator : α) : Nat → List α → Option (List (List α × List α))
  | 0, _ => none
  | fuel + 1, text =>
    (splitFirst terminator text).bind fun p =>
      if p.1 = [] then (if p.2 = [] then some [] else none)
      else (splitFirst equals p.1).bind fun entry =>
        (decodeRows equals terminator fuel p.2).map (entry :: ·)

/-- The entries, if the text is a block. -/
def decode (equals terminator : α) (text : List α) : Option (List (List α × List α)) :=
  decodeRows equals terminator text.length text

theorem splitFirst_append {c : α} {a : List α} (h : c ∉ a) (b : List α) :
    splitFirst c (a ++ c :: b) = some (a, b) := by
  induction a with
  | nil => exact if_pos rfl
  | cons d a ih =>
    rw [mem_cons, not_or] at h
    rw [cons_append, splitFirst, if_neg (Ne.symm h.1), ih h.2, Option.map_some]

/-- A key and a value that can be told apart in a block. -/
structure Plain (equals terminator : α) (entry : List α × List α) : Prop where
  named : entry.1 ≠ []
  key : equals ∉ entry.1
  keyEnds : terminator ∉ entry.1
  valueEnds : terminator ∉ entry.2

variable {equals terminator : α} {entry : List α × List α} {entries : List (List α × List α)}

theorem decodeRows_row (hne : equals ≠ terminator) (h : Plain equals terminator entry)
    (fuel : Nat) (rest : List α) :
    decodeRows equals terminator (fuel + 1) (row equals terminator entry ++ rest) =
      (decodeRows equals terminator fuel rest).map (entry :: ·) := by
  have hclear : terminator ∉ entry.1 ++ equals :: entry.2 := by
    rw [mem_append, mem_cons]
    rintro (hkey | heq | hvalue)
    · exact h.keyEnds hkey
    · exact hne heq.symm
    · exact h.valueEnds hvalue
  have hsplit : row equals terminator entry ++ rest =
      (entry.1 ++ equals :: entry.2) ++ terminator :: rest := by
    unfold row
    simp only [append_assoc, cons_append, nil_append]
  have hnonempty : entry.1 ++ equals :: entry.2 ≠ [] := by simp
  rw [decodeRows, hsplit, splitFirst_append hclear, Option.bind_some, if_neg hnonempty,
    splitFirst_append h.key, Option.bind_some]

theorem decodeRows_encode (hne : equals ≠ terminator)
    (h : ∀ entry ∈ entries, Plain equals terminator entry) {fuel : Nat}
    (hfuel : entries.length < fuel) :
    decodeRows equals terminator fuel (encode equals terminator entries) = some entries := by
  induction entries generalizing fuel with
  | nil =>
    obtain ⟨fuel, rfl⟩ := Nat.exists_eq_succ_of_ne_zero (Nat.ne_of_gt hfuel)
    have hend : splitFirst terminator [terminator] = some ([], []) := if_pos rfl
    show decodeRows equals terminator (fuel + 1) [terminator] = some []
    rw [decodeRows, hend]
    rfl
  | cons entry entries ih =>
    obtain ⟨fuel, rfl⟩ := Nat.exists_eq_succ_of_ne_zero (Nat.ne_of_gt (Nat.zero_lt_of_lt hfuel))
    rw [forall_mem_cons] at h
    have hencode : encode equals terminator (entry :: entries) =
        row equals terminator entry ++ encode equals terminator entries := by
      unfold encode
      rw [flatMap_cons, append_assoc]
    rw [hencode, decodeRows_row hne h.1, ih h.2 (Nat.lt_of_succ_lt_succ hfuel), Option.map_some]

omit [DecidableEq α] in
theorem length_lt_encode (equals terminator : α) (entries : List (List α × List α)) :
    entries.length < (encode equals terminator entries).length := by
  induction entries with
  | nil => exact Nat.one_pos
  | cons entry entries ih =>
    unfold encode row at ih ⊢
    simp only [flatMap_cons, length_append, length_cons, length_nil] at ih ⊢
    omega

/-- **The round trip.** -/
theorem decode_encode (hne : equals ≠ terminator)
    (h : ∀ entry ∈ entries, Plain equals terminator entry) :
    decode equals terminator (encode equals terminator entries) = some entries :=
  decodeRows_encode hne h (length_lt_encode equals terminator entries)

end Decode

/-- A block with entries ends with two terminators. -/
theorem ends_twice {equals terminator : α} {entries : List (List α × List α)}
    (h : entries ≠ []) : [terminator, terminator] <:+ encode equals terminator entries := by
  obtain ⟨before, last, rfl⟩ := eq_nil_or_concat entries |>.resolve_left h
  refine ⟨before.flatMap (row equals terminator) ++ last.1 ++ equals :: last.2, ?_⟩
  unfold encode row
  simp

end KeyedBlock

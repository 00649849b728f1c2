import Mathlib

/-! # Searching a text

The search of `std::string`: the first place at or after a position where a needle stands.
`find_eq_some_iff` says what is found; the other lemmas follow a search over texts put together of
parts.
-/
namespace TextSearch
open List Nat

variable {α : Type}

/-- A needle that has room in the first part. -/
theorem prefix_drop_append_iff {needle a b : List α} {i : Nat} (h : i + needle.length ≤ a.length) :
    needle <+: (a ++ b).drop i ↔ needle <+: a.drop i := by
  rw [drop_append_of_le_length (by omega)]
  constructor
  · intro hpre
    refine prefix_of_prefix_length_le hpre (prefix_append ..) ?_
    rw [length_drop]
    omega
  · intro hpre
    exact hpre.trans (prefix_append ..)

section Search
variable [DecidableEq α]

/-- The first place of a needle. -/
def find (needle : List α) : List α → Option Nat
  | [] => if needle = [] then some 0 else none
  | c :: rest => if needle <+: c :: rest then some 0 else (find needle rest).map (· + 1)

/-- The first place of a needle that is not before a position. -/
def findFrom (needle text : List α) (position : Nat) : Option Nat :=
  (find needle (text.drop position)).map (position + ·)

theorem find_of_start {needle text : List α} (h : needle <+: text) : find needle text = some 0 := by
  cases text with
  | nil => exact if_pos (prefix_nil.mp h)
  | cons c rest => exact if_pos h

theorem find_cons_of_not {needle rest : List α} {c : α} (h : ¬ needle <+: c :: rest) :
    find needle (c :: rest) = (find needle rest).map (· + 1) := if_neg h

/-- **What is found**: the needle stands there, and not before. -/
theorem find_eq_some_iff {needle text : List α} {p : Nat} : find needle text = some p ↔
    p ≤ text.length ∧ needle <+: text.drop p ∧ ∀ q < p, ¬ needle <+: text.drop q := by
  induction text generalizing p with
  | nil =>
    unfold find
    by_cases hneedle : needle = []
    · rw [if_pos hneedle]
      constructor
      · intro h
        obtain rfl := Option.some.inj h
        exact ⟨le_refl _, by simp [hneedle], fun q hq => absurd hq (Nat.not_lt_zero q)⟩
      · rintro ⟨hle, -, -⟩
        rw [le_zero.mp hle]
    · rw [if_neg hneedle]
      constructor
      · intro h
        cases h
      · rintro ⟨-, hpre, -⟩
        rw [drop_nil] at hpre
        exact absurd (prefix_nil.mp hpre) hneedle
  | cons c rest ih =>
    by_cases hhere : needle <+: c :: rest
    · rw [find_of_start hhere]
      constructor
      · intro h
        obtain rfl := Option.some.inj h
        exact ⟨Nat.zero_le _, hhere, fun q hq => absurd hq (Nat.not_lt_zero q)⟩
      · rintro ⟨-, -, hbefore⟩
        cases p with
        | zero => rfl
        | succ p => exact absurd hhere (hbefore 0 (succ_pos p))
    · rw [find_cons_of_not hhere, Option.map_eq_some_iff]
      constructor
      · rintro ⟨q, hq, rfl⟩
        obtain ⟨hle, hpre, hbefore⟩ := ih.mp hq
        refine ⟨succ_le_succ hle, hpre, fun k hk => ?_⟩
        cases k with
        | zero => exact hhere
        | succ k => exact hbefore k (lt_of_succ_lt_succ hk)
      · rintro ⟨hle, hpre, hbefore⟩
        cases p with
        | zero => exact absurd hpre hhere
        | succ p =>
          exact ⟨p, ih.mpr ⟨le_of_succ_le_succ hle, hpre,
            fun q hq => hbefore (q + 1) (succ_lt_succ hq)⟩, rfl⟩

theorem find_eq_none_iff {needle text : List α} : find needle text = none ↔ ¬ needle <:+: text := by
  induction text with
  | nil =>
    unfold find
    rw [infix_nil]
    split
    · rename_i h
      simp [h]
    · rename_i h
      simp [h]
  | cons c rest ih =>
    rw [infix_cons_iff, not_or]
    by_cases hhere : needle <+: c :: rest
    · rw [find_of_start hhere]
      simp [hhere]
    · rw [find_cons_of_not hhere, Option.map_eq_none_iff, ih]
      simp [hhere]

/-- A needle that stands somewhere is found there or before. -/
theorem find_of_place {needle text : List α} {i : Nat} (h : needle <+: text.drop i) :
    ∃ p ≤ i, find needle text = some p := by
  cases hfind : find needle text with
  | none =>
    have hoccurs : needle <:+: text := h.isInfix.trans (drop_suffix i text).isInfix
    exact absurd hoccurs (find_eq_none_iff.mp hfind)
  | some p =>
    refine ⟨p, ?_, rfl⟩
    by_contra hlt
    exact (find_eq_some_iff.mp hfind).2.2 i (not_le.mp hlt) h

/-- What is found in the first part. -/
theorem find_append_of_some {needle a : List α} {p : Nat} (h : find needle a = some p)
    (b : List α) : find needle (a ++ b) = some p := by
  obtain ⟨hle, hpre, hbefore⟩ := find_eq_some_iff.mp h
  have hlength := hpre.length_le
  rw [length_drop] at hlength
  rw [find_eq_some_iff]
  refine ⟨?_, ?_, fun q hq hearlier => hbefore q hq ?_⟩
  · rw [length_append]
    omega
  · exact (prefix_drop_append_iff (by omega)).mpr hpre
  · exact (prefix_drop_append_iff (by omega)).mp hearlier

/-- A search that begins in the second part. -/
theorem findFrom_append (needle a b : List α) (i : Nat) :
    findFrom needle (a ++ b) (a.length + i) = (find needle (b.drop i)).map (a.length + i + ·) := by
  unfold findFrom
  rw [← drop_drop, drop_left]

/-- A search for one unit goes over the texts without it. -/
theorem find_unit_append {c : α} {a : List α} (h : c ∉ a) (b : List α) :
    find [c] (a ++ b) = (find [c] b).map (a.length + ·) := by
  induction a with
  | nil =>
    rw [nil_append, length_nil]
    simp
  | cons d a ih =>
    rw [mem_cons, not_or] at h
    have hnot : ¬ [c] <+: d :: (a ++ b) := by
      rw [cons_prefix_cons]
      exact fun hboth => h.1 hboth.1
    rw [cons_append, find_cons_of_not hnot, ih h.2, Option.map_map]
    congr 1
    funext i
    rw [Function.comp_apply, length_cons]
    omega

theorem find_unit {c : α} {a : List α} (h : c ∉ a) (b : List α) :
    find [c] (a ++ c :: b) = some a.length := by
  have hfirst : [c] <+: c :: b := ⟨b, rfl⟩
  rw [find_unit_append h, find_of_start hfirst]
  rfl

/-- The place of a unit that stands in a text. -/
theorem find_unit_of_mem {c : α} {text : List α} (h : c ∈ text) :
    ∃ a b, text = a ++ c :: b ∧ c ∉ a ∧ find [c] text = some a.length := by
  obtain ⟨a, b, htext, hnot⟩ := eq_append_cons_of_mem h
  refine ⟨a, b, htext, hnot, ?_⟩
  rw [htext]
  exact find_unit hnot b

end Search

/-! ### Quoted texts -/

/-- A text in which a quote stands only behind an escape. -/
inductive Escaped (quote escape : α) : List α → Prop where
  | nil : Escaped quote escape []
  | plain {c : α} {rest : List α} : c ≠ quote → c ≠ escape → Escaped quote escape rest →
      Escaped quote escape (c :: rest)
  | pair {c : α} {rest : List α} : Escaped quote escape rest →
      Escaped quote escape (escape :: c :: rest)

variable {quote escape : α}

theorem Escaped.append {a b : List α} (ha : Escaped quote escape a)
    (hb : Escaped quote escape b) : Escaped quote escape (a ++ b) := by
  induction ha with
  | nil => exact hb
  | plain hquote hescape _ ih => exact .plain hquote hescape ih
  | pair _ ih => exact .pair ih

/-- A word without quotes and escapes that ends at a quote is the whole of a quoted text. -/
theorem Escaped.eq_word {e word tail : List α} (he : Escaped quote escape e)
    (hne : quote ≠ escape) (hquote : quote ∉ word) (hescape : escape ∉ word)
    (h : word ++ [quote] <+: e ++ quote :: tail) : e = word := by
  induction he generalizing word with
  | nil =>
    cases word with
    | nil => rfl
    | cons d word =>
      obtain ⟨rfl, -⟩ := cons_prefix_cons.mp h
      exact absurd mem_cons_self hquote
  | plain hcquote hcescape _ ih =>
    cases word with
    | nil =>
      obtain ⟨heq, -⟩ := cons_prefix_cons.mp h
      exact absurd heq.symm hcquote
    | cons d word =>
      obtain ⟨rfl, hrest⟩ := cons_prefix_cons.mp h
      rw [ih (fun hmem => hquote (mem_cons_of_mem _ hmem))
        (fun hmem => hescape (mem_cons_of_mem _ hmem)) hrest]
  | pair _ ih =>
    cases word with
    | nil =>
      obtain ⟨heq, -⟩ := cons_prefix_cons.mp h
      exact absurd heq hne
    | cons d word =>
      obtain ⟨rfl, -⟩ := cons_prefix_cons.mp h
      exact absurd mem_cons_self hescape

/-- A quoted word stands inside a quoted text only with the closing quote of the text as its
own. -/
theorem Escaped.quoted_word {e word tail : List α} {i : Nat} (he : Escaped quote escape e)
    (hne : quote ≠ escape) (hquote : quote ∉ word) (hescape : escape ∉ word) (hi : i < e.length)
    (h : quote :: (word ++ [quote]) <+: (e ++ quote :: tail).drop i) :
    (e ++ quote :: tail).drop i = quote :: (word ++ quote :: tail) := by
  induction he generalizing i with
  | nil => exact absurd hi (Nat.not_lt_zero i)
  | plain hcquote _ _ ih =>
    cases i with
    | zero =>
      obtain ⟨heq, -⟩ := cons_prefix_cons.mp h
      exact absurd heq.symm hcquote
    | succ i => exact ih (lt_of_succ_lt_succ hi) h
  | pair hrest ih =>
    cases i with
    | zero =>
      obtain ⟨heq, -⟩ := cons_prefix_cons.mp h
      exact absurd heq hne
    | succ i =>
      cases i with
      | zero =>
        obtain ⟨rfl, hword⟩ := cons_prefix_cons.mp h
        rw [← hrest.eq_word hne hquote hescape hword]
        rfl
      | succ i =>
        have hlt := lt_of_succ_lt_succ (lt_of_succ_lt_succ hi)
        exact ih hlt h

end TextSearch

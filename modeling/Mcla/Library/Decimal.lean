import Mathlib.Data.Nat.Digits.Lemmas

/-! # Canonical decimal text

The decimal text of a number as bytes, without a leading zero, and the reading of
digits into a number.  Reading is injective on canonical text: a text without a
leading zero is the text of its value.
-/
namespace Decimal
open List Nat

/-- A string of bytes. -/
abbrev Bytes := List UInt8

/-- The byte of a digit. -/
def digit (d : Nat) : UInt8 := UInt8.ofNat (48 + d)

/-- The digit a byte stands for. -/
def digit? (c : UInt8) : Option Nat :=
  if 48 ≤ c.toNat ∧ c.toNat ≤ 57 then some (c.toNat - 48) else none

/-- The decimal text of `n`. -/
def text (n : Nat) : Bytes := if n = 0 then [digit 0] else (Nat.digits 10 n).reverse.map digit

/-- The number that `v` followed by the digits of a text denotes. -/
def valueFrom (v : Nat) : Bytes → Option Nat
  | [] => some v
  | c :: rest => (digit? c).bind fun d => valueFrom (v * 10 + d) rest

/-- Not empty, and no leading zero but for zero itself. -/
def Canonical (t : Bytes) : Prop := t ≠ [] ∧ (1 < t.length → t.head? ≠ some (digit 0))

instance (t : Bytes) : Decidable (Canonical t) := inferInstanceAs (Decidable (_ ∧ _))

/-! ## Digits -/

theorem digit_toNat {d : Nat} (h : d < 10) : (digit d).toNat = 48 + d := by
  rw [digit, UInt8.toNat_ofNat']
  omega

theorem digit?_digit {d : Nat} (h : d < 10) : digit? (digit d) = some d := by
  rw [digit?, digit_toNat h, if_pos (by omega), Nat.add_sub_cancel_left]

theorem digit?_eq_some {c : UInt8} {d : Nat} : digit? c = some d ↔ d < 10 ∧ c = digit d := by
  constructor
  · intro h
    unfold digit? at h
    split_ifs at h with hc
    rw [Option.some.injEq] at h
    refine ⟨by omega, UInt8.toNat_inj.mp ?_⟩
    rw [digit_toNat (by omega)]
    omega
  · rintro ⟨hd, rfl⟩
    exact digit?_digit hd

theorem digit_inj {d e : Nat} (hd : d < 10) (he : e < 10) (h : digit d = digit e) : d = e := by
  have hnat := congrArg UInt8.toNat h
  rw [digit_toNat hd, digit_toNat he] at hnat
  omega

/-! ## Reading -/

/-- Reading digits is a fold over them. -/
theorem valueFrom_eq_some {v n : Nat} {t : Bytes} :
    valueFrom v t = some n ↔
      ∃ ds : List Nat, (∀ d ∈ ds, d < 10) ∧ t = ds.map digit ∧
        n = ds.foldl (fun u d => u * 10 + d) v := by
  induction t generalizing v with
  | nil =>
    constructor
    · intro h
      exact ⟨[], by simp, rfl, (Option.some.inj h).symm⟩
    · rintro ⟨ds, -, ht, rfl⟩
      rw [map_eq_nil_iff.mp ht.symm]
      rfl
  | cons c rest ih =>
    rw [valueFrom, Option.bind_eq_some_iff]
    constructor
    · rintro ⟨d, hd, hrest⟩
      obtain ⟨hlt, rfl⟩ := digit?_eq_some.mp hd
      obtain ⟨ds, hds, rfl, rfl⟩ := ih.mp hrest
      exact ⟨d :: ds, by simpa [hlt] using hds, rfl, rfl⟩
    · rintro ⟨ds, hds, ht, rfl⟩
      cases ds with
      | nil => cases ht
      | cons d ds =>
        rw [map_cons, List.cons.injEq] at ht
        refine ⟨d, ?_, ih.mpr ⟨ds, fun x hx => hds x (mem_cons_of_mem d hx), ht.2, rfl⟩⟩
        rw [ht.1, digit?_digit (hds d mem_cons_self)]

theorem le_of_valueFrom {v n : Nat} {t : Bytes} (h : valueFrom v t = some n) : v ≤ n := by
  induction t generalizing v with
  | nil => exact (Option.some.inj h).le
  | cons c rest ih =>
    obtain ⟨d, -, hrest⟩ := Option.bind_eq_some_iff.mp h
    have := ih hrest
    omega

theorem foldl_eq_ofDigits (ds : List Nat) :
    ds.foldl (fun u d => u * 10 + d) 0 = Nat.ofDigits 10 ds.reverse := by
  rw [ofDigits_eq_foldr, foldr_reverse]
  congr 1
  funext u d
  rw [cast_id]
  ring

/-! ## The text of a number -/

/-- Reading the text of a number gives it back. -/
theorem valueFrom_text (n : Nat) : valueFrom 0 (text n) = some n := by
  unfold text
  split_ifs with hn
  · rw [hn]
    rfl
  · refine valueFrom_eq_some.mpr ⟨(Nat.digits 10 n).reverse, fun d hd => ?_, rfl, ?_⟩
    · exact digits_lt_base (by decide) (mem_reverse.mp hd)
    · rw [foldl_eq_ofDigits, reverse_reverse, ofDigits_digits]

theorem text_canonical (n : Nat) : Canonical (text n) := by
  unfold text
  split_ifs with hn
  · exact ⟨by simp, by simp⟩
  · have hne : Nat.digits 10 n ≠ [] := digits_ne_nil_iff_ne_zero.mpr hn
    refine ⟨by simpa using hne, fun _ hhead => ?_⟩
    rw [head?_map, head?_reverse, getLast?_eq_some_getLast hne, Option.map_some,
      Option.some.injEq] at hhead
    have hlast : (Nat.digits 10 n).getLast hne < 10 :=
      digits_lt_base (by decide) (getLast_mem hne)
    exact getLast_digit_ne_zero 10 hn (digit_inj hlast (by decide) hhead)

/-- **A canonical text is the text of its value.** -/
theorem text_of_valueFrom {n : Nat} {t : Bytes} (ht : Canonical t) (h : valueFrom 0 t = some n) :
    text n = t := by
  obtain ⟨ds, hds, rfl, rfl⟩ := valueFrom_eq_some.mp h
  rw [foldl_eq_ofDigits]
  cases ds with
  | nil => exact absurd rfl ht.1
  | cons d ds =>
    by_cases hd : d = 0
    · subst hd
      have hnil : ds = [] := by
        by_contra hne
        refine ht.2 ?_ rfl
        simpa using length_pos_iff.mpr hne
      subst hnil
      rfl
    · have hlast : ∀ hne, (d :: ds).reverse.getLast hne ≠ 0 := by
        intro hne
        rwa [getLast_reverse]
      have hdigits := digits_ofDigits 10 (by decide) (d :: ds).reverse
        (fun x hx => hds x (mem_reverse.mp hx)) hlast
      have hne : Nat.ofDigits 10 (d :: ds).reverse ≠ 0 := by
        intro hzero
        rw [hzero, digits_zero] at hdigits
        simp at hdigits
      rw [text, if_neg hne, hdigits, reverse_reverse]

theorem text_inj {n k : Nat} (h : text n = text k) : n = k := by
  have hn := valueFrom_text n
  rw [h, valueFrom_text] at hn
  exact (Option.some.inj hn).symm

theorem text_length_le {n k : Nat} (hk : 0 < k) (h : n < 10 ^ k) : (text n).length ≤ k := by
  unfold text
  split_ifs
  · exact hk
  · rw [length_map, length_reverse]
    exact (digits_length_le_iff (by decide) n).mpr h

theorem isDigit_of_mem_text {n : Nat} {c : UInt8} (h : c ∈ text n) :
    48 ≤ c.toNat ∧ c.toNat ≤ 57 := by
  obtain ⟨ds, hds, ht, -⟩ := valueFrom_eq_some.mp (valueFrom_text n)
  rw [ht] at h
  obtain ⟨d, hd, rfl⟩ := mem_map.mp h
  have := hds d hd
  rw [digit_toNat this]
  omega

end Decimal

import Mathlib

/-! # Bytes of UTF-8

Which bytes are the encoding of characters.  The encoding of a character is found at the head of a
text (`encodeChar_append_inj`), so valid texts can be put together.  A valid text cut at a place
stays valid exactly if a character begins there (`valid_take_iff`); so a text can be taken apart at
any of its characters, a byte below 128 above all (`valid_append_cons_iff`).
-/
namespace Utf8
open List

abbrev Bytes := List UInt8

/-- The bytes of some characters. -/
def encode (chars : List Char) : Bytes := chars.flatMap String.utf8EncodeChar

/-- It encodes some characters. -/
def Valid (t : Bytes) : Prop := ∃ chars, t = encode chars

@[simp] theorem encode_nil : encode [] = [] := rfl

@[simp] theorem encode_cons (c : Char) (chars : List Char) :
    encode (c :: chars) = String.utf8EncodeChar c ++ encode chars := flatMap_cons

theorem encode_append (a b : List Char) : encode (a ++ b) = encode a ++ encode b := flatMap_append

/-- The first character of a text. -/
theorem encodeChar_append_inj {c d : Char} {a b : Bytes}
    (h : String.utf8EncodeChar c ++ a = String.utf8EncodeChar d ++ b) : c = d ∧ a = b := by
  have hdecode : ∀ (c : Char) (a : Bytes),
      (String.utf8EncodeChar c ++ a).toByteArray.utf8DecodeChar? 0 = some c := by
    intro c a
    rw [toByteArray_append]
    exact ByteArray.utf8DecodeChar?_utf8EncodeChar_append
  have hc := hdecode c a
  rw [h, hdecode d b, Option.some.injEq] at hc
  subst hc
  exact ⟨rfl, append_cancel_left h⟩

theorem valid_nil : Valid [] := ⟨[], rfl⟩

theorem Valid.append {a b : Bytes} (ha : Valid a) (hb : Valid b) : Valid (a ++ b) := by
  obtain ⟨x, rfl⟩ := ha
  obtain ⟨y, rfl⟩ := hb
  exact ⟨x ++ y, (encode_append x y).symm⟩

/-- The bytes of a string. -/
theorem valid_string (s : String) : Valid s.toUTF8.data.toList := by
  refine ⟨s.toList, ?_⟩
  change s.toByteArray.data.toList = _
  rw [← String.utf8Encode_toList]
  simp [List.utf8Encode, encode]

/-- What follows a character. -/
theorem valid_encodeChar_append_iff (c : Char) (t : Bytes) :
    Valid (String.utf8EncodeChar c ++ t) ↔ Valid t := by
  constructor
  · rintro ⟨chars, h⟩
    cases chars with
    | nil =>
      rw [encode_nil, append_eq_nil_iff] at h
      exact absurd h.1 String.utf8EncodeChar_ne_nil
    | cons d chars =>
      rw [encode_cons] at h
      exact ⟨chars, (encodeChar_append_inj h).2⟩
  · rintro ⟨chars, rfl⟩
    exact ⟨c :: chars, rfl⟩

theorem valid_append_iff {a : Bytes} (ha : Valid a) (b : Bytes) : Valid (a ++ b) ↔ Valid b := by
  obtain ⟨chars, rfl⟩ := ha
  induction chars with
  | nil => exact Iff.rfl
  | cons c chars ih =>
    rw [encode_cons, append_assoc, valid_encodeChar_append_iff]
    exact ih

/-! ### Cutting a text -/

/-- A part of a character, but not all of it. -/
theorem not_valid_take {c : Char} {n : Nat} (hpos : 0 < n)
    (hlt : n < (String.utf8EncodeChar c).length) : ¬ Valid ((String.utf8EncodeChar c).take n) := by
  rintro ⟨chars, h⟩
  cases chars with
  | nil =>
    have hlength := congrArg List.length h
    rw [length_take, encode_nil, length_nil] at hlength
    omega
  | cons d chars =>
    have hwhole := take_append_drop n (String.utf8EncodeChar c)
    rw [h, encode_cons, append_assoc] at hwhole
    obtain ⟨-, hnil⟩ := encodeChar_append_inj (hwhole.trans (append_nil _).symm)
    have hdrop := (append_eq_nil_iff.mp hnil).2
    rw [drop_eq_nil_iff] at hdrop
    omega

/-- **A valid text cut at a place** is valid exactly if no character is cut. -/
theorem valid_take_iff {t : Bytes} (h : Valid t) (n : Nat) :
    Valid (t.take n) ↔ ∀ b ∈ t[n]?, b.IsUTF8FirstByte := by
  obtain ⟨chars, rfl⟩ := h
  induction chars generalizing n with
  | nil => simp [valid_nil]
  | cons c chars ih =>
    rw [encode_cons]
    by_cases hlt : n < (String.utf8EncodeChar c).length
    · rw [take_append_of_le_length hlt.le, getElem?_append_left hlt, getElem?_eq_getElem hlt]
      -- inside of a character only the cut before it is valid
      by_cases hzero : n = 0
      · subst hzero
        refine iff_of_true valid_nil ?_
        rintro _ ⟨⟩
        exact UInt8.isUTF8FirstByte_getElem_utf8EncodeChar.mpr rfl
      · refine iff_of_false (not_valid_take (Nat.pos_of_ne_zero hzero) hlt) fun hfirst => ?_
        exact hzero (UInt8.isUTF8FirstByte_getElem_utf8EncodeChar.mp (hfirst _ rfl))
    · rw [not_lt] at hlt
      rw [take_append, take_of_length_le hlt, valid_encodeChar_append_iff,
        getElem?_append_right hlt]
      exact ih _

/-- **A valid text is taken apart** at any of its characters. -/
theorem valid_append_encodeChar_append_iff (a : Bytes) (c : Char) (t : Bytes) :
    Valid (a ++ (String.utf8EncodeChar c ++ t)) ↔ Valid a ∧ Valid t := by
  constructor
  · intro h
    have hpos := length_pos_of_ne_nil (String.utf8EncodeChar_ne_nil (c := c))
    -- a character begins where the first part ends, so that the cut there is valid
    have ha : Valid a := by
      have htake := valid_take_iff h a.length
      rw [take_left' rfl, getElem?_append_right le_rfl, Nat.sub_self,
        getElem?_append_left hpos, getElem?_eq_getElem hpos] at htake
      refine htake.mpr ?_
      rintro _ ⟨⟩
      exact UInt8.isUTF8FirstByte_getElem_utf8EncodeChar.mpr rfl
    rw [valid_append_iff ha, valid_encodeChar_append_iff] at h
    exact ⟨ha, h⟩
  · rintro ⟨ha, ht⟩
    rw [valid_append_iff ha, valid_encodeChar_append_iff]
    exact ht

/-! ### Bytes below 128 -/

/-- A byte below 128 is a character. -/
theorem encodeChar_ascii {b : UInt8} (hb : b.toNat < 128) :
    String.utf8EncodeChar (Char.ofNat b.toNat) = [b] := by
  have hvalid : b.toNat.isValidChar := .inl (by omega)
  have hval : (Char.ofNat b.toNat).val.toNat = b.toNat := by
    rw [Char.ofNat, dif_pos hvalid]
    rfl
  have hsize : (Char.ofNat b.toNat).utf8Size = 1 := by
    rw [Char.utf8Size_eq_one_iff, UInt32.le_iff_toNat_le, hval]
    exact Nat.le_of_lt_succ hb
  rw [String.utf8EncodeChar_eq_singleton hsize, singleton_inj, ← UInt8.toNat_inj,
    UInt32.toNat_toUInt8, hval]
  omega

theorem valid_append_cons_iff (a : Bytes) {b : UInt8} (hb : b.toNat < 128) (t : Bytes) :
    Valid (a ++ b :: t) ↔ Valid a ∧ Valid t := by
  have h := valid_append_encodeChar_append_iff a (Char.ofNat b.toNat) t
  rwa [encodeChar_ascii hb] at h

theorem valid_cons_iff {b : UInt8} (hb : b.toNat < 128) (t : Bytes) : Valid (b :: t) ↔ Valid t := by
  have h := valid_append_cons_iff [] hb t
  rwa [nil_append, and_iff_right valid_nil] at h

theorem valid_of_ascii {t : Bytes} (h : ∀ b ∈ t, b.toNat < 128) : Valid t := by
  induction t with
  | nil => exact valid_nil
  | cons b t ih =>
    obtain ⟨hb, ht⟩ := forall_mem_cons.mp h
    exact (valid_cons_iff hb t).mpr (ih ht)

end Utf8

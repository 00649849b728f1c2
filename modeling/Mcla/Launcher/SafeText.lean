import Mcla.Launcher.ProfilePolicy

/-! # Safe text of a report

`SafeUtf8` of `mcla_diagnostic_export_policy` looks at the texts of a package before they are
used: a decoder loop over the bytes, which takes one character each time round.  `safeUtf8_iff`
says which texts it lets through: encoded characters, none of them a control character.
-/
namespace Mcla.Launcher.SafeText
open Option

/-! ### The loop -/

/-- What a lead byte says: how many continuation bytes follow, its part of the value, and the
least value of that length. -/
structure Lead where
  (continuation value minimum : Nat)

/-- What the first byte of a character says. -/
def lead (first : Nat) : Option Lead :=
  if first ≥ 0xc2 ∧ first ≤ 0xdf then some ⟨1, first &&& 0x1f, 0x80⟩
  else if first ≥ 0xe0 ∧ first ≤ 0xef then some ⟨2, first &&& 0x0f, 0x800⟩
  else if first ≥ 0xf0 ∧ first ≤ 0xf4 then some ⟨3, first &&& 0x07, 0x10000⟩
  else none

/-- The continuation bytes: the value with their bits, and the text after them. -/
def continued : Nat → Nat → Bytes → Option (Nat × Bytes)
  | 0, value, rest => some (value, rest)
  | _ + 1, _, [] => none
  | n + 1, value, next :: rest =>
      if next.toNat &&& 0xc0 ≠ 0x80 then none
      else continued n (value <<< 6 ||| next.toNat &&& 0x3f) rest

/-- The values that are not taken over. -/
def badValue (value minimum : Nat) : Bool :=
  value < minimum || value > 0x10ffff || (value ≥ 0xd800 && value ≤ 0xdfff) ||
    (value ≥ 0x80 && value ≤ 0x9f)

/-- Once round the loop: the text after the character. -/
def character (first : Nat) (rest : Bytes) : Option Bytes :=
  if first < 0x80 then
    if first < 0x20 ∨ first = 0x7f then none else some rest
  else do
    let lead ← lead first
    if rest.length < lead.continuation then none
    else
      let (value, rest) ← continued lead.continuation lead.value rest
      if badValue value lead.minimum then none else some rest

theorem continued_length {n value : Nat} {text : Bytes} {v : Nat} {rest : Bytes}
    (h : continued n value text = some (v, rest)) : rest.length ≤ text.length := by
  induction n generalizing value text with
  | zero =>
    obtain ⟨-, rfl⟩ := Prod.mk.inj (some.inj h)
    exact le_refl _
  | succ n ih =>
    cases text with
    | nil => cases h
    | cons next text =>
      rw [continued] at h
      split at h
      · cases h
      · exact (ih h).trans (Nat.le_succ _)

variable {first : Nat} {c : Char}

theorem character_length {text rest : Bytes} (h : character first text = some rest) :
    rest.length ≤ text.length := by
  unfold character at h
  split at h
  · split at h
    · cases h
    · rw [some.inj h]
  · obtain ⟨l, -, h⟩ := bind_eq_some_iff.mp h
    split at h
    · cases h
    · obtain ⟨⟨v, tail⟩, hcontinued, h⟩ := bind_eq_some_iff.mp h
      dsimp only at h
      split at h
      · cases h
      · rw [← some.inj h]
        exact continued_length hcontinued

/-- The loop, from the first byte that is not looked at yet. -/
def safeCharacters : Bytes → Bool
  | [] => true
  | first :: rest =>
      match _h : character first.toNat rest with
      | none => false
      | some text => safeCharacters text
  termination_by text => text.length
  decreasing_by exact Nat.lt_succ_of_le (character_length _h)

/-- `SafeUtf8`. -/
def safeUtf8 (text : Bytes) (maximum : Nat) : Bool :=
  if text = [] ∨ text.length > maximum then false else safeCharacters text

/-! ### Characters -/

/-- C0, DEL and C1. -/
def Control (c : Char) : Prop := c.toNat < 0x20 ∨ (0x7f ≤ c.toNat ∧ c.toNat ≤ 0x9f)

/-- Well-formed UTF-8 of the characters. -/
def encode (characters : List Char) : Bytes := characters.flatMap String.utf8EncodeChar

theorem and_low (n k : Nat) : n &&& (2 ^ k - 1) = n % 2 ^ k := Nat.and_two_pow_sub_one_eq_mod n k

set_option maxRecDepth 4000 in
theorem tail_iff {n : Nat} (h : n < 256) : n &&& 0xc0 = 0x80 ↔ 0x80 ≤ n ∧ n < 0xc0 := by
  revert n
  decide

theorem append_bits (value n : Nat) : value <<< 6 ||| n &&& 0x3f = value * 64 + n % 64 := by
  have hlow : n &&& 0x3f = n % 64 := and_low n 6
  rw [hlow, ← Nat.shiftLeft_add_eq_or_of_lt (Nat.mod_lt _ (by decide)), Nat.shiftLeft_eq]

/-- A continuation byte: its six bits are appended. -/
theorem continued_cons {n value v : Nat} {text rest : Bytes} :
    continued (n + 1) value text = some (v, rest) ↔ ∃ low tail, low < 64 ∧
      text = UInt8.ofNat (low + 0x80) :: tail ∧
        continued n (value * 64 + low) tail = some (v, rest) := by
  cases text with
  | nil => simp [continued]
  | cons next tail =>
    have hlt := next.toNat_lt
    rw [continued, append_bits]
    constructor
    · intro h
      split at h
      · cases h
      · rename_i htail
        rw [not_not, tail_iff hlt] at htail
        refine ⟨next.toNat % 64, tail, Nat.mod_lt _ (by decide), ?_, h⟩
        have hvalue : next.toNat % 64 + 0x80 = next.toNat := by omega
        rw [hvalue, UInt8.ofNat_toNat]
    · rintro ⟨low, tail', hlow, heq, h⟩
      obtain ⟨rfl, rfl⟩ := List.cons.inj heq
      have hnat : (UInt8.ofNat (low + 0x80)).toNat = low + 0x80 := by
        rw [UInt8.toNat_ofNat']
        omega
      rw [hnat, if_neg, show (low + 0x80) % 64 = low by omega]
      · exact h
      · rw [not_not, tail_iff (by omega)]
        omega

theorem lead_two (h : 0xc2 ≤ first ∧ first ≤ 0xdf) : lead first = some ⟨1, first % 32, 0x80⟩ := by
  unfold lead
  have hlow : first &&& 0x1f = first % 32 := and_low first 5
  rw [if_pos h, hlow]

theorem lead_three (h : 0xe0 ≤ first ∧ first ≤ 0xef) :
    lead first = some ⟨2, first % 16, 0x800⟩ := by
  unfold lead
  have hlow : first &&& 0x0f = first % 16 := and_low first 4
  rw [if_neg (by omega), if_pos h, hlow]

theorem lead_four (h : 0xf0 ≤ first ∧ first ≤ 0xf4) :
    lead first = some ⟨3, first % 8, 0x10000⟩ := by
  unfold lead
  have hlow : first &&& 0x07 = first % 8 := and_low first 3
  rw [if_neg (by omega), if_neg (by omega), if_pos h, hlow]

theorem lead_cases {l : Lead} (h : lead first = some l) :
    (0xc2 ≤ first ∧ first ≤ 0xdf ∧ l = ⟨1, first % 32, 0x80⟩) ∨
      (0xe0 ≤ first ∧ first ≤ 0xef ∧ l = ⟨2, first % 16, 0x800⟩) ∨
      (0xf0 ≤ first ∧ first ≤ 0xf4 ∧ l = ⟨3, first % 8, 0x10000⟩) := by
  by_cases htwo : 0xc2 ≤ first ∧ first ≤ 0xdf
  · rw [lead_two htwo] at h
    exact .inl ⟨htwo.1, htwo.2, (some.inj h).symm⟩
  by_cases hthree : 0xe0 ≤ first ∧ first ≤ 0xef
  · rw [lead_three hthree] at h
    exact .inr (.inl ⟨hthree.1, hthree.2, (some.inj h).symm⟩)
  by_cases hfour : 0xf0 ≤ first ∧ first ≤ 0xf4
  · rw [lead_four hfour] at h
    exact .inr (.inr ⟨hfour.1, hfour.2, (some.inj h).symm⟩)
  · unfold lead at h
    rw [if_neg htwo, if_neg hthree, if_neg hfour] at h
    cases h

theorem badValue_eq_false {v minimum : Nat} :
    badValue v minimum = false ↔ minimum ≤ v ∧ v ≤ 0x10ffff ∧ ¬ (0xd800 ≤ v ∧ v ≤ 0xdfff) ∧
      ¬ (0x80 ≤ v ∧ v ≤ 0x9f) := by
  unfold badValue
  simp only [Bool.or_eq_false_iff, Bool.and_eq_false_iff, decide_eq_false_iff_not, not_lt]
  omega

/-- The character of a scalar value. -/
theorem exists_char {v : Nat} (h : v ≤ 0x10ffff) (hsurrogate : ¬ (0xd800 ≤ v ∧ v ≤ 0xdfff)) :
    ∃ c : Char, c.toNat = v :=
  ⟨Char.ofNatAux v (by unfold Nat.isValidChar; omega), rfl⟩

theorem char_range (c : Char) : c.toNat ≤ 0x10ffff ∧ ¬ (0xd800 ≤ c.toNat ∧ c.toNat ≤ 0xdfff) := by
  have h := c.valid
  unfold UInt32.isValidChar Nat.isValidChar at h
  unfold Char.toNat
  omega

theorem encode_one (h : c.toNat ≤ 0x7f) :
    String.utf8EncodeChar c = [UInt8.ofNat c.toNat] := if_pos h

theorem encode_two (h : 0x80 ≤ c.toNat) (hle : c.toNat ≤ 0x7ff) :
    String.utf8EncodeChar c =
      [UInt8.ofNat (c.toNat / 64 % 32 + 0xc0), UInt8.ofNat (c.toNat % 64 + 0x80)] :=
  (if_neg (by show ¬ c.toNat ≤ 0x7f; omega)).trans (if_pos hle)

theorem encode_three (h : 0x800 ≤ c.toNat) (hle : c.toNat ≤ 0xffff) :
    String.utf8EncodeChar c =
      [UInt8.ofNat (c.toNat / 4096 % 16 + 0xe0), UInt8.ofNat (c.toNat / 64 % 64 + 0x80),
        UInt8.ofNat (c.toNat % 64 + 0x80)] :=
  (if_neg (by show ¬ c.toNat ≤ 0x7f; omega)).trans
    ((if_neg (by show ¬ c.toNat ≤ 0x7ff; omega)).trans (if_pos hle))

theorem encode_four (h : 0x10000 ≤ c.toNat) :
    String.utf8EncodeChar c =
      [UInt8.ofNat (c.toNat / 262144 % 8 + 0xf0), UInt8.ofNat (c.toNat / 4096 % 64 + 0x80),
        UInt8.ofNat (c.toNat / 64 % 64 + 0x80), UInt8.ofNat (c.toNat % 64 + 0x80)] :=
  (if_neg (by show ¬ c.toNat ≤ 0x7f; omega)).trans
    ((if_neg (by show ¬ c.toNat ≤ 0x7ff; omega)).trans (if_neg (by show ¬ c.toNat ≤ 0xffff; omega)))

theorem toNat_byte {n : Nat} (h : n < 256) : (UInt8.ofNat n).toNat = n := by
  rw [UInt8.toNat_ofNat']
  exact Nat.mod_eq_of_lt h

/-! ### Once round the loop -/

/-- **Sound**: what is taken off the text is a character, and no control character. -/
theorem char_of_character {first : UInt8} {rest text : Bytes}
    (h : character first.toNat rest = some text) :
    ∃ c : Char, ¬ Control c ∧ first :: rest = String.utf8EncodeChar c ++ text := by
  have hfirst := first.toNat_lt
  unfold character at h
  by_cases hascii : first.toNat < 0x80
  · rw [if_pos hascii] at h
    split at h
    · cases h
    · rename_i hcontrol
      obtain rfl := some.inj h
      obtain ⟨c, hc⟩ := exists_char (v := first.toNat) (by omega) (by omega)
      refine ⟨c, ?_, ?_⟩
      · unfold Control
        omega
      · rw [encode_one (by omega), hc, UInt8.ofNat_toNat]
        rfl
  · rw [if_neg hascii] at h
    obtain ⟨l, hlead, h⟩ := bind_eq_some_iff.mp h
    split at h
    · cases h
    obtain ⟨⟨v, tail⟩, hcontinued, h⟩ := bind_eq_some_iff.mp h
    dsimp only at h
    split at h
    · cases h
    rename_i hvalue
    rw [Bool.not_eq_true, badValue_eq_false] at hvalue
    obtain ⟨hminimum, hmaximum, hsurrogate, hc1⟩ := hvalue
    obtain rfl := some.inj h
    obtain ⟨c, rfl⟩ := exists_char hmaximum hsurrogate
    rcases lead_cases hlead with ⟨hge, hle, rfl⟩ | ⟨hge, hle, rfl⟩ | ⟨hge, hle, rfl⟩
    all_goals
      dsimp only at hminimum hcontinued
      refine ⟨c, by unfold Control; omega, ?_⟩
    · obtain ⟨low, rest₁, hlow, rfl, hend⟩ := continued_cons.mp hcontinued
      obtain ⟨hv, rfl⟩ := Prod.mk.inj (some.inj hend)
      rw [encode_two (by omega) (by omega), show c.toNat / 64 % 32 + 0xc0 = first.toNat by omega,
        show c.toNat % 64 = low by omega, UInt8.ofNat_toNat]
      rfl
    · obtain ⟨mid, rest₁, hmid, rfl, hsecond⟩ := continued_cons.mp hcontinued
      obtain ⟨low, rest₂, hlow, rfl, hend⟩ := continued_cons.mp hsecond
      obtain ⟨hv, rfl⟩ := Prod.mk.inj (some.inj hend)
      rw [encode_three (by omega) (by omega),
        show c.toNat / 4096 % 16 + 0xe0 = first.toNat by omega,
        show c.toNat / 64 % 64 = mid by omega, show c.toNat % 64 = low by omega, UInt8.ofNat_toNat]
      rfl
    · obtain ⟨high, rest₁, hhigh, rfl, hsecond⟩ := continued_cons.mp hcontinued
      obtain ⟨mid, rest₂, hmid, rfl, hthird⟩ := continued_cons.mp hsecond
      obtain ⟨low, rest₃, hlow, rfl, hend⟩ := continued_cons.mp hthird
      obtain ⟨hv, rfl⟩ := Prod.mk.inj (some.inj hend)
      rw [encode_four (by omega), show c.toNat / 262144 % 8 + 0xf0 = first.toNat by omega,
        show c.toNat / 4096 % 64 = high by omega, show c.toNat / 64 % 64 = mid by omega,
        show c.toNat % 64 = low by omega, UInt8.ofNat_toNat]
      rfl

/-- After the lead byte, and with the continuation bytes read. -/
theorem character_of_lead {first v : Nat} {l : Lead} {rest text : Bytes} (hascii : 0x80 ≤ first)
    (hlead : lead first = some l) (hroom : l.continuation ≤ rest.length)
    (hcontinued : continued l.continuation l.value rest = some (v, text))
    (hvalue : badValue v l.minimum = false) : character first rest = some text := by
  unfold character
  rw [if_neg (by omega), hlead]
  show (if rest.length < l.continuation then _ else _) = _
  rw [if_neg (by omega), hcontinued]
  show (if badValue v l.minimum = true then _ else _) = _
  rw [hvalue]
  rfl

/-- **Complete**: a character that is no control character is taken off the text. -/
theorem character_of_char (hc : ¬ Control c) (text : Bytes) :
    ∃ first rest, String.utf8EncodeChar c ++ text = first :: rest ∧
      character first.toNat rest = some text := by
  obtain ⟨hmaximum, hsurrogate⟩ := char_range c
  unfold Control at hc
  have hbad : ∀ minimum, 0x80 ≤ minimum → minimum ≤ c.toNat → badValue c.toNat minimum = false := by
    intro minimum hge hle
    rw [badValue_eq_false]
    omega
  by_cases hone : c.toNat ≤ 0x7f
  · refine ⟨_, _, congrArg (· ++ text) (encode_one hone), ?_⟩
    rw [toNat_byte (by omega), character, if_pos (by omega), if_neg (by omega)]
    rfl
  by_cases htwo : c.toNat ≤ 0x7ff
  · refine ⟨_, _, congrArg (· ++ text) (encode_two (by omega) htwo), ?_⟩
    rw [toNat_byte (by omega)]
    refine character_of_lead (v := c.toNat) (by omega) (lead_two (by omega)) (Nat.le_add_left ..)
      ?_ (hbad 0x80 (by decide) (by omega))
    refine continued_cons.mpr ⟨c.toNat % 64, _, by omega, rfl, ?_⟩
    rw [show (c.toNat / 64 % 32 + 0xc0) % 32 * 64 + c.toNat % 64 = c.toNat by omega]
    rfl
  by_cases hthree : c.toNat ≤ 0xffff
  · refine ⟨_, _, congrArg (· ++ text) (encode_three (by omega) hthree), ?_⟩
    rw [toNat_byte (by omega)]
    refine character_of_lead (v := c.toNat) (by omega) (lead_three (by omega)) (Nat.le_add_left ..)
      ?_ (hbad 0x800 (by decide) (by omega))
    refine continued_cons.mpr ⟨c.toNat / 64 % 64, _, by omega, rfl, ?_⟩
    refine continued_cons.mpr ⟨c.toNat % 64, _, by omega, rfl, ?_⟩
    rw [show ((c.toNat / 4096 % 16 + 0xe0) % 16 * 64 + c.toNat / 64 % 64) * 64 + c.toNat % 64 =
      c.toNat by omega]
    rfl
  · refine ⟨_, _, congrArg (· ++ text) (encode_four (by omega)), ?_⟩
    rw [toNat_byte (by omega)]
    refine character_of_lead (v := c.toNat) (by omega) (lead_four (by omega)) (Nat.le_add_left ..)
      ?_ (hbad 0x10000 (by decide) (by omega))
    refine continued_cons.mpr ⟨c.toNat / 4096 % 64, _, by omega, rfl, ?_⟩
    refine continued_cons.mpr ⟨c.toNat / 64 % 64, _, by omega, rfl, ?_⟩
    refine continued_cons.mpr ⟨c.toNat % 64, _, by omega, rfl, ?_⟩
    rw [show (((c.toNat / 262144 % 8 + 0xf0) % 8 * 64 + c.toNat / 4096 % 64) * 64 +
      c.toNat / 64 % 64) * 64 + c.toNat % 64 = c.toNat by omega]
    rfl

/-! ### All the text -/

theorem safeCharacters_nil : safeCharacters [] = true := by rw [safeCharacters]

theorem safeCharacters_some {first : UInt8} {rest text : Bytes}
    (h : character first.toNat rest = some text) :
    safeCharacters (first :: rest) = safeCharacters text := by
  rw [safeCharacters]
  split
  · rename_i hnone
    rw [h] at hnone
    cases hnone
  · rename_i hsome
    rw [h] at hsome
    rw [some.inj hsome]

theorem safeCharacters_encode {characters : List Char} (h : ∀ c ∈ characters, ¬ Control c) :
    safeCharacters (encode characters) = true := by
  induction characters with
  | nil => exact safeCharacters_nil
  | cons c characters ih =>
    obtain ⟨first, rest, heq, hcharacter⟩ :=
      character_of_char (h c List.mem_cons_self) (encode characters)
    show safeCharacters (String.utf8EncodeChar c ++ encode characters) = true
    rw [heq, safeCharacters_some hcharacter]
    exact ih fun d hd => h d (List.mem_cons_of_mem _ hd)

/-- The induction is on the calls of the loop: each takes one character. -/
theorem exists_of_safeCharacters {text : Bytes} (h : safeCharacters text = true) :
    ∃ characters, text = encode characters ∧ ∀ c ∈ characters, ¬ Control c := by
  induction text using safeCharacters.induct with
  | case1 => exact ⟨[], rfl, by simp⟩
  | case2 first rest hnone =>
    rw [safeCharacters] at h
    split at h
    · cases h
    · rename_i hsome
      rw [hnone] at hsome
      cases hsome
  | case3 first rest text hsome ih =>
    rw [safeCharacters_some hsome] at h
    obtain ⟨characters, rfl, hsafe⟩ := ih h
    obtain ⟨c, hc, heq⟩ := char_of_character hsome
    exact ⟨c :: characters, heq, List.forall_mem_cons.mpr ⟨hc, hsafe⟩⟩

/-- **What is let through**: a text that is not empty and not too long, well-formed UTF-8 of
characters none of which is a control character. -/
theorem safeUtf8_iff (text : Bytes) (maximum : Nat) :
    safeUtf8 text maximum = true ↔ text ≠ [] ∧ text.length ≤ maximum ∧
      ∃ characters, text = encode characters ∧ ∀ c ∈ characters, ¬ Control c := by
  unfold safeUtf8
  by_cases hbounds : text = [] ∨ text.length > maximum
  · rw [if_pos hbounds]
    constructor
    · intro h
      cases h
    · rintro ⟨hne, hle, -⟩
      rcases hbounds with hempty | hlong
      · exact absurd hempty hne
      · omega
  · rw [if_neg hbounds]
    rw [not_or, not_lt] at hbounds
    constructor
    · intro h
      exact ⟨hbounds.1, hbounds.2, exists_of_safeCharacters h⟩
    · rintro ⟨-, -, characters, rfl, hsafe⟩
      exact safeCharacters_encode hsafe

end Mcla.Launcher.SafeText

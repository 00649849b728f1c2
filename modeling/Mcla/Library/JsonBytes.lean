import Mcla.Library.Decimal
import Mcla.Library.Utf8

/-! # JSON in bytes

The tokens of a JSON text, and the documents whose numbers are whole.  A text reads as a document
when its tokens are those of the document; it reads as no other one (`reads_unique`).  A text that
is read is valid UTF-8 exactly if all its strings are (`Reads.valid_iff`): no byte of a string needs
looking at twice, whatever escapes the text uses.

Texts are built from the left: `Opened` is an object without its end, `rows` are the items of an
array.
-/
namespace JsonBytes
open Utf8 (Bytes Valid)
open List Option

/-! ### Tokens -/

/-- A mark, a string or the text of a scalar. -/
inductive Token where
  | mark (c : UInt8)
  | string (s : Bytes)
  | scalar (text : Bytes)
deriving DecidableEq

/-- Where a reader is in a string.  `hex left value high` has some digits of a code unit read, with
`left` more after the next one; `high` is the first half of a pair. -/
inductive Mode where
  | plain
  | escape
  | hex (left value : Nat) (high : Option Nat)
  | pair (high : Nat)
  | pairEscape (high : Nat)
deriving DecidableEq

/-- Where the lexer stands. -/
inductive State where
  | between
  | scalar (text : Bytes)
  | inside (mode : Mode) (s : Bytes)
deriving DecidableEq

def isBlank (c : UInt8) : Bool := c = 32 ∨ c = 9 ∨ c = 10 ∨ c = 13

def isMark (c : UInt8) : Bool := c = 91 ∨ c = 93 ∨ c = 123 ∨ c = 125 ∨ c = 58 ∨ c = 44

abbrev quote : UInt8 := 34

/-- The value of a digit. -/
def hexDigit? (c : UInt8) : Option Nat :=
  if 48 ≤ c.toNat ∧ c.toNat < 58 then some (c.toNat - 48)
  else if 65 ≤ c.toNat ∧ c.toNat < 71 then some (c.toNat - 55)
  else if 97 ≤ c.toNat ∧ c.toNat < 103 then some (c.toNat - 87)
  else none

/-- The escapes of one letter. -/
def shortEscapes : List (UInt8 × Nat) :=
  [(34, 34), (92, 92), (47, 47), (98, 8), (102, 12), (110, 10), (114, 13), (116, 9)]

/-- The character of a pair of code units. -/
def pairValue (high low : Nat) : Nat := 0x10000 + (high - 0xD800) * 0x400 + (low - 0xDC00)

/-- A code unit, after the first half of a pair or alone. -/
def codeUnit : Option Nat → Nat → Option (Mode × Bytes)
  | none, value =>
    if 0xD800 ≤ value ∧ value < 0xDC00 then some (.pair value, [])
    else if 0xDC00 ≤ value ∧ value < 0xE000 then none
    else some (.plain, String.utf8EncodeChar (Char.ofNat value))
  | some high, value =>
    if 0xDC00 ≤ value ∧ value < 0xE000 then
      some (.plain, String.utf8EncodeChar (Char.ofNat (pairValue high value)))
    else none

/-- A byte of a string: how to go on, and what it adds. -/
def stringStep : Mode → UInt8 → Option (Mode × Bytes)
  | .plain, c =>
    if c = 92 then some (.escape, [])
    else if c.toNat < 32 then none
    else some (.plain, [c])
  | .escape, c =>
    if c = 117 then some (.hex 3 0 none, [])
    else (shortEscapes.lookup c).map fun value => (.plain, String.utf8EncodeChar (Char.ofNat value))
  | .hex 0 value high, c => (hexDigit? c).bind fun d => codeUnit high (16 * value + d)
  | .hex (left + 1) value high, c =>
    (hexDigit? c).map fun d => (.hex left (16 * value + d) high, [])
  | .pair high, c => if c = 92 then some (.pairEscape high, []) else none
  | .pairEscape high, c => if c = 117 then some (.hex 3 0 (some high), []) else none

/-- One byte. -/
def step : State → UInt8 → Option (List Token × State)
  | .between, c =>
    if isBlank c then some ([], .between)
    else if isMark c then some ([.mark c], .between)
    else if c = quote then some ([], .inside .plain [])
    else some ([], .scalar [c])
  | .scalar text, c =>
    if isBlank c then some ([.scalar text], .between)
    else if isMark c then some ([.scalar text, .mark c], .between)
    else if c = quote then none
    else some ([], .scalar (text ++ [c]))
  | .inside mode s, c =>
    if mode = .plain ∧ c = quote then some ([.string s], .between)
    else (stringStep mode c).map fun r => ([], .inside r.1 (s ++ r.2))

/-- All bytes. -/
def run : State → Bytes → Option (List Token × State)
  | q, [] => some ([], q)
  | q, c :: rest => (step q c).bind fun first =>
      (run first.2 rest).map fun later => (first.1 ++ later.1, later.2)

/-- The token that the end of the text ends. -/
def State.pending : State → Option (List Token)
  | .between => some []
  | .scalar text => some [.scalar text]
  | .inside _ _ => none

/-- The tokens of a text. -/
def tokens (t : Bytes) : Option (List Token) :=
  (run .between t).bind fun r => r.2.pending.map (r.1 ++ ·)

theorem run_append (q : State) (a b : Bytes) : run q (a ++ b) =
    (run q a).bind fun first =>
      (run first.2 b).map fun later => (first.1 ++ later.1, later.2) := by
  induction a generalizing q with
  | nil => simp [run]
  | cons c a ih =>
    rw [cons_append, run, run]
    cases step q c with
    | none => rfl
    | some first =>
      simp only [bind_some, ih]
      cases run first.2 a with
      | none => rfl
      | some later => simp [Function.comp_def]

/-! ### Valid texts -/

/-- What is valid if the text from here on is, with what is read of a token. -/
def State.Holds : State → Bytes → Prop
  | .between, t => Valid t
  | .scalar text, t => Valid (text ++ t)
  | .inside .plain s, t => Valid (s ++ t)
  | .inside _ s, t => Valid s ∧ Valid t

@[simp] theorem holds_between (t : Bytes) : State.between.Holds t ↔ Valid t := Iff.rfl

@[simp] theorem holds_scalar (text t : Bytes) :
    (State.scalar text).Holds t ↔ Valid (text ++ t) := Iff.rfl

@[simp] theorem holds_plain (s t : Bytes) : (State.inside .plain s).Holds t ↔ Valid (s ++ t) :=
  Iff.rfl

/-- The texts of the token are valid. -/
def Token.Valid : Token → Prop
  | .mark _ => True
  | .string s => Utf8.Valid s
  | .scalar text => Utf8.Valid text

variable {c : UInt8} {value : Nat} {mode : Mode} {r : Mode × Bytes} {xs : List Token} {t : Bytes}
  {a b : Bytes}

theorem hexDigit_ascii {d : Nat} (h : hexDigit? c = some d) : c.toNat < 128 := by
  unfold hexDigit? at h
  split_ifs at h <;> omega

theorem shortEscape_ascii (h : shortEscapes.lookup c = some value) : c.toNat < 128 := by
  have htable : ∀ r ∈ shortEscapes, r.1.toNat < 128 := by decide
  obtain ⟨before, after, heq, -⟩ := lookup_eq_some_iff.mp h
  refine htable (c, value) ?_
  rw [heq]
  exact mem_append_right _ mem_cons_self

theorem blank_ascii (h : isBlank c = true) : c.toNat < 128 := by
  rcases of_decide_eq_true h with rfl | rfl | rfl | rfl <;> decide

theorem mark_ascii (h : isMark c = true) : c.toNat < 128 := by
  rcases of_decide_eq_true h with rfl | rfl | rfl | rfl | rfl | rfl <;> decide

/-- Outside of plain text a string has whole characters. -/
theorem holds_inside (h : mode ≠ .plain) (s t : Bytes) :
    (State.inside mode s).Holds t ↔ Valid s ∧ Valid t := by
  cases mode with
  | plain => exact absurd rfl h
  | _ => exact Iff.rfl

/-- A byte of an escape that adds nothing yet. -/
theorem holds_nothing (h : mode ≠ .plain) (s t : Bytes) :
    (State.inside mode (s ++ [])).Holds t ↔ Valid s ∧ Valid t := by
  rw [append_nil]
  exact holds_inside h s t

/-- An escape that adds its character. -/
theorem holds_character (code : Nat) (s t : Bytes) :
    (State.inside .plain (s ++ String.utf8EncodeChar (Char.ofNat code))).Holds t ↔
      Valid s ∧ Valid t := by
  rw [holds_plain, append_assoc, Utf8.valid_append_encodeChar_append_iff]

/-- A code unit adds a whole character, or nothing yet. -/
theorem codeUnit_holds {high : Option Nat} (h : codeUnit high value = some r) (s t : Bytes) :
    (State.inside r.1 (s ++ r.2)).Holds t ↔ Valid s ∧ Valid t := by
  cases high with
  | none =>
    rw [codeUnit] at h
    split_ifs at h with hhigh hlow
    · obtain rfl := some.inj h
      exact holds_nothing (by simp) s t
    · obtain rfl := some.inj h
      exact holds_character value s t
  | some high =>
    rw [codeUnit] at h
    split_ifs at h
    obtain rfl := some.inj h
    dsimp only
    rw [holds_character]

/-- A byte of a string that is no plain text is below 128. -/
theorem stringStep_holds (hmode : mode ≠ .plain) (h : stringStep mode c = some r) : c.toNat < 128 ∧
      ∀ s t, (State.inside r.1 (s ++ r.2)).Holds t ↔ Valid s ∧ Valid t := by
  cases mode with
  | plain => exact absurd rfl hmode
  | escape =>
    rw [stringStep] at h
    split_ifs at h with hu
    · obtain rfl := some.inj h
      exact ⟨by rw [hu]; decide, holds_nothing (by simp)⟩
    · obtain ⟨value, hvalue, rfl⟩ := map_eq_some_iff.mp h
      exact ⟨shortEscape_ascii hvalue, holds_character value⟩
  | hex left value high =>
    cases left with
    | zero =>
      obtain ⟨d, hd, hunit⟩ := bind_eq_some_iff.mp h
      exact ⟨hexDigit_ascii hd, codeUnit_holds hunit⟩
    | succ left =>
      obtain ⟨d, hd, rfl⟩ := map_eq_some_iff.mp h
      exact ⟨hexDigit_ascii hd, holds_nothing (by simp)⟩
  | pair high =>
    rw [stringStep] at h
    split_ifs at h with hc
    obtain rfl := some.inj h
    exact ⟨by rw [hc]; decide, holds_nothing (by simp)⟩
  | pairEscape high =>
    rw [stringStep] at h
    split_ifs at h with hc
    obtain rfl := some.inj h
    exact ⟨by rw [hc]; decide, holds_nothing (by simp)⟩

/-- A byte in plain text. -/
theorem plainStep_holds (h : stringStep .plain c = some r) (s t : Bytes) :
    (State.inside .plain s).Holds (c :: t) ↔ (State.inside r.1 (s ++ r.2)).Holds t := by
  rw [stringStep] at h
  split_ifs at h with hescape
  · obtain rfl := some.inj h
    rw [holds_plain, hescape, Utf8.valid_append_cons_iff s (by decide), append_nil]
    exact Iff.rfl
  · obtain rfl := some.inj h
    rw [holds_plain, holds_plain, append_assoc, singleton_append]

theorem step_holds {q q' : State} (h : step q c = some (xs, q')) (t : Bytes) :
    q.Holds (c :: t) ↔ (∀ x ∈ xs, x.Valid) ∧ q'.Holds t := by
  cases q with
  | between =>
    rw [step] at h
    split_ifs at h with hblank hmark hquote
    all_goals obtain ⟨rfl, rfl⟩ := Prod.mk.inj (some.inj h)
    · -- a byte outside of strings is below 128, unless it is part of a scalar
      rw [holds_between, Utf8.valid_cons_iff (blank_ascii hblank)]
      simp
    · rw [holds_between, Utf8.valid_cons_iff (mark_ascii hmark)]
      simp [holds_between, Token.Valid]
    · rw [holds_between, hquote, Utf8.valid_cons_iff (by decide)]
      simp
    · simp
  | scalar text =>
    rw [step] at h
    split_ifs at h with hblank hmark hquote
    all_goals obtain ⟨rfl, rfl⟩ := Prod.mk.inj (some.inj h)
    · rw [holds_scalar, Utf8.valid_append_cons_iff _ (blank_ascii hblank)]
      simp [Token.Valid]
    · rw [holds_scalar, Utf8.valid_append_cons_iff _ (mark_ascii hmark)]
      simp [Token.Valid]
    · simp
  | inside mode s =>
    rw [step] at h
    by_cases hmode : mode = .plain
    · subst hmode
      split_ifs at h with hquote
      · obtain ⟨rfl, rfl⟩ := Prod.mk.inj (some.inj h)
        rw [holds_plain, hquote.2, Utf8.valid_append_cons_iff s (by decide)]
        simp [Token.Valid]
      · obtain ⟨r, hr, hxs⟩ := map_eq_some_iff.mp h
        obtain ⟨rfl, rfl⟩ := Prod.mk.inj hxs
        rw [plainStep_holds hr]
        simp
    · rw [if_neg fun hplain => hmode hplain.1] at h
      obtain ⟨r, hr, hxs⟩ := map_eq_some_iff.mp h
      obtain ⟨rfl, rfl⟩ := Prod.mk.inj hxs
      obtain ⟨hascii, hholds⟩ := stringStep_holds hmode hr
      rw [holds_inside hmode, Utf8.valid_cons_iff hascii, hholds]
      simp

theorem run_holds {q q' : State} (h : run q t = some (xs, q')) :
    q.Holds t ↔ (∀ x ∈ xs, x.Valid) ∧ q'.Holds [] := by
  induction t generalizing q xs with
  | nil =>
    obtain ⟨rfl, rfl⟩ := Prod.mk.inj (some.inj h)
    simp
  | cons c t ih =>
    obtain ⟨first, hfirst, hrest⟩ := bind_eq_some_iff.mp h
    obtain ⟨later, hlater, hxs⟩ := map_eq_some_iff.mp hrest
    obtain ⟨rfl, rfl⟩ := Prod.mk.inj hxs
    rw [step_holds hfirst, ih hlater, forall_mem_append, and_assoc]

/-- **A text is valid** exactly if its tokens are. -/
theorem valid_iff_of_tokens (h : tokens t = some xs) : Valid t ↔ ∀ x ∈ xs, x.Valid := by
  obtain ⟨⟨ys, q⟩, hrun, hpending⟩ := bind_eq_some_iff.mp h
  obtain ⟨last, hlast, rfl⟩ := map_eq_some_iff.mp hpending
  have hholds := run_holds hrun
  rw [holds_between] at hholds
  rw [hholds, forall_mem_append]
  cases q with
  | between =>
    obtain rfl := some.inj hlast
    simp [Utf8.valid_nil]
  | scalar text =>
    obtain rfl := some.inj hlast
    simp [Token.Valid]
  | inside mode s => exact absurd hlast (some_ne_none _).symm

/-! ### Putting texts together -/

/-- A text that ends between tokens. -/
def Clean (t : Bytes) (xs : List Token) : Prop := run .between t = some (xs, .between)

instance (t : Bytes) (xs : List Token) : Decidable (Clean t xs) :=
  inferInstanceAs (Decidable (_ = _))

/-- A text that ends the token before it. -/
def separates : Bytes → Bool
  | [] => false
  | c :: _ => isBlank c || isMark c

theorem Clean.append {xs ys : List Token} (ha : Clean a xs) (hb : Clean b ys) :
    Clean (a ++ b) (xs ++ ys) := by
  rw [Clean, run_append, ha, bind_some, hb]
  rfl

theorem Clean.tokens (h : Clean t xs) : tokens t = some xs := by
  rw [JsonBytes.tokens, h]
  simp [State.pending]

/-- The end of a token does not change the text after it. -/
theorem run_scalar {text t : Bytes} (h : separates t = true) :
    run (.scalar text) t = (run .between t).map fun r => (.scalar text :: r.1, r.2) := by
  cases t with
  | nil => exact absurd h Bool.false_ne_true
  | cons c t =>
    rw [separates, Bool.or_eq_true] at h
    rw [run, run, step, step]
    by_cases hblank : isBlank c = true
    · rw [if_pos hblank, if_pos hblank]
      simp
    · -- a mark ends the token too, and is the next one
      have hmark : isMark c = true := h.resolve_left hblank
      rw [if_neg hblank, if_neg hblank, if_pos hmark, if_pos hmark]
      simp [Function.comp_def]

/-- A token is over where the next text separates. -/
theorem run_of_tokens (ha : tokens a = some xs) (hb : separates b = true) :
    run .between (a ++ b) = (run .between b).map fun r => (xs ++ r.1, r.2) := by
  obtain ⟨⟨ys, q⟩, hrun, hpending⟩ := bind_eq_some_iff.mp ha
  obtain ⟨last, hlast, rfl⟩ := map_eq_some_iff.mp hpending
  rw [run_append, hrun, bind_some]
  cases q with
  | between =>
    obtain rfl := some.inj hlast
    rw [append_nil]
  | scalar text =>
    obtain rfl := some.inj hlast
    rw [run_scalar hb]
    cases run .between b <;> simp
  | inside mode s => exact absurd hlast (some_ne_none _).symm

theorem clean_append {xs ys : List Token} (ha : tokens a = some xs) (hb : separates b = true)
    (hys : Clean b ys) : Clean (a ++ b) (xs ++ ys) := by
  rw [Clean, run_of_tokens ha hb, hys]
  rfl

/-! ### Documents -/

/-- What a scalar may be. -/
inductive Scalar where
  | null
  | bool (b : Bool)
  | number (n : Int)

/-- The decimal text of a number. -/
def numberText (n : Int) : Bytes :=
  if n < 0 then 45 :: Decimal.text n.natAbs else Decimal.text n.natAbs

/-- The text of a scalar. -/
def Scalar.text : Scalar → Bytes
  | .null => [110, 117, 108, 108]
  | .bool true => [116, 114, 117, 101]
  | .bool false => [102, 97, 108, 115, 101]
  | .number n => numberText n

/-- A document, with its numbers whole. -/
inductive Json where
  | scalar (s : Scalar)
  | string (s : Bytes)
  | array (items : List Json)
  | object (members : List (Bytes × Json))

mutual

/-- The tokens of a document. -/
def Json.tokens : Json → List Token
  | .scalar s => [.scalar s.text]
  | .string s => [.string s]
  | .array [] => [.mark 91, .mark 93]
  | .array (v :: items) => .mark 91 :: (v.tokens ++ (moreItems items ++ [.mark 93]))
  | .object [] => [.mark 123, .mark 125]
  | .object ((key, v) :: members) =>
    .mark 123 :: .string key :: .mark 58 :: (v.tokens ++ (moreMembers members ++ [.mark 125]))

/-- The items after the first, and the end. -/
def moreItems : List Json → List Token
  | [] => []
  | v :: items => .mark 44 :: (v.tokens ++ moreItems items)

/-- The members after the first, and the end. -/
def moreMembers : List (Bytes × Json) → List Token
  | [] => []
  | (key, v) :: members =>
    .mark 44 :: .string key :: .mark 58 :: (v.tokens ++ moreMembers members)

end

mutual

/-- The strings of a document, the keys among them. -/
def Json.strings : Json → List Bytes
  | .scalar _ => []
  | .string s => [s]
  | .array items => itemStrings items
  | .object members => memberStrings members

def itemStrings : List Json → List Bytes
  | [] => []
  | v :: items => v.strings ++ itemStrings items

def memberStrings : List (Bytes × Json) → List Bytes
  | [] => []
  | (key, v) :: members => key :: (v.strings ++ memberStrings members)

end

/-- The text of a document. -/
def Reads (t : Bytes) (v : Json) : Prop := tokens t = some v.tokens

/-! ### One document -/

/-- A number is written with digits and a sign. -/
theorem number_byte {n : Int} (h : c ∈ numberText n) : c = 45 ∨ (48 ≤ c.toNat ∧ c.toNat ≤ 57) := by
  unfold numberText at h
  split_ifs at h
  · rcases mem_cons.mp h with rfl | hdigit
    · exact .inl rfl
    · exact .inr (Decimal.isDigit_of_mem_text hdigit)
  · exact .inr (Decimal.isDigit_of_mem_text h)

theorem sign_not_mem_text (n : Nat) : 45 ∉ Decimal.text n := by
  intro h
  have hdigit := Decimal.isDigit_of_mem_text h
  have hsign : (45 : UInt8).toNat = 45 := by decide
  omega

theorem numberText_inj {n m : Int} (h : numberText n = numberText m) : n = m := by
  unfold numberText at h
  split_ifs at h with hn hm hm
  · have habs := Decimal.text_inj (List.cons.inj h).2
    omega
  · exact absurd (h ▸ mem_cons_self) (sign_not_mem_text m.natAbs)
  · exact absurd (h ▸ mem_cons_self) (sign_not_mem_text n.natAbs)
  · have habs := Decimal.text_inj h
    omega

/-- No number is a word. -/
theorem numberText_ne {n : Int} {rest : Bytes} (h : 58 ≤ c.toNat) : numberText n ≠ c :: rest := by
  intro heq
  have hsign : (45 : UInt8).toNat = 45 := by decide
  rcases number_byte (heq ▸ mem_cons_self) with rfl | hdigit
  · omega
  · omega

theorem Scalar.text_inj {x y : Scalar} (h : x.text = y.text) : x = y := by
  cases x with
  | null =>
    cases y with
    | null => rfl
    | bool b => cases b <;> simp [Scalar.text] at h
    | number m => exact absurd h.symm (numberText_ne (by decide))
  | bool b =>
    cases y with
    | null => cases b <;> simp [Scalar.text] at h
    | bool b' => cases b <;> cases b' <;> first | rfl | simp [Scalar.text] at h
    | number m => cases b <;> exact absurd h.symm (numberText_ne (by decide))
  | number n =>
    cases y with
    | null => exact absurd h (numberText_ne (by decide))
    | bool b => cases b <;> exact absurd h (numberText_ne (by decide))
    | number m => rw [numberText_inj h]

/-- No document begins with the end of an array. -/
theorem Json.tokens_ne (v : Json) (a b : List Token) : v.tokens ++ a ≠ .mark 93 :: b := by
  cases v with
  | scalar s => simp [Json.tokens]
  | string s => simp [Json.tokens]
  | array items => cases items <;> simp [Json.tokens]
  | object members => cases members <;> simp [Json.tokens]

mutual

/-- The first document of some tokens. -/
theorem Json.tokens_append_inj : (v w : Json) → ∀ a b : List Token,
    v.tokens ++ a = w.tokens ++ b → v = w ∧ a = b
  | .scalar x, w, a, b, h => by
    cases w with
    | scalar y =>
      simp only [Json.tokens, singleton_append, List.cons.injEq, Token.scalar.injEq] at h
      exact ⟨by rw [Scalar.text_inj h.1], h.2⟩
    | string s => simp [Json.tokens] at h
    | array items => cases items <;> simp [Json.tokens] at h
    | object members => cases members <;> simp [Json.tokens] at h
  | .string x, w, a, b, h => by
    cases w with
    | scalar s => simp [Json.tokens] at h
    | string y =>
      simp only [Json.tokens, singleton_append, List.cons.injEq, Token.string.injEq] at h
      exact ⟨by rw [h.1], h.2⟩
    | array items => cases items <;> simp [Json.tokens] at h
    | object members => cases members <;> simp [Json.tokens] at h
  | .array [], w, a, b, h => by
    cases w with
    | scalar s => simp [Json.tokens] at h
    | string s => simp [Json.tokens] at h
    | array items =>
      cases items with
      | nil => simpa [Json.tokens] using h
      | cons w items =>
        simp only [Json.tokens, cons_append, append_assoc, List.cons.injEq, true_and] at h
        exact absurd h.symm (w.tokens_ne _ _)
    | object members => cases members <;> simp [Json.tokens] at h
  | .array (v :: vs), w, a, b, h => by
    cases w with
    | scalar s => simp [Json.tokens] at h
    | string s => simp [Json.tokens] at h
    | array items =>
      cases items with
      | nil =>
        simp only [Json.tokens, cons_append, append_assoc, List.cons.injEq, true_and] at h
        exact absurd h (v.tokens_ne _ _)
      | cons w ws =>
        simp only [Json.tokens, cons_append, append_assoc, List.cons.injEq, true_and] at h
        -- the first items are the same, and the ends of the arrays mark the rest
        obtain ⟨rfl, hrest⟩ := Json.tokens_append_inj v w _ _ h
        obtain ⟨rfl, rfl⟩ := moreItems_append_inj vs ws a b hrest
        exact ⟨rfl, rfl⟩
    | object members => cases members <;> simp [Json.tokens] at h
  | .object [], w, a, b, h => by
    cases w with
    | scalar s => simp [Json.tokens] at h
    | string s => simp [Json.tokens] at h
    | array items => cases items <;> simp [Json.tokens] at h
    | object members =>
      cases members with
      | nil => simpa [Json.tokens] using h
      | cons m members => simp [Json.tokens] at h
  | .object ((key, v) :: ms), w, a, b, h => by
    cases w with
    | scalar s => simp [Json.tokens] at h
    | string s => simp [Json.tokens] at h
    | array items => cases items <;> simp [Json.tokens] at h
    | object members =>
      cases members with
      | nil => simp [Json.tokens] at h
      | cons m members =>
        obtain ⟨key', w⟩ := m
        simp only [Json.tokens, cons_append, append_assoc, List.cons.injEq,
          Token.string.injEq, true_and] at h
        obtain ⟨rfl, h⟩ := h
        obtain ⟨rfl, hrest⟩ := Json.tokens_append_inj v w _ _ h
        obtain ⟨rfl, rfl⟩ := moreMembers_append_inj ms members a b hrest
        exact ⟨rfl, rfl⟩

theorem moreItems_append_inj : (vs ws : List Json) → ∀ a b : List Token,
    moreItems vs ++ ([.mark 93] ++ a) = moreItems ws ++ ([.mark 93] ++ b) → vs = ws ∧ a = b
  | [], ws, a, b, h => by
    cases ws with
    | nil => simpa [moreItems] using h
    | cons w ws => simp [moreItems] at h
  | v :: vs, ws, a, b, h => by
    cases ws with
    | nil => simp [moreItems] at h
    | cons w ws =>
      simp only [moreItems, cons_append, append_assoc, List.cons.injEq, true_and] at h
      obtain ⟨rfl, hrest⟩ := Json.tokens_append_inj v w _ _ h
      obtain ⟨rfl, rfl⟩ := moreItems_append_inj vs ws a b hrest
      exact ⟨rfl, rfl⟩

theorem moreMembers_append_inj : (ms ns : List (Bytes × Json)) → ∀ a b : List Token,
    moreMembers ms ++ ([.mark 125] ++ a) = moreMembers ns ++ ([.mark 125] ++ b) → ms = ns ∧ a = b
  | [], ns, a, b, h => by
    cases ns with
    | nil => simpa [moreMembers] using h
    | cons n ns => simp [moreMembers] at h
  | (key, v) :: ms, ns, a, b, h => by
    cases ns with
    | nil => simp [moreMembers] at h
    | cons n ns =>
      obtain ⟨key', w⟩ := n
      simp only [moreMembers, cons_append, append_assoc, List.cons.injEq,
        Token.string.injEq, true_and] at h
      obtain ⟨rfl, h⟩ := h
      obtain ⟨rfl, hrest⟩ := Json.tokens_append_inj v w _ _ h
      obtain ⟨rfl, rfl⟩ := moreMembers_append_inj ms ns a b hrest
      exact ⟨rfl, rfl⟩

end

/-- **A text reads as one document.** -/
theorem reads_unique {v w : Json} (hv : Reads t v) (hw : Reads t w) : v = w := by
  have h : v.tokens = w.tokens := some.inj (hv.symm.trans hw)
  exact (Json.tokens_append_inj v w [] [] (by rw [h])).1

/-! ### Valid documents -/

/-- A scalar is written in bytes below 128. -/
theorem Scalar.text_valid (s : Scalar) : Valid s.text := by
  cases s with
  | null => exact Utf8.valid_of_ascii (by simp [Scalar.text])
  | bool b => cases b <;> exact Utf8.valid_of_ascii (by simp [Scalar.text])
  | number n =>
    refine Utf8.valid_of_ascii fun c hc => ?_
    have hsign : (45 : UInt8).toNat = 45 := by decide
    rcases number_byte hc with rfl | hdigit
    · omega
    · omega

mutual

theorem Json.tokens_valid_iff : (v : Json) → ((∀ x ∈ v.tokens, x.Valid) ↔ ∀ s ∈ v.strings, Valid s)
  | .scalar s => by simp [Json.tokens, Json.strings, Token.Valid, s.text_valid]
  | .string s => by simp [Json.tokens, Json.strings, Token.Valid]
  | .array [] => by simp [Json.tokens, Json.strings, itemStrings, Token.Valid]
  | .array (v :: items) => by
    simp only [Json.tokens, Json.strings, itemStrings, forall_mem_cons,
      forall_mem_append, v.tokens_valid_iff, moreItems_valid_iff items]
    simp [Token.Valid]
  | .object [] => by simp [Json.tokens, Json.strings, memberStrings, Token.Valid]
  | .object ((key, v) :: members) => by
    simp only [Json.tokens, Json.strings, memberStrings, forall_mem_cons,
      forall_mem_append, v.tokens_valid_iff, moreMembers_valid_iff members]
    simp [Token.Valid]

theorem moreItems_valid_iff : (items : List Json) →
    ((∀ x ∈ moreItems items, x.Valid) ↔ ∀ s ∈ itemStrings items, Valid s)
  | [] => by simp [moreItems, itemStrings]
  | v :: items => by
    simp only [moreItems, itemStrings, forall_mem_cons, forall_mem_append,
      v.tokens_valid_iff, moreItems_valid_iff items]
    simp [Token.Valid]

theorem moreMembers_valid_iff : (members : List (Bytes × Json)) →
    ((∀ x ∈ moreMembers members, x.Valid) ↔ ∀ s ∈ memberStrings members, Valid s)
  | [] => by simp [moreMembers, memberStrings]
  | (key, v) :: members => by
    simp only [moreMembers, memberStrings, forall_mem_cons, forall_mem_append,
      v.tokens_valid_iff, moreMembers_valid_iff members]
    simp [Token.Valid]

end

/-- **A document is valid UTF-8** exactly if its strings are. -/
theorem Reads.valid_iff {v : Json} (h : Reads t v) : Valid t ↔ ∀ s ∈ v.strings, Valid s :=
  (valid_iff_of_tokens h).trans v.tokens_valid_iff

/-! ### Building a text -/

theorem number_plain {n : Int} (h : c ∈ numberText n) :
    isBlank c = false ∧ isMark c = false ∧ c ≠ quote := by
  have hsign : (45 : UInt8).toNat = 45 := by decide
  refine ⟨?_, ?_, ?_⟩
  · by_contra hblank
    rw [Bool.not_eq_false] at hblank
    rcases of_decide_eq_true hblank with rfl | rfl | rfl | rfl <;>
      exact absurd (number_byte h) (by decide)
  · by_contra hmark
    rw [Bool.not_eq_false] at hmark
    rcases of_decide_eq_true hmark with rfl | rfl | rfl | rfl | rfl | rfl <;>
      exact absurd (number_byte h) (by decide)
  · rintro rfl
    exact absurd (number_byte h) (by decide)

theorem run_scalar_plain (h : ∀ c ∈ t, isBlank c = false ∧ isMark c = false ∧ c ≠ quote)
    (text : Bytes) : run (.scalar text) t = some ([], .scalar (text ++ t)) := by
  induction t generalizing text with
  | nil => rw [run, append_nil]
  | cons c t ih =>
    obtain ⟨⟨hblank, hmark, hquote⟩, ht⟩ := forall_mem_cons.mp h
    rw [run, step, hblank, hmark, if_neg Bool.false_ne_true, if_neg Bool.false_ne_true,
      if_neg hquote, bind_some, ih ht]
    simp

theorem reads_number (n : Int) : Reads (numberText n) (.scalar (.number n)) := by
  cases htext : numberText n with
  | nil =>
    have hne := (Decimal.text_canonical n.natAbs).1
    unfold numberText at htext
    split_ifs at htext
    exact absurd htext hne
  | cons c t =>
    have hplain : ∀ d ∈ c :: t, isBlank d = false ∧ isMark d = false ∧ d ≠ quote :=
      fun d hd => number_plain (htext ▸ hd)
    obtain ⟨⟨hblank, hmark, hquote⟩, ht⟩ := forall_mem_cons.mp hplain
    rw [Reads, tokens, run, step, hblank, hmark, if_neg Bool.false_ne_true,
      if_neg Bool.false_ne_true, if_neg hquote, bind_some, run_scalar_plain ht]
    simp [State.pending, Json.tokens, Scalar.text, htext]

theorem reads_scalar (s : Scalar) : Reads s.text (.scalar s) := by
  cases s with
  | null => rfl
  | bool b => cases b <;> rfl
  | number n => exact reads_number n

/-- A text that writes a string. -/
def Spells (e s : Bytes) : Prop :=
  ∀ read, run (.inside .plain read) e = some ([], .inside .plain (read ++ s))

theorem spells_nil : Spells [] [] := by
  intro read
  rw [run, append_nil]

theorem Spells.append {e s e' s' : Bytes} (h : Spells e s) (h' : Spells e' s') :
    Spells (e ++ e') (s ++ s') := by
  intro read
  rw [run_append, h, bind_some, h', ← append_assoc]
  rfl

theorem spells_byte (h : 32 ≤ c.toNat) (hquote : c ≠ quote) (hescape : c ≠ 92) :
    Spells [c] [c] := by
  intro read
  rw [run, step, if_neg fun hand => hquote hand.2, stringStep, if_neg hescape,
    if_neg (not_lt.mpr h)]
  rfl

/-- A byte of an escape. -/
theorem run_escape (hmode : mode ≠ .plain) (h : stringStep mode c = some r) (s t : Bytes) :
    run (.inside mode s) (c :: t) = run (.inside r.1 (s ++ r.2)) t := by
  rw [run, step, if_neg fun hplain => hmode hplain.1, h]
  simp

theorem run_backslash (s t : Bytes) :
    run (.inside .plain s) (92 :: t) = run (.inside .escape s) t := by
  have hquote : ¬ ((Mode.plain = .plain) ∧ (92 : UInt8) = quote) := by decide
  rw [run, step, if_neg hquote, stringStep, if_pos rfl]
  simp

theorem spells_short (hc : c ≠ 117) (h : shortEscapes.lookup c = some value) :
    Spells [92, c] (String.utf8EncodeChar (Char.ofNat value)) := by
  intro read
  have hstep : stringStep .escape c = some (.plain, String.utf8EncodeChar (Char.ofNat value)) := by
    rw [stringStep, if_neg hc, h]
    rfl
  rw [run_backslash, run_escape (by decide) hstep, run]

/-- A character that is no half of a pair, in four digits. -/
theorem spells_codeUnit {a b c d : UInt8} {w x y z : Nat} (ha : hexDigit? a = some w)
    (hb : hexDigit? b = some x) (hc : hexDigit? c = some y) (hd : hexDigit? d = some z)
    (hvalue : 16 * (16 * (16 * (16 * 0 + w) + x) + y) + z = value) (hlow : value < 0xD800) :
    Spells [92, 117, a, b, c, d] (String.utf8EncodeChar (Char.ofNat value)) := by
  intro read
  have hu : stringStep .escape 117 = some (.hex 3 0 none, []) := by
    rw [stringStep, if_pos rfl]
  have hdigit : ∀ {e : UInt8} {k : Nat}, hexDigit? e = some k → ∀ left v,
      stringStep (.hex (left + 1) v none) e = some (.hex left (16 * v + k) none, []) := by
    intro e k he left v
    rw [stringStep, he]
    rfl
  have hlast : ∀ v, 16 * v + z = value → stringStep (.hex 0 v none) d =
      some (.plain, String.utf8EncodeChar (Char.ofNat value)) := by
    intro v hv
    rw [stringStep, hd, bind_some, hv, codeUnit, if_neg (by omega), if_neg (by omega)]
  rw [run_backslash, run_escape (by simp) hu, run_escape (by simp) (hdigit ha 2 0),
    run_escape (by simp) (hdigit hb 1 _), run_escape (by simp) (hdigit hc 0 _),
    run_escape (by simp) (hlast _ hvalue)]
  simp [run]

theorem Spells.reads {e s : Bytes} (h : Spells e s) :
    Reads ([quote] ++ (e ++ [quote])) (.string s) := by
  have hclean : Clean ([quote] ++ (e ++ [quote])) [.string s] := by
    -- the first quote opens the string, the last one closes it
    have hopen : run .between [quote] = some ([], .inside .plain []) := by decide
    rw [Clean, run_append, hopen, bind_some, run_append, h]
    rfl
  exact hclean.tokens

/-- A closed text that ends the token before it, and has its own tokens. -/
def Joins (t : Bytes) (xs : List Token) : Prop := separates t = true ∧ Clean t xs

instance (t : Bytes) (xs : List Token) : Decidable (Joins t xs) :=
  inferInstanceAs (Decidable (_ ∧ _))

theorem Joins.append {xs ys : List Token} (ha : Joins a xs) (hb : Clean b ys) :
    Joins (a ++ b) (xs ++ ys) := by
  obtain ⟨hsep, hclean⟩ := ha
  refine ⟨?_, hclean.append hb⟩
  cases a with
  | nil => exact absurd hsep Bool.false_ne_true
  | cons c a => exact hsep

/-- The text after a member of an object: some more members, and the end. -/
def Follows (t : Bytes) (members : List (Bytes × Json)) : Prop :=
  Joins t (moreMembers members ++ [.mark 125])

theorem follows_end (h : Joins t [.mark 125]) : Follows t [] := h

theorem follows_member {sep u t key : Bytes} {v : Json} {members : List (Bytes × Json)}
    (hsep : Joins sep [.mark 44, .string key, .mark 58]) (hv : Reads u v)
    (h : Follows t members) : Follows (sep ++ (u ++ t)) ((key, v) :: members) := by
  have hrest := clean_append hv h.1 h.2
  have hall := hsep.append hrest
  rw [Follows, moreMembers]
  simpa using hall

theorem reads_object {start u t key : Bytes} {v : Json} {members : List (Bytes × Json)}
    (hstart : Clean start [.mark 123, .string key, .mark 58]) (hv : Reads u v)
    (h : Follows t members) : Reads (start ++ (u ++ t)) (.object ((key, v) :: members)) := by
  have hall := hstart.append (clean_append hv h.1 h.2)
  rw [Reads, Json.tokens, hall.tokens]
  simp

section Rows
variable {α : Type}

/-- Rows with something before the first, and something before each later one. -/
def rows (first next : Bytes) (text : α → Bytes) : List α → Bytes
  | [] => []
  | x :: xs => first ++ text x ++ xs.flatMap fun y => next ++ text y

variable {first next close : Bytes} {text : α → Bytes} {tree : α → Json}

theorem joins_rows (hnext : Joins next [.mark 44]) (hclose : Joins close [.mark 93])
    (hrow : ∀ x, Reads (text x) (tree x)) (xs : List α) :
    Joins ((xs.flatMap fun y => next ++ text y) ++ close)
      (moreItems (xs.map tree) ++ [.mark 93]) := by
  induction xs with
  | nil => exact hclose
  | cons x xs ih =>
    have hall := hnext.append (clean_append (hrow x) ih.1 ih.2)
    rw [flatMap_cons, map_cons, moreItems]
    simpa using hall

theorem reads_rows (hfirst : Clean first []) (hnext : Joins next [.mark 44])
    (hclose : Joins close [.mark 93]) (hrow : ∀ x, Reads (text x) (tree x)) (xs : List α) :
    Reads ([91] ++ (rows first next text xs ++ close)) (.array (xs.map tree)) := by
  have hstart : Clean [91] [.mark 91] := by decide
  cases xs with
  | nil =>
    rw [rows, nil_append, Reads, (hstart.append hclose.2).tokens]
    rfl
  | cons x xs =>
    have hlater := joins_rows hnext hclose hrow xs
    have hall := hstart.append (hfirst.append (clean_append (hrow x) hlater.1 hlater.2))
    rw [Reads, rows, map_cons, Json.tokens]
    simpa using hall.tokens

end Rows

end JsonBytes

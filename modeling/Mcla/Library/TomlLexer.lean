import Mathlib

/-! # The lexical level of TOML

What a reader of TOML 1.0 comes upon, byte by byte: lines end with a line feed or with a carriage
return and a line feed, a comment runs to the end of its line, a key is bare, quoted or dotted, and
a string has one line unless three quotes open it.  The reader stops where a table, a quoted or
dotted key, an array, an inline table or a string of several lines is opened, and where the text is
not TOML.  Other values are not looked into: they run to a comment or to the end of the line.
-/
namespace TomlLexer
open List

/-- What a line of the text does. -/
inductive Event where
  | assigns (key : List UInt8)
  | table
  | quotedKey
  | dottedKey
  | array
  | inlineTable
  | multilineString
  | invalid
deriving DecidableEq

/-- Where the reader is. -/
inductive Mode where
  | line
  | comment
  | bareKey (key : List UInt8)
  | afterKey (key : List UInt8)
  | beforeValue
  | scalar
  | opened (quote : UInt8)
  | twice (quote : UInt8)
  | string (quote : UInt8)
  | escape
  | afterValue
  | carriage
deriving DecidableEq

/-- What the lexer does at a byte. -/
inductive Move where
  | next (mode : Mode)
  | emit (event : Event) (mode : Mode)
  | stop (event : Event)
deriving DecidableEq

def isBlank (b : UInt8) : Bool := b == 32 || b == 9

/-- The characters of a bare key. -/
def isBare (b : UInt8) : Bool :=
  (97 ≤ b && b ≤ 122) || (65 ≤ b && b ≤ 90) || (48 ≤ b && b ≤ 57) || b == 95 || b == 45

/-- A byte of a number, a truth value or a date. -/
def isScalar (b : UInt8) : Bool := isBare b || b == 43 || b == 46 || b == 58

/-- A byte of a comment or of a string of one line: a tab, or no control character. -/
def isText (b : UInt8) : Bool := b == 9 || (32 ≤ b && b != 127)

/-- The escapes of a basic string. -/
def isEscape (b : UInt8) : Bool := [98, 116, 110, 102, 114, 34, 92, 117, 85].contains b

/-- Where a line may end. -/
def orEnd (b : UInt8) (other : Move) : Move :=
  if b = 10 then .next .line else if b = 13 then .next .carriage else other

/-- After a value. -/
def afterStep (b : UInt8) : Move :=
  orEnd b (if isBlank b then .next .afterValue else if b = 35 then .next .comment
    else .stop .invalid)

/-- In a string of one line.  Only a basic string has escapes. -/
def stringStep (quote b : UInt8) : Move :=
  if b = quote then .next .afterValue
  else if quote = 34 ∧ b = 92 then .next .escape
  else if isText b then .next (.string quote)
  else .stop .invalid

/-- What the lexer does at a byte. -/
def lexByte : Mode → UInt8 → Move
  | .line, b => orEnd b (if isBlank b then .next .line else if b = 35 then .next .comment
      else if isBare b then .next (.bareKey [b]) else if b = 91 then .stop .table
      else if b = 34 ∨ b = 39 then .stop .quotedKey else .stop .invalid)
  | .comment, b => orEnd b (if isText b then .next .comment else .stop .invalid)
  | .bareKey key, b =>
      if isBare b then .next (.bareKey (key ++ [b])) else if isBlank b then .next (.afterKey key)
      else if b = 61 then .emit (.assigns key) .beforeValue
      else if b = 46 then .stop .dottedKey else .stop .invalid
  | .afterKey key, b =>
      if isBlank b then .next (.afterKey key)
      else if b = 61 then .emit (.assigns key) .beforeValue
      else if b = 46 then .stop .dottedKey else .stop .invalid
  | .beforeValue, b =>
      if isBlank b then .next .beforeValue else if isScalar b then .next .scalar
      else if b = 34 ∨ b = 39 then .next (.opened b) else if b = 91 then .stop .array
      else if b = 123 then .stop .inlineTable else .stop .invalid
  | .scalar, b => orEnd b (if isScalar b || isBlank b then .next .scalar
      else if b = 35 then .next .comment else .stop .invalid)
  | .opened quote, b => if b = quote then .next (.twice quote) else stringStep quote b
  | .twice quote, b => if b = quote then .stop .multilineString else afterStep b
  | .string quote, b => stringStep quote b
  | .escape, b => if isEscape b then .next (.string 34) else .stop .invalid
  | .afterValue, b => afterStep b
  | .carriage, b => if b = 10 then .next .line else .stop .invalid

/-- What the reader comes upon, up to the first thing that stops it. -/
def lexFrom : Mode → List UInt8 → List Event
  | _, [] => []
  | mode, b :: rest =>
    match lexByte mode b with
    | .next mode => lexFrom mode rest
    | .emit event mode => event :: lexFrom mode rest
    | .stop event => [event]

def byteOrderMark : List UInt8 := [0xEF, 0xBB, 0xBF]

/-- A whole text, with a byte-order mark or without. -/
def lex (text : List UInt8) : List Event :=
  lexFrom .line (if byteOrderMark.isPrefixOf text then text.drop 3 else text)

example : lex [97, 61, 34, 34, 34, 10] = [.assigns [97], .multilineString] := by decide

example : lex [97, 61, 34, 34, 13, 10, 91] = [.assigns [97], .table] := by decide

/-! ### Texts that only assign -/

section Flat
variable (P : List UInt8 → Prop)

/-- Nothing but keys of this kind is assigned, up to where the text may not be TOML. -/
def Flat (events : List Event) : Prop :=
  ∀ event ∈ events, event = .invalid ∨ ∃ key, event = .assigns key ∧ P key

/-- From this mode on, the text is flat. -/
def Safe (mode : Mode) (text : List UInt8) : Prop := Flat P (lexFrom mode text)

/-- The end of a line, with what follows it. -/
def Ends (text : List UInt8) : Prop := text = [] ∨ ∃ rest, text = 10 :: rest ∧ Safe P .line rest

/-- A line may end here. -/
structure EndsLine (mode : Mode) : Prop where
  feed : lexByte mode 10 = .next .line
  carriage : lexByte mode 13 = .next .carriage

variable {P}

theorem safe_nil (mode : Mode) : Safe P mode [] := by
  rw [Safe, lexFrom]
  exact forall_mem_nil _

variable {b : UInt8} {mode : Mode}

theorem safe_next {mode mode' : Mode} (h : lexByte mode b = .next mode') {rest : List UInt8} :
    Safe P mode (b :: rest) ↔ Safe P mode' rest := by
  rw [Safe, lexFrom, h, Safe]

theorem safe_emit {mode mode' : Mode} {key : List UInt8}
    (h : lexByte mode b = .emit (.assigns key) mode') (hkey : P key) {rest : List UInt8}
    (hrest : Safe P mode' rest) : Safe P mode (b :: rest) := by
  rw [Safe, lexFrom, h]
  exact forall_mem_cons.mpr ⟨.inr ⟨key, rfl, hkey⟩, hrest⟩

theorem safe_invalid (h : lexByte mode b = .stop .invalid) (rest : List UInt8) :
    Safe P mode (b :: rest) := by
  rw [Safe, lexFrom, h]
  exact forall_mem_cons.mpr ⟨.inl rfl, forall_mem_nil _⟩

theorem safe_of_ends (hmode : EndsLine mode) {text : List UInt8} (h : Ends P text) :
    Safe P mode text := by
  rcases h with rfl | ⟨rest, rfl, hrest⟩
  · exact safe_nil mode
  · exact (safe_next hmode.feed).mpr hrest

/-- A carriage return ends the line with a line feed, and is not TOML without. -/
theorem safe_return (hmode : EndsLine mode) {text : List UInt8}
    (h : ∀ rest, text = 10 :: rest → Safe P .line rest) : Safe P mode (13 :: text) := by
  rw [safe_next hmode.carriage]
  cases text with
  | nil => exact safe_nil _
  | cons b rest =>
    by_cases hb : b = 10
    · subst hb
      have hfeed : lexByte .carriage 10 = .next .line := rfl
      exact (safe_next hfeed).mpr (h rest rfl)
    · exact safe_invalid (by rw [lexByte, if_neg hb]) rest

/-! ### Gaps -/

def isGap (b : UInt8) : Bool := b == 32 || b == 9 || b == 13

theorem isGap_iff : isGap b = true ↔ isBlank b = true ∨ b = 13 := by
  rw [isGap, isBlank, Bool.or_eq_true, beq_iff_eq]

/-- Blanks stay in the mode, and a carriage return is no more than the end of the line. -/
structure Gapped (mode : Mode) : Prop where
  blank : ∀ b, isBlank b = true → lexByte mode b = .next mode
  carriage : lexByte mode 13 = .stop .invalid ∨ EndsLine mode

theorem safe_gap (hmode : Gapped mode) {gap tail : List UInt8} (hgap : ∀ b ∈ gap, isGap b = true)
    (h : Safe P mode tail) : Safe P mode (gap ++ tail) := by
  induction gap with
  | nil => exact h
  | cons b gap ih =>
    obtain ⟨hb, hrest⟩ := forall_mem_cons.mp hgap
    rcases isGap_iff.mp hb with hblank | rfl
    · exact (safe_next (hmode.blank b hblank)).mpr (ih hrest)
    · rcases hmode.carriage with hstop | hends
      · exact safe_invalid hstop _
      · apply safe_return hends
        intro rest heq
        cases gap with
        | nil =>
          subst heq
          exact (safe_next hends.feed).mp h
        | cons c gap =>
          cases heq
          exact absurd (hrest 10 mem_cons_self) (by decide)

theorem blank_iff : isBlank b = true ↔ b = 32 ∨ b = 9 := by
  rw [isBlank, Bool.or_eq_true, beq_iff_eq, beq_iff_eq]

theorem gapped_line : Gapped .line where
  blank := by
    intro b hb
    rcases blank_iff.mp hb with rfl | rfl <;> rfl
  carriage := .inr ⟨rfl, rfl⟩

theorem gapped_afterKey (key : List UInt8) : Gapped (.afterKey key) where
  blank := by
    intro b hb
    rcases blank_iff.mp hb with rfl | rfl <;> rfl
  carriage := .inl rfl

theorem gapped_beforeValue : Gapped .beforeValue where
  blank := by
    intro b hb
    rcases blank_iff.mp hb with rfl | rfl <;> rfl
  carriage := .inl rfl

theorem gapped_scalar : Gapped .scalar where
  blank := by
    intro b hb
    rcases blank_iff.mp hb with rfl | rfl <;> rfl
  carriage := .inr ⟨rfl, rfl⟩

theorem gapped_afterValue : Gapped .afterValue where
  blank := by
    intro b hb
    rcases blank_iff.mp hb with rfl | rfl <;> rfl
  carriage := .inr ⟨rfl, rfl⟩

/-! ### The parts of a line -/

theorem safe_comment {comment tail : List UInt8} (hcomment : 10 ∉ comment) (h : Ends P tail) :
    Safe P .comment (comment ++ tail) := by
  have hends : EndsLine .comment := ⟨rfl, rfl⟩
  induction comment with
  | nil => exact safe_of_ends hends h
  | cons b comment ih =>
    rw [mem_cons, not_or] at hcomment
    have hfeed : b ≠ 10 := Ne.symm hcomment.1
    by_cases hreturn : b = 13
    · subst hreturn
      apply safe_return hends
      intro rest heq
      cases comment with
      | nil =>
        rcases h with rfl | ⟨other, rfl, hother⟩
        · cases heq
        · cases heq
          exact hother
      | cons c comment =>
        cases heq
        exact absurd mem_cons_self hcomment.2
    · by_cases htext : isText b = true
      · have hstep : lexByte .comment b = .next .comment := by
          rw [lexByte, orEnd, if_neg hfeed, if_neg hreturn, if_pos htext]
        exact (safe_next hstep).mpr (ih hcomment.2)
      · apply safe_invalid
        rw [lexByte, orEnd, if_neg hfeed, if_neg hreturn, if_neg htext]

theorem safe_bareKey {begun key rest : List UInt8} (hkey : ∀ b ∈ key, isBare b = true)
    (h : Safe P (.bareKey (begun ++ key)) rest) : Safe P (.bareKey begun) (key ++ rest) := by
  induction key generalizing begun with
  | nil =>
    rw [append_nil] at h
    exact h
  | cons b key ih =>
    obtain ⟨hb, hrest⟩ := forall_mem_cons.mp hkey
    have hstep : lexByte (.bareKey begun) b = .next (.bareKey (begun ++ [b])) := by
      rw [lexByte, if_pos hb]
    refine (safe_next hstep).mpr (ih hrest ?_)
    rw [append_assoc, singleton_append]
    exact h

/-- A bare key, a gap and the equals sign. -/
theorem safe_assign {key gap rest : List UInt8} (hgap : ∀ b ∈ gap, isGap b = true) (hkey : P key)
    (h : Safe P .beforeValue rest) : Safe P (.bareKey key) (gap ++ 61 :: rest) := by
  cases gap with
  | nil =>
    have hstep : lexByte (.bareKey key) 61 = .emit (.assigns key) .beforeValue := rfl
    exact safe_emit hstep hkey h
  | cons b gap =>
    obtain ⟨hb, hrest⟩ := forall_mem_cons.mp hgap
    rcases isGap_iff.mp hb with hblank | rfl
    · have hstep : lexByte (.bareKey key) b = .next (.afterKey key) := by
        rcases blank_iff.mp hblank with rfl | rfl <;> rfl
      have hequals : lexByte (.afterKey key) 61 = .emit (.assigns key) .beforeValue := rfl
      exact (safe_next hstep).mpr
        (safe_gap (gapped_afterKey key) hrest (safe_emit hequals hkey h))
    · exact safe_invalid rfl _

theorem safe_scalar {scalar rest : List UInt8} (hscalar : ∀ b ∈ scalar, isScalar b = true)
    (h : Safe P .scalar rest) : Safe P .scalar (scalar ++ rest) := by
  induction scalar with
  | nil => exact h
  | cons b scalar ih =>
    obtain ⟨hb, hrest⟩ := forall_mem_cons.mp hscalar
    have hne : b ≠ 10 ∧ b ≠ 13 := by
      constructor
      · rintro rfl
        exact absurd hb (by decide)
      · rintro rfl
        exact absurd hb (by decide)
    have hstep : lexByte .scalar b = .next .scalar := by
      rw [lexByte, orEnd, if_neg hne.1, if_neg hne.2, hb]
      rfl
    exact (safe_next hstep).mpr (ih hrest)

end Flat

end TomlLexer

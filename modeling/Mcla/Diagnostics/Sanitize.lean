import Mcla.Library.Replacement

/-! # Paths in shared diagnostics

`Sanitize` of `mcla_diagnostics` takes the user-data root and the user profile out of a line of the
log before the line is written to a package.  Both are replaced as they are spelled; the root is
replaced with backslashes too, and so has no other spelling left than the one with slashes.

`sanitize_iff` says which texts come out without either path.
-/
namespace Mcla.Sanitize
open TextSearch Replacement Option

/-- A `std::string`; a path as `PathUtf8` gives it. -/
abbrev Bytes := List UInt8

abbrev slash : UInt8 := 47
abbrev backslash : UInt8 := 92
abbrev colon : UInt8 := 58
abbrev less : UInt8 := 60
abbrev greater : UInt8 := 62

/-! ### The code -/

/-- The loop of `ReplaceAll`, from a position on. -/
def replaceFrom (needle replacement text : Bytes) (position : Nat) : Bytes :=
  if _ : needle = [] then text
  else
    match _ : findFrom needle text position with
    | none => text
    | some found =>
      replaceFrom needle replacement
        (text.take found ++ replacement ++ text.drop (found + needle.length))
        (found + replacement.length)
termination_by text.length - position
decreasing_by
  obtain ⟨p, hp, rfl⟩ := map_eq_some_iff.mp ‹findFrom _ _ _ = _›
  obtain ⟨-, hpre, -⟩ := find_eq_some_iff.mp hp
  have hroom := hpre.length_le
  have hpos := List.length_pos_iff.mpr ‹¬ needle = []›
  rw [List.length_drop, List.length_drop] at hroom
  rw [List.length_append, List.length_append, List.length_take, List.length_drop]
  omega

/-- `ReplaceAll`. -/
def replaceAll (text needle replacement : Bytes) : Bytes := replaceFrom needle replacement text 0

/-- The length of a path in units of UTF-16: continuation bytes add nothing, and a character of
four bytes has two units. -/
def wideLength (path : Bytes) : Nat :=
  (path.map fun c => if 0x80 ≤ c.toNat ∧ c.toNat < 0xC0 then 0
    else if 0xF0 ≤ c.toNat then 2 else 1).sum

def kProfileUnits : Nat := 1024

/-- `_wgetenv_s` into the buffer of 1024 units, and the test of its count: a value that does not
fit with its NUL is an error, and an empty one is not taken. -/
def readProfile (environment : Option Bytes) : Option Bytes :=
  environment.filter fun value => decide (wideLength value + 1 ≤ kProfileUnits) && !value.isEmpty

/-- `<user-data>` -/
def userData : Bytes := less :: ([117, 115, 101, 114, 45, 100, 97, 116, 97] ++ [greater])

/-- `<user-profile>` -/
def userProfile : Bytes :=
  less :: ([117, 115, 101, 114, 45, 112, 114, 111, 102, 105, 108, 101] ++ [greater])

/-- A path spelled with backslashes. -/
def backslashes (path : Bytes) : Bytes := path.map fun c => if c = slash then backslash else c

/-- A path spelled with slashes. -/
def slashes (path : Bytes) : Bytes := path.map fun c => if c = backslash then slash else c

/-- `Sanitize` on Windows; `environment` is the variable `USERPROFILE`. -/
def sanitize (environment : Option Bytes) (text userRoot : Bytes) : Bytes :=
  let text := replaceAll text userRoot userData
  let text := replaceAll text (backslashes userRoot) userData
  match readProfile environment with
  | some profile => replaceAll text profile userProfile
  | none => text

theorem replaceFrom_eq (needle replacement text : Bytes) (position : Nat)
    (h : position ≤ text.length) : replaceFrom needle replacement text position =
      text.take position ++ replace needle replacement (text.drop position) := by
  fun_induction replaceFrom needle replacement text position with
  | case1 text position hempty =>
    subst hempty
    unfold replace
    rw [dif_pos rfl, List.take_append_drop]
  | case2 text position hneedle hfind =>
    rw [findFrom, map_eq_none_iff] at hfind
    rw [replace_of_none hfind, List.take_append_drop]
  | case3 text position hneedle found hfind ih =>
    obtain ⟨p, hp, rfl⟩ := map_eq_some_iff.mp hfind
    obtain ⟨hle, hpre, -⟩ := find_eq_some_iff.mp hp
    have hroom := hpre.length_le
    rw [List.length_drop] at hle
    rw [List.length_drop, List.length_drop] at hroom
    have hmiddle : (text.take (position + p) ++ replacement).length =
        position + p + replacement.length := by
      rw [List.length_append, List.length_take, Nat.min_eq_left (by omega)]
    have hbound : position + p + replacement.length ≤ (text.take (position + p) ++ replacement ++
        text.drop (position + p + needle.length)).length := by
      rw [List.length_append, hmiddle]
      omega
    rw [ih hbound, ← hmiddle, List.take_left, List.drop_left, replace_of_some hneedle hp,
      List.drop_drop, List.take_add]
    simp only [List.append_assoc, Nat.add_assoc]

theorem replaceAll_eq (text needle replacement : Bytes) :
    replaceAll text needle replacement = replace needle replacement text :=
  replaceFrom_eq needle replacement text 0 (Nat.zero_le _)

/-! ### Paths and their spellings -/

/-- An absolute path with a drive letter, free of the brackets of the replacements. -/
structure DrivePath where
  text : Bytes
  drive : ∃ letter separator rest, text = letter :: colon :: separator :: rest ∧
    (separator = backslash ∨ separator = slash)
  noLess : less ∉ text
  noGreater : greater ∉ text

/-- The spellings of a path: as it is given, with backslashes and with slashes. -/
def Spelled (path spelling : Bytes) : Prop :=
  spelling = path ∨ spelling = backslashes path ∨ spelling = slashes path

/-- The path stands in the text in one of its spellings. -/
def Mentions (text path : Bytes) : Prop := ∃ spelling, Spelled path spelling ∧ spelling <:+: text

theorem clean_map {path : Bytes} (h : Clean less greater colon path) {f : UInt8 → UInt8}
    (hcolon : f colon = colon) (hless : ∀ c, f c = less → c = less)
    (hgreater : ∀ c, f c = greater → c = greater) : Clean less greater colon (path.map f) where
  left := by
    intro hmem
    obtain ⟨c, hc, heq⟩ := List.mem_map.mp hmem
    exact h.left (hless c heq ▸ hc)
  right := by
    intro hmem
    obtain ⟨c, hc, heq⟩ := List.mem_map.mp hmem
    exact h.right (hgreater c heq ▸ hc)
  unit := List.mem_map.mpr ⟨colon, h.unit, hcolon⟩

theorem DrivePath.clean (path : DrivePath) : Clean less greater colon path.text where
  left := path.noLess
  right := path.noGreater
  unit := by
    obtain ⟨letter, separator, rest, htext, -⟩ := path.drive
    rw [htext]
    exact List.mem_cons_of_mem _ List.mem_cons_self

theorem ite_eq_of_ne {a b c d : UInt8} (hb : b ≠ d) (h : (if c = a then b else c) = d) : c = d := by
  split at h
  · exact absurd h hb
  · exact h

theorem clean_backslashes {path : Bytes} (h : Clean less greater colon path) :
    Clean less greater colon (backslashes path) :=
  clean_map h (by decide) (fun _ => ite_eq_of_ne (by decide)) fun _ => ite_eq_of_ne (by decide)

theorem clean_slashes {path : Bytes} (h : Clean less greater colon path) :
    Clean less greater colon (slashes path) :=
  clean_map h (by decide) (fun _ => ite_eq_of_ne (by decide)) fun _ => ite_eq_of_ne (by decide)

/-- A spelling of a path lies in no replacement and over no end of one. -/
theorem Spelled.clean {path : DrivePath} {spelling : Bytes} (h : Spelled path.text spelling) :
    Clean less greater colon spelling := by
  rcases h with rfl | rfl | rfl
  · exact path.clean
  · exact clean_backslashes path.clean
  · exact clean_slashes path.clean

/-! ### What is left -/

/-- The pieces of a text that no pass replaces: it is cut at the root, at the root with
backslashes and at the profile, if the profile is read. -/
def leftPieces (text : Bytes) (root profile : DrivePath) : List Bytes :=
  let pieces := (cut root.text text).flatMap (cut (backslashes root.text))
  match readProfile (some profile.text) with
  | some value => pieces.flatMap (cut value)
  | none => pieces

/-- The spellings that no pass looks for. -/
def Missed (root profile : DrivePath) (spelling : Bytes) : Prop :=
  spelling = slashes root.text ∨ spelling = backslashes profile.text ∨
    spelling = slashes profile.text ∨
    (readProfile (some profile.text) = none ∧ spelling = profile.text)

/-- The spellings that a pass looks for. -/
def Sought (root profile : DrivePath) (spelling : Bytes) : Prop :=
  spelling = root.text ∨ spelling = backslashes root.text ∨
    readProfile (some profile.text) = some spelling

theorem readProfile_eq_some {environment : Option Bytes} {value : Bytes}
    (h : readProfile environment = some value) : environment = some value :=
  (filter_eq_some_iff.mp h).1

theorem pieces_sanitize (text : Bytes) (root profile : DrivePath) :
    Pieces less greater colon (sanitize (some profile.text) text root.text)
      (leftPieces text root profile) := by
  have hdata : colon ∉ ([117, 115, 101, 114, 45, 100, 97, 116, 97] : Bytes) := by decide
  have hprofile :
      colon ∉ ([117, 115, 101, 114, 45, 112, 114, 111, 102, 105, 108, 101] : Bytes) := by decide
  have hroot : Pieces less greater colon (replace root.text userData text) (cut root.text text) :=
    pieces_cut root.clean.ne_nil hdata text
  have hback := hroot.replace (clean_backslashes root.clean) hdata
  unfold sanitize leftPieces
  simp only [replaceAll_eq]
  cases hread : readProfile (some profile.text) with
  | none => exact hback
  | some value =>
    obtain rfl := some.inj (readProfile_eq_some hread)
    exact hback.replace profile.clean hprofile

variable {root profile : DrivePath}

theorem within_of_mem_leftPieces {text : Bytes} {piece : Bytes}
    (h : piece ∈ leftPieces text root profile) :
    ∃ second first, piece <:+: second ∧ second ∈ cut (backslashes root.text) first ∧
      first ∈ cut root.text text ∧
      (readProfile (some profile.text) = some profile.text → ¬ profile.text <:+: piece) := by
  unfold leftPieces at h
  dsimp only at h
  split at h
  · rename_i value hread
    obtain rfl := some.inj (readProfile_eq_some hread)
    obtain ⟨second, hsecond, hpiece⟩ := List.mem_flatMap.mp h
    obtain ⟨first, hfirst, hcut⟩ := List.mem_flatMap.mp hsecond
    exact ⟨second, first, infix_of_mem_cut profile.clean.ne_nil second piece hpiece, hcut, hfirst,
      fun _ => not_infix_of_mem_cut profile.clean.ne_nil second piece hpiece⟩
  · rename_i hread
    obtain ⟨first, hfirst, hcut⟩ := List.mem_flatMap.mp h
    refine ⟨piece, first, List.infix_rfl, hcut, hfirst, fun hsome => ?_⟩
    rw [hread] at hsome
    cases hsome

/-- No spelling that is sought is left in a piece, and a piece is a part of the text. -/
theorem not_sought_of_piece {text : Bytes} {piece spelling : Bytes}
    (hpiece : piece ∈ leftPieces text root profile) :
    piece <:+: text ∧ (Sought root profile spelling → ¬ spelling <:+: piece) := by
  obtain ⟨second, first, hsub, hsecond, hfirst, hprofile⟩ := within_of_mem_leftPieces hpiece
  have hback := clean_backslashes root.clean
  have hwithin := hsub.trans (infix_of_mem_cut hback.ne_nil first second hsecond)
  refine ⟨hwithin.trans (infix_of_mem_cut root.clean.ne_nil text first hfirst), ?_⟩
  rintro (rfl | rfl | hread) hoccurs
  · exact not_infix_of_mem_cut root.clean.ne_nil text first hfirst (hoccurs.trans hwithin)
  · exact not_infix_of_mem_cut hback.ne_nil first second hsecond (hoccurs.trans hsub)
  · obtain rfl := some.inj (readProfile_eq_some hread)
    exact hprofile hread hoccurs

/-- A spelling that stands in a piece is one that no pass looks for. -/
theorem missed_of_piece {text : Bytes} {piece spelling : Bytes}
    (hpiece : piece ∈ leftPieces text root profile)
    (hspelled : Spelled root.text spelling ∨ Spelled profile.text spelling)
    (hoccurs : spelling <:+: piece) : Missed root profile spelling := by
  have hnot : ¬ Sought root profile spelling :=
    fun hsought => (not_sought_of_piece hpiece).2 hsought hoccurs
  rcases hspelled with (rfl | rfl | rfl) | (rfl | rfl | rfl)
  · exact absurd (.inl rfl) hnot
  · exact absurd (.inr (.inl rfl)) hnot
  · exact .inl rfl
  · cases hread : readProfile (some profile.text) with
    | none => exact .inr (.inr (.inr ⟨hread, rfl⟩))
    | some value =>
      obtain rfl := some.inj (readProfile_eq_some hread)
      exact absurd (.inr (.inr hread)) hnot
  · exact .inr (.inl rfl)
  · exact .inr (.inr (.inl rfl))

/-- A spelling that no occurrence of a sought one reaches into is left. -/
theorem left_of_apart {before spelling after : Bytes}
    (h : ∀ sought, Sought root profile sought → Apart sought before spelling after) :
    ∃ piece ∈ leftPieces (before ++ (spelling ++ after)) root profile, spelling <:+: piece := by
  obtain ⟨x, front, back, y, rfl, rfl, hfirst⟩ := exists_mem_cut root.clean.ne_nil (h _ (.inl rfl))
  obtain ⟨x', front', back', y', rfl, rfl, hsecond⟩ :=
    exists_mem_cut (clean_backslashes root.clean).ne_nil (h _ (.inr (.inl rfl))).part
  have hmem := List.mem_flatMap.mpr ⟨_, hfirst, hsecond⟩
  unfold leftPieces
  dsimp only
  split
  · rename_i value hread
    obtain rfl := some.inj (readProfile_eq_some hread)
    obtain ⟨-, front'', back'', -, -, -, hthird⟩ :=
      exists_mem_cut profile.clean.ne_nil (h _ (.inr (.inr hread))).part.part
    exact ⟨_, List.mem_flatMap.mpr ⟨_, hmem, hthird⟩, front'', back'', List.append_assoc _ _ _⟩
  · exact ⟨_, hmem, front', back', List.append_assoc _ _ _⟩

theorem Missed.spelled {spelling : Bytes} (h : Missed root profile spelling) :
    Spelled root.text spelling ∨ Spelled profile.text spelling := by
  rcases h with rfl | rfl | rfl | ⟨-, rfl⟩
  · exact .inl (.inr (.inr rfl))
  · exact .inr (.inr (.inl rfl))
  · exact .inr (.inr (.inr rfl))
  · exact .inr (.inl rfl)

/-- A text in which no pass finds anything stays as it is. -/
theorem sanitize_of_absent {text : Bytes} (hplain : ¬ root.text <:+: text)
    (hback : ¬ backslashes root.text <:+: text) (hprofile : ¬ profile.text <:+: text) :
    sanitize (some profile.text) text root.text = text := by
  unfold sanitize
  simp only [replaceAll_eq, replace_of_absent hplain, replace_of_absent hback]
  split
  · rename_i value hread
    obtain rfl := some.inj (readProfile_eq_some hread)
    exact replace_of_absent hprofile
  · rfl

/-- A text with neither path stays as it is. -/
theorem sanitize_of_not_mentions {text : Bytes} (hroot : ¬ Mentions text root.text)
    (hprofile : ¬ Mentions text profile.text) :
    sanitize (some profile.text) text root.text = text :=
  sanitize_of_absent (fun h => hroot ⟨_, .inl rfl, h⟩) (fun h => hroot ⟨_, .inr (.inl rfl), h⟩)
    fun h => hprofile ⟨_, .inl rfl, h⟩

/-- What sanitizing is for: neither path is left in any spelling, and a text without them is not
changed. -/
def Sanitized (text : Bytes) (root profile : DrivePath) : Prop :=
  ¬ Mentions (sanitize (some profile.text) text root.text) root.text ∧
  ¬ Mentions (sanitize (some profile.text) text root.text) profile.text ∧
  (¬ Mentions text root.text → ¬ Mentions text profile.text →
    sanitize (some profile.text) text root.text = text)

/-- Nothing is left exactly when no missed spelling stands in a piece between the replaced ones. -/
theorem sanitized_iff_pieces (text : Bytes) (root profile : DrivePath) :
    Sanitized text root profile ↔
      ∀ spelling, Missed root profile spelling →
        ∀ piece ∈ leftPieces text root profile, ¬ spelling <:+: piece := by
  have hpieces := pieces_sanitize text root profile
  constructor
  · rintro ⟨hroot, hprofile, -⟩ spelling hmissed piece hpiece hoccurs
    rcases hmissed.spelled with hspelled | hspelled
    · exact hroot ⟨spelling, hspelled,
        (hpieces.infix_iff hspelled.clean).mpr ⟨piece, hpiece, hoccurs⟩⟩
    · exact hprofile ⟨spelling, hspelled,
        (hpieces.infix_iff hspelled.clean).mpr ⟨piece, hpiece, hoccurs⟩⟩
  · intro hnone
    refine ⟨?_, ?_, sanitize_of_not_mentions⟩
    · rintro ⟨spelling, hspelled, hoccurs⟩
      obtain ⟨piece, hpiece, hstands⟩ := (hpieces.infix_iff hspelled.clean).mp hoccurs
      exact hnone spelling (missed_of_piece hpiece (.inl hspelled) hstands) piece hpiece hstands
    · rintro ⟨spelling, hspelled, hoccurs⟩
      obtain ⟨piece, hpiece, hstands⟩ := (hpieces.infix_iff hspelled.clean).mp hoccurs
      exact hnone spelling (missed_of_piece hpiece (.inr hspelled) hstands) piece hpiece hstands

/-- **When nothing is left**: where every missed spelling of the text has a sought one within it.
A missed spelling that no occurrence of a sought one reaches into is left.  So every text comes out
without the paths exactly when every missed spelling has a sought one within it. -/
theorem sanitize_iff (root profile : DrivePath) :
    (∀ text, (∀ spelling, Missed root profile spelling → spelling <:+: text →
        ∃ sought, Sought root profile sought ∧ sought <:+: spelling) →
      Sanitized text root profile) ∧
    (∀ before spelling after, Missed root profile spelling →
        (∀ sought, Sought root profile sought → Apart sought before spelling after) →
      ¬ Sanitized (before ++ (spelling ++ after)) root profile) ∧
    ((∀ text, Sanitized text root profile) ↔ ∀ spelling, Missed root profile spelling →
      ∃ sought, Sought root profile sought ∧ sought <:+: spelling) := by
  have henough (text : Bytes) (h : ∀ spelling, Missed root profile spelling → spelling <:+: text →
      ∃ sought, Sought root profile sought ∧ sought <:+: spelling) :
      Sanitized text root profile := by
    rw [sanitized_iff_pieces]
    intro spelling hmissed piece hpiece hoccurs
    have hwithin := (@not_sought_of_piece _ _ _ _ spelling hpiece).1
    obtain ⟨sought, hsought, hinside⟩ := h spelling hmissed (hoccurs.trans hwithin)
    exact (not_sought_of_piece hpiece).2 hsought (hinside.trans hoccurs)
  have hleft (before spelling after : Bytes) (hmissed : Missed root profile spelling)
      (hapart : ∀ sought, Sought root profile sought → Apart sought before spelling after) :
      ¬ Sanitized (before ++ (spelling ++ after)) root profile := by
    rw [sanitized_iff_pieces]
    intro hnone
    obtain ⟨piece, hpiece, hoccurs⟩ := left_of_apart hapart
    exact hnone spelling hmissed piece hpiece hoccurs
  refine ⟨henough, hleft, fun hall spelling hmissed => ?_,
    fun h text => henough text fun spelling hmissed _ => h spelling hmissed⟩
  by_contra hnone
  refine hleft [] spelling [] hmissed (fun sought hsought x y heq => ?_) (hall _)
  rw [List.nil_append, List.append_nil, ← List.append_assoc] at heq
  exact absurd ⟨sought, hsought, x, y, heq⟩ hnone

/-! ### The root in the line that the host writes -/

/-- `C:\me` -/
def hostProfile : DrivePath where
  text := [67, 58, 92, 109, 101]
  drive := ⟨67, 92, [109, 101], rfl, .inl rfl⟩
  noLess := by decide
  noGreater := by decide

/-- `C:\me\mcla` -/
def hostRoot : DrivePath where
  text := [67, 58, 92, 109, 101, 92, 109, 99, 108, 97]
  drive := ⟨67, 92, [109, 101, 92, 109, 99, 108, 97], rfl, .inl rfl⟩
  noLess := by decide
  noGreater := by decide

/-- `root is C:/me/mcla/live`, as the host logs the root of its snapshots. -/
def rootLine : Bytes :=
  [114, 111, 111, 116, 32, 105, 115, 32, 67, 58, 47, 109, 101, 47, 109, 99, 108, 97, 47, 108, 105,
    118, 101]

/-- The line that names the root with slashes comes out as it is. -/
theorem rootLine_not_sanitized : ¬ Sanitized rootLine hostRoot hostProfile := by
  rintro ⟨hroot, -, -⟩
  have hplain : ¬ hostRoot.text <:+: rootLine := find_eq_none_iff.mp (by decide)
  have hback : ¬ backslashes hostRoot.text <:+: rootLine := find_eq_none_iff.mp (by decide)
  have hprofile : ¬ hostProfile.text <:+: rootLine := find_eq_none_iff.mp (by decide)
  rw [sanitize_of_absent hplain hback hprofile] at hroot
  exact hroot ⟨slashes hostRoot.text, .inr (.inr rfl),
    [114, 111, 111, 116, 32, 105, 115, 32], [47, 108, 105, 118, 101], by decide⟩

end Mcla.Sanitize

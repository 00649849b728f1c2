import Mcla.Library.TextLines
import Mcla.Launcher.Capabilities

/-! # The owner's list

`CheckOwnerAdmission` of `mcla_launcher_capabilities`: the file in which the owner lists the builds
that may be started.  It is edited by hand, so a byte-order mark, carriage returns before the line
feeds and a missing last line feed are put right first; every row is then checked strictly, and one
bad row rejects the file.

`checkOwnerAdmission_exact` says which files are accepted, and that the three variations do not
change the answer.
-/
namespace Mcla.Launcher.OwnerAdmission
open TextLines List

def kOwnerAdmissionHeader : Bytes := Lease.ascii "MCLA-OWNER-ADMITTED-BUILDS-V1\n"
def kOwnerAdmissionMaximumBytes : Nat := 16 * 1024
def kOwnerAdmissionMaximumEntries : Nat := 64
def byteOrderMark : Bytes := [0xEF, 0xBB, 0xBF]

/-- Why a file was ignored.  The line counts from 1, and is 0 for the whole file. -/
structure OwnerAdmissionRejection where
  reason : String
  line : Nat

/-- The characters of a label. -/
def labelUnit (c : UInt8) : Bool :=
  (65 ≤ c.toNat && c.toNat ≤ 90) || (97 ≤ c.toNat && c.toNat ≤ 122) ||
    (48 ≤ c.toNat && c.toNat ≤ 57) || c == 46 || c == 95 || c == 45

/-- What stands behind the fingerprint of a row. -/
def validLabel : Bytes → Bool
  | [] => true
  | space :: label => space == 32 && !label.isEmpty && decide (label.length ≤ 32) &&
      label.all labelUnit

/-- One row of the list. -/
def checkRow (builds : List Bytes) (row : Bytes) : Except String Bytes :=
  if builds.length ≥ kOwnerAdmissionMaximumEntries then .error "more than 64 builds"
  else if row = [] then .error "empty line"
  else if row.length < 64 ∨ validCapabilityIdentity (row.take 64) = false then
    .error "not a 64-character uppercase hex fingerprint"
  else if validLabel (row.drop 64) = false then
    .error "label must be one space and 1-32 of A-Z a-z 0-9 . _ -"
  else if builds.contains (row.take 64) then .error "duplicate fingerprint"
  else .ok (row.take 64)

/-- The loop over the rows, after the builds and the line that are given. -/
def checkRows (builds : List Bytes) (line : Nat) :
    List Bytes → Except OwnerAdmissionRejection (List Bytes)
  | [] => .ok builds
  | row :: rows =>
      match checkRow builds row with
      | .error reason => .error ⟨reason, line + 1⟩
      | .ok build => checkRows (builds ++ [build]) (line + 1) rows

/-- The text after a byte order mark. -/
def withoutMark (raw : Bytes) : Bytes := if byteOrderMark.isPrefixOf raw then raw.drop 3 else raw

/-- The text of the list. -/
def checkText (text : Bytes) : Except OwnerAdmissionRejection (List Bytes) :=
  if kOwnerAdmissionHeader.isPrefixOf text then
    checkRows [] 1 (split (text.drop kOwnerAdmissionHeader.length))
  else .error ⟨"first line is not MCLA-OWNER-ADMITTED-BUILDS-V1", 1⟩

/-- `CheckOwnerAdmission`. -/
def checkOwnerAdmission (raw : Bytes) : Except OwnerAdmissionRejection (List Bytes) :=
  if raw.length > kOwnerAdmissionMaximumBytes then .error ⟨"file is over 16 KiB", 0⟩
  else checkText (closed (withoutReturns (withoutMark raw)))

/-- `ParseOwnerAdmission`. -/
def parseOwnerAdmission (raw : Bytes) : Option (List Bytes) :=
  match checkOwnerAdmission raw with
  | .ok builds => some builds
  | .error _ => none

/-! ### The grammar -/

/-- A row: a fingerprint, and perhaps a space and a label. -/
structure Entry where
  build : Bytes
  label : Option Bytes
  build_valid : validCapabilityIdentity build = true
  label_valid : ∀ text ∈ label, text ≠ [] ∧ text.length ≤ 32 ∧ ∀ c ∈ text, labelUnit c = true

/-- The row of an entry. -/
def Entry.row (entry : Entry) : Bytes :=
  entry.build ++ match entry.label with
    | none => []
    | some label => 32 :: label

/-- The owner's list. -/
structure OwnerList where
  entries : List Entry
  few : entries.length ≤ kOwnerAdmissionMaximumEntries
  distinct : (entries.map Entry.build).Nodup

def headerLine : Bytes := Lease.ascii "MCLA-OWNER-ADMITTED-BUILDS-V1"

/-- The builds of a list. -/
def OwnerList.builds (list : OwnerList) : List Bytes := list.entries.map Entry.build

/-- The lines of a list. -/
def OwnerList.lines (list : OwnerList) : List Bytes := headerLine :: list.entries.map Entry.row

/-- The file spells the lines, and may begin with a byte-order mark. -/
def Spelled (lines : List Bytes) (raw : Bytes) : Prop :=
  ∃ text, Spells lines text ∧ ¬ byteOrderMark <+: text ∧ (raw = text ∨ raw = byteOrderMark ++ text)

/-! ### Rows -/

theorem validCapabilityIdentity_iff {build : Bytes} :
    validCapabilityIdentity build = true ↔ build.length = 64 ∧
      ∀ c ∈ build, (48 ≤ c.toNat ∧ c.toNat ≤ 57) ∨ (65 ≤ c.toNat ∧ c.toNat ≤ 70) := by
  unfold validCapabilityIdentity
  simp only [Bool.and_eq_true, beq_iff_eq, all_eq_true, Bool.or_eq_true, decide_eq_true_eq]

theorem validLabel_cons {space : UInt8} {label : Bytes} :
    validLabel (space :: label) = true ↔
      space = 32 ∧ label ≠ [] ∧ label.length ≤ 32 ∧ ∀ c ∈ label, labelUnit c = true := by
  unfold validLabel
  simp only [Bool.and_eq_true, beq_iff_eq, Bool.not_eq_true', isEmpty_eq_false_iff,
    decide_eq_true_eq, all_eq_true, and_assoc]

/-- **Which rows are taken.** -/
theorem checkRow_iff {builds : List Bytes} {row build : Bytes} :
    checkRow builds row = .ok build ↔ builds.length < kOwnerAdmissionMaximumEntries ∧
      build ∉ builds ∧ ∃ entry : Entry, entry.build = build ∧ row = entry.row := by
  unfold checkRow
  constructor
  · intro h
    split at h
    · cases h
    rename_i hroom
    split at h
    · cases h
    split at h
    · cases h
    rename_i hidentity
    split at h
    · cases h
    rename_i hlabel
    split at h
    · cases h
    rename_i hnew
    rw [contains_iff_mem] at hnew
    obtain rfl := Except.ok.inj h
    rw [not_or, Bool.not_eq_false] at hidentity
    rw [Bool.not_eq_false] at hlabel
    refine ⟨not_le.mp hroom, hnew, ?_⟩
    cases hrest : row.drop 64 with
    | nil =>
      refine ⟨⟨row.take 64, none, hidentity.2, by simp⟩, rfl, ?_⟩
      show row = row.take 64 ++ []
      rw [← hrest, take_append_drop]
    | cons space label =>
      rw [hrest, validLabel_cons] at hlabel
      obtain ⟨rfl, hvalid⟩ := hlabel
      refine ⟨⟨row.take 64, some label, hidentity.2, ?_⟩, rfl, ?_⟩
      · intro text htext
        rw [← Option.some.inj htext]
        exact hvalid
      · show row = row.take 64 ++ 32 :: label
        rw [← hrest, take_append_drop]
  · rintro ⟨hroom, hnew, entry, rfl, rfl⟩
    have hlength := (validCapabilityIdentity_iff.mp entry.build_valid).1
    have htake : entry.row.take 64 = entry.build := by
      unfold Entry.row
      rw [← hlength, take_left]
    have hdrop : validLabel (entry.row.drop 64) = true := by
      unfold Entry.row
      rw [← hlength, drop_left]
      cases hlabel : entry.label with
      | none => rfl
      | some label => exact validLabel_cons.mpr ⟨rfl, entry.label_valid label hlabel⟩
    have hlong : 64 ≤ entry.row.length := by
      unfold Entry.row
      rw [length_append, hlength]
      exact Nat.le_add_right ..
    have hne : entry.row ≠ [] := by
      intro hempty
      rw [hempty] at hlong
      exact absurd hlong (by decide)
    rw [if_neg (not_le.mpr hroom), if_neg hne, htake, if_neg, if_neg,
      if_neg (mt contains_iff_mem.mp hnew)]
    · rw [hdrop]
      decide
    · rw [not_or, entry.build_valid]
      exact ⟨not_lt.mpr hlong, by decide⟩

/-- **Which rows are taken, one after another.** -/
theorem checkRows_iff {builds : List Bytes} {line : Nat} {rows result : List Bytes}
    (hfew : builds.length ≤ kOwnerAdmissionMaximumEntries) (hdistinct : builds.Nodup) :
    checkRows builds line rows = .ok result ↔ ∃ entries : List Entry,
      rows = entries.map Entry.row ∧ result = builds ++ entries.map Entry.build ∧
        result.length ≤ kOwnerAdmissionMaximumEntries ∧ result.Nodup := by
  induction rows generalizing builds line with
  | nil =>
    rw [checkRows]
    constructor
    · intro h
      obtain rfl := Except.ok.inj h
      exact ⟨[], rfl, by simp, hfew, hdistinct⟩
    · rintro ⟨entries, hrows, rfl, -, -⟩
      rw [nil_eq, map_eq_nil_iff] at hrows
      rw [hrows]
      simp
  | cons row rows ih =>
    rw [checkRows]
    constructor
    · intro h
      split at h
      · cases h
      · rename_i build hrow
        obtain ⟨hroom, hnew, entry, rfl, rfl⟩ := checkRow_iff.mp hrow
        have hfew' : (builds ++ [entry.build]).length ≤ kOwnerAdmissionMaximumEntries := by
          simpa using hroom
        have hdistinct' : (builds ++ [entry.build]).Nodup := by
          rw [← concat_eq_append]
          exact List.Nodup.concat hnew hdistinct
        obtain ⟨entries, rfl, rfl, hresult, hnodup⟩ := (ih hfew' hdistinct').mp h
        refine ⟨entry :: entries, rfl, ?_, hresult, hnodup⟩
        simp
    · rintro ⟨entries, hrows, rfl, hresult, hnodup⟩
      cases entries with
      | nil => cases hrows
      | cons entry entries =>
        obtain ⟨rfl, rfl⟩ := List.cons.inj hrows
        rw [map_cons] at hresult hnodup
        have hroom : builds.length < kOwnerAdmissionMaximumEntries := by
          rw [length_append, length_cons] at hresult
          omega
        have hnew : entry.build ∉ builds := by
          intro hmem
          exact (nodup_append.mp hnodup).2.2 _ hmem _ mem_cons_self rfl
        have happend : builds ++ entry.build :: entries.map Entry.build =
            (builds ++ [entry.build]) ++ entries.map Entry.build := by simp
        have hfew' : (builds ++ [entry.build]).length ≤ kOwnerAdmissionMaximumEntries := by
          simpa using hroom
        have hdistinct' : (builds ++ [entry.build]).Nodup := by
          rw [happend] at hnodup
          exact (nodup_append.mp hnodup).1
        rw [checkRow_iff.mpr ⟨hroom, hnew, entry, rfl, rfl⟩]
        exact (ih hfew' hdistinct').mpr ⟨entries, rfl, happend, hresult, hnodup⟩

/-! ### Files -/

theorem header_eq : kOwnerAdmissionHeader = headerLine ++ [10] := by decide

theorem headerLine_plain : 10 ∉ headerLine ∧ 13 ∉ headerLine := by decide

/-- The fingerprint and the label have neither line feeds nor carriage returns. -/
theorem Entry.row_plain (entry : Entry) : 10 ∉ entry.row ∧ 13 ∉ entry.row := by
  have hbuild := (validCapabilityIdentity_iff.mp entry.build_valid).2
  have hrow : ∀ c ∈ entry.row, c ≠ 10 ∧ c ≠ 13 := by
    intro c hc
    rcases mem_append.mp hc with hmem | hmem
    · have hrange := hbuild c hmem
      constructor
      · rintro rfl
        revert hrange
        decide
      · rintro rfl
        revert hrange
        decide
    · cases hlabel : entry.label with
      | none =>
        rw [hlabel] at hmem
        cases hmem
      | some label =>
        rw [hlabel] at hmem
        rcases mem_cons.mp hmem with rfl | hlabelled
        · decide
        · have hunit := (entry.label_valid label hlabel).2.2 c hlabelled
          constructor
          · rintro rfl
            revert hunit
            decide
          · rintro rfl
            revert hunit
            decide
  exact ⟨fun h => (hrow 10 h).1 rfl, fun h => (hrow 13 h).2 rfl⟩

theorem OwnerList.lines_plain (list : OwnerList) : ∀ line ∈ list.lines, 10 ∉ line ∧ 13 ∉ line := by
  intro line hline
  rcases mem_cons.mp hline with rfl | hmem
  · exact headerLine_plain
  · obtain ⟨entry, -, rfl⟩ := mem_map.mp hmem
    exact entry.row_plain

theorem isLine_of_plain {line : Bytes} (h : 10 ∉ line ∧ 13 ∉ line) : IsLine line :=
  ⟨h.1, fun hlast => h.2 (mem_of_getLast? hlast)⟩

theorem Entry.row_length (entry : Entry) : entry.row.length ≤ 97 := by
  have hlength := (validCapabilityIdentity_iff.mp entry.build_valid).1
  unfold Entry.row
  rw [length_append, hlength]
  cases hlabel : entry.label with
  | none => decide
  | some label =>
    have hshort := (entry.label_valid label hlabel).2.1
    rw [length_cons]
    omega

/-- A file of the owner's list is far below the bound. -/
theorem length_of_spells {lines : List Bytes} {text : Bytes} (h : Spells lines text) {bound : Nat}
    (hlines : ∀ line ∈ lines, line.length ≤ bound) : text.length ≤ lines.length * (bound + 2) := by
  induction h with
  | nil => exact Nat.zero_le _
  | last hne =>
    have hline := hlines _ mem_cons_self
    rw [length_singleton]
    omega
  | cons hending h ih =>
    have hline := hlines _ mem_cons_self
    have hrest := ih fun line hmem => hlines line (mem_cons_of_mem _ hmem)
    rw [length_append, length_append, length_cons, Nat.succ_mul]
    rcases hending with rfl | rfl
    · rw [length_singleton]
      omega
    · rw [length_cons, length_singleton]
      omega

theorem withoutMark_of_spelled {raw text : Bytes} (hmark : ¬ byteOrderMark <+: text)
    (h : raw = text ∨ raw = byteOrderMark ++ text) : withoutMark raw = text := by
  unfold withoutMark
  rcases h with rfl | rfl
  · rw [if_neg]
    exact fun hpre => hmark (List.isPrefixOf_iff_prefix.mp hpre)
  · rw [if_pos (List.isPrefixOf_iff_prefix.mpr (prefix_append ..))]
    rfl

/-- What is left of a file is checked, whatever the spelling of its lines. -/
theorem checkOwnerAdmission_spelled {lines : List Bytes} {raw : Bytes} (h : Spelled lines raw)
    (hlines : ∀ line ∈ lines, IsLine line) (hsize : raw.length ≤ kOwnerAdmissionMaximumBytes) :
    checkOwnerAdmission raw = checkText (joined lines) := by
  obtain ⟨text, hspells, hmark, hraw⟩ := h
  unfold checkOwnerAdmission
  rw [if_neg (not_lt.mpr hsize), withoutMark_of_spelled hmark hraw, normal_of_spells hspells hlines]

theorem checkText_lines (rows : List Bytes) (hrows : ∀ row ∈ rows, 10 ∉ row) :
    checkText (joined (headerLine :: rows)) = checkRows [] 1 rows := by
  have hsplit : joined (headerLine :: rows) = kOwnerAdmissionHeader ++ joined rows := by
    rw [joined_cons, header_eq, append_assoc]
    rfl
  unfold checkText
  rw [hsplit, if_pos (List.isPrefixOf_iff_prefix.mpr (prefix_append ..)), drop_left, split_joined hrows]

/-- The owner's list is accepted, however its lines are spelled. -/
theorem checkOwnerAdmission_of_list (list : OwnerList) {raw : Bytes}
    (h : Spelled list.lines raw) : checkOwnerAdmission raw = .ok list.builds := by
  have hlength : ∀ line ∈ list.lines, line.length ≤ 97 := by
    intro line hline
    rcases mem_cons.mp hline with rfl | hmem
    · decide
    · obtain ⟨entry, -, rfl⟩ := mem_map.mp hmem
      exact entry.row_length
  have hsize : raw.length ≤ kOwnerAdmissionMaximumBytes := by
    obtain ⟨text, hspells, -, hraw⟩ := h
    have hfew := list.few
    have hcount : list.lines.length = list.entries.length + 1 := by
      unfold OwnerList.lines
      rw [length_cons, length_map]
    have htext := length_of_spells hspells hlength
    rw [hcount] at htext
    have hbound : ∀ n size : Nat, n ≤ 64 → size ≤ (n + 1) * (97 + 2) → 3 + size ≤ 16 * 1024 := by
      omega
    have hmarked := hbound _ _ hfew htext
    rcases hraw with rfl | rfl
    · exact (Nat.le_add_left ..).trans hmarked
    · rw [length_append]
      exact hmarked
  rw [checkOwnerAdmission_spelled h (fun line hline => isLine_of_plain (list.lines_plain line hline))
    hsize]
  unfold OwnerList.lines
  rw [checkText_lines _ fun row hrow => (list.lines_plain row (mem_cons_of_mem _ hrow)).1]
  exact (checkRows_iff (Nat.zero_le _) nodup_nil).mpr ⟨list.entries, rfl, rfl,
    (length_map ..).trans_le list.few, list.distinct⟩

/-- Only the owner's list is accepted. -/
theorem list_of_checkOwnerAdmission {raw : Bytes} {builds : List Bytes}
    (h : checkOwnerAdmission raw = .ok builds) :
    ∃ list : OwnerList, builds = list.builds ∧ Spelled list.lines raw := by
  unfold checkOwnerAdmission checkText at h
  split at h
  · cases h
  split at h
  · rename_i hheader
    obtain ⟨rest, hrest⟩ := isPrefixOf_iff_prefix.mp hheader
    obtain ⟨entries, hrows, hbuilds, hfew, hdistinct⟩ :=
      (checkRows_iff (Nat.zero_le _) nodup_nil).mp h
    obtain rfl : builds = entries.map Entry.build := hbuilds
    let list : OwnerList := ⟨entries, (length_map ..).symm.trans_le hfew, hdistinct⟩
    have hspells : Spells list.lines (withoutMark raw) := by
      refine spells_of_normal ?_ list.lines_plain
      -- what is behind the header is closed, as the whole text is
      have hrest' : closed rest = rest := by
        have hclosed := closed_closed (withoutReturns (withoutMark raw))
        rw [← hrest, header_eq, append_assoc, singleton_append,
          closed_line headerLine_plain.1] at hclosed
        exact (List.cons.inj (append_cancel_left hclosed)).2
      rw [← hrest, drop_left] at hrows
      rw [← hrest, header_eq, append_assoc, ← joined_split hrest', hrows]
      exact (joined_cons ..).symm
    refine ⟨list, rfl, withoutMark raw, hspells, ?_, ?_⟩
    · intro hmark
      obtain ⟨tail, htail⟩ := hspells.head
      rw [← htail, ← isPrefixOf_iff_prefix] at hmark
      cases hmark
    · unfold withoutMark
      split
      · rename_i hmark
        obtain ⟨tail, rfl⟩ := isPrefixOf_iff_prefix.mp hmark
        exact .inr rfl
      · exact .inl rfl
  · cases h

/-- Two spellings of the same lines, and one of them is accepted: so is the other. -/
theorem checkOwnerAdmission_ok {lines : List Bytes} (hlines : ∀ line ∈ lines, IsLine line)
    {raw raw' : Bytes} {builds : List Bytes} (h : Spelled lines raw) (h' : Spelled lines raw')
    (hok : checkOwnerAdmission raw = .ok builds) : checkOwnerAdmission raw' = .ok builds := by
  obtain ⟨list, rfl, text, hspells, hmark, hraw⟩ := list_of_checkOwnerAdmission hok
  obtain ⟨text', hspells', hmark', hraw'⟩ := h
  have heq : joined list.lines = joined lines := by
    rw [← normal_of_spells hspells fun line hline => isLine_of_plain (list.lines_plain line hline),
      ← normal_of_spells hspells' hlines, ← withoutMark_of_spelled hmark hraw,
      ← withoutMark_of_spelled hmark' hraw']
  have hlines_eq : list.lines = lines := by
    rw [← split_joined fun line hline => (list.lines_plain line hline).1, heq,
      split_joined fun line hline => (hlines line hline).feed]
  exact checkOwnerAdmission_of_list list (hlines_eq ▸ h')

/-- **The owner's list is accepted, and nothing else.**  A byte-order mark, carriage returns before
line feeds and a missing last line feed change neither what is accepted nor, of files within the
bound of 16 KiB on the bytes as they are, the reason and the line of a rejection.  An accepted file
has at most 64 builds, and no build twice. -/
theorem checkOwnerAdmission_exact (raw : Bytes) :
    (∀ builds, checkOwnerAdmission raw = .ok builds ↔
      ∃ list : OwnerList, builds = list.builds ∧ Spelled list.lines raw) ∧
    (∀ lines raw', (∀ line ∈ lines, IsLine line) → Spelled lines raw → Spelled lines raw' →
      parseOwnerAdmission raw = parseOwnerAdmission raw' ∧
        (raw.length ≤ kOwnerAdmissionMaximumBytes → raw'.length ≤ kOwnerAdmissionMaximumBytes →
          checkOwnerAdmission raw = checkOwnerAdmission raw')) ∧
    (∀ builds, checkOwnerAdmission raw = .ok builds → builds.length ≤ 64 ∧ builds.Nodup) := by
  refine ⟨fun builds => ⟨list_of_checkOwnerAdmission, ?_⟩, fun lines raw' hlines h h' => ⟨?_, ?_⟩,
    fun builds hok => ?_⟩
  · rintro ⟨list, rfl, h⟩
    exact checkOwnerAdmission_of_list list h
  · unfold parseOwnerAdmission
    cases hraw : checkOwnerAdmission raw with
    | ok builds => rw [checkOwnerAdmission_ok hlines h h' hraw]
    | error rejection =>
      cases hraw' : checkOwnerAdmission raw' with
      | ok builds =>
        rw [checkOwnerAdmission_ok hlines h' h hraw'] at hraw
        cases hraw
      | error rejection' => rfl
  · intro hsize hsize'
    rw [checkOwnerAdmission_spelled h hlines hsize, checkOwnerAdmission_spelled h' hlines hsize']
  · obtain ⟨list, rfl, -⟩ := list_of_checkOwnerAdmission hok
    exact ⟨(length_map ..).trans_le list.few, list.distinct⟩

end Mcla.Launcher.OwnerAdmission

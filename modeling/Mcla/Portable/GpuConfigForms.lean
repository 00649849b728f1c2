import Mcla.Portable.GpuConfig

/-! # Forms of one configuration

A byte-order mark in front, carriage returns at the ends of the lines, and lines that say nothing
leave the answer of `validate` as it is.  Only a line in front of a leading mark does not: the mark
is then no longer leading, and its bytes are no bare key.
-/
namespace Mcla.Portable.GpuConfig
open NestedRecorder (need bind_ok)
open TomlLexer (isGap byteOrderMark)
open List

/-! ### The mark -/

theorem withoutMark_mark (text : Bytes) : withoutMark (byteOrderMark ++ text) = text := by
  have hmark : byteOrderMark.isPrefixOf (byteOrderMark ++ text) = true :=
    isPrefixOf_iff_prefix.mpr (prefix_append _ _)
  rw [withoutMark, if_pos hmark]
  rfl

theorem withoutMark_bare {text : Bytes} (h : byteOrderMark.isPrefixOf text = false) :
    withoutMark text = text := by
  rw [withoutMark, h]
  rfl

variable {mark : Bytes} {flags : Flags} {line : Bytes} {front back : List Bytes}

/-- Whether a text has the mark is seen in its first line. -/
theorem mark_line (h : 10 ∉ mark) (line rest : Bytes) :
    mark.isPrefixOf (line ++ 10 :: rest) = mark.isPrefixOf line := by
  induction mark generalizing line with
  | nil => rfl
  | cons m mark ih =>
    rw [mem_cons, not_or] at h
    cases line with
    | nil =>
      have hm : (m == 10) = false := beq_eq_false_iff_ne.mpr (Ne.symm h.1)
      rw [nil_append, isPrefixOf_cons_cons, hm]
      rfl
    | cons c line => rw [cons_append, List.isPrefixOf, List.isPrefixOf, ih h.2]

theorem withoutMark_line (line rest : Bytes) :
    withoutMark (line ++ 10 :: rest) = withoutMark line ++ 10 :: rest := by
  have hmark : byteOrderMark.isPrefixOf (line ++ 10 :: rest) = byteOrderMark.isPrefixOf line :=
    mark_line (by decide) line rest
  by_cases hline : byteOrderMark.isPrefixOf line = true
  · obtain ⟨tail, rfl⟩ := isPrefixOf_iff_prefix.mp hline
    rw [append_assoc, withoutMark_mark, withoutMark_mark]
  · rw [Bool.not_eq_true] at hline
    rw [withoutMark_bare hline, withoutMark_bare (hmark.trans hline)]

theorem withoutMark_join (line : Bytes) (rest : List Bytes) :
    withoutMark (join (line :: rest)) = join (withoutMark line :: rest) := by
  cases rest with
  | nil => rfl
  | cons next rest => exact withoutMark_line line _

theorem mem_of_mem_withoutMark {text : Bytes} {b : UInt8} (h : b ∈ withoutMark text) :
    b ∈ text := by
  rw [withoutMark] at h
  split at h
  · exact mem_of_mem_drop h
  · exact h

/-! ### Texts with the same lines -/

theorem validate_congr {text text' : Bytes} (hsize : text.length ≤ kMaximumConfigBytes)
    (hsize' : text'.length ≤ kMaximumConfigBytes) (hzero : 0 ∈ text ↔ 0 ∈ text')
    (hlines : ((linesFrom [] (withoutMark text)).forM fun line => validateLine flags (trim line)) =
      (linesFrom [] (withoutMark text')).forM fun line => validateLine flags (trim line)) :
    validate flags text = validate flags text' := by
  rw [validate, validate, hlines]
  by_cases h : 0 ∈ text
  · have h' := hzero.mp h
    rw [need, if_neg (fun hneed => hneed.2 h), need, if_neg (fun hneed => hneed.2 h')]
  · have h' := mt hzero.mpr h
    rw [need, if_pos ⟨hsize, h⟩, need, if_pos ⟨hsize', h'⟩]

theorem validate_mark {text : Bytes} (hmark : byteOrderMark.isPrefixOf text = false)
    (hsize : (byteOrderMark ++ text).length ≤ kMaximumConfigBytes) :
    validate flags (byteOrderMark ++ text) = validate flags text := by
  apply validate_congr hsize
  · rw [length_append] at hsize
    omega
  · rw [mem_append, or_iff_right]
    decide
  · rw [withoutMark_mark, withoutMark_bare hmark]

/-! ### Carriage returns -/

/-- Every line feed with a carriage return before it. -/
def crlf (text : Bytes) : Bytes := text.flatMap fun c => if c = 10 then [13, 10] else [c]

theorem crlf_feed (rest : Bytes) : crlf (10 :: rest) = 13 :: 10 :: crlf rest := rfl

theorem crlf_cons {c : UInt8} (h : c ≠ 10) (rest : Bytes) : crlf (c :: rest) = c :: crlf rest := by
  rw [crlf, flatMap_cons, if_neg h, singleton_append, crlf]

theorem length_le_crlf (text : Bytes) : text.length ≤ (crlf text).length := by
  induction text with
  | nil => exact Nat.zero_le _
  | cons c rest ih =>
    by_cases hc : c = 10
    · subst hc
      rw [crlf_feed, length_cons, length_cons, length_cons]
      omega
    · rw [crlf_cons hc, length_cons, length_cons]
      omega

theorem mem_crlf {text : Bytes} {b : UInt8} (h : b ≠ 13) : b ∈ crlf text ↔ b ∈ text := by
  induction text with
  | nil => exact Iff.rfl
  | cons c rest ih =>
    by_cases hc : c = 10
    · subst hc
      rw [crlf_feed, mem_cons, mem_cons, mem_cons, ih]
      exact or_iff_right h
    · rw [crlf_cons hc, mem_cons, mem_cons, ih]

theorem mark_crlf (hfeed : 10 ∉ mark) (hreturn : 13 ∉ mark) (text : Bytes) :
    mark.isPrefixOf (crlf text) = mark.isPrefixOf text := by
  induction mark generalizing text with
  | nil => rfl
  | cons m mark ih =>
    rw [mem_cons, not_or] at hfeed hreturn
    cases text with
    | nil => rfl
    | cons c rest =>
      by_cases hc : c = 10
      · -- neither the return nor the feed is the next byte of the mark
        subst hc
        have hm : (m == 13) = false := beq_eq_false_iff_ne.mpr (Ne.symm hreturn.1)
        have hm' : (m == 10) = false := beq_eq_false_iff_ne.mpr (Ne.symm hfeed.1)
        rw [crlf_feed, List.isPrefixOf, List.isPrefixOf, hm, hm', Bool.false_and, Bool.false_and]
      · rw [crlf_cons hc, List.isPrefixOf, List.isPrefixOf, ih hfeed.2 hreturn.2]

theorem withoutMark_crlf (text : Bytes) : withoutMark (crlf text) = crlf (withoutMark text) := by
  have hsame : byteOrderMark.isPrefixOf (crlf text) = byteOrderMark.isPrefixOf text :=
    mark_crlf (by decide) (by decide) text
  by_cases hmark : byteOrderMark.isPrefixOf text = true
  · obtain ⟨tail, rfl⟩ := isPrefixOf_iff_prefix.mp hmark
    have hcrlf : crlf (byteOrderMark ++ tail) = byteOrderMark ++ crlf tail := rfl
    rw [hcrlf, withoutMark_mark, withoutMark_mark]
  · rw [Bool.not_eq_true] at hmark
    rw [withoutMark_bare hmark, withoutMark_bare (hsame.trans hmark)]

/-- A line has at most a carriage return more at its end, which is trimmed. -/
theorem trim_linesFrom_crlf (begun text : Bytes) :
    (linesFrom begun (crlf text)).map trim = (linesFrom begun text).map trim := by
  induction text generalizing begun with
  | nil => rfl
  | cons c rest ih =>
    by_cases hc : c = 10
    · subst hc
      have hreturn : (13 : UInt8) ≠ 10 := by decide
      rw [crlf_feed, linesFrom, if_neg hreturn, linesFrom, if_pos rfl, linesFrom, if_pos rfl,
        map_cons, map_cons, trim_return, ih]
    · rw [crlf_cons hc, linesFrom, if_neg hc, linesFrom, if_neg hc, ih]

theorem validate_crlf {text : Bytes} (hsize : (crlf text).length ≤ kMaximumConfigBytes) :
    validate flags (crlf text) = validate flags text := by
  apply validate_congr hsize ((length_le_crlf text).trans hsize) (mem_crlf (by decide))
  have htrim (lines : List Bytes) : (lines.forM fun line => validateLine flags (trim line)) =
      (lines.map trim).forM (validateLine flags) := forM_map.symm
  rw [withoutMark_crlf, htrim, htrim, trim_linesFrom_crlf]

/-! ### Lines that say nothing -/

/-- A line of gaps, or a comment without a NUL after them. -/
inductive Silent : Bytes → Prop where
  | blank {line : Bytes} (h : ∀ b ∈ line, isGap b = true) : Silent line
  | comment {gap text : Bytes} (h : ∀ b ∈ gap, isGap b = true) (hfeed : 10 ∉ text)
      (hzero : 0 ∉ text) : Silent (gap ++ 35 :: text)

theorem trim_blank (h : ∀ b ∈ line, isGap b = true) : trim line = [] := by
  rw [trim, dropWhile_eq_nil_iff.mpr h]
  rfl

theorem trim_comment {gap : Bytes} (h : ∀ b ∈ gap, isGap b = true) (text : Bytes) :
    (trim (gap ++ 35 :: text)).head? = some 35 := by
  have hfront : (gap ++ 35 :: text).dropWhile isGap = 35 :: text := by
    rw [dropWhile_append_of_pos h]
    rfl
  rw [trim, hfront]
  have hbefore := rdropWhile_prefix isGap (35 :: text)
  cases hcore : (35 :: text).rdropWhile isGap with
  | nil =>
    have hall := rdropWhile_eq_nil_iff.mp hcore 35 mem_cons_self
    exact absurd hall (by decide)
  | cons c rest =>
    rw [hcore, cons_prefix_cons] at hbefore
    rw [hbefore.1]
    rfl

theorem Silent.passes (h : Silent line) (flags : Flags) :
    validateLine flags (trim line) = .ok () := by
  have hskipped : trim line = [] ∨ (trim line).head? = some 35 := by
    cases h with
    | blank h => exact .inl (trim_blank h)
    | comment h => exact .inr (trim_comment h _)
  rw [validateLine, if_pos hskipped]

/-- A byte of a comment that is no gap and no mark stands in its text. -/
theorem mem_of_mem_comment {gap text : Bytes} (h : ∀ b ∈ gap, isGap b = true) {c : UInt8}
    (hc : isGap c = false) (hmark : c ≠ 35) (hmem : c ∈ gap ++ 35 :: text) : c ∈ text := by
  rcases mem_append.mp hmem with hgap | htext
  · rw [h c hgap] at hc
    cases hc
  · exact (mem_cons.mp htext).resolve_left hmark

theorem Silent.zero_not_mem (h : Silent line) : 0 ∉ line := by
  intro hmem
  cases h with
  | blank h => exact absurd (h 0 hmem) (by decide)
  | comment h _ hzero => exact hzero (mem_of_mem_comment h (by decide) (by decide) hmem)

theorem Silent.feed_not_mem (h : Silent line) : 10 ∉ line := by
  intro hmem
  cases h with
  | blank h => exact absurd (h 10 hmem) (by decide)
  | comment h hfeed => exact hfeed (mem_of_mem_comment h (by decide) (by decide) hmem)

theorem Silent.no_mark (h : Silent line) : byteOrderMark.isPrefixOf line = false := by
  rw [← Bool.not_eq_true]
  intro hmark
  obtain ⟨tail, rfl⟩ := isPrefixOf_iff_prefix.mp hmark
  generalize hline : byteOrderMark ++ tail = line at h
  cases h with
  | blank h =>
    have hhead : (0xEF : UInt8) ∈ line := by
      rw [← hline]
      exact mem_cons_self
    exact absurd (h _ hhead) (by decide)
  | @comment gap text h =>
    cases gap with
    | nil => exact absurd (List.cons.inj hline).1 (by decide)
    | cons c gap =>
      have hc := h c mem_cons_self
      rw [← (List.cons.inj hline).1] at hc
      exact absurd hc (by decide)

/-! ### Inserting and removing a line -/

theorem mem_join {lines : List Bytes} {b : UInt8} (hb : b ≠ 10) :
    b ∈ join lines ↔ ∃ line ∈ lines, b ∈ line := by
  induction lines with
  | nil => simp [join]
  | cons line rest ih =>
    cases rest with
    | nil => simp [join]
    | cons next rest =>
      rw [join_cons (cons_ne_nil _ _), mem_append, mem_cons, or_iff_right hb, ih]
      exact (exists_mem_cons_iff (fun l => b ∈ l) line (next :: rest)).symm

theorem join_insert_le (front back : List Bytes) (line : Bytes) :
    (join (front ++ back)).length ≤ (join (front ++ line :: back)).length := by
  induction front with
  | nil =>
    cases back with
    | nil => exact Nat.zero_le _
    | cons next back =>
      rw [nil_append, nil_append, join_cons (cons_ne_nil _ _), length_append, length_cons]
      omega
  | cons first front ih =>
    have hne : front ++ line :: back ≠ [] := append_ne_nil_of_right_ne_nil _ (by simp)
    rw [cons_append, cons_append, join_cons hne, length_append, length_cons]
    by_cases hempty : front ++ back = []
    · rw [hempty]
      change first.length ≤ _
      omega
    · rw [join_cons hempty, length_append, length_cons]
      omega

/-- A line that passes changes nothing where the lines are read. -/
theorem forM_join_insert {check : Bytes → Except String Unit}
    (hfeed : ∀ l ∈ front ++ line :: back, 10 ∉ l) (hline : check line = .ok ())
    (hempty : check [] = .ok ()) :
    (linesFrom [] (join (front ++ line :: back))).forM check =
      (linesFrom [] (join (front ++ back))).forM check := by
  have hskip : (front ++ line :: back).forM check = (front ++ back).forM check := by
    change forM (front ++ line :: back) check = forM (front ++ back) check
    rw [forM_append, forM_append, forM_cons, hline]
    rfl
  have hne : front ++ line :: back ≠ [] := append_ne_nil_of_right_ne_nil _ (by simp)
  rw [linesFrom_join hne hfeed, hskip]
  by_cases hlines : front ++ back = []
  · -- nothing is left, and the one line of the empty text is blank
    rw [hlines]
    change _ = (check [] >>= fun _ => pure ())
    rw [hempty]
    rfl
  · rw [linesFrom_join hlines]
    intro l hl
    apply hfeed
    rcases mem_append.mp hl with hl | hl
    · exact mem_append_left _ hl
    · exact mem_append_right _ (mem_cons_of_mem _ hl)

/-- The text of some lines, without the mark, has lines again, and a line can be inserted into
them wherever it could be before. -/
theorem withoutMark_insert (hmark : mark = [] ∨ mark = byteOrderMark) (hline : Silent line)
    (hfeed : ∀ l ∈ front ++ line :: back, 10 ∉ l)
    (hleading : mark = [] → front = [] → byteOrderMark.isPrefixOf (join back) = false) :
    ∃ front', (∀ l ∈ front' ++ line :: back, 10 ∉ l) ∧
      withoutMark (mark ++ join (front ++ line :: back)) = join (front' ++ line :: back) ∧
      withoutMark (mark ++ join (front ++ back)) = join (front' ++ back) := by
  rcases hmark with rfl | rfl
  · rw [nil_append, nil_append]
    cases front with
    | nil =>
      refine ⟨[], hfeed, ?_, withoutMark_bare (hleading rfl rfl)⟩
      rw [nil_append, withoutMark_join, withoutMark_bare hline.no_mark]
    | cons first front =>
      refine ⟨withoutMark first :: front, ?_, withoutMark_join _ _, withoutMark_join _ _⟩
      obtain ⟨hfirst, hothers⟩ := forall_mem_cons.mp hfeed
      exact forall_mem_cons.mpr ⟨mt mem_of_mem_withoutMark hfirst, hothers⟩
  · exact ⟨front, hfeed, withoutMark_mark _, withoutMark_mark _⟩

theorem validate_insert (hmark : mark = [] ∨ mark = byteOrderMark) (hline : Silent line)
    (hfeed : ∀ l ∈ front ++ back, 10 ∉ l)
    (hleading : mark = [] → front = [] → byteOrderMark.isPrefixOf (join back) = false)
    (hsize : (mark ++ join (front ++ line :: back)).length ≤ kMaximumConfigBytes) :
    validate flags (mark ++ join (front ++ line :: back)) =
      validate flags (mark ++ join (front ++ back)) := by
  have hfeeds : ∀ l ∈ front ++ line :: back, 10 ∉ l := by
    intro l hl
    rcases mem_append.mp hl with hl | hl
    · exact hfeed l (mem_append_left _ hl)
    · rcases mem_cons.mp hl with rfl | hl
      · exact hline.feed_not_mem
      · exact hfeed l (mem_append_right _ hl)
  obtain ⟨front', hfeeds', hlong, hshort⟩ := withoutMark_insert hmark hline hfeeds hleading
  apply validate_congr hsize
  · have := join_insert_le front back line
    rw [length_append] at hsize ⊢
    omega
  · rw [mem_append, mem_append, mem_join (by decide), mem_join (by decide)]
    refine or_congr_right ⟨?_, ?_⟩
    · rintro ⟨l, hl, hmem⟩
      rcases mem_append.mp hl with hl | hl
      · exact ⟨l, mem_append_left _ hl, hmem⟩
      · rcases mem_cons.mp hl with rfl | hl
        · exact absurd hmem hline.zero_not_mem
        · exact ⟨l, mem_append_right _ hl, hmem⟩
    · rintro ⟨l, hl, hmem⟩
      refine ⟨l, ?_, hmem⟩
      rcases mem_append.mp hl with hl | hl
      · exact mem_append_left _ hl
      · exact mem_append_right _ (mem_cons_of_mem _ hl)
  · rw [hlong, hshort]
    exact forM_join_insert hfeeds' (hline.passes flags) rfl

/-! ### What the launcher relies on -/

/-- An accepted configuration only assigns free keys to scalars, in whatever form it is stored. -/
theorem explicit_config_flat (flags : Flags) :
    (∀ text, validate flags text = .ok () → TomlLexer.Flat (Free flags) (TomlLexer.lex text)) ∧
    (∀ text, byteOrderMark.isPrefixOf text = false →
      (byteOrderMark ++ text).length ≤ kMaximumConfigBytes →
      validate flags (byteOrderMark ++ text) = validate flags text) ∧
    (∀ text, (crlf text).length ≤ kMaximumConfigBytes →
      validate flags (crlf text) = validate flags text) ∧
    ∀ mark, mark = [] ∨ mark = byteOrderMark → ∀ front line back, Silent line →
      (∀ l ∈ front ++ back, 10 ∉ l) →
      (mark = [] → front = [] → byteOrderMark.isPrefixOf (join back) = false) →
      (mark ++ join (front ++ line :: back)).length ≤ kMaximumConfigBytes →
      validate flags (mark ++ join (front ++ line :: back)) =
        validate flags (mark ++ join (front ++ back)) := by
  refine ⟨fun text h => accepted_flat h, fun text hmark hsize => validate_mark hmark hsize,
    fun text hsize => validate_crlf hsize, ?_⟩
  intro mark hmark front line back hline hfeed hleading hsize
  exact validate_insert hmark hline hfeed hleading hsize

/-- The flags of a launch on a named adapter. -/
def namedAdapter : Flags where
  named_adapter := true
  profile_managed := false
  gpu_managed := true

set_option maxRecDepth 20000 in
theorem explicit_config_flat_vsync :
    let text := literal "vsync = \"on\" # d3d12_adapter = 1\n"
    TomlLexer.Flat (Free namedAdapter) (TomlLexer.lex text) ∧
      TomlLexer.lex text = [.assigns (literal "vsync")] ∧
      validate namedAdapter (byteOrderMark ++ text) = validate namedAdapter text ∧
      validate namedAdapter (crlf text) = validate namedAdapter text ∧
      validate namedAdapter (join [literal "vsync = 1", [32], []]) =
        validate namedAdapter (join [literal "vsync = 1", []]) := by
  have h := explicit_config_flat namedAdapter
  refine ⟨h.1 _ rfl, rfl, h.2.1 _ rfl (by decide), h.2.2.1 _ (by decide), ?_⟩
  exact h.2.2.2 [] (.inl rfl) [literal "vsync = 1"] [32] [[]] (.blank (by decide)) (by decide)
    (by decide) (by decide)

/-- A blank line in front of a leading mark: what was accepted no longer is. -/
theorem blank_before_mark :
    Silent [] ∧ (∀ l ∈ [byteOrderMark ++ literal "vsync = 1"], 10 ∉ l) ∧
      (join [[], byteOrderMark ++ literal "vsync = 1"]).length ≤ kMaximumConfigBytes ∧
      validate namedAdapter (join [byteOrderMark ++ literal "vsync = 1"]) = .ok () ∧
      validate namedAdapter (join [[], byteOrderMark ++ literal "vsync = 1"]) =
        .error "explicit GPU selection forbids quoted/dotted/table config keys" :=
  ⟨.blank (forall_mem_nil _), by decide, by decide, rfl, rfl⟩

end Mcla.Portable.GpuConfig

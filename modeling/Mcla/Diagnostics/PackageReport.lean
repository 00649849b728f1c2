import Mcla.Diagnostics.Wheels
import Mcla.Library.LineSearch

/-! # The report of a package

The game writes `report.txt` into each package with a pending line in it
(`BuildPackageReportText` of `mcla_diagnostic_trigger`); after the session the launcher puts its
facts in the place of that line (`FillPackageReport` of `mcla_session_report`).  Both work on the
text: what else stands in it must not hold the pending line.
-/
namespace Mcla.PackageReport
open TriggerCategory (Bytes literal intText)
open TextSearch (find findFrom find_eq_none_iff)
open TextLines LineSearch Wheels List

/-! ### The writer -/

def kPackageReportPendingLine : Bytes :=
  literal
    "launcher_session pending: the launcher adds build, mode and resolution after the game closes"

def kMaxReportFieldBytes : Nat := 128

/-- `ReportField` -/
def reportField (value : Bytes) : Bytes :=
  let out := (value.take kMaxReportFieldBytes).map fun c => if 0x20 ≤ c ∧ c < 0x7f then c else 63
  if out.isEmpty then literal "unknown" else out

/-- `WheelReportLine`: the trigger device, the last of its number, or else the first wheel. -/
def wheelReportLine (wheel : Option WheelState) : Bytes :=
  match wheel with
  | none => literal "not-recorded (wheel L2 records the wheel)"
  | some wheel =>
    let trigger := wheel.trigger_device.bind fun id =>
      wheel.devices.reverse.find? fun d => d.instance_id == id
    match trigger.or (wheel.devices.find? fun d => d.is_wheel) with
    | none => literal "unknown"
    | some device =>
      reportField device.name ++ literal " | VID " ++ hex16 device.vendor_id ++ literal " PID " ++
        hex16 device.product_id ++ literal " | GUID " ++ reportField device.guid

/-- What a package report is written from. -/
structure PackageReportFacts where
  (package kind created_utc mcla_version category source window wheel : Bytes := [])

/-- `BuildPackageReportText` -/
def buildPackageReportText (facts : PackageReportFacts) : Bytes :=
  literal ("MCLA-R TEST REPORT\n\n" ++
    "Written by the game when this report was recorded. Please answer the four\n" ++
    "questions below, save this file, and send this whole folder to the owner by\n" ++
    "hand. Nothing is uploaded automatically.\n\n" ++
    "package ") ++ reportField facts.package ++
    literal "\nkind " ++ reportField facts.kind ++
    literal "\ncreated_utc " ++ reportField facts.created_utc ++
    literal "\nmcla_version " ++ reportField facts.mcla_version ++
    literal "\ncategory " ++ reportField facts.category ++
    literal "\nsource " ++ reportField facts.source ++
    literal "\nwheel " ++ (if facts.wheel.isEmpty then literal "unknown" else facts.wheel) ++
    literal "\nwindow " ++ reportField facts.window ++ literal "\n" ++
    kPackageReportPendingLine ++
    literal ("\n\n1. What were you doing?\n\n\n" ++
      "2. Steps to make it happen again (if you know):\n\n\n" ++
      "3. What went wrong?\n\n\n" ++
      "4. What did you expect instead?\n\n")

/-! ### The launcher -/

def kPendingSessionLine : Bytes :=
  literal
    "launcher_session pending: the launcher adds build, mode and resolution after the game closes"

/-- The context of a package, as its members give it. -/
structure Context where
  (build timing render_target : Bytes := [])
  (started_utc ended_utc : UInt64 := 0)
  exit_code : Int := 0

/-- `SessionFacts` -/
def sessionFacts (context : Context) : Bytes :=
  literal "build " ++ context.build ++ literal "\nmode " ++ context.timing ++
    literal "\nrender_target " ++ context.render_target ++
    literal "\nsession_started_utc " ++ Decimal.text context.started_utc.toNat ++
    literal "\nsession_ended_utc " ++ Decimal.text context.ended_utc.toNat ++
    literal "\nexit_code " ++ intText context.exit_code ++ literal "\n"

/-- `FillPackageReport`: only where the line is present exactly once. -/
def fillPackageReport (existing : Bytes) (context : Context) : Option Bytes :=
  let line := literal "\n" ++ kPendingSessionLine ++ literal "\n"
  match find line existing with
  | none => none
  | some place =>
    if findFrom line existing (place + 1) ≠ none then none
    else some (existing.take (place + 1) ++ sessionFacts context ++
      existing.drop (place + line.length))

/-! ### The pending line among the lines of a text -/

theorem feed_not_mem_pending : 10 ∉ kPendingSessionLine := by decide

theorem whole_pending : literal "\n" ++ kPendingSessionLine ++ literal "\n" =
    whole kPendingSessionLine := by
  rw [whole, append_assoc]
  rfl

/-- A text with the pending line once, and not as its first line, is filled in its place. -/
theorem fill_joined {first : Bytes} {before after : List Bytes} (hfirst : 10 ∉ first)
    (hbefore : ∀ l ∈ before, 10 ∉ l) (hafter : ∀ l ∈ after, 10 ∉ l)
    (hnot : kPendingSessionLine ∉ before) (hnot' : kPendingSessionLine ∉ after)
    (context : Context) :
    fillPackageReport (joined (first :: (before ++ kPendingSessionLine :: after))) context =
      some (joined (first :: before) ++ sessionFacts context ++ joined after) := by
  obtain ⟨place, hfind, hplace⟩ := find_whole_first feed_not_mem_pending hfirst hbefore hafter hnot
  have htext : joined (first :: (before ++ kPendingSessionLine :: after)) =
      joined (first :: before) ++ joined (kPendingSessionLine :: after) := by
    rw [← joined_append]
    rfl
  have hagain : findFrom (whole kPendingSessionLine)
      (joined (first :: (before ++ kPendingSessionLine :: after))) (place + 1) = none := by
    rw [findFrom, htext, hplace, drop_left,
      find_whole_eq_none feed_not_mem_pending feed_not_mem_pending hafter hnot']
    rfl
  have hlength : place + (whole kPendingSessionLine).length =
      (joined (first :: before)).length + (kPendingSessionLine ++ [10]).length := by
    rw [whole, length_cons, ← hplace]
    omega
  have hafter_line : joined (kPendingSessionLine :: after) =
      (kPendingSessionLine ++ [10]) ++ joined after := by
    rw [joined_cons, append_assoc]
    rfl
  rw [fillPackageReport, whole_pending, hfind]
  dsimp only
  rw [if_neg (not_not.mpr hagain), hlength, htext, hplace, take_left, hafter_line,
    ← append_assoc, ← length_append, drop_left]

/-- A text without the pending line is left alone. -/
theorem fill_joined_eq_none {first : Bytes} {lines : List Bytes} (hfirst : 10 ∉ first)
    (h : ∀ l ∈ lines, 10 ∉ l) (hnot : kPendingSessionLine ∉ lines) (context : Context) :
    fillPackageReport (joined (first :: lines)) context = none := by
  rw [fillPackageReport, whole_pending, find_whole_eq_none feed_not_mem_pending hfirst h hnot]

/-- A line that begins otherwise. -/
theorem row_ne_pending {name : Bytes} (h : ¬name <+: kPendingSessionLine) (value : Bytes) :
    name ++ value ≠ kPendingSessionLine :=
  fun heq => h (heq ▸ prefix_append name value)

/-! ### The lines of the report -/

theorem feed_not_mem_reportField (value : Bytes) : 10 ∉ reportField value := by
  intro hmem
  unfold reportField at hmem
  dsimp only at hmem
  split at hmem
  · exact absurd hmem (by decide)
  · obtain ⟨c, -, hc⟩ := mem_map.mp hmem
    by_cases hprintable : 0x20 ≤ c ∧ c < 0x7f
    · rw [if_pos hprintable] at hc
      rw [hc] at hprintable
      exact absurd hprintable.1 (by decide)
    · rw [if_neg hprintable] at hc
      cases hc

theorem feed_not_mem_hex16 (value : UInt16) : 10 ∉ hex16 value :=
  fun h => absurd (hex16_printable h).1 (by decide)

/-- No line feed gets into the wheel line, whatever the state of the wheels. -/
theorem feed_not_mem_wheelReportLine (wheel : Option WheelState) : 10 ∉ wheelReportLine wheel := by
  unfold wheelReportLine
  split
  · decide
  · dsimp only
    split
    · decide
    · simp only [mem_append, feed_not_mem_reportField, feed_not_mem_hex16, or_false, false_or]
      decide

/-- The lines before the pending line, without the first. -/
def rowsBefore (facts : PackageReportFacts) : List Bytes :=
  [[], literal "Written by the game when this report was recorded. Please answer the four",
    literal "questions below, save this file, and send this whole folder to the owner by",
    literal "hand. Nothing is uploaded automatically.", [],
    literal "package " ++ reportField facts.package, literal "kind " ++ reportField facts.kind,
    literal "created_utc " ++ reportField facts.created_utc,
    literal "mcla_version " ++ reportField facts.mcla_version,
    literal "category " ++ reportField facts.category,
    literal "source " ++ reportField facts.source] ++
  split (literal "wheel " ++
    (if facts.wheel.isEmpty then literal "unknown" else facts.wheel) ++ [10]) ++
  [literal "window " ++ reportField facts.window]

/-- The lines after the pending line. -/
def rowsAfter : List Bytes :=
  [[], literal "1. What were you doing?", [], [],
    literal "2. Steps to make it happen again (if you know):", [], [],
    literal "3. What went wrong?", [], [], literal "4. What did you expect instead?", []]

set_option maxRecDepth 20000 in
theorem buildPackageReportText_eq (facts : PackageReportFacts) :
    buildPackageReportText facts = joined (literal "MCLA-R TEST REPORT" ::
      (rowsBefore facts ++ kPendingSessionLine :: rowsAfter)) := by
  have hheading : literal ("MCLA-R TEST REPORT\n\n" ++
      "Written by the game when this report was recorded. Please answer the four\n" ++
      "questions below, save this file, and send this whole folder to the owner by\n" ++
      "hand. Nothing is uploaded automatically.\n\n" ++
      "package ") = joined [literal "MCLA-R TEST REPORT", [],
        literal "Written by the game when this report was recorded. Please answer the four",
        literal "questions below, save this file, and send this whole folder to the owner by",
        literal "hand. Nothing is uploaded automatically.", []] ++ literal "package " := by
    decide
  have hquestions : literal ("\n\n1. What were you doing?\n\n\n" ++
      "2. Steps to make it happen again (if you know):\n\n\n" ++
      "3. What went wrong?\n\n\n" ++
      "4. What did you expect instead?\n\n") = 10 :: joined rowsAfter := by
    decide
  have hfeed : literal "\nkind " = 10 :: literal "kind " ∧
      literal "\ncreated_utc " = 10 :: literal "created_utc " ∧
      literal "\nmcla_version " = 10 :: literal "mcla_version " ∧
      literal "\ncategory " = 10 :: literal "category " ∧
      literal "\nsource " = 10 :: literal "source " ∧
      literal "\nwheel " = 10 :: literal "wheel " ∧
      literal "\nwindow " = 10 :: literal "window " ∧ literal "\n" = [10] := by
    decide
  obtain ⟨hkind, hcreated, hversion, hcategory, hsource, hwheel, hwindow, hend⟩ := hfeed
  -- the text of the wheel may have lines of its own
  have hclosed : joined (split (literal "wheel " ++
      (if facts.wheel.isEmpty then literal "unknown" else facts.wheel) ++ [10])) =
      literal "wheel " ++
        (if facts.wheel.isEmpty then literal "unknown" else facts.wheel) ++ [10] :=
    joined_split (closed_of_ended (.inr getLast?_concat))
  unfold buildPackageReportText
  rw [hheading, hquestions, hkind, hcreated, hversion, hcategory, hsource, hwheel, hwindow, hend,
    rowsBefore]
  simp only [joined_cons, joined_nil, joined_append, hclosed]
  simp only [append_assoc, cons_append, nil_append]
  rfl

theorem feed_not_mem_row {name : Bytes} (hname : 10 ∉ name) (value : Bytes) :
    10 ∉ name ++ reportField value := by
  rw [mem_append, not_or]
  exact ⟨hname, feed_not_mem_reportField value⟩

theorem feed_not_mem_rowsBefore (facts : PackageReportFacts) : ∀ l ∈ rowsBefore facts, 10 ∉ l := by
  unfold rowsBefore
  simp only [forall_mem_append, forall_mem_cons]
  refine ⟨⟨?_, feed_not_mem_splitFrom not_mem_nil⟩, feed_not_mem_row (by decide) _,
    forall_mem_nil _⟩
  refine ⟨not_mem_nil, by decide, by decide, by decide, not_mem_nil, ?_⟩
  exact ⟨feed_not_mem_row (by decide) _, feed_not_mem_row (by decide) _,
    feed_not_mem_row (by decide) _, feed_not_mem_row (by decide) _,
    feed_not_mem_row (by decide) _, feed_not_mem_row (by decide) _, forall_mem_nil _⟩

theorem feed_not_mem_rowsAfter : ∀ l ∈ rowsAfter, 10 ∉ l := by decide

theorem pending_not_mem_rowsAfter : kPendingSessionLine ∉ rowsAfter := by decide

/-- Only the text of the wheel could hold the pending line. -/
theorem pending_not_mem_rowsBefore {facts : PackageReportFacts}
    (h : ¬whole kPendingSessionLine <:+: facts.wheel ++ [10]) :
    kPendingSessionLine ∉ rowsBefore facts := by
  have hwheel : ¬whole kPendingSessionLine <:+:
      (if facts.wheel.isEmpty then literal "unknown" else facts.wheel) ++ [10] := by
    by_cases hempty : facts.wheel.isEmpty = true
    · rw [if_pos hempty]
      intro hinfix
      exact absurd hinfix.length_le (by decide)
    · rwa [if_neg hempty]
  -- the other rows have a name that the pending line does not begin with
  unfold rowsBefore
  simp only [mem_append, mem_cons, not_mem_nil, not_or, or_false]
  refine ⟨⟨?_, not_mem_split (by decide) (by decide) hwheel⟩, ?_⟩
  · refine ⟨by decide, by decide, by decide, by decide, by decide, ?_⟩
    exact ⟨(row_ne_pending (by decide) _).symm, (row_ne_pending (by decide) _).symm,
      (row_ne_pending (by decide) _).symm, (row_ne_pending (by decide) _).symm,
      (row_ne_pending (by decide) _).symm, (row_ne_pending (by decide) _).symm⟩
  · exact (row_ne_pending (by decide) _).symm

/-! ### The session facts -/

theorem feed_not_mem_decimal (n : Nat) : 10 ∉ Decimal.text n :=
  fun h => absurd (Decimal.isDigit_of_mem_text h).1 (by decide)

theorem feed_not_mem_intText (n : Int) : 10 ∉ intText n := by
  unfold intText
  by_cases hneg : n < 0
  · rw [if_pos hneg, mem_append, not_or]
    exact ⟨by decide, feed_not_mem_decimal _⟩
  · rw [if_neg hneg]
    exact feed_not_mem_decimal _

/-- What follows the first word of the session facts, without the last line feed. -/
def sessionRest (context : Context) : Bytes :=
  context.build ++ literal "\nmode " ++ context.timing ++
    literal "\nrender_target " ++ context.render_target ++
    literal "\nsession_started_utc " ++ Decimal.text context.started_utc.toNat ++
    literal "\nsession_ended_utc " ++ Decimal.text context.ended_utc.toNat ++
    literal "\nexit_code " ++ intText context.exit_code

theorem sessionFacts_eq (context : Context) :
    sessionFacts context = literal "build " ++ sessionRest context ++ [10] := by
  rw [sessionFacts, sessionRest]
  simp only [append_assoc]
  rfl

/-- Session facts in which the pending line does not stand have it in none of their lines. -/
theorem pending_not_mem_sessionFacts {context : Context}
    (h : ¬whole kPendingSessionLine <:+: sessionFacts context) :
    kPendingSessionLine ∉ split (sessionFacts context) := by
  rw [sessionFacts_eq]
  refine not_mem_split (by decide) (by decide) fun hinfix => h ?_
  rw [sessionFacts_eq, append_assoc]
  exact hinfix.trans (suffix_append _ _).isInfix

theorem joined_sessionFacts (context : Context) :
    joined (split (sessionFacts context)) = sessionFacts context := by
  rw [sessionFacts_eq]
  exact joined_split (closed_of_ended (.inr getLast?_concat))

/-- The session facts of texts of one line. -/
theorem pending_not_infix_sessionFacts {context : Context} (hbuild : 10 ∉ context.build)
    (htiming : 10 ∉ context.timing) (htarget : 10 ∉ context.render_target) :
    ¬whole kPendingSessionLine <:+: sessionFacts context := by
  have hrows : sessionFacts context = joined ((literal "build " ++ context.build) ::
      [literal "mode " ++ context.timing, literal "render_target " ++ context.render_target,
        literal "session_started_utc " ++ Decimal.text context.started_utc.toNat,
        literal "session_ended_utc " ++ Decimal.text context.ended_utc.toNat,
        literal "exit_code " ++ intText context.exit_code]) := by
    have hfeed : literal "\nmode " = 10 :: literal "mode " ∧
        literal "\nrender_target " = 10 :: literal "render_target " ∧
        literal "\nsession_started_utc " = 10 :: literal "session_started_utc " ∧
        literal "\nsession_ended_utc " = 10 :: literal "session_ended_utc " ∧
        literal "\nexit_code " = 10 :: literal "exit_code " ∧ literal "\n" = [10] := by
      decide
    obtain ⟨hmode, hrender, hstarted, hended, hexit, hend⟩ := hfeed
    rw [sessionFacts, hmode, hrender, hstarted, hended, hexit, hend]
    simp only [joined_cons, joined_nil, append_assoc, cons_append]
  rw [← find_eq_none_iff, hrows]
  apply find_whole_eq_none feed_not_mem_pending
  · simp only [mem_append, not_or]
    exact ⟨by decide, hbuild⟩
  · simp only [forall_mem_cons, mem_append, not_or]
    exact ⟨⟨by decide, htiming⟩, ⟨by decide, htarget⟩, ⟨by decide, feed_not_mem_decimal _⟩,
      ⟨by decide, feed_not_mem_decimal _⟩, ⟨by decide, feed_not_mem_intText _⟩,
      forall_mem_nil _⟩
  · simp only [mem_cons, not_mem_nil, or_false, not_or]
    exact ⟨(row_ne_pending (by decide) _).symm, (row_ne_pending (by decide) _).symm,
      (row_ne_pending (by decide) _).symm, (row_ne_pending (by decide) _).symm,
      (row_ne_pending (by decide) _).symm⟩

/-- A text of one line does not hold the pending line. -/
theorem pending_not_infix_line {text : Bytes} (h : 10 ∉ text) :
    ¬whole kPendingSessionLine <:+: text ++ [10] := by
  have htext : text ++ [10] = joined [text] := by
    rw [joined_cons, joined_nil]
  rw [← find_eq_none_iff, htext]
  exact find_whole_eq_none feed_not_mem_pending h (forall_mem_nil _) not_mem_nil

/-! ### Filling the report -/

/-- **A report is filled once**, and only its pending line is changed. -/
theorem report_filled_once :
    (∀ wheel, ¬whole kPendingSessionLine <:+: wheelReportLine wheel ++ [10]) ∧
    (∀ context : Context, 10 ∉ context.build → 10 ∉ context.timing → 10 ∉ context.render_target →
      ¬whole kPendingSessionLine <:+: sessionFacts context) ∧
    ∀ facts : PackageReportFacts, ¬whole kPendingSessionLine <:+: facts.wheel ++ [10] →
      ∃ before after,
        buildPackageReportText facts =
          before ++ (kPackageReportPendingLine ++ literal "\n") ++ after ∧
        ∀ context,
          fillPackageReport (buildPackageReportText facts) context =
            some (before ++ sessionFacts context ++ after) ∧
          (¬whole kPendingSessionLine <:+: sessionFacts context → ∀ again,
            fillPackageReport (before ++ sessionFacts context ++ after) again = none) := by
  refine ⟨fun wheel => pending_not_infix_line (feed_not_mem_wheelReportLine wheel),
    fun context => pending_not_infix_sessionFacts, ?_⟩
  intro facts hwheel
  have htitle : 10 ∉ literal "MCLA-R TEST REPORT" := by decide
  have hbefore := feed_not_mem_rowsBefore facts
  have hnot := pending_not_mem_rowsBefore hwheel
  refine ⟨joined (literal "MCLA-R TEST REPORT" :: rowsBefore facts), joined rowsAfter, ?_, ?_⟩
  · rw [buildPackageReportText_eq, ← cons_append, joined_append, joined_cons kPendingSessionLine]
    simp only [append_assoc]
    rfl
  · intro context
    constructor
    · rw [buildPackageReportText_eq]
      exact fill_joined htitle hbefore feed_not_mem_rowsAfter hnot pending_not_mem_rowsAfter context
    · intro hfacts again
      have hfilled : joined (literal "MCLA-R TEST REPORT" :: rowsBefore facts) ++
          sessionFacts context ++ joined rowsAfter =
          joined (literal "MCLA-R TEST REPORT" ::
            (rowsBefore facts ++ split (sessionFacts context) ++ rowsAfter)) := by
        rw [← cons_append, ← cons_append, joined_append, joined_append, joined_sessionFacts]
      rw [hfilled]
      apply fill_joined_eq_none htitle
      · rw [forall_mem_append, forall_mem_append]
        exact ⟨⟨hbefore, feed_not_mem_splitFrom not_mem_nil⟩, feed_not_mem_rowsAfter⟩
      · rw [mem_append, mem_append, not_or, not_or]
        exact ⟨⟨hnot, pending_not_mem_sessionFacts hfacts⟩, pending_not_mem_rowsAfter⟩

theorem report_filled_once_unknown :
    let facts : PackageReportFacts := { wheel := literal "unknown" }
    let context : Context := { build := literal "AB", timing := literal "stock" }
    ∃ filled, fillPackageReport (buildPackageReportText facts) context = some filled ∧
      fillPackageReport filled context = none := by
  have hwheel : ¬whole kPendingSessionLine <:+: literal "unknown" ++ [10] :=
    pending_not_infix_line (by decide)
  obtain ⟨before, after, -, hfill⟩ := report_filled_once.2.2 { wheel := literal "unknown" } hwheel
  obtain ⟨hfirst, hagain⟩ := hfill { build := literal "AB", timing := literal "stock" }
  refine ⟨_, hfirst, hagain ?_ _⟩
  exact report_filled_once.2.1 _ (by decide) (by decide) (by decide)

set_option maxRecDepth 20000 in
/-- A wheel text that holds the pending line leaves the report unfilled, and a build that holds it
has the report filled twice. -/
theorem pending_line_twice :
    let pending := literal "\n" ++ kPendingSessionLine ++ literal "\n"
    fillPackageReport (buildPackageReportText { wheel := pending }) {} = none ∧
      ((fillPackageReport (buildPackageReportText {}) { build := pending }).bind
        fun filled => fillPackageReport filled {}) ≠ none := by
  decide

end Mcla.PackageReport

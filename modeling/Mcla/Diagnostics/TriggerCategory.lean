import Mcla.Library.Decimal
import Mcla.Library.TextSearch

/-! # The category of a live package

`mcla_diagnostics` writes the manifest of a live package, with the trigger of the snapshot as an
object of its own (`BuildTriggerJson` of `mcla_diagnostic_trigger`).  `ManifestCategory` of
`mcla_session_report` does not parse the manifest: it looks for the names of two fields in its
text.  The reason of the snapshot stands before the object, and any text may be in it.
-/
namespace Mcla.TriggerCategory
open TextSearch List

/-- A `std::string`. -/
abbrev Bytes := List UInt8

/-- The bytes of a string literal. -/
def literal (s : String) : Bytes := s.toUTF8.data.toList

/-- A quotation mark. -/
abbrev quote : UInt8 := 34

/-- A backslash. -/
abbrev escape : UInt8 := 92

/-- A closing brace. -/
abbrev brace : UInt8 := 125

/-! ### The reader -/

def kCategoryGeneral : Bytes := literal "general"
def kCategoryWheel : Bytes := literal "wheel"

/-- `ManifestCategory`. -/
def manifestCategory (manifest : Bytes) : Bytes :=
  match find (literal "\"trigger\"") manifest with
  | none => kCategoryGeneral
  | some trigger =>
    match findFrom (literal "\"category\"") manifest trigger, findFrom [brace] manifest trigger with
    | some key, some close =>
      if close < key then kCategoryGeneral else
      match (findFrom (literal ":") manifest (key + 10)).bind (findFrom [quote] manifest) with
      | none => kCategoryGeneral
      | some start =>
        if close < start then kCategoryGeneral else
        match findFrom [quote] manifest (start + 1) with
        | none => kCategoryGeneral
        | some stop =>
          if close < stop then kCategoryGeneral else
          if (manifest.drop (start + 1)).take (stop - start - 1) = kCategoryWheel then
            kCategoryWheel
          else kCategoryGeneral
    | _, _ => kCategoryGeneral

/-- `LiveCategory`: the manifest is read to 64 KiB; a manifest that cannot be opened is empty. -/
def liveCategory (file : Option Bytes) : Bytes :=
  match file with
  | none => manifestCategory []
  | some text => manifestCategory (text.take (64 * 1024))

/-! ### The writer -/

/-- `%04x` of a byte. -/
def hex4 (c : UInt8) : Bytes :=
  let digit (d : Nat) : UInt8 := UInt8.ofNat (if d < 10 then 48 + d else 87 + d)
  [48, 48, digit (c.toNat / 16), digit (c.toNat % 16)]

/-- `JsonEscape` of `mcla_diagnostics`, a byte at a time. -/
def jsonEscapeByte (c : UInt8) : Bytes :=
  if c = 92 then literal "\\\\"
  else if c = 34 then literal "\\\""
  else if c = 8 then literal "\\b"
  else if c = 12 then literal "\\f"
  else if c = 10 then literal "\\n"
  else if c = 13 then literal "\\r"
  else if c = 9 then literal "\\t"
  else if c.toNat < 0x20 then literal "\\u" ++ hex4 c
  else [c]

/-- `JsonEscape` of `mcla_diagnostics`. -/
def jsonEscape (value : Bytes) : Bytes := value.flatMap jsonEscapeByte

/-- `TriggerJsonEscape`, a byte at a time. -/
def triggerJsonEscapeByte (c : UInt8) : Bytes :=
  if c = 92 then literal "\\\\"
  else if c = 34 then literal "\\\""
  else if c.toNat < 0x20 ∨ c = 0x7f then literal "\\u" ++ hex4 c
  else [c]

/-- `TriggerJsonEscape`. -/
def triggerJsonEscape (value : Bytes) : Bytes := value.flatMap triggerJsonEscapeByte

/-- `SnapshotTrigger`; the state of the wheel is not in the manifest. -/
structure SnapshotTrigger where
  category : Bytes := kCategoryGeneral
  source : Bytes := []

/-- `BuildTriggerJson`. -/
def buildTriggerJson (trigger : SnapshotTrigger) : Bytes :=
  literal "\x7b\"category\": \"" ++ triggerJsonEscape trigger.category ++
    literal "\", \"source\": \"" ++ triggerJsonEscape trigger.source ++ literal "\"\x7d"

/-- The trigger that `Capture` works with: what the caller left empty is filled in. -/
def SnapshotTrigger.filled (trigger : SnapshotTrigger) (reason : Bytes) : SnapshotTrigger where
  category := if trigger.category = [] then kCategoryGeneral else trigger.category
  source := if trigger.source = [] then reason else trigger.source

/-- `FrameRgbClassName`. -/
inductive FrameRgbClass where
  | allBlack | uniformNonblack | nonuniform | unavailable

def FrameRgbClass.name : FrameRgbClass → Bytes
  | allBlack => literal "all-black"
  | uniformNonblack => literal "uniform-nonblack"
  | nonuniform => literal "nonuniform"
  | unavailable => literal "unavailable"

/-- `LiveMinidumpPolicyName`. -/
inductive LiveMinidumpPolicy where
  | requiredByReason | enabledBySwitch | skippedByDefault

def LiveMinidumpPolicy.name : LiveMinidumpPolicy → Bytes
  | requiredByReason => literal "required-by-reason"
  | enabledBySwitch => literal "enabled-by-switch"
  | skippedByDefault => literal "skipped-by-default"

/-- One artifact of a manifest. -/
structure Artifact where
  name : Bytes
  bytes : Nat
  sha256 : Bytes
  safeToShare : Bool

/-- What the manifest says of the image helper, in a build that has one. -/
structure ImageHelper where
  sha256 : Bytes
  (admitted cleanupComplete : Bool)
  (clientFailure helperExit helperFailure : Nat)

/-- What a snapshot is found to be while it is captured. -/
structure Facts where
  (createdUtc version platform : Bytes)
  frameWritten : Bool
  (frameSource frameFreshness : Bytes)
  classification : FrameRgbClass
  (width height : Nat)
  imageHelper : Option ImageHelper
  dumpWritten : Bool
  dumpPolicy : LiveMinidumpPolicy
  (saveCopySkipped saveFound : Bool)
  (saveFiles saveBytes : Nat)
  dumpError : Bytes
  (providerMs frameMs censusMs stateLogMs saveMs dumpMs stallUpperBoundMs : Int)
  artifacts : List Artifact

def boolText (b : Bool) : Bytes := if b then literal "true" else literal "false"

/-- The decimal text of an `int64_t`. -/
def intText (n : Int) : Bytes :=
  if n < 0 then literal "-" ++ Decimal.text n.natAbs else Decimal.text n.natAbs

/-- What the manifest says of the image helper. -/
def imageHelperText (helper : ImageHelper) : Bytes :=
  literal ", \"image_helper\": \x7b\"protocol_version\": 1, \"sha256\": \"" ++ helper.sha256 ++
    literal "\", \"admitted\": " ++ boolText helper.admitted ++
    literal ", \"cleanup_complete\": " ++ boolText helper.cleanupComplete ++
    literal ", \"client_failure\": " ++ Decimal.text helper.clientFailure ++
    literal ", \"helper_exit\": " ++ Decimal.text helper.helperExit ++
    literal ", \"helper_failure\": " ++ Decimal.text helper.helperFailure ++ literal "\x7d"

/-- The rows of the artifacts; the last one has no comma. -/
def artifactRows : List Artifact → Bytes
  | [] => []
  | artifact :: rest =>
    literal "    \x7b\"name\": \"" ++ jsonEscape artifact.name ++ literal "\", \"bytes\": " ++
      Decimal.text artifact.bytes ++ literal ", \"sha256\": \"" ++ artifact.sha256 ++
      literal "\", \"safe_to_share\": " ++ boolText artifact.safeToShare ++ literal "\x7d" ++
      (if rest = [] then literal "\n" else literal ",\n") ++ artifactRows rest

/-- The manifest, from its start to the end of the trigger object. -/
def manifestStart (reason : Bytes) (trigger : SnapshotTrigger) : Bytes :=
  literal "\x7b\n  \"schema\": \"mcla-diagnostic-package-v1\",\n  \"kind\": \"live\",\n" ++
    literal "  \"reason\": \"" ++ jsonEscape reason ++ literal "\",\n  \"trigger\": " ++
    buildTriggerJson trigger

/-- The manifest after the trigger object. -/
def manifestRest (facts : Facts) : Bytes :=
  literal ",\n  \"created_utc\": \"" ++ facts.createdUtc ++
    literal "\",\n  \"mcla_version\": \"" ++ facts.version ++
    literal "\",\n  \"platform\": \"" ++ facts.platform ++
    literal "\",\n  \"privacy\": \x7b\"automatic_upload\": false, " ++
    literal "\"package_safe_to_share\": false, \"private_artifacts\": " ++
    literal "[\"process-private.dmp\", \"log-tail.txt\", \"frame.bmp\", " ++
    literal "\"save-files-private.json\", \"save-private\"]\x7d,\n" ++
    literal "  \"capture\": \x7b\"frame\": " ++ boolText facts.frameWritten ++
    literal ", \"frame_signal\": \x7b\"source\": \"" ++ facts.frameSource ++
    literal "\", \"freshness\": \"" ++ facts.frameFreshness ++
    literal "\", \"classification\": \"" ++ facts.classification.name ++
    literal "\", \"width\": " ++ Decimal.text facts.width ++
    literal ", \"height\": " ++ Decimal.text facts.height ++ literal "\x7d" ++
    (match facts.imageHelper with
      | none => []
      | some helper => imageHelperText helper) ++
    literal ", \"minidump\": " ++ boolText facts.dumpWritten ++
    literal ", \"minidump_policy\": \"" ++ facts.dumpPolicy.name ++ literal "\"" ++
    literal ", \"save_copy_skipped\": " ++ boolText facts.saveCopySkipped ++
    literal ", \"save_found\": " ++ boolText facts.saveFound ++
    literal ", \"save_files\": " ++ Decimal.text facts.saveFiles ++
    literal ", \"save_bytes\": " ++ Decimal.text facts.saveBytes ++
    literal ", \"minidump_error\": \"" ++ jsonEscape facts.dumpError ++ literal "\"\x7d,\n" ++
    literal "  \"timing_ms\": \x7b\"state_provider\": " ++ intText facts.providerMs ++
    literal ", \"frame\": " ++ intText facts.frameMs ++
    literal ", \"process_census\": " ++ intText facts.censusMs ++
    literal ", \"state_and_log\": " ++ intText facts.stateLogMs ++
    literal ", \"save\": " ++ intText facts.saveMs ++
    literal ", \"minidump\": " ++ intText facts.dumpMs ++
    literal ", \"game_stall_upper_bound\": " ++ intText facts.stallUpperBoundMs ++
    literal "\x7d,\n  \"artifacts\": [\n" ++ artifactRows facts.artifacts ++ literal "  ]\n\x7d\n"

/-- The text of `manifest.json` that `Capture` writes. -/
def manifest (reason : Bytes) (trigger : SnapshotTrigger) (facts : Facts) : Bytes :=
  manifestStart reason (trigger.filled reason) ++ manifestRest facts

/-! ### Escaped texts -/

theorem escaped_plain {value : Bytes} (h : ∀ c ∈ value, c ≠ quote ∧ c ≠ escape) :
    Escaped quote escape value := by
  induction value with
  | nil => exact .nil
  | cons c rest ih =>
    obtain ⟨hquote, hescape⟩ := h c mem_cons_self
    exact .plain hquote hescape (ih fun d hd => h d (mem_cons_of_mem _ hd))

theorem hex4_plain (c : UInt8) : ∀ d ∈ hex4 c, d ≠ quote ∧ d ≠ escape := by
  have hdigit : ∀ n < 16, UInt8.ofNat (if n < 10 then 48 + n else 87 + n) ≠ quote ∧
      UInt8.ofNat (if n < 10 then 48 + n else 87 + n) ≠ escape := by decide
  have hlt : c.toNat < 256 := c.toNat_lt
  intro d hd
  simp only [hex4, mem_cons, not_mem_nil, or_false] at hd
  rcases hd with rfl | rfl | rfl | rfl
  · decide
  · decide
  · exact hdigit _ (by omega)
  · exact hdigit _ (by omega)

theorem escaped_hex (c : UInt8) : Escaped quote escape (literal "\\u" ++ hex4 c) :=
  .pair (escaped_plain (hex4_plain c))

theorem jsonEscapeByte_escaped (c : UInt8) : Escaped quote escape (jsonEscapeByte c) := by
  unfold jsonEscapeByte
  split_ifs with hescape hquote
  any_goals exact .pair .nil
  · exact escaped_hex c
  · exact .plain hquote hescape .nil

theorem triggerJsonEscapeByte_escaped (c : UInt8) :
    Escaped quote escape (triggerJsonEscapeByte c) := by
  unfold triggerJsonEscapeByte
  split_ifs with hescape hquote
  any_goals exact .pair .nil
  · exact escaped_hex c
  · exact .plain hquote hescape .nil

theorem escaped_flatMap {f : UInt8 → Bytes} (hf : ∀ c, Escaped quote escape (f c))
    (value : Bytes) : Escaped quote escape (value.flatMap f) := by
  induction value with
  | nil => exact .nil
  | cons c rest ih =>
    rw [flatMap_cons]
    exact (hf c).append ih

theorem jsonEscape_escaped (value : Bytes) : Escaped quote escape (jsonEscape value) :=
  escaped_flatMap jsonEscapeByte_escaped value

theorem triggerJsonEscape_escaped (value : Bytes) :
    Escaped quote escape (triggerJsonEscape value) :=
  escaped_flatMap triggerJsonEscapeByte_escaped value

/-- A byte is written as it is, or with a backslash. -/
theorem triggerJsonEscapeByte_cases (c : UInt8) :
    triggerJsonEscapeByte c = [c] ∨ escape ∈ triggerJsonEscapeByte c := by
  unfold triggerJsonEscapeByte
  split_ifs
  · exact .inr (by decide)
  · exact .inr (by decide)
  · exact .inr mem_cons_self
  · exact .inl rfl

/-- Where nothing was escaped, the value was written as it is. -/
theorem eq_of_triggerJsonEscape {value word : Bytes} (hword : escape ∉ word)
    (h : triggerJsonEscape value = word) : value = word := by
  subst h
  induction value with
  | nil => rfl
  | cons c rest ih =>
    have hsplit : triggerJsonEscape (c :: rest) =
        triggerJsonEscapeByte c ++ triggerJsonEscape rest := flatMap_cons
    rw [hsplit] at hword ⊢
    rw [mem_append, not_or] at hword
    rcases triggerJsonEscapeByte_cases c with hplain | hescape
    · rw [hplain, ← ih hword.2]
      rfl
    · exact absurd hescape hword.1

theorem triggerJsonEscape_eq_wheel_iff (value : Bytes) :
    triggerJsonEscape value = kCategoryWheel ↔ value = kCategoryWheel := by
  constructor
  · exact eq_of_triggerJsonEscape (by decide)
  · rintro rfl
    decide

/-! ### Where the reader looks -/

/-- The name of the trigger field, as the reader looks for it. -/
abbrev triggerName : Bytes := literal "\"trigger\""

/-- The name of the category field, as the reader looks for it. -/
abbrev categoryName : Bytes := literal "\"category\""

/-- What stands between a name that the reader takes for the trigger field and the object: the
reader may have taken a name at the end of the reason, and then the field itself is there. -/
def Gap (gap : Bytes) : Prop := gap = literal ": " ∨ gap = literal ",\n  \"trigger\": "

/-- The manifest before the reason. -/
abbrev opening : Bytes :=
  literal "\x7b\n  \"schema\": \"mcla-diagnostic-package-v1\",\n  \"kind\": \"live\",\n  \"reason\": "

theorem triggerName_eq : triggerName = quote :: (literal "trigger" ++ [quote]) := by decide

set_option maxRecDepth 2000 in
theorem find_in_opening : find [quote, 116] (opening ++ [quote]) = none := by decide

/-- No name stands where its first two bytes do not. -/
theorem not_triggerName {a b : Bytes} {i : Nat} (hi : i + 2 ≤ a.length)
    (h : ¬ [quote, 116] <+: a.drop i) : ¬ triggerName <+: (a ++ b).drop i := by
  intro hname
  have hfirst : [quote, 116] <+: triggerName := by decide
  exact h ((prefix_drop_append_iff hi).mp (hfirst.trans hname))

theorem not_triggerName_opening {i : Nat} (hi : i < opening.length) (b : Bytes) :
    ¬ triggerName <+: (opening ++ quote :: b).drop i := by
  have hcons : opening ++ quote :: b = (opening ++ [quote]) ++ b := by
    rw [append_assoc, singleton_append]
  rw [hcons]
  refine not_triggerName ?_ fun hpre => ?_
  · rw [length_append, length_singleton]
    omega
  · have hoccurs : [quote, 116] <:+: opening ++ [quote] :=
      hpre.isInfix.trans (drop_suffix i _).isInfix
    exact find_eq_none_iff.mp find_in_opening hoccurs

theorem not_triggerName_gap : ∀ j < 5,
    ¬ [quote, 116] <+: (literal "\",\n  \"trigger\": ").drop j := by decide

/-- **The place of the name**: whatever the reason is, what the reader takes for the name of the
trigger field is followed by the object. -/
theorem find_triggerName {reason : Bytes} (hreason : Escaped quote escape reason)
    (object : Bytes) : ∃ before gap, Gap gap ∧
      opening ++ quote :: (reason ++ (literal "\",\n  \"trigger\": " ++ object)) =
        before ++ (triggerName ++ gap ++ object) ∧
      find triggerName
        (opening ++ quote :: (reason ++ (literal "\",\n  \"trigger\": " ++ object))) =
          some before.length := by
  have hquote : quote ∉ literal "trigger" := by decide
  have hescape : escape ∉ literal "trigger" := by decide
  have hne : quote ≠ escape := by decide
  have hclosing : literal "\",\n  \"trigger\": " ++ object =
      quote :: (literal ",\n  \"trigger\": " ++ object) := rfl
  generalize htext : opening ++ quote :: (reason ++ (literal "\",\n  \"trigger\": " ++ object)) =
    text
  have hafter : ∀ j, text.drop (opening.length + (1 + (reason.length + j))) =
      (literal "\",\n  \"trigger\": " ++ object).drop j := by
    intro j
    rw [← htext, ← drop_drop, drop_left, Nat.add_comm 1, drop_succ_cons, ← drop_drop, drop_left]
  have hplace : triggerName <+: text.drop (opening.length + (1 + (reason.length + 5))) := by
    rw [hafter]
    exact prefix_append triggerName (literal ": " ++ object)
  obtain ⟨p, hp, hfind⟩ := find_of_place hplace
  obtain ⟨hle, hname, -⟩ := find_eq_some_iff.mp hfind
  -- It is enough to know what follows the place: the rest is the text before it.
  suffices hfollows : ∃ gap, Gap gap ∧ text.drop p = triggerName ++ gap ++ object by
    obtain ⟨gap, hgap, hdrop⟩ := hfollows
    refine ⟨text.take p, gap, hgap, ?_, ?_⟩
    · rw [← hdrop, take_append_drop]
    · rw [hfind, length_take, Nat.min_eq_left hle]
  rcases Nat.lt_or_ge p opening.length with hbefore | hbefore
  · rw [← htext] at hname
    exact absurd hname (not_triggerName_opening hbefore _)
  obtain ⟨i, rfl⟩ := Nat.exists_eq_add_of_le hbefore
  cases i with
  | zero =>
    -- The opening quotation mark of the reason.
    rw [Nat.add_zero, ← htext, drop_left, triggerName_eq] at hname
    obtain ⟨-, hword⟩ := cons_prefix_cons.mp hname
    rw [hclosing] at hword
    have heq := hreason.eq_word hne hquote hescape hword
    refine ⟨_, .inr rfl, ?_⟩
    rw [Nat.add_zero, ← htext, drop_left, heq]
    rfl
  | succ i =>
    have hinside : text.drop (opening.length + (i + 1)) =
        (reason ++ (literal "\",\n  \"trigger\": " ++ object)).drop i := by
      rw [← htext, ← drop_drop, drop_left, drop_succ_cons]
    rcases Nat.lt_or_ge i reason.length with hlt | hge
    · rw [hinside, triggerName_eq, hclosing] at hname
      refine ⟨_, .inr rfl, ?_⟩
      rw [hinside, hclosing, hreason.quoted_word hne hquote hescape hlt hname]
      rfl
    · obtain ⟨j, rfl⟩ := Nat.exists_eq_add_of_le hge
      have hj : j ≤ 5 := by omega
      rw [Nat.add_comm _ 1] at hname hfind ⊢
      rw [hafter] at hname ⊢
      rcases Nat.lt_or_eq_of_le hj with hlt | rfl
      · refine absurd hname (not_triggerName ?_ (not_triggerName_gap j hlt))
        have hlength : (literal "\",\n  \"trigger\": ").length = 16 := by decide
        omega
      · exact ⟨_, .inl rfl, rfl⟩

/-- The text from the name of the trigger field to the value of its category. -/
abbrev objectHead (gap : Bytes) : Bytes := triggerName ++ gap ++ literal "\x7b\"category\": \""

/-- What the searches of the reader meet between the name of the trigger field and the value. -/
theorem objectHead_searches {gap : Bytes} (h : Gap gap) :
    ∃ key, find categoryName (objectHead gap) = some key ∧
      (objectHead gap).drop (key + 10) = literal ": \"" ∧ (objectHead gap).length = key + 13 ∧
      brace ∉ objectHead gap := by
  rcases h with rfl | rfl
  · exact ⟨12, by decide, by decide, by decide, by decide⟩
  · exact ⟨25, by decide, by decide, by decide, by decide⟩

/-- Where the first quotation mark of a text ends a word before any brace. -/
theorem brace_mem_of_before {a b a' b' : Bytes} (h : a ++ brace :: b = a' ++ b')
    (hlt : a.length < a'.length) : brace ∈ a' := by
  have hget : (a ++ brace :: b)[a.length]? = some brace := by
    rw [getElem?_append_right (le_refl _), Nat.sub_self]
    rfl
  rw [h, getElem?_append_left hlt] at hget
  exact mem_of_getElem? hget

/-- **What the reader makes of the object**: the value of the category, up to its closing
quotation mark, decides. -/
theorem manifestCategory_object {before gap category tail : Bytes} (hgap : Gap gap)
    (hcategory : Escaped quote escape category) (hbrace : brace ∈ tail)
    (hfind : find triggerName (before ++ (objectHead gap ++ (category ++ quote :: tail))) =
      some before.length) :
    manifestCategory (before ++ (objectHead gap ++ (category ++ quote :: tail))) =
      if category = kCategoryWheel then kCategoryWheel else kCategoryGeneral := by
  obtain ⟨key, hkey, hcolon, hlength, hclear⟩ := objectHead_searches hgap
  generalize hvalue : category ++ quote :: tail = value at hfind ⊢
  have hquoteMem : quote ∈ value := by
    rw [← hvalue]
    exact mem_append_right _ mem_cons_self
  have hbraceMem : brace ∈ value := by
    rw [← hvalue]
    exact mem_append_right _ (mem_cons_of_mem _ hbrace)
  obtain ⟨word, afterWord, hword, hwordQuote, hstop⟩ := find_unit_of_mem hquoteMem
  obtain ⟨closed, afterBrace, hclosed, -, hclose⟩ := find_unit_of_mem hbraceMem
  have hvalueStart : (objectHead gap ++ value).drop (key + 13) = value := by
    rw [← hlength, drop_left]
  have hcolonStart : (objectHead gap ++ value).drop (key + 10) = literal ": \"" ++ value := by
    rw [drop_append_of_le_length (by omega), hcolon]
  generalize htext : before ++ (objectHead gap ++ value) = text at hfind ⊢
  have hkeyFrom : findFrom categoryName text before.length = some (before.length + key) := by
    rw [← htext, ← Nat.add_zero before.length, findFrom_append, drop_zero, find_append_of_some hkey]
    rfl
  have hcloseFrom : findFrom [brace] text before.length =
      some (before.length + (key + 13 + closed.length)) := by
    rw [← htext, ← Nat.add_zero before.length, findFrom_append, drop_zero,
      find_unit_append hclear, hclose, hlength]
    rfl
  have hcolonFrom : findFrom (literal ":") text (before.length + key + 10) =
      some (before.length + (key + 10)) := by
    have hfirst : literal ":" <+: literal ": \"" ++ value := ⟨literal " \"" ++ value, rfl⟩
    rw [← htext, Nat.add_assoc, findFrom_append, hcolonStart, find_of_start hfirst]
    rfl
  have hstartFrom : findFrom [quote] text (before.length + (key + 10)) =
      some (before.length + (key + 12)) := by
    have hspace : quote ∉ literal ": " := by decide
    have hsplit : literal ": \"" ++ value = literal ": " ++ quote :: value := rfl
    rw [← htext, findFrom_append, hcolonStart, hsplit, find_unit hspace]
    rfl
  have hstopFrom : findFrom [quote] text (before.length + (key + 12) + 1) =
      some (before.length + (key + 13) + word.length) := by
    rw [← htext, Nat.add_assoc, findFrom_append, hvalueStart, hstop]
    rfl
  have hread : (text.drop (before.length + (key + 12) + 1)).take
      (before.length + (key + 13) + word.length - (before.length + (key + 12)) - 1) = word := by
    have hcount : before.length + (key + 13) + word.length - (before.length + (key + 12)) - 1 =
        word.length := by omega
    rw [hcount, ← htext, Nat.add_assoc, ← drop_drop, drop_left, hvalueStart, hword, take_left]
  have hwheelBrace : brace ∉ kCategoryWheel := by decide
  have hsame : word = kCategoryWheel ↔ category = kCategoryWheel := by
    have hboth : category ++ quote :: tail = word ++ quote :: afterWord := hvalue.trans hword
    constructor
    · rintro rfl
      have hends : kCategoryWheel ++ [quote] <+: category ++ quote :: tail := by
        rw [hboth, append_cons]
        exact prefix_append ..
      exact hcategory.eq_word (by decide) hwordQuote (by decide) hends
    · rintro rfl
      have hplace := find_unit (c := quote) (a := kCategoryWheel) (by decide) tail
      rw [hvalue, hstop, Option.some.injEq] at hplace
      exact (append_inj hboth hplace.symm).1.symm
  unfold manifestCategory
  rw [hfind]
  dsimp only
  rw [hkeyFrom, hcloseFrom]
  dsimp only
  rw [if_neg (by omega), hcolonFrom, Option.bind_some, hstartFrom]
  dsimp only
  rw [if_neg (by omega), hstopFrom]
  dsimp only
  rw [hread]
  by_cases hwheel : category = kCategoryWheel
  · have hnot : ¬ closed.length < word.length := by
      intro hlt
      have hmem := brace_mem_of_before (hclosed.symm.trans hword) hlt
      rw [hsame.mpr hwheel] at hmem
      exact hwheelBrace hmem
    rw [if_neg (by omega), if_pos (hsame.mpr hwheel), if_pos hwheel]
  · rw [if_neg (mt hsame.mp hwheel), if_neg hwheel, ite_self]

/-! ### The manifest -/

theorem filled_category_eq_wheel_iff (trigger : SnapshotTrigger) (reason : Bytes) :
    (trigger.filled reason).category = kCategoryWheel ↔ trigger.category = kCategoryWheel := by
  unfold SnapshotTrigger.filled
  dsimp only
  split
  · rename_i hempty
    rw [hempty]
    decide
  · rfl

/-- **The category is read back**: whatever the reason and the trigger hold, where the trigger
object ends within what the reader reads, the reader takes a package for one of the wheel exactly
when its trigger was. -/
theorem liveCategory_manifest (reason : Bytes) (trigger : SnapshotTrigger) (facts : Facts)
    (h : (manifestStart reason (trigger.filled reason)).length ≤ 64 * 1024) :
    liveCategory (some (manifest reason trigger facts)) =
      if trigger.category = kCategoryWheel then kCategoryWheel else kCategoryGeneral := by
  unfold liveCategory manifest
  dsimp only
  rw [take_append, take_of_length_le h]
  generalize (manifestRest facts).take _ = rest
  generalize hfilled : trigger.filled reason = filled
  have hwheel := filled_category_eq_wheel_iff trigger reason
  rw [hfilled] at hwheel
  have hobject : manifestStart reason filled ++ rest =
      opening ++ quote :: (jsonEscape reason ++ (literal "\",\n  \"trigger\": " ++
        (literal "\x7b\"category\": \"" ++ (triggerJsonEscape filled.category ++ quote ::
          (literal ", \"source\": \"" ++ triggerJsonEscape filled.source ++ literal "\"\x7d" ++
            rest))))) := by
    unfold manifestStart buildTriggerJson
    simp only [append_assoc]
    rfl
  rw [hobject]
  obtain ⟨before, gap, hgap, htext, hfind⟩ := find_triggerName (jsonEscape_escaped reason)
    (literal "\x7b\"category\": \"" ++ (triggerJsonEscape filled.category ++ quote ::
      (literal ", \"source\": \"" ++ triggerJsonEscape filled.source ++ literal "\"\x7d" ++ rest)))
  rw [htext] at hfind ⊢
  rw [← append_assoc (triggerName ++ gap)] at hfind ⊢
  rw [manifestCategory_object hgap (triggerJsonEscape_escaped _) ?_ hfind]
  · simp only [triggerJsonEscape_eq_wheel_iff, hwheel]
  · have hclosing : brace ∈ literal "\"\x7d" := by decide
    exact mem_append_left _ (mem_append_right _ hclosing)

/-- The facts of a small package. -/
def sampleFacts : Facts where
  createdUtc := literal "20250101T000000Z"
  version := literal "1.0"
  platform := literal "windows"
  frameWritten := true
  frameSource := literal "guest-output-readback"
  frameFreshness := literal "presented-guest-output"
  classification := .nonuniform
  width := 1280
  height := 720
  imageHelper := none
  dumpWritten := false
  dumpPolicy := .skippedByDefault
  saveCopySkipped := false
  saveFound := true
  saveFiles := 2
  saveBytes := 65536
  dumpError := []
  providerMs := 1
  frameMs := 2
  censusMs := 0
  stateLogMs := 3
  saveMs := 4
  dumpMs := 0
  stallUpperBoundMs := 2
  artifacts := [⟨literal "frame.bmp", 3686454, literal "00", true⟩]

set_option maxRecDepth 4000 in
/-- The reason ends in the name that the reader looks for, and its closing quotation mark is taken
for that of the name. -/
theorem liveCategory_forged_reason :
    liveCategory (some (manifest (literal "a \"trigger") ⟨kCategoryWheel, literal "pad"⟩
      sampleFacts)) = kCategoryWheel :=
  liveCategory_manifest (literal "a \"trigger") ⟨kCategoryWheel, literal "pad"⟩ sampleFacts
    (by decide)

end Mcla.TriggerCategory

import Mcla.Diagnostics.Wheels
import Mcla.Library.JsonBytes

/-! # The wheel object of a snapshot

The JSON of `mcla_diagnostic_trigger`: `BuildTriggerJson`, `BuildWheelStateJson`, and the lines of
the SDK log that `AddSdkInputLogLine` keeps for it.  The objects always read as the fields they were
built from; they are valid UTF-8 unless a kept line was cut inside of a character.
-/
namespace Mcla.WheelJson
open TriggerCategory (Bytes literal hex4 triggerJsonEscapeByte triggerJsonEscape SnapshotTrigger
  buildTriggerJson boolText intText)
open Wheels (WheelState JoystickState hex16)
open ActiveDevice (InputSource ActiveTransition)
open JsonBytes (Json Scalar Reads Spells Clean Joins Follows rows quote numberText follows_member
  follows_end reads_object memberStrings reads_rows itemStrings)
open Utf8 (Valid)
open List

/-! ### The kept lines -/

def kMaxSdkLogLinesPerKind : Nat := 32

def kMaxSdkLogLineBytes : Nat := 512

/-- The three logs of input lines, and none. -/
inductive SdkInputLogKind where
  | kNone | kActiveController | kForceFeedback | kDevice
deriving DecidableEq

variable (line : Bytes)

/-- Whether `find` finds a text in a line. -/
def finds (text : String) : Bool := (TextSearch.find (literal text) line).isSome

/-- `ClassifySdkInputLogLine` -/
def classifySdkInputLogLine : SdkInputLogKind :=
  if finds line "SDL_ACTIVE_CONTROLLER" then .kActiveController
  else if finds line "SDL_WHEEL_FFB" || finds line "SDL wheel FFB" ||
      finds line "SDL wheel does not support" || finds line "SDL wheel rumble" then .kForceFeedback
  else if finds line "SDL_WHEEL_CONNECTED" || finds line "SDL wheel " ||
      finds line "SDL OnControllerDeviceAdded" || finds line "removed from physical slot" ||
      finds line "SDL_HOTPLUG" || finds line "SDL_XINPUT" then .kDevice
  else .kNone

/-- The bytes of a line that are kept. -/
def cut : Bytes := if kMaxSdkLogLineBytes < line.length then line.take kMaxSdkLogLineBytes else line

/-- A log with one more line; a full one loses its oldest. -/
def added (target : List Bytes) (line : Bytes) : List Bytes :=
  (if target.length = kMaxSdkLogLinesPerKind then target.eraseIdx 0 else target) ++ [cut line]

variable (wheel : WheelState)

/-- `AddSdkInputLogLine` -/
def addSdkInputLogLine (line : Bytes) : WheelState :=
  match classifySdkInputLogLine line with
  | .kActiveController =>
    { wheel with sdk_active_controller_log := added wheel.sdk_active_controller_log line }
  | .kForceFeedback =>
    { wheel with sdk_force_feedback_log := added wheel.sdk_force_feedback_log line }
  | .kDevice => { wheel with sdk_device_log := added wheel.sdk_device_log line }
  | .kNone => wheel

/-- The wheel after some lines of the SDK log. -/
def recorded (lines : List Bytes) : WheelState := lines.foldl addSdkInputLogLine wheel

/-- The log of a kind. -/
def logOf : SdkInputLogKind → List Bytes
  | .kActiveController => wheel.sdk_active_controller_log
  | .kForceFeedback => wheel.sdk_force_feedback_log
  | .kDevice => wheel.sdk_device_log
  | .kNone => []

/-- The lines of a kind that are kept: the newest of them. -/
def retained (kind : SdkInputLogKind) (lines : List Bytes) : List Bytes :=
  (lines.filter fun line => classifySdkInputLogLine line = kind).rtake kMaxSdkLogLinesPerKind

/-! ### The objects -/

/-- `JsonNumberArray` -/
def jsonNumberArray (values : List Int) : Bytes :=
  literal "[" ++ rows [] (literal ", ") intText values ++ literal "]"

/-- The rows of `JsonStringArray`; the last one has no comma. -/
def stringRows (indent : Bytes) : List Bytes → Bytes
  | [] => []
  | value :: rest =>
    indent ++ literal "  \"" ++ triggerJsonEscape value ++ literal "\"" ++
      (if rest = [] then literal "\n" else literal ",\n") ++ stringRows indent rest

variable (values : List Bytes)

/-- `JsonStringArray` -/
def jsonStringArray (indent : Bytes) : Bytes :=
  if values = [] then literal "[]"
  else literal "[\n" ++ stringRows indent values ++ indent ++ literal "]"

/-- `InputSourceName` -/
def inputSourceName : InputSource → Bytes
  | .kGamepad => literal "gamepad"
  | .kJoystick => literal "joystick"

variable (d : JoystickState)

/-- The row of a device. -/
def joystickText : Bytes :=
  literal "      \x7b\"instance_id\": " ++ Decimal.text d.instance_id.toNat ++
    literal ", \"name\": \"" ++ triggerJsonEscape d.name ++ literal "\", \"guid\": \"" ++
    triggerJsonEscape d.guid ++ literal "\", \"vendor_id\": \"" ++ hex16 d.vendor_id ++
    literal "\", \"product_id\": \"" ++ hex16 d.product_id ++
    literal "\", \"joystick_type\": " ++ intText d.joystick_type ++
    literal ", \"gamepad\": " ++ boolText d.is_gamepad ++
    literal ", \"wheel\": " ++ boolText d.is_wheel ++
    literal ", \"opened\": " ++ boolText d.opened ++
    literal ", \"haptic\": " ++ boolText d.haptic ++
    literal ", \"axes\": " ++ jsonNumberArray d.axes ++
    literal ", \"buttons\": " ++ jsonNumberArray (d.buttons.map fun b => (b.toNat : Int)) ++
    literal ", \"hats\": " ++ jsonNumberArray (d.hats.map fun b => (b.toNat : Int)) ++
    literal "\x7d"

/-- The row of a transition. -/
def transitionText (t : ActiveTransition) : Bytes :=
  literal "      \x7b\"timestamp_ms\": " ++ Decimal.text t.timestamp_ms.toNat ++
    literal ", \"from\": " ++ intText t.from_device ++
    literal ", \"to\": " ++ Decimal.text t.to_device.toNat ++
    literal ", \"source\": \"" ++ inputSourceName t.source ++ literal "\"\x7d"

/-- The device that wrote the trigger. -/
def triggerDeviceText : Option UInt32 → Bytes
  | some device => Decimal.text device.toNat
  | none => literal "null"

/-- The device that the host saw last. -/
def latestText : Bytes :=
  if wheel.host_latest_known then
    literal "\x7b\"instance_id\": " ++ Decimal.text wheel.host_latest.toNat ++
      literal ", \"source\": \"" ++ inputSourceName wheel.host_latest_source ++
      literal "\", \"timestamp_ms\": " ++
      Decimal.text wheel.host_latest_timestamp_ms.toNat ++ literal "\x7d"
  else literal "null"

/-- `BuildWheelStateJson` -/
def buildWheelStateJson : Bytes :=
  literal "\x7b\n" ++
    literal "    \"schema\": \"mcla-wheel-state-v1\",\n" ++
    literal "    \"config\": \x7b\"l2_button\": " ++ intText wheel.buttons.l2 ++
    literal ", \"r2_button\": " ++ intText wheel.buttons.r2 ++ literal "\x7d,\n" ++
    literal "    \"trigger_device\": " ++
    triggerDeviceText wheel.trigger_device ++ literal ",\n" ++
    literal "    \"devices\": [" ++
    rows (literal "\n") (literal ",\n") joystickText wheel.devices ++
    (if wheel.devices = [] then literal "],\n" else literal "\n    ],\n") ++
    literal "    \"host_latest_active\": " ++
    latestText wheel ++ literal ",\n    \"host_total_transitions\": " ++
    Decimal.text wheel.host_total_transitions.toNat ++ literal ",\n" ++
    literal "    \"host_transitions\": [" ++
    rows (literal "\n") (literal ",\n") transitionText wheel.host_transitions ++
    (if wheel.host_transitions = [] then literal "],\n" else literal "\n    ],\n") ++
    literal "    \"sdk_active_controller_log\": " ++
    jsonStringArray wheel.sdk_active_controller_log (literal "    ") ++ literal ",\n" ++
    literal "    \"force_feedback\": \x7b\"source\": \"sdk-log\", \"effect_table\": " ++
    literal "\"not-exposed-by-sdk\", \"log\": " ++
    jsonStringArray wheel.sdk_force_feedback_log (literal "    ") ++ literal "\x7d,\n" ++
    literal "    \"sdk_device_log\": " ++
    jsonStringArray wheel.sdk_device_log (literal "    ") ++ literal "\n" ++
    literal "  \x7d"

/-! ### What they hold -/

abbrev number (n : Int) : Json := .scalar (.number n)

variable (trigger : SnapshotTrigger)

/-- The trigger of the snapshot. -/
def triggerTree : Json :=
  .object [(literal "category", .string trigger.category),
    (literal "source", .string trigger.source)]

/-- One joystick. -/
def joystickTree : Json :=
  .object [(literal "instance_id", number d.instance_id.toNat),
    (literal "name", .string d.name),
    (literal "guid", .string d.guid),
    (literal "vendor_id", .string (hex16 d.vendor_id)),
    (literal "product_id", .string (hex16 d.product_id)),
    (literal "joystick_type", number d.joystick_type),
    (literal "gamepad", .scalar (.bool d.is_gamepad)),
    (literal "wheel", .scalar (.bool d.is_wheel)),
    (literal "opened", .scalar (.bool d.opened)),
    (literal "haptic", .scalar (.bool d.haptic)),
    (literal "axes", .array (d.axes.map number)),
    (literal "buttons", .array ((d.buttons.map fun b => (b.toNat : Int)).map number)),
    (literal "hats", .array ((d.hats.map fun b => (b.toNat : Int)).map number))]

/-- One change of the active device. -/
def transitionTree (t : ActiveTransition) : Json :=
  .object [(literal "timestamp_ms", number t.timestamp_ms.toNat),
    (literal "from", number t.from_device),
    (literal "to", number t.to_device.toNat),
    (literal "source", .string (inputSourceName t.source))]

/-- The latest device, if it is known. -/
def latestTree : Json :=
  if wheel.host_latest_known then
    .object [(literal "instance_id", number wheel.host_latest.toNat),
      (literal "source", .string (inputSourceName wheel.host_latest_source)),
      (literal "timestamp_ms", number wheel.host_latest_timestamp_ms.toNat)]
  else .scalar .null

/-- The device of the trigger, if there is one. -/
def triggerDeviceTree : Option UInt32 → Json
  | some device => number device.toNat
  | none => .scalar .null

/-- The whole document. -/
def wheelTree : Json :=
  .object [(literal "schema", .string (literal "mcla-wheel-state-v1")),
    (literal "config", .object [(literal "l2_button", number wheel.buttons.l2),
      (literal "r2_button", number wheel.buttons.r2)]),
    (literal "trigger_device", triggerDeviceTree wheel.trigger_device),
    (literal "devices", .array (wheel.devices.map joystickTree)),
    (literal "host_latest_active", latestTree wheel),
    (literal "host_total_transitions", number wheel.host_total_transitions.toNat),
    (literal "host_transitions", .array (wheel.host_transitions.map transitionTree)),
    (literal "sdk_active_controller_log", .array (wheel.sdk_active_controller_log.map .string)),
    (literal "force_feedback", .object [(literal "source", .string (literal "sdk-log")),
      (literal "effect_table", .string (literal "not-exposed-by-sdk")),
      (literal "log", .array (wheel.sdk_force_feedback_log.map .string))]),
    (literal "sdk_device_log", .array (wheel.sdk_device_log.map .string))]

/-! ### Strings and numbers -/

theorem literal_append (a b : String) : literal a ++ literal b = literal (a ++ b) := by
  simp [literal]

theorem literal_append_append (a b : String) (t : Bytes) :
    literal a ++ (literal b ++ t) = literal (a ++ b) ++ t := by
  rw [← append_assoc, literal_append]

theorem quote_literal : [quote] = literal "\"" := by decide

/-- A text between quotation marks. -/
def quoted (text : Bytes) : Bytes := [quote] ++ (text ++ [quote])

theorem hex_digit : ∀ d < 16,
    JsonBytes.hexDigit? (UInt8.ofNat (if d < 10 then 48 + d else 87 + d)) = some d := by
  decide

/-- An escape of four digits is the byte. -/
theorem spells_hex {c : UInt8} (h : c.toNat < 128) : Spells (literal "\\u" ++ hex4 c) [c] := by
  have hstart : literal "\\u" = [92, 117] := by decide
  have hzero : JsonBytes.hexDigit? 48 = some 0 := by decide
  have hall := JsonBytes.spells_codeUnit hzero hzero (hex_digit (c.toNat / 16) (by omega))
    (hex_digit (c.toNat % 16) (by omega)) (show _ = c.toNat by omega) (by omega)
  rw [Utf8.encodeChar_ascii h] at hall
  rw [hstart]
  exact hall

theorem spells_escapeByte (c : UInt8) : Spells (triggerJsonEscapeByte c) [c] := by
  unfold triggerJsonEscapeByte
  split_ifs with hescape hquote hcontrol
  · -- a backslash and a quote have their short escapes, the control bytes the long one
    have htext : literal "\\\\" = [92, 92] := by decide
    rw [hescape, htext]
    have hlookup : JsonBytes.shortEscapes.lookup 92 = some 92 := by decide
    exact JsonBytes.spells_short (by decide) hlookup
  · have htext : literal "\\\"" = [92, 34] := by decide
    rw [hquote, htext]
    have hlookup : JsonBytes.shortEscapes.lookup 34 = some 34 := by decide
    exact JsonBytes.spells_short (by decide) hlookup
  · refine spells_hex ?_
    rcases hcontrol with hlow | rfl
    · omega
    · decide
  · rw [not_or, not_lt] at hcontrol
    exact JsonBytes.spells_byte hcontrol.1 hquote hescape

variable (value : Bytes)

/-- **What was escaped is read back.** -/
theorem spells_escape : Spells (triggerJsonEscape value) value := by
  induction value with
  | nil => exact JsonBytes.spells_nil
  | cons c value ih =>
    rw [triggerJsonEscape, flatMap_cons]
    exact (spells_escapeByte c).append ih

variable {t : Bytes} {kind : SdkInputLogKind}

/-- A text without quotes, backslashes and control bytes. -/
theorem spells_plain (h : ∀ c ∈ t, 32 ≤ c.toNat ∧ c ≠ quote ∧ c ≠ 92) : Spells t t := by
  induction t with
  | nil => exact JsonBytes.spells_nil
  | cons c t ih =>
    obtain ⟨⟨hlow, hquote, hescape⟩, ht⟩ := forall_mem_cons.mp h
    exact (JsonBytes.spells_byte hlow hquote hescape).append (ih ht)

theorem spells_hex16 (value : UInt16) : Spells (hex16 value) (hex16 value) := by
  refine spells_plain fun c hc => ?_
  obtain ⟨hlow, -, hescape⟩ := Wheels.hex16_printable hc
  refine ⟨by omega, ?_, hescape⟩
  rintro rfl
  exact absurd hlow (by decide)

theorem spells_literal {s : String}
    (h : (literal s).all (fun c => 32 ≤ c.toNat ∧ c ≠ quote ∧ c ≠ 92) = true) :
    Spells (literal s) (literal s) :=
  spells_plain fun c hc => of_decide_eq_true (all_eq_true.mp h c hc)

theorem spells_source (source : InputSource) :
    Spells (inputSourceName source) (inputSourceName source) := by
  cases source with
  | kJoystick => exact spells_literal (by decide)
  | kGamepad => exact spells_literal (by decide)

theorem reads_nat (n : Nat) : Reads (Decimal.text n) (number n) := by
  have h : numberText n = Decimal.text n := by
    rw [numberText, if_neg (by omega), Int.natAbs_natCast]
  rw [← h]
  exact JsonBytes.reads_number n

theorem reads_int (n : Int) : Reads (intText n) (number n) := by
  have hsign : literal "-" = [45] := by decide
  have h : numberText n = intText n := by
    rw [numberText, intText, hsign]
    rfl
  rw [← h]
  exact JsonBytes.reads_number n

theorem reads_bool (b : Bool) : Reads (boolText b) (.scalar (.bool b)) := by
  have h : boolText b = (Scalar.bool b).text := by cases b <;> decide
  rw [h]
  exact JsonBytes.reads_scalar _

theorem reads_null : Reads (literal "null") (.scalar .null) := by
  have h : literal "null" = Scalar.null.text := by decide
  rw [h]
  exact JsonBytes.reads_scalar _

theorem reads_quoted {e s : Bytes} (h : Spells e s) : Reads (quoted e) (.string s) := h.reads

/-! ### Objects -/

/-- The escaped text of a string, in its quotation marks. -/
abbrev stringText : Bytes := quoted (triggerJsonEscape value)

theorem reads_string : Reads (stringText value) (.string value) :=
  reads_quoted (spells_escape value)

theorem triggerText_eq : buildTriggerJson trigger =
    literal "\x7b\"category\": " ++ (stringText trigger.category ++
      (literal ", \"source\": " ++ (stringText trigger.source ++ literal "\x7d"))) := by
  rw [buildTriggerJson]
  simp only [quoted, quote_literal, append_assoc]
  simp only [literal_append, literal_append_append, String.reduceAppend]

theorem trigger_reads : Reads (buildTriggerJson trigger) (triggerTree trigger) := by
  rw [triggerText_eq]
  refine reads_object (by decide) (reads_string _) ?_
  refine follows_member (by decide) (reads_string _) ?_
  exact follows_end (by decide)

theorem numbers_eq (values : List Int) : jsonNumberArray values =
    [91] ++ (rows [] (literal ", ") intText values ++ literal "]") := by
  have hopen : literal "[" = [91] := by decide
  rw [jsonNumberArray, hopen, append_assoc]

theorem numbers_reads (values : List Int) :
    Reads (jsonNumberArray values) (.array (values.map number)) := by
  rw [numbers_eq]
  exact reads_rows (by decide) (by decide) (by decide) reads_int values

theorem joystickText_eq : joystickText d =
    literal "      \x7b\"instance_id\": " ++ (Decimal.text d.instance_id.toNat ++
      (literal ", \"name\": " ++ (stringText d.name ++
      (literal ", \"guid\": " ++ (stringText d.guid ++
      (literal ", \"vendor_id\": " ++ (quoted (hex16 d.vendor_id) ++
      (literal ", \"product_id\": " ++ (quoted (hex16 d.product_id) ++
      (literal ", \"joystick_type\": " ++ (intText d.joystick_type ++
      (literal ", \"gamepad\": " ++ (boolText d.is_gamepad ++
      (literal ", \"wheel\": " ++ (boolText d.is_wheel ++
      (literal ", \"opened\": " ++ (boolText d.opened ++
      (literal ", \"haptic\": " ++ (boolText d.haptic ++
      (literal ", \"axes\": " ++ (jsonNumberArray d.axes ++
      (literal ", \"buttons\": " ++ (jsonNumberArray (d.buttons.map fun b => (b.toNat : Int)) ++
      (literal ", \"hats\": " ++ (jsonNumberArray (d.hats.map fun b => (b.toNat : Int)) ++
      literal "\x7d"))))))))))))))))))))))))) := by
  unfold joystickText stringText quoted
  simp only [quote_literal, append_assoc]
  simp only [literal_append_append, String.reduceAppend]

theorem joystick_reads : Reads (joystickText d) (joystickTree d) := by
  rw [joystickText_eq]
  refine reads_object (by decide) (reads_nat _) ?_
  refine follows_member (by decide) (reads_string _) ?_
  refine follows_member (by decide) (reads_string _) ?_
  refine follows_member (by decide) (reads_quoted (spells_hex16 _)) ?_
  refine follows_member (by decide) (reads_quoted (spells_hex16 _)) ?_
  refine follows_member (by decide) (reads_int _) ?_
  refine follows_member (by decide) (reads_bool _) ?_
  refine follows_member (by decide) (reads_bool _) ?_
  refine follows_member (by decide) (reads_bool _) ?_
  refine follows_member (by decide) (reads_bool _) ?_
  refine follows_member (by decide) (numbers_reads _) ?_
  refine follows_member (by decide) (numbers_reads _) ?_
  refine follows_member (by decide) (numbers_reads _) ?_
  exact follows_end (by decide)

theorem transitionText_eq (t : ActiveTransition) : transitionText t =
    literal "      \x7b\"timestamp_ms\": " ++ (Decimal.text t.timestamp_ms.toNat ++
      (literal ", \"from\": " ++ (intText t.from_device ++
      (literal ", \"to\": " ++ (Decimal.text t.to_device.toNat ++
      (literal ", \"source\": " ++ (quoted (inputSourceName t.source) ++
      literal "\x7d"))))))) := by
  rw [transitionText]
  simp only [quoted, quote_literal, append_assoc]
  simp only [literal_append, literal_append_append, String.reduceAppend]

theorem transition_reads (t : ActiveTransition) : Reads (transitionText t) (transitionTree t) := by
  rw [transitionText_eq]
  refine reads_object (by decide) (reads_nat _) ?_
  refine follows_member (by decide) (reads_int _) ?_
  refine follows_member (by decide) (reads_nat _) ?_
  refine follows_member (by decide) (reads_quoted (spells_source _)) ?_
  exact follows_end (by decide)

/-- The rows of a log, with each comma before the row after it. -/
theorem stringRows_cons (rest : List Bytes) :
    stringRows (literal "    ") (value :: rest) =
      literal "      " ++ (stringText value ++
        ((rest.flatMap fun next => literal ",\n      " ++ stringText next) ++ literal "\n")) := by
  induction rest generalizing value with
  | nil =>
    rw [stringRows, stringRows, if_pos rfl, flatMap_nil]
    unfold stringText quoted
    simp only [quote_literal, append_assoc, append_nil, nil_append]
    simp only [literal_append, literal_append_append, String.reduceAppend]
  | cons next rest ih =>
    rw [stringRows, if_neg (cons_ne_nil _ _), ih, flatMap_cons]
    unfold stringText quoted
    simp only [quote_literal, append_assoc]
    simp only [literal_append_append, String.reduceAppend]

theorem strings_eq : jsonStringArray values (literal "    ") =
    [91] ++ (rows (literal "\n      ") (literal ",\n      ") stringText values ++
      if values = [] then literal "]" else literal "\n    ]") := by
  have hopen : [91] = literal "[" := by decide
  cases values with
  | nil => decide
  | cons value rest =>
    rw [jsonStringArray, if_neg (cons_ne_nil _ _), if_neg (cons_ne_nil _ _),
      stringRows_cons, rows, hopen]
    simp only [append_assoc]
    simp only [literal_append, literal_append_append, String.reduceAppend]

theorem strings_reads :
    Reads (jsonStringArray values (literal "    ")) (.array (values.map .string)) := by
  have hclose : Joins (if values = [] then literal "]" else literal "\n    ]") [.mark 93] := by
    split_ifs <;> decide
  rw [strings_eq]
  exact reads_rows (by decide) (by decide) hclose reads_string values

theorem triggerDevice_reads (device : Option UInt32) :
    Reads (triggerDeviceText device) (triggerDeviceTree device) := by
  cases device with
  | none => exact reads_null
  | some device => exact reads_nat _

theorem latest_reads : Reads (latestText wheel) (latestTree wheel) := by
  unfold latestText latestTree
  split_ifs
  · have htext : literal "\x7b\"instance_id\": " ++ Decimal.text wheel.host_latest.toNat ++
        literal ", \"source\": \"" ++ inputSourceName wheel.host_latest_source ++
        literal "\", \"timestamp_ms\": " ++
        Decimal.text wheel.host_latest_timestamp_ms.toNat ++ literal "\x7d" =
          literal "\x7b\"instance_id\": " ++ (Decimal.text wheel.host_latest.toNat ++
            (literal ", \"source\": " ++ (quoted (inputSourceName wheel.host_latest_source) ++
            (literal ", \"timestamp_ms\": " ++
            (Decimal.text wheel.host_latest_timestamp_ms.toNat ++ literal "\x7d"))))) := by
      unfold quoted
      simp only [quote_literal, append_assoc]
      simp only [literal_append_append, String.reduceAppend]
    rw [htext]
    refine reads_object (by decide) (reads_nat _) ?_
    refine follows_member (by decide) (reads_quoted (spells_source _)) ?_
    refine follows_member (by decide) (reads_nat _) ?_
    exact follows_end (by decide)
  · exact reads_null

/-- The rows of an array of objects. -/
def objectRows {α : Type} (text : α → Bytes) (xs : List α) : Bytes :=
  [91] ++ (rows (literal "\n") (literal ",\n") text xs ++
    if xs = [] then literal "]" else literal "\n    ]")

theorem objectRows_reads {α : Type} {text : α → Bytes} {tree : α → Json}
    (h : ∀ x, Reads (text x) (tree x)) (xs : List α) :
    Reads (objectRows text xs) (.array (xs.map tree)) := by
  have hclose : Joins (if xs = [] then literal "]" else literal "\n    ]") [.mark 93] := by
    split_ifs <;> decide
  exact reads_rows (by decide) (by decide) hclose h xs

/-- The text of the configuration. -/
def configText : Bytes :=
  literal "\x7b\"l2_button\": " ++ (intText wheel.buttons.l2 ++
    (literal ", \"r2_button\": " ++ (intText wheel.buttons.r2 ++ literal "\x7d")))

/-- The text of the force feedback. -/
def forceFeedbackText : Bytes :=
  literal "\x7b\"source\": " ++ (quoted (literal "sdk-log") ++
    (literal ", \"effect_table\": " ++ (quoted (literal "not-exposed-by-sdk") ++
    (literal ", \"log\": " ++
    (jsonStringArray wheel.sdk_force_feedback_log (literal "    ") ++ literal "\x7d")))))

theorem wheelText_eq : buildWheelStateJson wheel =
    literal "\x7b\n    \"schema\": " ++ (quoted (literal "mcla-wheel-state-v1") ++
      (literal ",\n    \"config\": " ++ (configText wheel ++
      (literal ",\n    \"trigger_device\": " ++ (triggerDeviceText wheel.trigger_device ++
      (literal ",\n    \"devices\": " ++ (objectRows joystickText wheel.devices ++
      (literal ",\n    \"host_latest_active\": " ++ (latestText wheel ++
      (literal ",\n    \"host_total_transitions\": " ++
      (Decimal.text wheel.host_total_transitions.toNat ++
      (literal ",\n    \"host_transitions\": " ++
      (objectRows transitionText wheel.host_transitions ++
      (literal ",\n    \"sdk_active_controller_log\": " ++
      (jsonStringArray wheel.sdk_active_controller_log (literal "    ") ++
      (literal ",\n    \"force_feedback\": " ++ (forceFeedbackText wheel ++
      (literal ",\n    \"sdk_device_log\": " ++
      (jsonStringArray wheel.sdk_device_log (literal "    ") ++
      literal "\n  \x7d"))))))))))))))))))) := by
  have hopen : [91] = literal "[" := by decide
  -- an empty array ends on the line that it begins on
  have hclose : ∀ {α : Type} (xs : List α),
      (if xs = [] then literal "],\n" else literal "\n    ],\n") =
        (if xs = [] then literal "]" else literal "\n    ]") ++ literal ",\n" := by
    intro α xs
    split_ifs <;> decide
  unfold buildWheelStateJson configText forceFeedbackText objectRows quoted
  simp only [hclose, quote_literal, hopen, append_assoc]
  simp only [literal_append, literal_append_append, String.reduceAppend]

theorem config_reads : Reads (configText wheel)
    (.object [(literal "l2_button", number wheel.buttons.l2),
      (literal "r2_button", number wheel.buttons.r2)]) := by
  refine reads_object (by decide) (reads_int _) ?_
  refine follows_member (by decide) (reads_int _) ?_
  exact follows_end (by decide)

theorem forceFeedback_reads : Reads (forceFeedbackText wheel)
    (.object [(literal "source", .string (literal "sdk-log")),
      (literal "effect_table", .string (literal "not-exposed-by-sdk")),
      (literal "log", .array (wheel.sdk_force_feedback_log.map .string))]) := by
  refine reads_object (by decide) (reads_quoted (spells_literal (by decide))) ?_
  refine follows_member (by decide) (reads_quoted (spells_literal (by decide))) ?_
  refine follows_member (by decide) (strings_reads _) ?_
  exact follows_end (by decide)

/-- **The wheel object reads as its fields**, whatever bytes its strings hold. -/
theorem wheel_reads : Reads (buildWheelStateJson wheel) (wheelTree wheel) := by
  rw [wheelText_eq]
  refine reads_object (by decide) (reads_quoted (spells_literal (by decide))) ?_
  refine follows_member (by decide) (config_reads wheel) ?_
  refine follows_member (by decide) (triggerDevice_reads _) ?_
  refine follows_member (by decide) (objectRows_reads joystick_reads _) ?_
  refine follows_member (by decide) (latest_reads wheel) ?_
  refine follows_member (by decide) (reads_nat _) ?_
  refine follows_member (by decide) (objectRows_reads transition_reads _) ?_
  refine follows_member (by decide) (strings_reads _) ?_
  refine follows_member (by decide) (forceFeedback_reads wheel) ?_
  refine follows_member (by decide) (strings_reads _) ?_
  exact follows_end (by decide)

/-! ### Valid texts -/

theorem valid_literal (s : String) : Valid (literal s) := Utf8.valid_string s

theorem valid_hex16 (value : UInt16) : Valid (hex16 value) := by
  refine Utf8.valid_of_ascii fun c hc => ?_
  have hprintable := Wheels.hex16_printable hc
  omega

theorem valid_source (source : InputSource) : Valid (inputSourceName source) := by
  cases source with
  | kJoystick => exact valid_literal _
  | kGamepad => exact valid_literal _

theorem valid_strings_map {α : Type} (tree : α → Json) (xs : List α) :
    (∀ s ∈ itemStrings (xs.map tree), Valid s) ↔
      ∀ x ∈ xs, ∀ s ∈ (tree x).strings, Valid s := by
  induction xs with
  | nil => simp [itemStrings]
  | cons x xs ih =>
    rw [map_cons, itemStrings, forall_mem_append, ih, forall_mem_cons]

theorem trigger_valid {trigger : SnapshotTrigger} (hcategory : Valid trigger.category)
    (hsource : Valid trigger.source) : Valid (buildTriggerJson trigger) := by
  rw [(trigger_reads trigger).valid_iff]
  simp [triggerTree, Json.strings, memberStrings, valid_literal, hcategory, hsource]

theorem joystick_valid_iff :
    (∀ s ∈ (joystickTree d).strings, Valid s) ↔ Valid d.name ∧ Valid d.guid := by
  simp only [joystickTree, Json.strings, memberStrings, forall_mem_append,
    forall_mem_cons, valid_literal, valid_hex16, valid_strings_map]
  simp

theorem transition_valid (t : ActiveTransition) : ∀ s ∈ (transitionTree t).strings, Valid s := by
  simp only [transitionTree, Json.strings, memberStrings, forall_mem_append,
    forall_mem_cons, valid_literal, valid_source]
  simp

theorem latest_valid : ∀ s ∈ (latestTree wheel).strings, Valid s := by
  unfold latestTree
  split_ifs
  · simp only [Json.strings, memberStrings, forall_mem_append,
      forall_mem_cons, valid_literal, valid_source]
    simp
  · simp [Json.strings]

theorem triggerDevice_valid (device : Option UInt32) :
    ∀ s ∈ (triggerDeviceTree device).strings, Valid s := by
  cases device <;> simp [triggerDeviceTree, Json.strings]

/-- The logs are the only part that the caller does not answer for. -/
theorem wheel_valid_iff : Valid (buildWheelStateJson wheel) ↔
    (∀ d ∈ wheel.devices, Valid d.name ∧ Valid d.guid) ∧
      ∀ kind, ∀ s ∈ logOf wheel kind, Valid s := by
  have hlogs : (∀ kind, ∀ s ∈ logOf wheel kind, Valid s) ↔
      (∀ s ∈ wheel.sdk_active_controller_log, Valid s) ∧
      (∀ s ∈ wheel.sdk_force_feedback_log, Valid s) ∧ ∀ s ∈ wheel.sdk_device_log, Valid s := by
    constructor
    · intro h
      exact ⟨h .kActiveController, h .kForceFeedback, h .kDevice⟩
    · rintro ⟨hactive, hforce, hdevice⟩ kind
      cases kind with
      | kNone => exact fun s hs => absurd hs not_mem_nil
      | kActiveController => exact hactive
      | kForceFeedback => exact hforce
      | kDevice => exact hdevice
  have htransitions : ∀ t ∈ wheel.host_transitions, ∀ s ∈ (transitionTree t).strings, Valid s :=
    fun t _ => transition_valid t
  rw [(wheel_reads wheel).valid_iff, hlogs]
  simp only [wheelTree, Json.strings, memberStrings, forall_mem_append,
    forall_mem_cons, valid_literal, valid_strings_map, joystick_valid_iff]
  rw [eq_true (triggerDevice_valid wheel.trigger_device), eq_true (latest_valid wheel),
    eq_true htransitions]
  simp

/-! ### The kept lines of a run -/

theorem cut_eq : cut line = line.take kMaxSdkLogLineBytes := by
  unfold cut
  split_ifs with hlong
  · rfl
  · rw [take_of_length_le (by omega)]

/-- A full log loses its oldest line. -/
theorem added_rtake (log : List Bytes) (line : Bytes) :
    added ((log.rtake kMaxSdkLogLinesPerKind).map cut) line =
      ((log ++ [line]).rtake kMaxSdkLogLinesPerKind).map cut := by
  have hsucc : kMaxSdkLogLinesPerKind = 31 + 1 := rfl
  -- with room for one line more, the newest 31 are left
  have hkept : (if (log.rtake kMaxSdkLogLinesPerKind).length = kMaxSdkLogLinesPerKind then
      (log.rtake kMaxSdkLogLinesPerKind).tail else log.rtake kMaxSdkLogLinesPerKind) =
        log.rtake 31 := by
    rw [List.rtake, List.rtake, length_drop, tail_drop, hsucc]
    split_ifs with hfull
    · congr 1
      omega
    · rw [show log.length - (31 + 1) = log.length - 31 by omega]
  rw [added, length_map, eraseIdx_zero, ← map_tail, ← apply_ite, hkept, hsucc,
    rtake_concat_succ, map_append]
  rfl

theorem logOf_add (line : Bytes) (hkind : kind ≠ .kNone) :
    logOf (addSdkInputLogLine wheel line) kind =
      if classifySdkInputLogLine line = kind then added (logOf wheel kind) line
      else logOf wheel kind := by
  unfold addSdkInputLogLine
  cases classifySdkInputLogLine line <;> cases kind <;> first | rfl | exact absurd rfl hkind

/-- **The log of a kind** holds the newest lines of it, each cut. -/
theorem logOf_recorded {wheel : WheelState} (hkind : kind ≠ .kNone) (hnew : logOf wheel kind = [])
    (lines : List Bytes) : logOf (recorded wheel lines) kind = (retained kind lines).map cut := by
  induction lines using reverseRecOn with
  | nil => rw [recorded, foldl_nil, hnew]; rfl
  | append_singleton lines line ih =>
    rw [recorded] at ih
    rw [recorded, foldl_append, foldl_cons, foldl_nil, logOf_add _ _ hkind, ih]
    unfold retained
    rw [filter_append]
    by_cases hclass : classifySdkInputLogLine line = kind
    · rw [if_pos hclass, added_rtake, filter_singleton, decide_eq_true hclass, cond_true]
    · rw [if_neg hclass, filter_singleton, decide_eq_false hclass, cond_false, append_nil]

/-- The other fields stay. -/
theorem recorded_devices (lines : List Bytes) : (recorded wheel lines).devices = wheel.devices := by
  induction lines using reverseRecOn with
  | nil => rfl
  | append_singleton lines line ih =>
    rw [recorded] at ih
    rw [recorded, foldl_append, foldl_cons, foldl_nil, ← ih]
    unfold addSdkInputLogLine
    cases classifySdkInputLogLine line <;> rfl

/-- A line that is not cut inside of a character. -/
def Whole (t : Bytes) : Prop := ∀ b ∈ t[kMaxSdkLogLineBytes]?, b.IsUTF8FirstByte

theorem valid_cut_iff {line : Bytes} (h : Valid line) : Valid (cut line) ↔ Whole line := by
  rw [cut_eq]
  exact Utf8.valid_take_iff h _

theorem mem_of_retained {lines : List Bytes} (h : t ∈ retained kind lines) : t ∈ lines :=
  mem_of_mem_filter (mem_of_mem_drop h)

/-- The logs are valid exactly if none of their lines was cut inside of a character. -/
theorem logs_valid_iff {wheel : WheelState} {lines : List Bytes}
    (hnew : ∀ kind, logOf wheel kind = []) (hlines : ∀ t ∈ lines, Valid t) :
    (∀ kind, ∀ s ∈ logOf (recorded wheel lines) kind, Valid s) ↔
      ∀ kind, kind ≠ .kNone → ∀ t ∈ retained kind lines, Whole t := by
  constructor
  · intro h kind hkind t ht
    refine (valid_cut_iff (hlines t (mem_of_retained ht))).mp (h kind _ ?_)
    rw [logOf_recorded hkind (hnew kind)]
    exact mem_map_of_mem ht
  · intro h kind s hs
    by_cases hkind : kind = .kNone
    · rw [hkind] at hs
      exact absurd hs not_mem_nil
    · rw [logOf_recorded hkind (hnew kind)] at hs
      obtain ⟨t, ht, rfl⟩ := mem_map.mp hs
      exact (valid_cut_iff (hlines t (mem_of_retained ht))).mpr (h kind hkind t ht)

/-! ### The documents -/

/-- A valid text that reads as one document. -/
def WellFormed (t : Bytes) (v : Json) : Prop := Valid t ∧ ∀ w, Reads t w ↔ w = v

/-- A line, or its beginning if it is long. -/
def IsCut (line s : Bytes) : Prop :=
  s <+: line ∧ s.length ≤ kMaxSdkLogLineBytes ∧ (line.length ≤ kMaxSdkLogLineBytes → s = line) ∧
    Valid s

/-- Both objects are well-formed and hold what they were built from; the logs hold the kept lines,
cut where they are long. -/
def Documents (wheel : WheelState) (lines : List Bytes) : Prop :=
  WellFormed (buildTriggerJson trigger) (triggerTree trigger) ∧
    WellFormed (buildWheelStateJson (recorded wheel lines)) (wheelTree (recorded wheel lines)) ∧
    ∀ kind, kind ≠ .kNone → Forall₂ IsCut (retained kind lines) (logOf (recorded wheel lines) kind)

/-- What the documents are built from: valid texts, and a wheel without lines of the log. -/
structure Inputs (trigger : SnapshotTrigger) (wheel : WheelState) (lines : List Bytes) : Prop where
  category : Valid trigger.category
  source : Valid trigger.source
  devices : ∀ d ∈ wheel.devices, Valid d.name ∧ Valid d.guid
  logs : ∀ kind, logOf wheel kind = []
  lines : ∀ t ∈ lines, Valid t

theorem wellFormed_iff {v : Json} (h : Reads t v) : WellFormed t v ↔ Valid t := by
  refine ⟨And.left, fun hvalid => ⟨hvalid, fun w => ⟨fun hw => ?_, ?_⟩⟩⟩
  · exact JsonBytes.reads_unique hw h
  · rintro rfl
    exact h

theorem isCut_cut (h : Valid (cut t)) : IsCut t (cut t) := by
  refine ⟨?_, ?_, ?_, h⟩
  · rw [cut_eq]
    exact take_prefix _ _
  · rw [cut_eq]
    exact length_take_le _ _
  · intro hshort
    rw [cut, if_neg (by omega)]

/-- **The documents of a snapshot** hold what they were built from, exactly if no kept line is cut
inside of a character. -/
theorem documents_iff {trigger : SnapshotTrigger} {wheel : WheelState} {lines : List Bytes}
    (h : Inputs trigger wheel lines) : Documents trigger wheel lines ↔
      ∀ kind, kind ≠ .kNone → ∀ t ∈ retained kind lines, Whole t := by
  have hwheel := wheel_valid_iff (recorded wheel lines)
  rw [recorded_devices, and_iff_right h.devices, logs_valid_iff h.logs h.lines] at hwheel
  unfold Documents
  -- the objects always read as they should, so that only validity is in question
  rw [wellFormed_iff (trigger_reads trigger), wellFormed_iff (wheel_reads _), hwheel,
    and_iff_right (trigger_valid h.category h.source), and_iff_left_iff_imp]
  intro hwhole kind hkind
  rw [logOf_recorded hkind (h.logs kind), forall₂_map_right_iff, forall₂_same]
  intro t ht
  exact isCut_cut ((valid_cut_iff (h.lines t (mem_of_retained ht))).mpr (hwhole kind hkind t ht))

theorem valid_row (n : Nat) : Valid (replicate n 120) := by
  refine Utf8.valid_of_ascii fun c hc => ?_
  rw [eq_of_mem_replicate hc]
  decide

/-- A line of 611 bytes. -/
def hotplugLine : Bytes := literal "SDL_HOTPLUG" ++ replicate 600 120

set_option maxRecDepth 20000 in
/-- A wheel whose name has to be escaped, a line that is kept whole and one that is cut. -/
theorem documents_connected :
    Documents { category := literal "wheel", source := literal "F9 \"wheel\"" }
      { devices := [{ name := literal "G\\29", guid := literal "0300", is_wheel := true }] }
      [literal "SDL_WHEEL_CONNECTED slot=0", hotplugLine] := by
  refine (documents_iff ⟨valid_literal _, valid_literal _, ?_, ?_, ?_⟩).mpr fun kind _ t ht => ?_
  · intro d hd
    rw [mem_singleton.mp hd]
    exact ⟨valid_literal _, valid_literal _⟩
  · exact fun kind => by cases kind <;> rfl
  · exact forall_mem_cons.mpr ⟨valid_literal _, forall_mem_singleton.mpr
      ((valid_literal _).append (valid_row 600))⟩
  · rcases mem_pair.mp (mem_of_retained ht) with rfl | rfl
    · intro b hb
      cases hb
    · intro b hb
      have hbyte := mem_of_getElem? hb
      rcases mem_append.mp hbyte with htext | hrow
      · have hfirst : ∀ c ∈ literal "SDL_HOTPLUG", c.IsUTF8FirstByte := by decide
        exact hfirst b htext
      · rw [eq_of_mem_replicate hrow]
        decide

/-- A line of 511 bytes and one more character, in two bytes. -/
def longLine : Bytes := literal "SDL_HOTPLUG" ++ (replicate 500 120 ++ [195, 169])

theorem longLine_valid : Valid longLine :=
  (valid_literal _).append ((valid_row 500).append ⟨[Char.ofNat 233], by decide⟩)

theorem longLine_not_whole : ¬ Whole longLine := by
  intro h
  have hlength : (literal "SDL_HOTPLUG").length = 11 := by decide
  -- the cut keeps the first byte of the last character, and drops the second
  have hbyte : longLine[kMaxSdkLogLineBytes]? = some 169 := by
    rw [longLine, getElem?_append_right (by rw [hlength]; decide), hlength,
      getElem?_append_right (by rw [length_replicate]; decide), length_replicate]
    rfl
  exact absurd (h 169 hbyte) (by decide)

theorem longLine_kind : classifySdkInputLogLine longLine ≠ .kNone := by
  have hfound : finds longLine "SDL_HOTPLUG" = true := by
    rw [finds, longLine, TextSearch.find_of_start (prefix_append _ _)]
    rfl
  unfold classifySdkInputLogLine
  rw [hfound]
  split_ifs <;> simp at *

/-- The first snapshot, of a trigger and one line. -/
theorem inputs_line (h : Valid t) : Inputs {} {} [t] where
  category := valid_literal _
  source := Utf8.valid_nil
  devices := fun d hd => absurd hd not_mem_nil
  logs := fun kind => by cases kind <;> rfl
  lines := fun s hs => mem_singleton.mp hs ▸ h

/-- A line that is cut inside of its last character. -/
theorem character_cut : Inputs {} {} [longLine] ∧ ¬ Documents {} {} [longLine] := by
  have hinputs := inputs_line longLine_valid
  refine ⟨hinputs, fun h => longLine_not_whole ?_⟩
  have hlogs := ((wheel_valid_iff _).mp h.2.1.1).2
  refine (logs_valid_iff hinputs.logs hinputs.lines).mp hlogs _ longLine_kind longLine ?_
  rw [retained, filter_singleton, decide_eq_true rfl]
  exact mem_singleton_self _

end Mcla.WheelJson

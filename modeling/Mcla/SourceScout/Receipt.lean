import Mcla.Library.JsonTree
import Mcla.Library.KeyedStream
import Mcla.Library.NestedRecorder

/-! # The receipt of a source scout

`_metadata` of `mcla_game_source_scout_decode`: the whole receipt passes before any image is read.
It goes over the slots in order and keeps the last collected source, with the publication bounds
of that source.  A receipt is read as a tree.
-/
namespace Mcla.SourceScout
open NestedRecorder (need need_ok bind_ok pure_ok)
open KeyedStream (Follows)
open List

def HZ : Nat := 10
def DELAY_SECONDS : Nat := 40
def WIDTH : Nat := 1280
def HEIGHT : Nat := 720
def MAX_QPC : Nat := 2 ^ 63 - 1
def BMP_STRIDE : Nat := WIDTH * 3
def BMP_BYTES : Nat := 54 + BMP_STRIDE * HEIGHT
def BUFFER_LIMIT : Nat := 536870912
def LEGACY_PROFILE : String := "legacy91_10hz"
def SHORT_PROFILE : String := "short31_10hz"

/-- The schema selects the whole contract. -/
structure Profile where
  (name schema : String)
  (slot_count raw_limit : Nat)

def PROFILES : List Profile :=
  [⟨LEGACY_PROFILE, "mcla-guest-source-scout-v1", 91, 335462400⟩,
    ⟨SHORT_PROFILE, "mcla-guest-source-scout-short31-v1", 31, 114278400⟩]

def CAPTURE_KEYS : List String := ["presenter_epoch", "acquired_sequence", "qpc_frequency",
  "refresh_cpu_begin_qpc", "refresh_cpu_end_qpc", "acquire_before_qpc", "acquire_after_qpc",
  "copy_submit_before_qpc", "copy_completion_observed_qpc", "pixels_ready_qpc", "width", "height",
  "stride"]

def SLOT_KEYS : List String := ["slot", "due_qpc", "observed_qpc", "status", "reason",
  "call_before_qpc", "call_after_qpc", "capture", "image_file", "image_state",
  "image_bytes_written"]

def FALSE_FLAGS : List String := ["native_admitted", "display_proven", "simulation_proven",
  "fps_proven", "scene_admitted", "cycle_timing_proven", "legacy_cycle_transfer_eligible",
  "input_injected", "desktop_capture", "source_binding_independently_reviewed"]

def TOP_KEYS : List String := FALSE_FLAGS ++ ["schema", "token", "status", "reason",
  "readiness_sequence_not_pixel_identity", "readiness_wait_ms", "readiness_observed_qpc",
  "scout_delay_seconds", "diagnostic_buffer_limit_bytes", "maximum_raw_capture_bytes", "clock",
  "pixel_format", "file_format", "interpretation", "sequence"]

def SEQUENCE_KEYS : List String := ["begin_qpc", "qpc_frequency", "scheduled_slots",
  "schedule_hz", "width", "height", "slots"]

def FAILED_REASONS : List String :=
  ["API_FAILED", "API_UNSUPPORTED", "METADATA_INVALID", "STOPPED_AFTER_CAPTURE"]

def COMPLETE : String := "SOURCE_SCOUT_CENSUS_REVIEW_PENDING"
def INCOMPLETE : String := "SOURCE_SCOUT_CENSUS_INCOMPLETE_REVIEW_PENDING"
def REASON : String := "FIXED_DELAY_AND_SLOTS_NO_DISPLAY_SIMULATION_OR_TIMING_CLAIM"
def INTERPRETATION : String := "CPU_REFRESH_AND_READBACK_WITNESSES_NOT_PIXEL_AGE_OR_SIMULATION_TIME"

/-! ### Values -/

def asText : JsonTree → Option String
  | .str value => some value
  | _ => none

def asNumber : JsonTree → Option Int
  | .num value => some value
  | _ => none

def asItems : JsonTree → Option (List JsonTree)
  | .arr items => some items
  | _ => none

def isNull : JsonTree → Bool
  | .null => true
  | _ => false

def isFalse : JsonTree → Bool
  | .bool value => !value
  | _ => false

/-- An integer that has been checked. -/
def number (value : JsonTree) : Nat := ((asNumber value).getD 0).toNat

def exact (value : JsonTree) (keys : List String) (label : String) : Except String Unit :=
  need (value.hasKeys keys = true) label

def uint (low high : Nat) (value : JsonTree) : Except String Nat := do
  need (∃ n ∈ asNumber value, (low : Int) ≤ n ∧ n ≤ high) "bounded exact integer"
  return number value

/-- The first that is known. -/
def known {α : Type} (found : Option α) (reason : String) : Except String α :=
  found.elim (.error reason) .ok

@[simp] theorem known_ok {α : Type} {found : Option α} {reason : String} {a : α} :
    known found reason = .ok a ↔ found = some a := by
  cases found with
  | none => simp [known]
  | some b => simp [known]

/-! ### Slots -/

/-- What became of a slot. -/
inductive Status where
  | collected | failed | missedDeadline | notAttempted
deriving DecidableEq

namespace Status

def text : Status → String
  | collected => "COLLECTED"
  | failed => "FAILED"
  | missedDeadline => "MISSED_DEADLINE"
  | notAttempted => "NOT_ATTEMPTED"

def all : List Status := [collected, failed, missedDeadline, notAttempted]

end Status

/-- The capture of a collected slot. -/
structure Capture where
  (presenter_epoch acquired_sequence qpc_frequency refresh_cpu_begin_qpc refresh_cpu_end_qpc
    acquire_before_qpc acquire_after_qpc copy_submit_before_qpc copy_completion_observed_qpc
    pixels_ready_qpc width height stride : Nat)

/-- The capture of a slot. -/
def captureOf (value : JsonTree) : Capture where
  presenter_epoch := number (value.field "presenter_epoch")
  acquired_sequence := number (value.field "acquired_sequence")
  qpc_frequency := number (value.field "qpc_frequency")
  refresh_cpu_begin_qpc := number (value.field "refresh_cpu_begin_qpc")
  refresh_cpu_end_qpc := number (value.field "refresh_cpu_end_qpc")
  acquire_before_qpc := number (value.field "acquire_before_qpc")
  acquire_after_qpc := number (value.field "acquire_after_qpc")
  copy_submit_before_qpc := number (value.field "copy_submit_before_qpc")
  copy_completion_observed_qpc := number (value.field "copy_completion_observed_qpc")
  pixels_ready_qpc := number (value.field "pixels_ready_qpc")
  width := number (value.field "width")
  height := number (value.field "height")
  stride := number (value.field "stride")

namespace Capture

/-- The source identity. -/
def source (c : Capture) : Nat × Nat := (c.presenter_epoch, c.acquired_sequence)

/-- The publication bounds. -/
def bounds (c : Capture) : Nat × Nat := (c.refresh_cpu_begin_qpc, c.refresh_cpu_end_qpc)

end Capture

/-- What became of a slot, with the times of its call and its capture. -/
inductive Outcome where
  | notAttempted
  | missedDeadline
  | failed (call_before_qpc call_after_qpc : Nat)
  | collected (call_before_qpc call_after_qpc : Nat) (capture : Capture)

namespace Outcome

def status : Outcome → Status
  | notAttempted => .notAttempted
  | missedDeadline => .missedDeadline
  | failed .. => .failed
  | collected .. => .collected

def capture : Outcome → Option Capture
  | collected _ _ capture => some capture
  | _ => none

/-- The times before and after the call. -/
def call : Outcome → Option (Nat × Nat)
  | failed before after => some (before, after)
  | collected before after _ => some (before, after)
  | _ => none

end Outcome

/-- A frozen row. -/
structure Row where
  (slot due_qpc observed_qpc : Nat)
  reason : JsonTree
  outcome : Outcome

/-- `slot-{index:02d}.bmp` -/
def slotName (index : Nat) : String :=
  "slot-" ++ (if index < 10 then "0" else "") ++ toString index ++ ".bmp"

/-! ### The walk over the slots -/

/-- What the slots are checked against. -/
structure Plan where
  (begin_qpc frequency readiness : Nat)

/-- When a slot is due. -/
def Plan.due (plan : Plan) (index : Nat) : Nat := plan.begin_qpc + index * plan.frequency / HZ

/-- What the loop keeps.  A source stands with its publication bounds. -/
structure Walk where
  previous_observed : Nat
  terminal : Option String := none
  epoch : Option Nat := none
  previous_source : Option (Nat × Nat × Nat) := none
  frozen : List Row := []
  names : List String := []
  collected : Nat := 0

/-- The terminal reason from this slot on, but for a failed call. -/
def suffix (terminal : Option String) (status : Status) (reason : Option String) (isOpen : Prop)
    [Decidable isOpen] : Except String (Option String) :=
  match terminal with
  | some stopped => do
    need (status = .notAttempted ∧ reason = some stopped) "terminal suffix cannot retry"
    return terminal
  | none =>
    if status = .notAttempted then do
      need (reason = some "STOPPED" ∨ reason = some "BUFFER_BUDGET_EXHAUSTED")
        "known initial unattempted reason"
      if reason = some "BUFFER_BUDGET_EXHAUSTED" then do
        need isOpen "buffer budget guard requires still-open slot"
        return some "PREVIOUS_TERMINAL_FAILURE"
      else return some "PREVIOUS_STOP"
    else return none

/-- The capture of a collected slot. -/
def readCapture (frequency before after : Nat) (value : JsonTree) : Except String Capture := do
  exact value CAPTURE_KEYS "exact paired metadata schema"
  CAPTURE_KEYS.forM fun key => do
    discard (uint 1 (if key = "presenter_epoch" ∨ key = "acquired_sequence" then 2 ^ 64 - 1
      else MAX_QPC) (value.field key))
  let c := captureOf value
  need (c.qpc_frequency = frequency ∧ (c.width, c.height, c.stride) = (WIDTH, HEIGHT, WIDTH * 4))
    "fixed paired QPF/shape/stride"
  need (c.refresh_cpu_begin_qpc ≤ c.refresh_cpu_end_qpc ∧
      c.refresh_cpu_end_qpc ≤ c.acquire_after_qpc ∧ before ≤ c.acquire_before_qpc ∧
      c.acquire_before_qpc ≤ c.acquire_after_qpc ∧
      c.acquire_after_qpc ≤ c.copy_submit_before_qpc ∧
      c.copy_submit_before_qpc ≤ c.copy_completion_observed_qpc ∧
      c.copy_completion_observed_qpc ≤ c.pixels_ready_qpc ∧ c.pixels_ready_qpc ≤ after)
    "paired provenance enclosed by external call"
  return c

/-- The source of a capture against the source before it. -/
def checkSource (readiness : Nat) (w : Walk) (c : Capture) : Except String Unit := do
  need (∀ epoch ∈ w.epoch, c.presenter_epoch = epoch) "presenter epoch changed"
  need (readiness ≤ c.acquired_sequence ∧
      ∀ previous ∈ w.previous_source, previous.1 ≤ c.acquired_sequence)
    "source sequence regression or preceding readiness"
  need (∀ previous ∈ w.previous_source, c.acquired_sequence = previous.1 →
      (c.refresh_cpu_begin_qpc, c.refresh_cpu_end_qpc) = previous.2)
    "duplicate source changed publication"
  need (∀ previous ∈ w.previous_source, c.acquired_sequence ≠ previous.1 →
      previous.2.2 ≤ c.refresh_cpu_begin_qpc)
    "new source publication reordered"

/-- A slot that was not called. -/
def uncalled (status : Status) (reason : Option String) (slot : JsonTree)
    (expired : Prop) [Decidable expired] : Except String Unit := do
  need (isNull (slot.field "call_before_qpc") = true ∧ isNull (slot.field "call_after_qpc") = true ∧
    isNull (slot.field "capture") = true) "unattempted slot contains stale capture"
  need (status = .missedDeadline → reason = some "SLOT_WINDOW_ELAPSED" ∧ expired)
    "miss requires expired slot"

/-- The times of a call. -/
def readCall (due next_due previous_observed observed : Nat) (slot : JsonTree) :
    Except String (Nat × Nat) := do
  let before ← uint 1 MAX_QPC (slot.field "call_before_qpc")
  let after ← uint 1 MAX_QPC (slot.field "call_after_qpc")
  need (due ≤ before ∧ before < next_due ∧ previous_observed ≤ before ∧ before ≤ after ∧
    after = observed) "external call bracket and schedule"
  return (before, after)

/-- The image of a slot with no capture. -/
def absent (slot : JsonTree) (image_bytes : Nat) : Except String Unit :=
  need (asText (slot.field "image_state") = some "absent" ∧ image_bytes = 0)
    "uncollected image must be absent"

/-- One slot is read. -/
def readSlot (plan : Plan) (w : Walk) (index : Nat) (slot : JsonTree) : Except String Walk := do
  exact slot SLOT_KEYS "exact native slot schema"
  need (asNumber (slot.field "slot") = some (index : Int)) "ordered unique slots"
  let due := plan.due index
  let next_due := plan.due (index + 1)
  need (asNumber (slot.field "due_qpc") = some (due : Int)) "exact absolute slot schedule"
  let observed ← uint 1 MAX_QPC (slot.field "observed_qpc")
  need (w.previous_observed ≤ observed) "observation journal regression"
  let status ← known (Status.all.find? fun status =>
    asText (slot.field "status") = some status.text) "known slot status"
  let reason := asText (slot.field "reason")
  let terminal ← suffix w.terminal status reason (due ≤ observed ∧ observed < next_due)
  let name := slotName index
  need (asText (slot.field "image_file") = some name) "fixed slot basename"
  let image_bytes ← uint 0 BMP_BYTES (slot.field "image_bytes_written")
  let row := Row.mk index due observed (slot.field "reason")
  let next := { w with previous_observed := observed, terminal := terminal }
  match status with
  | .notAttempted => do
    uncalled status reason slot (next_due ≤ observed)
    absent slot image_bytes
    return { next with frozen := w.frozen ++ [row .notAttempted] }
  | .missedDeadline => do
    uncalled status reason slot (next_due ≤ observed)
    absent slot image_bytes
    return { next with frozen := w.frozen ++ [row .missedDeadline] }
  | .failed => do
    let (before, after) ← readCall due next_due w.previous_observed observed slot
    need (∃ text ∈ FAILED_REASONS, reason = some text) "known failed-call reason"
    need (isNull (slot.field "capture") = true) "failed call retains stale metadata"
    absent slot image_bytes
    return { next with frozen := w.frozen ++ [row (.failed before after)]
                       terminal := some "PREVIOUS_TERMINAL_FAILURE" }
  | .collected => do
    let (before, after) ← readCall due next_due w.previous_observed observed slot
    need (isNull (slot.field "reason") = true) "collected call has failure reason"
    let c ← readCapture plan.frequency before after (slot.field "capture")
    checkSource plan.readiness w c
    need (asText (slot.field "image_state") = some "complete" ∧ image_bytes = BMP_BYTES)
      "collected image must be complete"
    return { next with frozen := w.frozen ++ [row (.collected before after c)]
                       names := w.names ++ [name]
                       collected := w.collected + 1
                       epoch := some c.presenter_epoch
                       previous_source :=
                         some (c.acquired_sequence, c.refresh_cpu_begin_qpc, c.refresh_cpu_end_qpc) }

/-! ### The whole receipt -/

/-- What a receipt that passes gives. -/
structure Schedule where
  profile : String
  (scheduled_slots begin_qpc schedule_end_qpc journal_begin_qpc qpc_frequency
    readiness_observed_qpc : Nat)
  slots : List Row
  image_names : List String

def isToken (token : String) : Bool :=
  token.length = 32 ∧ token.toList.all fun c => c.isDigit || ('a' ≤ c && c ≤ 'f')

/-- The fields of a receipt but its sequence: the readiness sequence and the anchor. -/
def readTop (receipt : JsonTree) (token : String) (profile : Profile) :
    Except String (Nat × Nat) := do
  need (asText (receipt.field "token") = some token) "native schema/token binding"
  need (asText (receipt.field "status") = some COMPLETE ∨
    asText (receipt.field "status") = some INCOMPLETE) "native failed or unknown terminal status"
  need (asText (receipt.field "reason") = some REASON) "native reason"
  need (∀ key ∈ FALSE_FLAGS, isFalse (receipt.field key) = true)
    "unsupported native admission claim"
  need (asText (receipt.field "clock") = some "win32-query-performance-counter" ∧
      asText (receipt.field "pixel_format") = some "R8G8B8X8" ∧
      asText (receipt.field "file_format") = some "24bit-BGR-bottom-up-BMP" ∧
      asText (receipt.field "interpretation") = some INTERPRETATION)
    "clock/pixel/file interpretation"
  need (asNumber (receipt.field "scout_delay_seconds") = some (DELAY_SECONDS : Int) ∧
      asNumber (receipt.field "diagnostic_buffer_limit_bytes") = some (BUFFER_LIMIT : Int) ∧
      asNumber (receipt.field "maximum_raw_capture_bytes") = some (profile.raw_limit : Int))
    "fixed scout delay/buffer contract"
  let readiness ← uint 60 (2 ^ 64 - 1) (receipt.field "readiness_sequence_not_pixel_identity")
  discard (uint 0 89999 (receipt.field "readiness_wait_ms"))
  let anchor ← uint 1 MAX_QPC (receipt.field "readiness_observed_qpc")
  return (readiness, anchor)

/-- The fields of a sequence but its slots: the plan and the end. -/
def readPlan (sequence : JsonTree) (readiness anchor slot_count : Nat) :
    Except String (Plan × Nat) := do
  exact sequence SEQUENCE_KEYS "exact sequence schema"
  let begin_qpc ← uint 1 MAX_QPC (sequence.field "begin_qpc")
  let frequency ← uint 10 (10 ^ 10) (sequence.field "qpc_frequency")
  let expected ← uint 1 MAX_QPC (.num (anchor + DELAY_SECONDS * frequency : Nat))
  need (begin_qpc = expected) "exact fixed delay from readiness observation"
  let finish ← uint 1 MAX_QPC (.num (begin_qpc + slot_count * frequency / HZ : Nat))
  need (asNumber (sequence.field "scheduled_slots") = some (slot_count : Int) ∧
    asNumber (sequence.field "schedule_hz") = some (HZ : Int)) "profile-fixed absolute100ms slots"
  need (asNumber (sequence.field "width") = some (WIDTH : Int) ∧
    asNumber (sequence.field "height") = some (HEIGHT : Int)) "fixed1280x720 source"
  return (⟨begin_qpc, frequency, readiness⟩, finish)

/-- All slots are read. -/
def readSlots (plan : Plan) (w : Walk) (slots : List JsonTree) (index : Nat) : Except String Walk :=
  match slots with
  | [] => .ok w
  | slot :: rest => do
    let w ← readSlot plan w index slot
    readSlots plan w rest (index + 1)

/-- The slots of a receipt. -/
def slotsOf (receipt : JsonTree) : List JsonTree :=
  (asItems ((receipt.field "sequence").field "slots")).getD []

/-- `resolve_source_schedule`, with `_metadata` -/
def resolve (receipt : JsonTree) (token : String) (expected_profile : Option String) :
    Except String Schedule := do
  need (isToken token = true) "expected token shape"
  exact receipt TOP_KEYS "exact native receipt schema"
  need (∀ name ∈ expected_profile, name = LEGACY_PROFILE ∨ name = SHORT_PROFILE)
    "known expected source profile"
  let profile ← known (PROFILES.find? fun item =>
    asText (receipt.field "schema") = some item.schema) "known finite native schema"
  need (∀ name ∈ expected_profile, profile.name = name) "expected source profile mismatch"
  let (readiness, anchor) ← readTop receipt token profile
  let (plan, finish) ← readPlan (receipt.field "sequence") readiness anchor profile.slot_count
  need ((asItems ((receipt.field "sequence").field "slots")).isSome = true ∧
    (slotsOf receipt).length = profile.slot_count) "exact profile native slots"
  let walk ← readSlots plan { previous_observed := anchor } (slotsOf receipt) 0
  need (asText (receipt.field "status") =
      some (if walk.collected = profile.slot_count then COMPLETE else INCOMPLETE))
    "terminal status versus slot coverage"
  let journal ← uint 1 MAX_QPC (.num (plan.begin_qpc - plan.frequency : Int))
  return { profile := profile.name, scheduled_slots := walk.frozen.length
           begin_qpc := plan.begin_qpc, schedule_end_qpc := finish
           journal_begin_qpc := journal, qpc_frequency := plan.frequency
           readiness_observed_qpc := anchor, slots := walk.frozen, image_names := walk.names }

/-! ### What a receipt that passes says -/

/-- The capture of a slot that says it was collected. -/
def captureIn (slot : JsonTree) : Option Capture :=
  if asText (slot.field "status") = some Status.collected.text then
    some (captureOf (slot.field "capture"))
  else none

/-- The collected slots among these, each with its index. -/
def collectedFrom : Nat → List JsonTree → List (Nat × Capture)
  | _, [] => []
  | index, slot :: rest =>
    ((captureIn slot).map (index, ·)).toList ++ collectedFrom (index + 1) rest

/-- The collected slots of a receipt. -/
def collectedSlots (receipt : JsonTree) : List (Nat × Capture) := collectedFrom 0 (slotsOf receipt)

/-- A frozen row against its slot. -/
structure Frozen (slot : JsonTree) (index : Nat) (row : Row) : Prop where
  slot_eq : row.slot = index
  number_eq : number (slot.field "slot") = index
  capture_eq : row.outcome.capture = captureIn slot

/-- A frozen row that was collected. -/
def Row.taken (row : Row) : Option (Nat × Capture) := row.outcome.capture.map (row.slot, ·)

variable {slot : JsonTree}

theorem Frozen.taken_eq {index : Nat} {row : Row} (h : Frozen slot index row) :
    row.taken = (captureIn slot).map (index, ·) := by
  rw [Row.taken, h.slot_eq, h.capture_eq]

/-- What the walk knows of the captures before it is the last of them. -/
structure Keeps (w : Walk) (last : Option Capture) : Prop where
  epoch_eq : w.epoch = last.map (·.presenter_epoch)
  source_eq : w.previous_source = last.map fun c => (c.acquired_sequence, c.bounds)

theorem status_text {status : Status}
    (h : (Status.all.find? fun status => asText (slot.field "status") = some status.text) =
      some status) : asText (slot.field "status") = some status.text := by
  simpa using find?_some h

theorem text_injective {a b : Status} (h : a.text = b.text) : a = b := by
  revert h
  cases a <;> cases b <;> decide

theorem readCapture_ok {frequency before after : Nat} {value : JsonTree} {c : Capture}
    (h : readCapture frequency before after value = .ok c) : c = captureOf value := by
  simp only [readCapture, bind_ok, pure_ok] at h
  obtain ⟨_, _, _, _, _, _, _, _, rfl⟩ := h
  rfl

/-- One capture after another: of the same epoch, with a source that has not fallen, and with the
same publication bounds if the source is the same. -/
def Succeeds (a b : Capture) : Prop :=
  a.presenter_epoch = b.presenter_epoch ∧ Follows Capture.source Capture.bounds a b

theorem checkSource_succeeds {readiness : Nat} {w : Walk} {c : Capture} {u : Unit}
    (h : checkSource readiness w c = .ok u) {last : Option Capture} (hw : Keeps w last) :
    ∀ before ∈ last, Succeeds before c := by
  simp only [checkSource, bind_ok, need_ok, hw.epoch_eq, hw.source_eq] at h
  obtain ⟨_, hepoch, _, ⟨-, hle⟩, _, hsame, -⟩ := h
  rintro before hbefore
  rw [Option.mem_def] at hbefore
  subst hbefore
  simp only [Option.map_some, Option.mem_def, Option.some.injEq, forall_eq'] at hepoch hle hsame
  refine ⟨hepoch.symm, Prod.mk_le_mk.mpr ⟨hepoch.ge, hle⟩, fun heq => ?_⟩
  exact (hsame (congrArg Prod.snd heq).symm).symm

/-- What one slot adds. -/
structure Step (w w' : Walk) (slot : JsonTree) (index : Nat) (row : Row) : Prop where
  frozen_eq : w'.frozen = w.frozen ++ [row]
  frozen : Frozen slot index row
  keeps : ∀ {last}, Keeps w last → Keeps w' (row.outcome.capture.or last)
  succeeds : ∀ {last}, Keeps w last → ∀ c ∈ row.outcome.capture, ∀ before ∈ last, Succeeds before c

theorem captureIn_of_ne {status : Status} (h : asText (slot.field "status") = some status.text)
    (hne : status ≠ .collected) : captureIn slot = none := by
  rw [captureIn, if_neg]
  intro heq
  exact hne (text_injective (Option.some.inj (h.symm.trans heq)))

theorem readSlot_step {plan : Plan} {w w' : Walk} {index : Nat}
    (h : readSlot plan w index slot = .ok w') : ∃ row, Step w w' slot index row := by
  simp only [readSlot, bind_ok, need_ok, known_ok] at h
  obtain ⟨_, -, _, hnumber, _, -, observed, -, _, -, status, hstatus, terminal, -, _, -,
    image_bytes, -, h⟩ := h
  have htext := status_text hstatus
  have hindex : number (slot.field "slot") = index := by rw [number, hnumber]; rfl
  cases status with
  | notAttempted =>
    simp only [bind_ok, pure_ok] at h
    obtain ⟨_, -, _, -, rfl⟩ := h
    exact ⟨_, rfl, ⟨rfl, hindex, (captureIn_of_ne htext (by decide)).symm⟩,
      fun hw => ⟨hw.epoch_eq, hw.source_eq⟩, fun _ _ hc => by cases hc⟩
  | missedDeadline =>
    simp only [bind_ok, pure_ok] at h
    obtain ⟨_, -, _, -, rfl⟩ := h
    exact ⟨_, rfl, ⟨rfl, hindex, (captureIn_of_ne htext (by decide)).symm⟩,
      fun hw => ⟨hw.epoch_eq, hw.source_eq⟩, fun _ _ hc => by cases hc⟩
  | failed =>
    simp only [bind_ok, pure_ok] at h
    obtain ⟨⟨before, after⟩, -, _, -, _, -, _, -, rfl⟩ := h
    exact ⟨_, rfl, ⟨rfl, hindex, (captureIn_of_ne htext (by decide)).symm⟩,
      fun hw => ⟨hw.epoch_eq, hw.source_eq⟩, fun _ _ hc => by cases hc⟩
  | collected =>
    simp only [bind_ok, pure_ok] at h
    obtain ⟨⟨before, after⟩, -, _, -, c, hcapture, _, hsource, _, -, rfl⟩ := h
    have hc := readCapture_ok hcapture
    refine ⟨_, rfl, ⟨rfl, hindex, ?_⟩, fun _ => ⟨rfl, rfl⟩, fun hw d hd => ?_⟩
    · rw [captureIn, if_pos htext, ← hc]
      rfl
    · cases hd
      exact checkSource_succeeds hsource hw

/-- What a run over the slots adds: a row for each slot, and sources that never fall. -/
theorem readSlots_run {plan : Plan} {w w' : Walk} {slots : List JsonTree} {index : Nat}
    (h : readSlots plan w slots index = .ok w') {last : Option (Nat × Capture)}
    (hw : Keeps w (last.map Prod.snd)) :
    ∃ rows, w'.frozen = w.frozen ++ rows ∧ rows.length = slots.length ∧
      rows.filterMap Row.taken = collectedFrom index slots ∧
      (∀ slot ∈ slots, ∀ c ∈ captureIn slot,
        (number (slot.field "slot"), c) ∈ collectedFrom index slots) ∧
      (last.toList ++ collectedFrom index slots).IsChain fun a b => Succeeds a.2 b.2 := by
  induction slots generalizing w index last with
  | nil =>
    rw [readSlots] at h
    cases h
    refine ⟨[], (append_nil _).symm, rfl, rfl, forall_mem_nil _, ?_⟩
    cases last <;> simp [collectedFrom]
  | cons slot rest ih =>
    rw [readSlots, bind_ok] at h
    obtain ⟨next, hslot, hrest⟩ := h
    obtain ⟨row, hstep⟩ := readSlot_step hslot
    have hnext : Keeps next ((row.taken.or last).map Prod.snd) := by
      have := hstep.keeps hw
      rw [Row.taken]
      cases hcapture : row.outcome.capture with
      | none => simpa [hcapture] using this
      | some c => simpa [hcapture] using this
    obtain ⟨rows, hfrozen, hlength, htaken, hnumbers, hchain⟩ := ih hrest hnext
    refine ⟨row :: rows, ?_, by rw [length_cons, length_cons, hlength], ?_, ?_, ?_⟩
    · rw [hfrozen, hstep.frozen_eq, append_assoc, singleton_append]
    · rw [collectedFrom, ← htaken, ← hstep.frozen.taken_eq, filterMap_cons]
      cases row.taken <;> rfl
    · intro other hother c hc
      rw [collectedFrom]
      rcases mem_cons.mp hother with rfl | hmem
      · rw [hstep.frozen.number_eq, Option.mem_def.mp hc]
        exact mem_append_left _ mem_cons_self
      · exact mem_append_right _ (hnumbers other hmem c hc)
    · rw [collectedFrom, ← hstep.frozen.taken_eq]
      cases hcapture : row.outcome.capture with
      | none =>
        rw [Row.taken, hcapture] at hchain ⊢
        exact hchain
      | some c =>
        rw [Row.taken, hcapture] at hchain ⊢
        cases last with
        | none => exact hchain
        | some before =>
          exact hchain.cons_of_ne_nil (cons_ne_nil _ _)
            (hstep.succeeds hw c hcapture before.2 rfl)

/-- The rows of a receipt that passes: one for each slot, and their sources never fall. -/
theorem resolve_rows {receipt : JsonTree} {token : String} {expected : Option String}
    {schedule : Schedule} (h : resolve receipt token expected = .ok schedule) :
    schedule.slots.length = (slotsOf receipt).length ∧
    schedule.slots.filterMap Row.taken = collectedSlots receipt ∧
    (∀ slot ∈ slotsOf receipt, ∀ c ∈ captureIn slot,
      (number (slot.field "slot"), c) ∈ collectedSlots receipt) ∧
    (collectedSlots receipt).IsChain fun a b => Succeeds a.2 b.2 := by
  simp only [resolve, bind_ok, pure_ok] at h
  obtain ⟨_, _, _, _, _, _, profile, _, _, _, ⟨readiness, anchor⟩, _, ⟨plan, finish⟩, _, _, _,
    walk, hwalk, _, _, journal, _, rfl⟩ := h
  have hstart : Keeps { previous_observed := anchor } ((none : Option (Nat × Capture)).map
    Prod.snd) := ⟨rfl, rfl⟩
  obtain ⟨rows, hfrozen, hlength, htaken, hnumbers, hchain⟩ := readSlots_run hwalk hstart
  rw [nil_append] at hfrozen
  dsimp only
  rw [hfrozen]
  exact ⟨hlength, htaken, hnumbers, hchain⟩

end Mcla.SourceScout

import Mcla.Library.TextLines
import Mcla.Library.TextSearch
import Mcla.Launcher.Capabilities
import Mcla.Launcher.SafeText

/-! # The exported diagnostic report

`mcla_diagnostic_export_policy`: of a session's receipt, a diagnostic package and the tail of its
log, a report keeps values of fixed types only.  What else the sources say, under keys that are not
read, in texts that are only classified and on log lines without a counter, does not come into it.

The parser and the writer of documents and the arithmetic of doubles are parameters.
-/
namespace Mcla.ExportReport
open Launcher (Bytes)
open TextSearch (find)
open List

abbrev ascii (s : String) : Bytes := Lease.ascii s

/-! ### Documents -/

/-- A document, with doubles of some type. -/
inductive Json (D : Type) where
  | null
  | boolean (value : Bool)
  | unsigned (value : Nat)
  | integer (value : Int)
  | floating (value : D)
  | string (value : Bytes)
  | array (items : List (Json D))
  | object (fields : List (Bytes × Json D))

/-- What the code uses of doubles. -/
structure Doubles (D : Type) where
  /-- `std::stod`; none where it throws. -/
  stod : Bytes → Option D
  /-- Between zero and a bound. -/
  between : D → Nat → Bool
  /-- `std::round(v * 10.0) / 10.0` -/
  round : D → D
  /-- `v / 1000.0` -/
  perThousand : D → D
  /-- `static_cast<uint64_t>(v)` -/
  toUnsigned : D → Nat

def kMaximumExportLogTailBytes : Nat := 1024 * 1024
def kMaximumPerformanceMinutes : Nat := 10
def kMaximumExportJsonBytes : Nat := 1024 * 1024

/-- What a callback of the parser is told. -/
inductive ParseEvent where
  | objectStart
  | objectEnd
  | key (name : Bytes)
  | arrayStart
  | arrayEnd
  | value (text : Option Bytes)
  deriving DecidableEq

section Documents
variable {D : Type}

mutual

/-- What the callback is told of a document, with the depth. -/
def Json.events (depth : Nat) : Json D → List (Nat × ParseEvent)
  | .array items =>
    (depth, .arrayStart) :: Json.itemEvents (depth + 1) items ++ [(depth, .arrayEnd)]
  | .object fields =>
    (depth, .objectStart) :: Json.fieldEvents (depth + 1) fields ++ [(depth, .objectEnd)]
  | .string value => [(depth, .value (some value))]
  | _ => [(depth, .value none)]

def Json.itemEvents (depth : Nat) : List (Json D) → List (Nat × ParseEvent)
  | [] => []
  | item :: items => item.events depth ++ Json.itemEvents depth items

def Json.fieldEvents (depth : Nat) : List (Bytes × Json D) → List (Nat × ParseEvent)
  | [] => []
  | (name, item) :: fields =>
    (depth, .key name) :: item.events depth ++ Json.fieldEvents depth fields

end

/-- The containers that are open, with the keys of an object. -/
abbrev Containers := List (Option (List Bytes))

/-- One call of the callback, after `events` others. -/
def parseEvent (containers : Containers) (events depth : Nat) (event : ParseEvent) :
    Option Containers :=
  if depth > 16 ∨ events + 1 > 8192 then none
  else match event with
    | .objectStart => if containers.length < 16 then some (some [] :: containers) else none
    | .arrayStart => if containers.length < 16 then some (none :: containers) else none
    | .objectEnd | .arrayEnd => containers.tail?
    | .key name =>
      match containers with
      | some names :: outer =>
        if name.length ≤ 128 ∧ !name.contains 0 ∧ !names.contains name then
          some (some (name :: names) :: outer)
        else none
      | _ => none
    | .value (some text) => if text.contains 0 then none else some containers
    | .value none => some containers

/-- The calls of the callback. -/
def parseEvents (containers : Containers) (events : Nat) : List (Nat × ParseEvent) → Bool
  | [] => true
  | (depth, event) :: rest =>
    match parseEvent containers events depth event with
    | none => false
    | some containers => parseEvents containers (events + 1) rest

/-- `ParseJson`, with the document that the parser reads from the bytes, if any. -/
def parseJson (parse : Bytes → Option (Json D)) (bytes : Bytes) : Option (Json D) :=
  if bytes = [] ∨ bytes.length > kMaximumExportJsonBytes ∨ bytes.contains 0 then none
  else do
    let document ← parse bytes
    match document with
    | .object _ => if parseEvents [] 0 (document.events 0) then some document else none
    | _ => none

/-- `find` -/
def Json.value? (name : Bytes) : Json D → Option (Json D)
  | .object fields => fields.lookup name
  | _ => none

/-- `Object` -/
def Json.objectAt (parent : Json D) (name : Bytes) : Option (Json D) :=
  match parent.value? name with
  | some (.object fields) => some (.object fields)
  | _ => none

/-- `Text` -/
def Json.textAt (parent : Json D) (name : Bytes) (maximum : Nat) : Option Bytes :=
  match parent.value? name with
  | some (.string text) => if Launcher.SafeText.safeUtf8 text maximum then some text else none
  | _ => none

/-- `Boolean` -/
def Json.booleanAt (parent : Json D) (name : Bytes) : Option Bool :=
  match parent.value? name with
  | some (.boolean value) => some value
  | _ => none

/-- `Unsigned` -/
def Json.unsignedAt (parent : Json D) (name : Bytes) (maximum : Nat) : Option Nat :=
  match parent.value? name with
  | some (.unsigned value) => if value ≤ maximum then some value else none
  | _ => none

end Documents

/-! ### Texts -/

/-- `Version` -/
def version (text : Bytes) : Bool :=
  let components := text.splitOn 46
  text ≠ [] ∧ text.length ≤ 23 ∧ components.length = 4 ∧
    components.all fun component => (Launcher.exportDecimal component).any (· ≤ 65535)

/-- `Vendor` -/
def vendor (gpu : Bytes) : Bytes :=
  if gpu = ascii "NVIDIA" ∨ ascii "NVIDIA " <+: gpu then ascii "NVIDIA"
  else if gpu = ascii "AMD" ∨ ascii "AMD " <+: gpu then ascii "AMD"
  else if gpu = ascii "Intel" ∨ ascii "Intel " <+: gpu ∨ ascii "Intel(R) " <+: gpu then
    ascii "Intel"
  else ascii "other"

/-- `Reason` -/
def reasonClass (reason : Bytes) : Bytes :=
  if [ascii "f10", ascii "unexpected-guest-exit", ascii "wheel-r2", ascii "wheel-l2",
      ascii "pad"].contains reason then reason
  else ascii "other"

/-! ### Receipts -/

/-- The fields of a line, in its order. -/
abbrev Fields := List (Bytes × Bytes)

/-- The first line of a receipt. -/
def receiptHeader : Bytes := ascii "MCLA-MANAGED-SESSION-V1\n"

/-- The keys that a receipt must have. -/
def requiredKeys : List Bytes := [ascii "profile", ascii "build", ascii "game", ascii "timing",
  ascii "gpu", ascii "adapter", ascii "scale", ascii "vsync", ascii "fullscreen"]

/-- The keys that it may have. -/
def optionalKeys : List Bytes := [ascii "render_target", ascii "guest_mode",
  ascii "capability_policy", ascii "capability_record"]

/-- The value of a key. -/
def Fields.get (fields : Fields) : Launcher.ReceiptFields := fun key => fields.lookup key

/-- The loop over the lines. -/
def receiptLines (fields : Fields) : List Bytes → Option Fields
  | [] => some fields
  | line :: lines =>
    match find [32] line with
    | none => none
    | some space =>
      let key := line.take space
      let value := line.drop (space + 1)
      if 0 < space ∧ space + 1 < line.length ∧ key.length ≤ 32 ∧ value.length ≤ 1024 ∧
          (fields.lookup key).isNone then receiptLines (fields ++ [(key, value)]) lines
      else none

/-- `Receipt` -/
def receipt (bytes : Bytes) : Option Fields :=
  if bytes.length ≤ Launcher.kMaximumExportReceiptBytes ∧ receiptHeader <+: bytes ∧
      bytes.getLast? = some 10 ∧ !bytes.contains 13 ∧ !bytes.contains 0 then do
    let fields ← receiptLines [] (TextLines.split (bytes.drop receiptHeader.length))
    let has := fun key => (fields.lookup key).isSome
    if requiredKeys.all has ∧
        (fields.all fun field => requiredKeys.contains field.1 || optionalKeys.contains field.1) ∧
        has (ascii "render_target") = has (ascii "guest_mode") ∧
        has (ascii "capability_policy") = has (ascii "capability_record") then some fields
    else none
  else none

/-! ### Counters of the log -/

section Performance
variable {D : Type} (F : Doubles D)

/-- Digits and one point. -/
def numberText : Bool → Bytes → Bytes
  | _, [] => []
  | dot, c :: rest =>
    if 48 ≤ c ∧ c ≤ 57 ∨ c = 46 ∧ !dot then c :: numberText (dot || c = 46) rest else []

/-- `NumberAfter` -/
def numberAfter (line key : Bytes) : Option D :=
  match find key line with
  | none => none
  | some start =>
    let text := numberText false (line.drop (start + key.length))
    if text = [] ∨ text.length > 15 then none else F.stod text

/-- `bounded` -/
def bounded (value : Option D) (max : Nat) : Option D := value.filter (F.between · max)

/-- What the log says of one minute. -/
structure Minute (D : Type) where
  (fps p50 p95 over50 gpu draws replay : Option D := none)
  pacing : Bool := false

/-- The minutes read so far, and the one under way. -/
structure Scan (D : Type) where
  minutes : List (Minute D) := []
  current : Minute D := {}
  opened : Bool := false

/-- `flush` -/
def Scan.flush (s : Scan D) : Scan D where
  minutes := if s.opened && s.current.pacing then s.minutes ++ [s.current] else s.minutes

/-- The minute ends, if it does. -/
def Scan.flushIf (s : Scan D) (c : Bool) : Scan D := if c then s.flush else s

/-- The marks of the lines of a minute. -/
def pacingMarker : Bytes := ascii "MCLA frame pacing/min: "
def drawsMarker : Bytes := ascii "MCLA draws per frame/min: "
def gpuMarker : Bytes := ascii "MCLA gpu busy/min: "
def replayMarker : Bytes := ascii "MCLA replay/min: "

/-- A needle stands in a line. -/
def has (needle line : Bytes) : Bool := (find needle line).isSome

/-- What a pacing line adds to the minute. -/
def Minute.withPacing (m : Minute D) (line : Bytes) : Minute D :=
  { m with
    pacing := true
    fps := match find (ascii "(") line with
      | none => m.fps
      | some paren => bounded F (numberAfter F (line.drop paren) (ascii "(")) 10000
    p50 := bounded F (numberAfter F line (ascii " p50 ")) (10 ^ 9)
    p95 := bounded F (numberAfter F line (ascii " p95 ")) (10 ^ 9)
    over50 := bounded F (numberAfter F line (ascii ">50ms ")) (10 ^ 7) }

/-- One line of the log. -/
def scanLine (s : Scan D) (line : Bytes) : Scan D :=
  if line.length > 2048 then s
  else if has pacingMarker line then
    let s := s.flushIf s.current.pacing
    { s with opened := true, current := s.current.withPacing F line }
  else if has drawsMarker line then
    let s := s.flushIf s.current.draws.isSome
    { s with opened := true, current := { s.current with
      draws := bounded F (numberAfter F line (ascii " p50 ")) (10 ^ 7) } }
  else if has gpuMarker line then
    let s := s.flushIf s.current.gpu.isSome
    { s with opened := true, current := { s.current with
      gpu := bounded F (numberAfter F line (ascii "submissions, ")) (10 ^ 6) } }
  else if has replayMarker line then
    let s := s.flushIf (s.current.replay.isSome || s.current.pacing)
    { s with opened := true, current := { s.current with
      replay := bounded F (numberAfter F line (ascii " replay ")) (10 ^ 12) } }
  else s

/-- The lines of a log; the last one need not end. -/
def logLines (log : Bytes) : List Bytes := TextLines.split (TextLines.closed log)

/-- The last minutes that the log counts. -/
def lastMinutes (log : Bytes) : List (Minute D) :=
  let minutes := ((logLines log).foldl (scanLine F) {}).flush.minutes
  minutes.drop (minutes.length - kMaximumPerformanceMinutes)

/-- The object of one minute. -/
def Minute.item (m : Minute D) : Json D :=
  let number := fun (name : String) (value : Option D) (write : D → Json D) =>
    (value.map fun v => (ascii name, write v)).toList
  .object (number "fps" m.fps (fun v => .floating (F.round v)) ++
    number "frame_p50_ms" m.p50 (fun v => .floating (F.round (F.perThousand v))) ++
    number "frame_p95_ms" m.p95 (fun v => .floating (F.round (F.perThousand v))) ++
    number "frames_over_50ms" m.over50 (fun v => .unsigned (F.toUnsigned v)) ++
    number "gpu_busy_ms_per_frame" m.gpu (fun v => .floating (F.round v)) ++
    number "draws_p50" m.draws (fun v => .unsigned (F.toUnsigned v)) ++
    number "cp_replay_ms_per_minute" m.replay (fun v => .floating (F.round (F.perThousand v))))

/-- `PerformanceSummary` -/
def performanceSummary (log : Bytes) : List (Json D) := (lastMinutes F log).map (Minute.item F)

end Performance

/-! ### The report -/

/-- What an export is made of. -/
structure Input where
  (profile_id session_receipt session_state manifest diagnostic_state capabilities log_tail : Bytes)

/-- What `projectMetadata` returns. -/
structure MetadataProjection where
  (report_json state_sha256 : Bytes)
  state_bytes : Nat

/-- The window of a session, as its log tells it. -/
structure Window where
  (logical_width logical_height physical_width physical_height : Nat)
  fullscreen : Bool

/-- The values that the report is made of. -/
structure Facts (D : Type) where
  (mcla_version reason build game timing : Bytes)
  scale : Nat
  fullscreen : Bool
  gpu : Bytes
  has_capabilities : Bool
  guest_refresh_hz : Nat
  target : Option Launcher.RenderTargetPlan
  frame_written : Bool
  performance : List (Json D)
  window : Option Window

section Projection
variable {D : Type} (F : Doubles D) (parse : Bytes → Option (Json D)) (dump : Json D → Bytes)

/-- Whether the state is that of a finished session. -/
def checkSession (state : Bytes) : Bool :=
  let complete := ascii "complete\nexit "
  state.length ≤ 64 ∧ complete <+: state ∧ state.getLast? = some 10 ∧
    (Launcher.exportDecimal (state.drop complete.length).dropLast).isSome

/-- The checks of the receipt that are not those of the capabilities. -/
def checkReceipt (fields : Fields) (profile_id : Bytes) : Bool :=
  fields.get (ascii "profile") = some profile_id ∧
    (fields.get (ascii "fullscreen") = some (ascii "0") ∨
      fields.get (ascii "fullscreen") = some (ascii "1")) ∧
    ((fields.get (ascii "gpu")).any fun gpu => Launcher.SafeText.safeUtf8 gpu 800) ∧
    (((fields.get (ascii "adapter")).bind Launcher.exportDecimal).isSome)

/-- The render target that the receipt names. -/
def Fields.target (fields : Fields) : Option Launcher.RenderTargetPlan := do
  let renderTarget ← fields.get (ascii "render_target")
  let guestMode ← fields.get (ascii "guest_mode")
  let scale ← (fields.get (ascii "scale")).bind Launcher.exportDecimal
  Launcher.receiptTarget renderTarget guestMode scale

/-- The artifacts that a manifest may name. -/
def artifactNames : List Bytes := [ascii "state.json", ascii "log-tail.txt",
  ascii "save-metadata.json", ascii "save-files-private.json", ascii "frame.bmp",
  ascii "process-private.dmp"]

/-- The loop over the artifacts, with the names that were seen and what the state is. -/
def readArtifacts (size : Nat) (names : List Bytes) (state : Bytes × Nat) :
    List (Json D) → Option (List Bytes × Bytes × Nat)
  | [] => some (names, state)
  | .object fields :: artifacts => do
    let artifact := Json.object fields
    let name ← artifact.textAt (ascii "name") 64
    if !artifactNames.contains name || names.contains name then none
    else if name = ascii "state.json" then do
      let hash ← artifact.textAt (ascii "sha256") 64
      let bytes ← artifact.unsignedAt (ascii "bytes") kMaximumExportJsonBytes
      if Launcher.validCapabilityIdentity hash ∧ 0 < bytes ∧ bytes = size then
        readArtifacts size (name :: names) (hash, bytes) artifacts
      else none
    else readArtifacts size (name :: names) state artifacts
  | _ => none

/-- The artifacts of a manifest: hash and size of the state. -/
def checkArtifacts (manifest : Json D) (size : Nat) (frame_written : Bool) : Option (Bytes × Nat) :=
  match manifest.value? (ascii "artifacts") with
  | some (.array artifacts) =>
    if 4 ≤ artifacts.length ∧ artifacts.length ≤ 6 then do
      let (names, state) ← readArtifacts size [] ([], 0) artifacts
      if (artifactNames.take 4).all names.contains ∧
          names.contains (ascii "frame.bmp") = frame_written ∧ state.1 ≠ [] then some state
      else none
    else none
  | _ => none

/-- What the manifest and the state say of the package: version, reason and frame. -/
def readPackage (manifest state : Json D) : Option (Bytes × Bytes × Bool) := do
  let schema ← manifest.textAt (ascii "schema") 64
  let kind ← manifest.textAt (ascii "kind") 32
  let platform ← manifest.textAt (ascii "platform") 32
  let stateSchema ← state.textAt (ascii "schema") 64
  let mcla_version ← manifest.textAt (ascii "mcla_version") 23
  let reason ← manifest.textAt (ascii "reason") 1024
  let stateReason ← state.textAt (ascii "reason") 1024
  let capture ← manifest.objectAt (ascii "capture")
  let frame ← capture.booleanAt (ascii "frame")
  if schema = ascii "mcla-diagnostic-package-v1" ∧ kind = ascii "live" ∧
      platform = ascii "windows" ∧ stateSchema = ascii "mcla-diagnostic-state-v1" ∧
      version mcla_version ∧ stateReason = reason then some (mcla_version, reason, frame)
  else none

/-- The window, if it is well formed. -/
def windowOf (window : Json D) : Option Window := do
  return {
    logical_width := ← window.unsignedAt (ascii "logical_width") 8192
    logical_height := ← window.unsignedAt (ascii "logical_height") 8192
    physical_width := ← window.unsignedAt (ascii "physical_width") 8192
    physical_height := ← window.unsignedAt (ascii "physical_height") 8192
    fullscreen := ← window.booleanAt (ascii "fullscreen") }

/-- The window of a state, if there is one. -/
def readWindow (state : Json D) : Option (Option Window) :=
  if (state.value? (ascii "window")).isSome then do
    let window ← state.objectAt (ascii "window")
    return some (← windowOf window)
  else some none

/-- The counters of a log that is short enough. -/
def readPerformance (log : Bytes) : Option (List (Json D)) :=
  if log = [] then some []
  else if log.length ≤ kMaximumExportLogTailBytes then some (performanceSummary F log)
  else none

/-- A string of the report. -/
def string (text : String) : Json D := .string (ascii text)

/-- A width and a height. -/
def extent (width height : Nat) : Json D :=
  .object [(ascii "width", .unsigned width), (ascii "height", .unsigned height)]

/-- The document of a report. -/
def report (facts : Facts D) : Json D :=
  let recorded : List (Bytes × Json D) := [
    (ascii "build_sha256", .string facts.build), (ascii "game_sha256", .string facts.game),
    (ascii "timing", .string facts.timing), (ascii "scale", .unsigned facts.scale),
    (ascii "vsync", .boolean true), (ascii "fullscreen", .boolean facts.fullscreen),
    (ascii "gpu_vendor", .string facts.gpu), (ascii "gpu_driver", string "unavailable"),
    (ascii "cpu", string "unavailable"),
    (ascii "capabilities",
      if facts.has_capabilities then string "recorded-v1" else string "unavailable-legacy")]
  let target := facts.target.toList.flatMap fun target =>
    [(ascii "render_target", extent target.width target.height),
      (ascii "guest_mode", extent target.guestWidth target.guestHeight)]
  let refresh := if facts.has_capabilities then
    [(ascii "guest_refresh_hz", .unsigned facts.guest_refresh_hz)] else []
  let counted := !facts.performance.isEmpty
  let disclaimers := [string "local-directory-provenance-not-authenticated",
    string "settings-receipt-reported-not-observed",
    string "no-measured-fps-or-world-certification", string "review-before-sharing"] ++
    if counted then [string "performance-counters-from-log-not-certified"] else []
  .object ([
    (ascii "schema", string "mcla-local-diagnostic-metadata-export-v1"),
    (ascii "version", .integer 1), (ascii "kind", string "live"),
    (ascii "mcla_version", .string facts.mcla_version), (ascii "reason", .string facts.reason),
    (ascii "session_recorded", .object (recorded ++ target ++ refresh)),
    (ascii "capture", .object [(ascii "frame_written", .boolean facts.frame_written)]),
    (ascii "disclaimers", .array disclaimers)] ++
    (if counted then [(ascii "performance_per_minute", .array facts.performance)] else []) ++
    facts.window.toList.map fun window => (ascii "diagnostic_window", .object [
      (ascii "logical_width", .unsigned window.logical_width),
      (ascii "logical_height", .unsigned window.logical_height),
      (ascii "physical_width", .unsigned window.physical_width),
      (ascii "physical_height", .unsigned window.physical_height),
      (ascii "fullscreen", .boolean window.fullscreen)]))

/-- The facts of an input that is admitted, with the hash and the size of its state. -/
def readFacts (input : Input) : Option (Facts D × Bytes × Nat) := do
  if !Launcher.validOpaqueId input.profile_id || !checkSession input.session_state then none
  else do
    let fields ← receipt input.session_receipt
    if !checkReceipt fields input.profile_id then none
    else do
      let hz ← Launcher.checkCapabilities fields.get input.capabilities
      let scale ← (fields.get (ascii "scale")).bind Launcher.exportDecimal
      let manifest ← parseJson parse input.manifest
      let state ← parseJson parse input.diagnostic_state
      let (mcla_version, reason, frame_written) ← readPackage manifest state
      let described ← checkArtifacts manifest input.diagnostic_state.length frame_written
      let performance ← readPerformance F input.log_tail
      let window ← readWindow state
      return ({
        mcla_version, reason := reasonClass reason
        build := (fields.get (ascii "build")).getD []
        game := (fields.get (ascii "game")).getD []
        timing := (fields.get (ascii "timing")).getD []
        scale, fullscreen := fields.get (ascii "fullscreen") = some (ascii "1")
        gpu := vendor ((fields.get (ascii "gpu")).getD [])
        has_capabilities := (fields.get (ascii "capability_policy")).isSome
        guest_refresh_hz := hz, target := fields.target
        frame_written, performance, window }, described)

/-- `ProjectLiveMetadata` -/
def projectLiveMetadata (input : Input) : Except String MetadataProjection :=
  match readFacts F parse input with
  | none => .error
    "Unsupported, malformed or inconsistent live diagnostic metadata; nothing projected"
  | some (facts, state_sha256, state_bytes) =>
    .ok { report_json := dump (report facts) ++ [10], state_sha256, state_bytes }

end Projection

/-! ### Lines that count nothing -/

/-- A line that the summary reads. -/
def counted (line : Bytes) : Bool :=
  line.length ≤ 2048 && (has pacingMarker line || has drawsMarker line || has gpuMarker line ||
    has replayMarker line)

section Lines
variable {D : Type} (F : Doubles D)

theorem scanLine_of_not_counted {line : Bytes} (h : counted line = false) (s : Scan D) :
    scanLine F s line = s := by
  unfold scanLine
  by_cases hlong : line.length > 2048
  · exact if_pos hlong
  · unfold counted at h
    rw [decide_eq_true (by omega), Bool.true_and] at h
    simp only [Bool.or_eq_false_iff] at h
    obtain ⟨⟨⟨h1, h2⟩, h3⟩, h4⟩ := h
    simp only [if_neg hlong, h1, h2, h3, h4, Bool.false_eq_true, if_false]

theorem foldl_scanLine_filter (lines : List Bytes) (s : Scan D) :
    lines.foldl (scanLine F) s = (lines.filter counted).foldl (scanLine F) s := by
  induction lines generalizing s with
  | nil => rfl
  | cons line lines ih =>
    cases h : counted line with
    | true => rw [filter_cons_of_pos h, foldl_cons, foldl_cons, ih]
    | false =>
      rw [filter_cons_of_neg (by simp [h]), foldl_cons, scanLine_of_not_counted F h, ih]

/-- Logs with the same counted lines have the same summary. -/
theorem performanceSummary_congr {log log' : Bytes}
    (h : (logLines log).filter counted = (logLines log').filter counted) :
    performanceSummary F log = performanceSummary F log' := by
  unfold performanceSummary lastMinutes
  rw [foldl_scanLine_filter F (logLines log), foldl_scanLine_filter F (logLines log'), h]

theorem performanceSummary_length (log : Bytes) :
    (performanceSummary F log).length ≤ kMaximumPerformanceMinutes := by
  unfold performanceSummary lastMinutes
  rw [length_map, length_drop]
  omega

end Lines

/-! ### One line more -/

theorem logLines_append {before : Bytes} (h : TextLines.Ended before) (rest : Bytes) :
    logLines (before ++ rest) = logLines before ++ logLines rest := by
  unfold logLines
  rw [TextLines.closed_append h, TextLines.closed_of_ended h]
  rcases h with rfl | hlast
  · rfl
  · exact TextLines.splitFrom_append hlast [] _

theorem logLines_line {line : Bytes} (hline : 10 ∉ line) (rest : Bytes) :
    logLines (line ++ 10 :: rest) = line :: logLines rest := by
  unfold logLines
  rw [TextLines.closed_line hline]
  exact TextLines.splitFrom_line hline [] _

theorem logLines_last {line : Bytes} (hline : 10 ∉ line) (hne : line ≠ []) :
    logLines line = [line] := by
  have hclosed : TextLines.closed line = line ++ 10 :: [] :=
    if_pos ⟨hne, TextLines.getLast?_ne_feed hline⟩
  unfold logLines
  rw [hclosed]
  exact TextLines.splitFrom_line hline [] []

/-- A line that counts nothing, inserted before, between or after whole lines. -/
theorem performanceSummary_insert {D : Type} (F : Doubles D) {before line : Bytes}
    (hbefore : TextLines.Ended before) (hline : 10 ∉ line) (hcounted : counted line = false)
    (after : Bytes) :
    performanceSummary F (before ++ line ++ 10 :: after) = performanceSummary F (before ++ after) ∧
      performanceSummary F (before ++ line) = performanceSummary F before := by
  have hout : [line].filter counted = [] := by simp [hcounted]
  constructor
  · apply performanceSummary_congr
    rw [append_assoc, logLines_append hbefore, logLines_line hline, logLines_append hbefore,
      ← singleton_append, filter_append, filter_append, filter_append, hout, nil_append]
  · apply performanceSummary_congr
    rw [logLines_append hbefore, filter_append]
    by_cases hne : line = []
    · rw [hne]
      exact append_nil _
    · rw [logLines_last hline hne, hout, append_nil]

end Mcla.ExportReport

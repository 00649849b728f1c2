import Mcla.Diagnostics.ExportReport

/-! # The report is private

`report_private` compares two inputs of `ProjectLiveMetadata` that are alike: the same values under
the keys that are read, the same class of the texts that are classified and the same log lines with
a counter.  When both are admitted their reports are equal.  Whether an input is admitted is not
private: a long enough log is refused.
-/
namespace Mcla.ExportReport
open Launcher (Bytes)
open TextSearch (find)
open List

variable {D : Type}

/-! ### Alike inputs -/

/-- The fields of a receipt that a report copies or that decide what it copies. -/
def copiedKeys : List Bytes := [ascii "build", ascii "game", ascii "timing", ascii "scale",
  ascii "vsync", ascii "fullscreen", ascii "render_target", ascii "guest_mode",
  ascii "capability_policy", ascii "capability_record"]

/-- The copied fields, and the vendor of the gpu; profile and adapter may differ. -/
structure SameSession (a b : Fields) : Prop where
  copied : ∀ key ∈ copiedKeys, a.get key = b.get key
  gpu : ∀ x y, a.get (ascii "gpu") = some x → b.get (ascii "gpu") = some y → vendor x = vendor y

/-- The version, the class of the reason and whether there is a frame; any other key may differ. -/
structure SameManifest (a b : Json D) : Prop where
  mcla_version : a.value? (ascii "mcla_version") = b.value? (ascii "mcla_version")
  reason : ∀ x y, a.value? (ascii "reason") = some (.string x) →
    b.value? (ascii "reason") = some (.string y) → reasonClass x = reasonClass y
  frame : ∀ x y, a.value? (ascii "capture") = some x → b.value? (ascii "capture") = some y →
    x.value? (ascii "frame") = y.value? (ascii "frame")

/-- The keys of a window. -/
def windowKeys : List Bytes := [ascii "logical_width", ascii "logical_height",
  ascii "physical_width", ascii "physical_height", ascii "fullscreen"]

/-- The window, if there is one; any other key may differ. -/
structure SameState (a b : Json D) : Prop where
  window : (a.value? (ascii "window")).isSome = (b.value? (ascii "window")).isSome
  values : ∀ x y, a.value? (ascii "window") = some x → b.value? (ascii "window") = some y →
    ∀ key ∈ windowKeys, x.value? key = y.value? key

/-- Two inputs that differ only in keys that are not known, in texts that are ignored or only
classified, and in log lines that count nothing. -/
structure Alike (parse : Bytes → Option (Json D)) (a b : Input) : Prop where
  session : ∀ x y, receipt a.session_receipt = some x → receipt b.session_receipt = some y →
    SameSession x y
  manifest : ∀ x y, parseJson parse a.manifest = some x → parseJson parse b.manifest = some y →
    SameManifest x y
  state : ∀ x y, parseJson parse a.diagnostic_state = some x →
    parseJson parse b.diagnostic_state = some y → SameState x y
  capabilities : a.capabilities = b.capabilities
  log : (logLines a.log_tail).filter counted = (logLines b.log_tail).filter counted

/-! ### What is read of an input -/

/-- What is read of an input that is admitted. -/
structure Reading (D : Type) where
  fields : Fields
  (hz scale : Nat)
  (manifest state : Json D)
  package : Bytes × Bytes × Bool
  performance : List (Json D)
  window : Option Window

/-- The facts of a reading. -/
def Reading.facts (r : Reading D) : Facts D where
  mcla_version := r.package.1
  reason := reasonClass r.package.2.1
  build := (r.fields.get (ascii "build")).getD []
  game := (r.fields.get (ascii "game")).getD []
  timing := (r.fields.get (ascii "timing")).getD []
  scale := r.scale
  fullscreen := r.fields.get (ascii "fullscreen") = some (ascii "1")
  gpu := vendor ((r.fields.get (ascii "gpu")).getD [])
  has_capabilities := (r.fields.get (ascii "capability_policy")).isSome
  guest_refresh_hz := r.hz
  target := r.fields.target
  frame_written := r.package.2.2
  performance := r.performance
  window := r.window

/-- Each part of a reading comes from its part of the input. -/
structure Reads (F : Doubles D) (parse : Bytes → Option (Json D)) (input : Input)
    (r : Reading D) : Prop where
  fields : receipt input.session_receipt = some r.fields
  checked : checkReceipt r.fields input.profile_id = true
  hz : Launcher.checkCapabilities r.fields.get input.capabilities = some r.hz
  scale : (r.fields.get (ascii "scale")).bind Launcher.exportDecimal = some r.scale
  manifest : parseJson parse input.manifest = some r.manifest
  state : parseJson parse input.diagnostic_state = some r.state
  package : readPackage r.manifest r.state = some r.package
  performance : readPerformance F input.log_tail = some r.performance
  window : readWindow r.state = some r.window

variable {F : Doubles D} {input : Input} {parse : Bytes → Option (Json D)}

theorem reads_of_readFacts {facts : Facts D} {described : Bytes × Nat}
    (h : readFacts F parse input = some (facts, described)) :
    ∃ r, Reads F parse input r ∧ facts = r.facts := by
  unfold readFacts at h
  split at h
  · cases h
  obtain ⟨fields, hfields, h⟩ := Option.bind_eq_some_iff.mp h
  split at h
  · cases h
  rename_i hchecked
  rw [Bool.not_eq_true, Bool.not_eq_false'] at hchecked
  obtain ⟨hz, hhz, h⟩ := Option.bind_eq_some_iff.mp h
  obtain ⟨scale, hscale, h⟩ := Option.bind_eq_some_iff.mp h
  obtain ⟨manifest, hmanifest, h⟩ := Option.bind_eq_some_iff.mp h
  obtain ⟨state, hstate, h⟩ := Option.bind_eq_some_iff.mp h
  obtain ⟨package, hpackage, h⟩ := Option.bind_eq_some_iff.mp h
  obtain ⟨described', -, h⟩ := Option.bind_eq_some_iff.mp h
  obtain ⟨performance, hperformance, h⟩ := Option.bind_eq_some_iff.mp h
  obtain ⟨window, hwindow, h⟩ := Option.bind_eq_some_iff.mp h
  obtain ⟨rfl, -⟩ := Prod.mk.inj (Option.some.inj h)
  exact ⟨⟨fields, hz, scale, manifest, state, package, performance, window⟩,
    ⟨hfields, hchecked, hhz, hscale, hmanifest, hstate, hpackage, hperformance, hwindow⟩, rfl⟩

/-! ### Session -/

section Session
variable {a b : Fields}

theorem SameSession.get (h : SameSession a b) (key : String) (hkey : ascii key ∈ copiedKeys) :
    a.get (ascii key) = b.get (ascii key) := h.copied _ hkey

theorem SameSession.checkCapabilities (h : SameSession a b) (capabilities : Bytes) :
    Launcher.checkCapabilities a.get capabilities =
      Launcher.checkCapabilities b.get capabilities := by
  have hbuild : a.get (Lease.ascii "build") = b.get (Lease.ascii "build") := h.get _ (by decide)
  have hgame : a.get (Lease.ascii "game") = b.get (Lease.ascii "game") := h.get _ (by decide)
  have htiming : a.get (Lease.ascii "timing") = b.get (Lease.ascii "timing") := h.get _ (by decide)
  have hvsync : a.get (Lease.ascii "vsync") = b.get (Lease.ascii "vsync") := h.get _ (by decide)
  have hscale : a.get (Lease.ascii "scale") = b.get (Lease.ascii "scale") := h.get _ (by decide)
  have htarget : a.get (Lease.ascii "render_target") = b.get (Lease.ascii "render_target") :=
    h.get _ (by decide)
  have hmode : a.get (Lease.ascii "guest_mode") = b.get (Lease.ascii "guest_mode") :=
    h.get _ (by decide)
  have hpolicy : a.get (Lease.ascii "capability_policy") =
    b.get (Lease.ascii "capability_policy") := h.get _ (by decide)
  have hrecord : a.get (Lease.ascii "capability_record") =
    b.get (Lease.ascii "capability_record") := h.get _ (by decide)
  unfold Launcher.checkCapabilities Launcher.checkRecord
  rw [hbuild, hgame, htiming, hvsync, hscale, htarget, hmode, hpolicy, hrecord]

theorem SameSession.target (h : SameSession a b) : a.target = b.target := by
  unfold Fields.target
  rw [h.get "render_target" (by decide), h.get "guest_mode" (by decide),
    h.get "scale" (by decide)]

theorem checkReceipt_gpu {fields : Fields} {profile_id : Bytes}
    (h : checkReceipt fields profile_id = true) : ∃ gpu, fields.get (ascii "gpu") = some gpu := by
  simp only [checkReceipt, decide_eq_true_eq] at h
  obtain ⟨gpu, hgpu, -⟩ := (Option.any_eq_true _ _).mp h.2.2.1
  exact ⟨gpu, hgpu⟩

end Session

/-! ### Documents -/

section Documents
variable {a b : Json D}

theorem textAt_some {parent : Json D} {name text : Bytes} {maximum : Nat}
    (h : parent.textAt name maximum = some text) : parent.value? name = some (.string text) := by
  unfold Json.textAt at h
  split at h
  · rename_i heq
    split at h
    · rw [heq, Option.some.inj h]
    · cases h
  · cases h

theorem objectAt_some {parent object : Json D} {name : Bytes}
    (h : parent.objectAt name = some object) : parent.value? name = some object := by
  unfold Json.objectAt at h
  split at h
  · rename_i heq
    rw [heq, h]
  · cases h

theorem booleanAt_congr {name : Bytes} (h : a.value? name = b.value? name) :
    a.booleanAt name = b.booleanAt name := by
  unfold Json.booleanAt
  rw [h]

theorem unsignedAt_congr {name : Bytes} (h : a.value? name = b.value? name) (maximum : Nat) :
    a.unsignedAt name maximum = b.unsignedAt name maximum := by
  unfold Json.unsignedAt
  rw [h]

/-- Where a package's version, reason and frame are read. -/
theorem readPackage_some {manifest state : Json D} {package : Bytes × Bytes × Bool}
    (h : readPackage manifest state = some package) : ∃ capture,
      manifest.value? (ascii "mcla_version") = some (.string package.1) ∧
      manifest.value? (ascii "reason") = some (.string package.2.1) ∧
      manifest.value? (ascii "capture") = some capture ∧
      capture.booleanAt (ascii "frame") = some package.2.2 := by
  obtain ⟨schema, -, h⟩ := Option.bind_eq_some_iff.mp h
  obtain ⟨kind, -, h⟩ := Option.bind_eq_some_iff.mp h
  obtain ⟨platform, -, h⟩ := Option.bind_eq_some_iff.mp h
  obtain ⟨stateSchema, -, h⟩ := Option.bind_eq_some_iff.mp h
  obtain ⟨mcla_version, hversion, h⟩ := Option.bind_eq_some_iff.mp h
  obtain ⟨reason, hreason, h⟩ := Option.bind_eq_some_iff.mp h
  obtain ⟨stateReason, -, h⟩ := Option.bind_eq_some_iff.mp h
  obtain ⟨capture, hcapture, h⟩ := Option.bind_eq_some_iff.mp h
  obtain ⟨frame, hframe, h⟩ := Option.bind_eq_some_iff.mp h
  split at h
  · obtain rfl := Option.some.inj h
    exact ⟨capture, textAt_some hversion, textAt_some hreason, objectAt_some hcapture, hframe⟩
  · cases h

/-- Of the reason only its class is shared. -/
theorem SameManifest.package {s t : Json D} {p q : Bytes × Bytes × Bool} (h : SameManifest a b)
    (ha : readPackage a s = some p) (hb : readPackage b t = some q) :
    p.1 = q.1 ∧ reasonClass p.2.1 = reasonClass q.2.1 ∧ p.2.2 = q.2.2 := by
  obtain ⟨x, hversion, hreason, hcapture, hframe⟩ := readPackage_some ha
  obtain ⟨y, hversion', hreason', hcapture', hframe'⟩ := readPackage_some hb
  have hsame := h.mcla_version
  rw [hversion, hversion'] at hsame
  have hboolean := booleanAt_congr (h.frame x y hcapture hcapture')
  rw [hframe, hframe'] at hboolean
  exact ⟨Json.string.inj (Option.some.inj hsame), h.reason _ _ hreason hreason',
    Option.some.inj hboolean⟩

theorem windowOf_congr (h : ∀ key ∈ windowKeys, a.value? key = b.value? key) :
    windowOf a = windowOf b := by
  unfold windowOf
  rw [unsignedAt_congr (h (ascii "logical_width") (by decide)),
    unsignedAt_congr (h (ascii "logical_height") (by decide)),
    unsignedAt_congr (h (ascii "physical_width") (by decide)),
    unsignedAt_congr (h (ascii "physical_height") (by decide)),
    booleanAt_congr (h (ascii "fullscreen") (by decide))]

theorem SameState.readWindow {v w : Option Window} (h : SameState a b)
    (ha : readWindow a = some v) (hb : readWindow b = some w) : v = w := by
  unfold ExportReport.readWindow at ha hb
  rw [← h.window] at hb
  by_cases hwindow : (a.value? (ascii "window")).isSome = true
  · rw [if_pos hwindow] at ha hb
    obtain ⟨x, hx, ha⟩ := Option.bind_eq_some_iff.mp ha
    obtain ⟨y, hy, hb⟩ := Option.bind_eq_some_iff.mp hb
    have hkeys := h.values x y (objectAt_some hx) (objectAt_some hy)
    rw [windowOf_congr hkeys] at ha
    exact Option.some.inj (ha.symm.trans hb)
  · rw [if_neg hwindow] at ha hb
    exact Option.some.inj (ha.symm.trans hb)

end Documents

/-! ### Log -/

/-- A log that is admitted is counted; the empty one has no minutes. -/
theorem readPerformance_some {log : Bytes} {performance : List (Json D)}
    (h : readPerformance F log = some performance) : performance = performanceSummary F log := by
  unfold readPerformance at h
  split at h
  · rename_i hempty
    rw [hempty, ← Option.some.inj h]
    rfl
  · split at h
    · exact (Option.some.inj h).symm
    · cases h

/-! ### Two reports -/

/-- Readings of alike inputs have the same facts. -/
theorem Alike.facts {a b : Input} {r s : Reading D} (h : Alike parse a b) (ha : Reads F parse a r)
    (hb : Reads F parse b s) : r.facts = s.facts := by
  have hsession := h.session _ _ ha.fields hb.fields
  obtain ⟨hversion, hreason, hframe⟩ :=
    (h.manifest _ _ ha.manifest hb.manifest).package ha.package hb.package
  have hwindow := (h.state _ _ ha.state hb.state).readWindow ha.window hb.window
  obtain ⟨x, hx⟩ := checkReceipt_gpu ha.checked
  obtain ⟨y, hy⟩ := checkReceipt_gpu hb.checked
  have hgpu : vendor ((r.fields.get (ascii "gpu")).getD []) =
      vendor ((s.fields.get (ascii "gpu")).getD []) := by
    rw [hx, hy]
    exact hsession.gpu x y hx hy
  have hhz : r.hz = s.hz := by
    have hcheck := ha.hz
    rw [hsession.checkCapabilities, h.capabilities, hb.hz] at hcheck
    exact (Option.some.inj hcheck).symm
  have hscale : r.scale = s.scale := by
    have hread := ha.scale
    rw [hsession.get "scale" (by decide), hb.scale] at hread
    exact (Option.some.inj hread).symm
  have hperformance : r.performance = s.performance := by
    rw [readPerformance_some ha.performance, readPerformance_some hb.performance]
    exact performanceSummary_congr F h.log
  unfold Reading.facts
  rw [hversion, hreason, hframe, hwindow, hgpu, hhz, hscale, hperformance, hsession.target,
    hsession.get "build" (by decide), hsession.get "game" (by decide),
    hsession.get "timing" (by decide), hsession.get "fullscreen" (by decide),
    hsession.get "capability_policy" (by decide)]

/-- An input of which everything is read is admitted. -/
theorem readFacts_of_reads {r : Reading D} {described : Bytes × Nat}
    (hid : Launcher.validOpaqueId input.profile_id = true)
    (hsession : checkSession input.session_state = true) (h : Reads F parse input r)
    (hartifacts : checkArtifacts r.manifest input.diagnostic_state.length r.package.2.2 =
      some described) : readFacts F parse input = some (r.facts, described) := by
  unfold readFacts
  rw [hid, hsession, h.fields]
  show (if (!checkReceipt r.fields input.profile_id) = true then _ else _) = _
  rw [h.checked, h.hz, h.scale, h.manifest, h.state]
  show ((readPackage r.manifest r.state).bind _ : Option (Facts D × Bytes × Nat)) = _
  rw [h.package]
  show ((checkArtifacts r.manifest input.diagnostic_state.length r.package.2.2).bind _ :
    Option (Facts D × Bytes × Nat)) = _
  rw [hartifacts, h.performance, h.window]
  rfl

theorem projectLiveMetadata_ok {dump : Json D → Bytes} {projection : MetadataProjection}
    (h : projectLiveMetadata F parse dump input = .ok projection) :
    ∃ r, Reads F parse input r ∧ projection.report_json = dump (report r.facts) ++ [10] := by
  unfold projectLiveMetadata at h
  cases hfacts : readFacts F parse input with
  | none =>
    rw [hfacts] at h
    cases h
  | some read =>
    rw [hfacts] at h
    obtain rfl := Except.ok.inj h
    obtain ⟨r, hreads, heq⟩ := reads_of_readFacts hfacts
    exact ⟨r, hreads, by rw [← heq]⟩

theorem Alike.report {dump : Json D → Bytes} {a b : Input} {p q : MetadataProjection}
    (h : Alike parse a b) (ha : projectLiveMetadata F parse dump a = .ok p)
    (hb : projectLiveMetadata F parse dump b = .ok q) : p.report_json = q.report_json := by
  obtain ⟨r, hr, hp⟩ := projectLiveMetadata_ok ha
  obtain ⟨s, hs, hq⟩ := projectLiveMetadata_ok hb
  rw [hp, hq, h.facts hr hs]

/-! ### Lines without a counter -/

/-- The marks of the four lines of a minute. -/
def markers : List Bytes := [pacingMarker, drawsMarker, gpuMarker, replayMarker]

theorem counted_eq_false {line : Bytes}
    (h : 2048 < line.length ∨ ∀ marker ∈ markers, ¬ marker <:+: line) : counted line = false := by
  unfold counted
  rcases h with hlong | hmarkers
  · rw [decide_eq_false (by omega), Bool.false_and]
  · have hnone : ∀ marker ∈ markers, has marker line = false := by
      intro marker hmem
      unfold has
      rw [TextSearch.find_eq_none_iff.mpr (hmarkers marker hmem)]
      rfl
    rw [hnone pacingMarker (by simp [markers]), hnone drawsMarker (by simp [markers]),
      hnone gpuMarker (by simp [markers]), hnone replayMarker (by simp [markers])]
    exact Bool.and_false _

/-- A line is inserted into a log: before a line or at the end. -/
inductive Inserted (line : Bytes) : Bytes → Bytes → Prop where
  | before {first : Bytes} (h : TextLines.Ended first) (rest : Bytes) :
      Inserted line (first ++ rest) (first ++ line ++ 10 :: rest)
  | last {log : Bytes} (h : TextLines.Ended log) : Inserted line log (log ++ line)
  | opened {log : Bytes} (h : ¬ TextLines.Ended log) : Inserted line log (log ++ [10] ++ line)
  | openedEnded {log : Bytes} (h : ¬ TextLines.Ended log) :
      Inserted line log (log ++ [10] ++ line ++ [10])

/-- The end of the last line may be missing. -/
theorem logLines_ended {log : Bytes} (h : ¬ TextLines.Ended log) :
    TextLines.Ended (log ++ [10]) ∧ logLines (log ++ [10]) = logLines log := by
  have hended : TextLines.Ended (log ++ [10]) := .inr getLast?_concat
  refine ⟨hended, ?_⟩
  have hclosed : TextLines.closed log = log ++ [10] := if_pos (not_or.mp h)
  unfold logLines
  rw [TextLines.closed_of_ended hended, hclosed]

theorem Inserted.summary {line log log' : Bytes} (hline : 10 ∉ line)
    (hcounted : counted line = false) (h : Inserted line log log') :
    performanceSummary F log' = performanceSummary F log := by
  have hinsert := @performanceSummary_insert D F
  cases h with
  | before hended rest => exact (hinsert hended hline hcounted rest).1
  | last hended => exact (hinsert hended hline hcounted []).2
  | opened hopen =>
    obtain ⟨hended, hlines⟩ := logLines_ended hopen
    rw [(hinsert hended hline hcounted []).2]
    exact performanceSummary_congr F (congrArg _ hlines)
  | openedEnded hopen =>
    obtain ⟨hended, hlines⟩ := logLines_ended hopen
    rw [(hinsert hended hline hcounted []).1, append_nil]
    exact performanceSummary_congr F (congrArg _ hlines)

/-! ### Three packages -/

/-- Rational numbers for doubles. -/
def rationals : Doubles ℚ where
  stod := fun text =>
    let whole := text.takeWhile (· ≠ 46)
    let decimals := text.drop (whole.length + 1)
    if whole = [] ∧ decimals = [] then none
    else some (((whole ++ decimals).foldl (fun n c => 10 * n + (c.toNat - 48)) 0 : Nat) /
      10 ^ decimals.length)
  between := fun v maximum => 0 ≤ v ∧ v ≤ maximum
  round := fun v => ⌊v * 10 + 1 / 2⌋ / 10
  perThousand := fun v => v / 1000
  toUnsigned := fun v => ⌊v⌋.toNat

/-- A list of texts between two brackets, each on a line. -/
def bracketed (left right : UInt8) (indent : Nat) (items : List Bytes) : Bytes :=
  let newline := fun indent => 10 :: replicate indent 32
  if items = [] then [left, right]
  else left :: [44].intercalate (items.map (newline (indent + 2) ++ ·)) ++ newline indent ++ [right]

mutual

/-- `dump(2)` where no text has an escape and a double has one decimal. -/
def Json.pretty (indent : Nat) : Json ℚ → Bytes
  | .null => ascii "null"
  | .boolean value => if value then ascii "true" else ascii "false"
  | .unsigned value => Decimal.text value
  | .integer value => (if value < 0 then [45] else []) ++ Decimal.text value.natAbs
  | .floating value =>
    let tenths := ⌊value * 10⌋.natAbs
    Decimal.text (tenths / 10) ++ 46 :: Decimal.text (tenths % 10)
  | .string value => 34 :: (value ++ [34])
  | .array items => bracketed 91 93 indent (Json.prettyItems (indent + 2) items)
  | .object fields => bracketed 123 125 indent
    (((Json.prettyFields (indent + 2) fields).insertionSort fun a b => a.1 ≤ b.1).map fun field =>
      34 :: (field.1 ++ [34, 58, 32] ++ field.2))

def Json.prettyItems (indent : Nat) : List (Json ℚ) → List Bytes
  | [] => []
  | item :: items => item.pretty indent :: Json.prettyItems indent items

def Json.prettyFields (indent : Nat) : List (Bytes × Json ℚ) → List (Bytes × Bytes)
  | [] => []
  | (name, item) :: fields => (name, item.pretty indent) :: Json.prettyFields indent fields

end

/-- An artifact of a manifest. -/
def artifact (name : String) : Json ℚ := .object [(ascii "name", string name)]

def stateArtifact (bytes : Nat) : Json ℚ :=
  .object [(ascii "name", string "state.json"), (ascii "sha256", .string (replicate 64 65)),
    (ascii "bytes", .unsigned bytes)]

/-- The manifest of a live package, with some fields more. -/
def packageManifest (bytes : Nat) (fields : List (Bytes × Json ℚ)) : Json ℚ :=
  .object ([(ascii "schema", string "mcla-diagnostic-package-v1"),
    (ascii "kind", string "live"), (ascii "platform", string "windows"),
    (ascii "mcla_version", string "0.1.0.0"), (ascii "reason", string "f10"),
    (ascii "capture", .object [(ascii "frame", .boolean false)]),
    (ascii "artifacts", .array [stateArtifact bytes, artifact "log-tail.txt",
      artifact "save-metadata.json", artifact "save-files-private.json"])] ++
    fields)

/-- The state of a package. -/
def packageState (fields : List (Bytes × Json ℚ)) : Json ℚ :=
  .object ([(ascii "schema", string "mcla-diagnostic-state-v1"), (ascii "reason", string "f10")] ++
    fields)

/-- The fields of a receipt. -/
def sessionFields (profile_id : Bytes) (gpu adapter : String) : Fields :=
  [(ascii "profile", profile_id), (ascii "build", replicate 64 65),
    (ascii "game", replicate 64 66), (ascii "timing", ascii "stock"), (ascii "gpu", ascii gpu),
    (ascii "adapter", ascii adapter), (ascii "scale", ascii "2"), (ascii "vsync", ascii "1"),
    (ascii "fullscreen", ascii "0")]

/-- A package with these extra fields. -/
def package (profile_id : Bytes) (gpu adapter : String)
    (manifestFields stateFields : List (Bytes × Json ℚ)) (log_tail : Bytes) : Input :=
  let diagnostic_state := (packageState stateFields).pretty 0
  { profile_id
    session_receipt := receiptHeader ++ TextLines.joined
      ((sessionFields profile_id gpu adapter).map fun field => field.1 ++ 32 :: field.2)
    session_state := ascii "complete\nexit 0\n"
    manifest := (packageManifest diagnostic_state.length manifestFields).pretty 0
    diagnostic_state
    capabilities := []
    log_tail }

/-- The documents of two packages. -/
def packages (manifestFields stateFields : List (Bytes × Json ℚ)) : List (Json ℚ) :=
  [packageState [], packageState stateFields,
    packageManifest ((packageState []).pretty 0).length [],
    packageManifest ((packageState stateFields).pretty 0).length manifestFields]

/-- A parser of the documents of two packages. -/
def parsePackages (manifestFields stateFields : List (Bytes × Json ℚ)) (text : Bytes) :
    Option (Json ℚ) :=
  (packages manifestFields stateFields).find? fun document => document.pretty 0 = text

/-- A package with nothing personal in it. -/
def quiet : Input := package (replicate 32 49) "NVIDIA" "1" [] [] []

/-- A field with a name in it. -/
def playerName : List (Bytes × Json ℚ) := [(ascii "player", string "PRIVATE_SENTINEL_NEVER_EXPORT")]

/-- A field with a path in it. -/
def homePath : List (Bytes × Json ℚ) := [(ascii "home", string "PRIVATE_SENTINEL_NEVER_EXPORT")]

/-- Another player, with names in the documents and in the log. -/
def personal : Input := package (replicate 32 50) "NVIDIA PRIVATE_SENTINEL_NEVER_EXPORT" "0"
  playerName homePath (ascii "PRIVATE_SENTINEL_NEVER_EXPORT\n")

/-- More than a mebibyte on one line. -/
def longLog : Bytes := replicate (kMaximumExportLogTailBytes + 1) 120

/-- The same, with a long log. -/
def noisy : Input := { quiet with log_tail := longLog }

/-! ### They are admitted -/

theorem safeCharacters_plain {text : Bytes} (h : (text.all fun c => 32 ≤ c ∧ c < 127) = true) :
    Launcher.SafeText.safeCharacters text = true := by
  induction text with
  | nil => exact Launcher.SafeText.safeCharacters_nil
  | cons c text ih =>
    rw [all_cons, Bool.and_eq_true, decide_eq_true_eq, UInt8.le_iff_toNat_le,
      UInt8.lt_iff_toNat_lt] at h
    have hbounds : 32 ≤ c.toNat ∧ c.toNat < 127 := h.1
    have hcharacter : Launcher.SafeText.character c.toNat text = some text := by
      unfold Launcher.SafeText.character
      rw [if_pos (by omega), if_neg (by omega)]
    rw [Launcher.SafeText.safeCharacters_some hcharacter]
    exact ih h.2

/-- Printable ASCII. -/
def plain (text : Bytes) (maximum : Nat) : Bool :=
  text ≠ [] ∧ text.length ≤ maximum ∧ (text.all fun c => 32 ≤ c ∧ c < 127) = true

theorem safeUtf8_plain {text : Bytes} {maximum : Nat} (h : plain text maximum = true) :
    Launcher.SafeText.safeUtf8 text maximum = true := by
  simp only [plain, decide_eq_true_eq] at h
  unfold Launcher.SafeText.safeUtf8
  rw [if_neg (by simp only [not_or, not_lt]; exact ⟨h.1, h.2.1⟩)]
  exact safeCharacters_plain h.2.2

theorem textAt_plain {parent : Json D} {name text : Bytes} {maximum : Nat}
    (hvalue : parent.value? name = some (.string text)) (h : plain text maximum = true) :
    parent.textAt name maximum = some text := by
  unfold Json.textAt
  rw [hvalue]
  exact if_pos (safeUtf8_plain h)

theorem readPackage_package (bytes : Nat) (mf sf : List (Bytes × Json ℚ)) :
    readPackage (packageManifest bytes mf) (packageState sf) =
      some (ascii "0.1.0.0", ascii "f10", false) := by
  have hschema : (packageManifest bytes mf).textAt (ascii "schema") 64 =
    some (ascii "mcla-diagnostic-package-v1") := textAt_plain rfl (by decide)
  have hkind : (packageManifest bytes mf).textAt (ascii "kind") 32 = some (ascii "live") :=
    textAt_plain rfl (by decide)
  have hplatform : (packageManifest bytes mf).textAt (ascii "platform") 32 =
    some (ascii "windows") := textAt_plain rfl (by decide)
  have hstate : (packageState sf).textAt (ascii "schema") 64 =
    some (ascii "mcla-diagnostic-state-v1") := textAt_plain rfl (by decide)
  have hversion : (packageManifest bytes mf).textAt (ascii "mcla_version") 23 =
    some (ascii "0.1.0.0") := textAt_plain rfl (by decide)
  have hreason : (packageManifest bytes mf).textAt (ascii "reason") 1024 = some (ascii "f10") :=
    textAt_plain rfl (by decide)
  have hreason' : (packageState sf).textAt (ascii "reason") 1024 = some (ascii "f10") :=
    textAt_plain rfl (by decide)
  have hcapture : (packageManifest bytes mf).objectAt (ascii "capture") =
    some (.object [(ascii "frame", .boolean false)]) := rfl
  have hframe : (Json.object [(ascii "frame", Json.boolean (D := ℚ) false)]).booleanAt
    (ascii "frame") = some false := rfl
  unfold readPackage
  rw [hschema, hkind, hplatform, hstate, hversion, hreason, hreason', hcapture]
  simp only [Option.bind_eq_bind, Option.bind_some, hframe]
  refine if_pos ?_
  decide

theorem readArtifacts_artifact {size : Nat} {names : List Bytes} {state : Bytes × Nat}
    {name : String} (h : plain (ascii name) 64 = true)
    (hnew : (!artifactNames.contains (ascii name) || names.contains (ascii name)) = false)
    (hother : ascii name ≠ ascii "state.json") (rest : List (Json ℚ)) :
    readArtifacts size names state (artifact name :: rest) =
      readArtifacts size (ascii name :: names) state rest := by
  have htext : (artifact name).textAt (ascii "name") 64 = some (ascii name) := textAt_plain rfl h
  show ((artifact name).textAt (ascii "name") 64).bind _ = _
  rw [htext]
  show (if (!artifactNames.contains (ascii name) || names.contains (ascii name)) = true then _
    else _) = _
  rw [hnew]
  exact if_neg hother

theorem checkArtifacts_package {bytes : Nat} (hpos : 0 < bytes)
    (hle : bytes ≤ kMaximumExportJsonBytes) (mf : List (Bytes × Json ℚ)) :
    checkArtifacts (packageManifest bytes mf) bytes false = some (replicate 64 65, bytes) := by
  have hname : (stateArtifact bytes).textAt (ascii "name") 64 = some (ascii "state.json") :=
    textAt_plain rfl (by decide)
  have hhash : (stateArtifact bytes).textAt (ascii "sha256") 64 = some (replicate 64 65) :=
    textAt_plain rfl (by decide)
  have hbytes : (stateArtifact bytes).unsignedAt (ascii "bytes") kMaximumExportJsonBytes =
    some bytes := if_pos hle
  have hread : readArtifacts bytes [] ([], 0) [stateArtifact bytes, artifact "log-tail.txt",
      artifact "save-metadata.json", artifact "save-files-private.json"] =
      some ([ascii "save-files-private.json", ascii "save-metadata.json", ascii "log-tail.txt",
        ascii "state.json"], replicate 64 65, bytes) := by
    show ((stateArtifact bytes).textAt (ascii "name") 64).bind _ = _
    rw [hname]
    show ((stateArtifact bytes).textAt (ascii "sha256") 64).bind _ = _
    rw [hhash]
    show ((stateArtifact bytes).unsignedAt (ascii "bytes") kMaximumExportJsonBytes).bind _ = _
    rw [hbytes]
    show (if _ then _ else _) = _
    rw [if_pos ⟨by decide, hpos, rfl⟩, readArtifacts_artifact (by decide) (by decide) (by decide),
      readArtifacts_artifact (by decide) (by decide) (by decide),
      readArtifacts_artifact (by decide) (by decide) (by decide)]
    rfl
  show (readArtifacts bytes [] ([], 0) [stateArtifact bytes, artifact "log-tail.txt",
      artifact "save-metadata.json", artifact "save-files-private.json"]).bind _ = _
  rw [hread, Option.bind_some]
  refine if_pos ⟨?_, ?_, cons_ne_nil _ _⟩
  · decide
  · decide

theorem package_admitted {F : Doubles ℚ} {parse : Bytes → Option (Json ℚ)} (dump : Json ℚ → Bytes)
    {profile_id : Bytes} {gpu adapter : String} {mf sf : List (Bytes × Json ℚ)} {log_tail : Bytes}
    (hid : Launcher.validOpaqueId profile_id = true) (hgpu : plain (ascii gpu) 800 = true)
    (hadapter : (Launcher.exportDecimal (ascii adapter)).isSome = true)
    (hreceipt : receipt (package profile_id gpu adapter mf sf log_tail).session_receipt =
      some (sessionFields profile_id gpu adapter))
    (hhz : Launcher.checkCapabilities (sessionFields profile_id gpu adapter).get [] = some 0)
    (hmanifest : parseJson parse (package profile_id gpu adapter mf sf log_tail).manifest =
      some (packageManifest ((packageState sf).pretty 0).length mf))
    (hstate : parseJson parse ((packageState sf).pretty 0) = some (packageState sf))
    (hsize : 0 < ((packageState sf).pretty 0).length ∧
      ((packageState sf).pretty 0).length ≤ kMaximumExportJsonBytes)
    (hwindow : sf.lookup (ascii "window") = none)
    (hlog : log_tail.length ≤ kMaximumExportLogTailBytes) :
    ∃ p, projectLiveMetadata F parse dump (package profile_id gpu adapter mf sf log_tail) =
      .ok p := by
  have hchecked : checkReceipt (sessionFields profile_id gpu adapter) profile_id = true := by
    simp only [checkReceipt, decide_eq_true_eq]
    exact ⟨rfl, .inl rfl, safeUtf8_plain hgpu, hadapter⟩
  have hperformance : readPerformance F log_tail = some (performanceSummary F log_tail) := by
    unfold readPerformance
    by_cases hempty : log_tail = []
    · rw [if_pos hempty, hempty]
      rfl
    · rw [if_neg hempty, if_pos hlog]
  have hnone : readWindow (packageState sf) = some none := by
    have hvalue : (packageState sf).value? (ascii "window") = none := hwindow
    unfold readWindow
    rw [hvalue]
    rfl
  have hreads : Reads F parse (package profile_id gpu adapter mf sf log_tail)
      ⟨sessionFields profile_id gpu adapter, 0, 2,
        packageManifest ((packageState sf).pretty 0).length mf, packageState sf,
        (ascii "0.1.0.0", ascii "f10", false), performanceSummary F log_tail, none⟩ :=
    ⟨hreceipt, hchecked, hhz, rfl, hmanifest, hstate, readPackage_package _ mf sf, hperformance,
      hnone⟩
  have hsession : checkSession (ascii "complete\nexit 0\n") = true := by decide
  have hfacts := readFacts_of_reads hid hsession hreads (checkArtifacts_package hsize.1 hsize.2 mf)
  unfold projectLiveMetadata
  rw [hfacts]
  exact ⟨_, rfl⟩

theorem find?_of_nodup {documents : List (Json ℚ)} (hnodup : (documents.map (Json.pretty 0)).Nodup)
    {document : Json ℚ} (h : document ∈ documents) :
    (documents.find? fun other => other.pretty 0 = document.pretty 0) = some document := by
  induction documents with
  | nil => cases h
  | cons other documents ih =>
    rw [map_cons, nodup_cons] at hnodup
    rcases mem_cons.mp h with rfl | hmem
    · exact find?_cons_of_pos (by simp)
    · have hother : other.pretty 0 ≠ document.pretty 0 := fun heq =>
        hnodup.1 (mem_map.mpr ⟨document, hmem, heq.symm⟩)
      rw [find?_cons_of_neg (by simpa using hother)]
      exact ih hnodup.2 hmem

set_option maxRecDepth 20000 in
theorem packages_nodup : ((packages playerName homePath).map (Json.pretty 0)).Nodup := by decide

set_option maxRecDepth 20000 in
/-- The texts of the packages can be parsed. -/
theorem packages_fit : ∀ document ∈ packages playerName homePath,
    ¬ (document.pretty 0 = [] ∨ (document.pretty 0).length > kMaximumExportJsonBytes ∨
      (document.pretty 0).contains 0 = true) ∧
      parseEvents [] 0 (document.events 0) = true := by
  decide

theorem parseJson_packages (document : Json ℚ) (h : document ∈ packages playerName homePath)
    (hobject : ∃ fields, document = .object fields) :
    parseJson (parsePackages playerName homePath) (document.pretty 0) = some document := by
  have hparse : parsePackages playerName homePath (document.pretty 0) = some document :=
    find?_of_nodup packages_nodup h
  obtain ⟨hsize, hevents⟩ := packages_fit document h
  obtain ⟨fields, rfl⟩ := hobject
  unfold parseJson
  rw [if_neg hsize, hparse]
  exact if_pos hevents

set_option maxRecDepth 20000 in
theorem quiet_receipt : receipt quiet.session_receipt =
    some (sessionFields (replicate 32 49) "NVIDIA" "1") := by
  decide

set_option maxRecDepth 20000 in
theorem personal_receipt : receipt personal.session_receipt =
    some (sessionFields (replicate 32 50) "NVIDIA PRIVATE_SENTINEL_NEVER_EXPORT" "0") := by
  decide

theorem quiet_manifest : parseJson (parsePackages playerName homePath) quiet.manifest =
    some (packageManifest ((packageState []).pretty 0).length []) :=
  parseJson_packages _ (by simp [packages]) ⟨_, rfl⟩

theorem personal_manifest : parseJson (parsePackages playerName homePath) personal.manifest =
    some (packageManifest ((packageState homePath).pretty 0).length playerName) :=
  parseJson_packages _ (by simp [packages]) ⟨_, rfl⟩

theorem quiet_state : parseJson (parsePackages playerName homePath) quiet.diagnostic_state =
    some (packageState []) :=
  parseJson_packages _ (by simp [packages]) ⟨_, rfl⟩

theorem personal_state : parseJson (parsePackages playerName homePath) personal.diagnostic_state =
    some (packageState homePath) :=
  parseJson_packages _ (by simp [packages]) ⟨_, rfl⟩

section Admitted
variable (F : Doubles ℚ) (dump : Json ℚ → Bytes)

set_option maxRecDepth 20000 in
theorem quiet_admitted :
    ∃ p, projectLiveMetadata F (parsePackages playerName homePath) dump quiet = .ok p :=
  package_admitted dump (by decide) (by decide) (by decide) quiet_receipt (by decide)
    quiet_manifest quiet_state (by decide) rfl (by decide)

set_option maxRecDepth 20000 in
theorem personal_admitted :
    ∃ p, projectLiveMetadata F (parsePackages playerName homePath) dump personal = .ok p :=
  package_admitted dump (by decide) (by decide) (by decide) personal_receipt (by decide)
    personal_manifest personal_state (by decide) rfl (by decide)

end Admitted

/-- A log of more than a mebibyte is not admitted. -/
theorem projectLiveMetadata_of_long (F : Doubles D) (parse : Bytes → Option (Json D))
    (dump : Json D → Bytes) {input : Input}
    (h : kMaximumExportLogTailBytes < input.log_tail.length) :
    projectLiveMetadata F parse dump input = .error
      "Unsupported, malformed or inconsistent live diagnostic metadata; nothing projected" := by
  have hnone : readFacts F parse input = none := by
    cases hfacts : readFacts F parse input with
    | none => rfl
    | some read =>
      obtain ⟨r, hreads, -⟩ := reads_of_readFacts hfacts
      have hperformance := hreads.performance
      unfold readPerformance at hperformance
      rw [if_neg, if_neg (not_le.mpr h)] at hperformance
      · cases hperformance
      · intro hempty
        rw [hempty] at h
        exact absurd h (Nat.not_lt_zero _)
  unfold projectLiveMetadata
  rw [hnone]

theorem longLog_length : longLog.length = kMaximumExportLogTailBytes + 1 := by
  unfold longLog
  exact length_replicate

theorem noisy_long : kMaximumExportLogTailBytes < noisy.log_tail.length := by
  unfold noisy
  rw [longLog_length]
  exact Nat.lt_succ_self _

/-! ### They are alike -/

theorem SameSession.refl (a : Fields) : SameSession a a := by
  refine ⟨fun _ _ => rfl, fun x y hx hy => ?_⟩
  rw [hx] at hy
  rw [Option.some.inj hy]

theorem SameManifest.refl (a : Json D) : SameManifest a a := by
  refine ⟨rfl, fun x y hx hy => ?_, fun x y hx hy => ?_⟩
  · rw [hx] at hy
    rw [Json.string.inj (Option.some.inj hy)]
  · rw [hx] at hy
    rw [Option.some.inj hy]

theorem SameState.refl (a : Json D) : SameState a a := by
  refine ⟨rfl, fun x y hx hy _ _ => ?_⟩
  rw [hx] at hy
  rw [Option.some.inj hy]

/-- Inputs with the same documents. -/
theorem alike_of_log {log_tail : Bytes}
    (h : (logLines input.log_tail).filter counted = (logLines log_tail).filter counted) :
    Alike parse input { input with log_tail := log_tail } where
  session := fun x y hx hy => by
    rw [Option.some.inj (hx.symm.trans hy)]
    exact .refl y
  manifest := fun x y hx hy => by
    rw [Option.some.inj (hx.symm.trans hy)]
    exact .refl y
  state := fun x y hx hy => by
    rw [Option.some.inj (hx.symm.trans hy)]
    exact .refl y
  capabilities := rfl
  log := h

theorem quiet_alike_noisy : Alike parse quiet noisy := by
  refine alike_of_log ?_
  have hfeed : 10 ∉ longLog := fun h => absurd (eq_of_mem_replicate h) (by decide)
  have hcounted : counted longLog = false := by
    refine counted_eq_false (.inl ?_)
    rw [longLog_length]
    decide
  have hne : longLog ≠ [] := by
    unfold longLog
    exact cons_ne_nil _ _
  rw [logLines_last hfeed hne, filter_cons_of_neg (by simp [hcounted])]
  rfl

theorem quiet_alike_personal : Alike (parsePackages playerName homePath) quiet personal where
  session := fun x y hx hy => by
    rw [← Option.some.inj (quiet_receipt.symm.trans hx),
      ← Option.some.inj (personal_receipt.symm.trans hy)]
    refine ⟨by decide, fun gpu gpu' hgpu hgpu' => ?_⟩
    rw [← Option.some.inj hgpu, ← Option.some.inj hgpu']
    decide
  manifest := fun x y hx hy => by
    rw [← Option.some.inj (quiet_manifest.symm.trans hx),
      ← Option.some.inj (personal_manifest.symm.trans hy)]
    refine ⟨rfl, fun reason reason' hreason hreason' => ?_,
      fun capture capture' hcapture hcapture' => ?_⟩
    · rw [← Json.string.inj (Option.some.inj hreason), ← Json.string.inj (Option.some.inj hreason')]
    · rw [← Option.some.inj hcapture, ← Option.some.inj hcapture']
  state := fun x y hx hy => by
    rw [← Option.some.inj (quiet_state.symm.trans hx),
      ← Option.some.inj (personal_state.symm.trans hy)]
    exact ⟨by decide, fun window window' hwindow _ => by cases hwindow⟩
  capabilities := rfl
  log := by decide

/-- **The report is private.**  Two alike inputs that are admitted have one report, a line that is
too long or has no marker does not change the summary wherever it is inserted, and the summary has
ten minutes at most. -/
theorem report_private (F : Doubles D) (parse : Bytes → Option (Json D)) (dump : Json D → Bytes) :
    (∀ a b p q, Alike parse a b → projectLiveMetadata F parse dump a = .ok p →
      projectLiveMetadata F parse dump b = .ok q → p.report_json = q.report_json) ∧
    (∀ line log log', 10 ∉ line →
      (2048 < line.length ∨ ∀ marker ∈ markers, ¬ marker <:+: line) → Inserted line log log' →
      performanceSummary F log' = performanceSummary F log) ∧
    ∀ log, (performanceSummary F log).length ≤ 10 :=
  ⟨fun _ _ _ _ h ha hb => h.report ha hb,
    fun _ _ _ hline hunmarked h => h.summary hline (counted_eq_false hunmarked),
    performanceSummary_length F⟩

theorem report_private_personal : (∃ p q,
    projectLiveMetadata rationals (parsePackages playerName homePath) (Json.pretty 0) quiet =
      .ok p ∧
    projectLiveMetadata rationals (parsePackages playerName homePath) (Json.pretty 0) personal =
      .ok q ∧ p.report_json = q.report_json) ∧
    performanceSummary rationals personal.log_tail = performanceSummary rationals [] := by
  obtain ⟨hreport, hlog, -⟩ :=
    report_private rationals (parsePackages playerName homePath) (Json.pretty 0)
  obtain ⟨p, hp⟩ := quiet_admitted rationals (Json.pretty 0)
  obtain ⟨q, hq⟩ := personal_admitted rationals (Json.pretty 0)
  refine ⟨⟨p, q, hp, hq, hreport quiet personal p q quiet_alike_personal hp hq⟩, ?_⟩
  exact hlog (ascii "PRIVATE_SENTINEL_NEVER_EXPORT") [] personal.log_tail (by decide)
    (.inr (by decide)) (.before (.inl rfl) [])

/-- One line more, and the other input is refused. -/
theorem report_refused : ∃ p, Alike (parsePackages playerName homePath) quiet noisy ∧
    projectLiveMetadata rationals (parsePackages playerName homePath) (Json.pretty 0) quiet =
      .ok p ∧
    projectLiveMetadata rationals (parsePackages playerName homePath) (Json.pretty 0) noisy = .error
      "Unsupported, malformed or inconsistent live diagnostic metadata; nothing projected" := by
  obtain ⟨p, hp⟩ := quiet_admitted rationals (Json.pretty 0)
  exact ⟨p, quiet_alike_noisy, hp,
    @projectLiveMetadata_of_long ℚ rationals _ (Json.pretty 0) noisy noisy_long⟩

end Mcla.ExportReport

import Mcla.SourceScout.Decode

/-! # The publication windows of a source scout

`analyze` of `mcla_source_publication_windows`: one pass over the slots of the receipt that keeps
the row of the last collected slot, and the window in which each source was first seen.  The
constants of the results are left out.  The receipt is copied before the reader is called.
-/
namespace Mcla.SourceScout
open NestedRecorder (need need_ok bind_ok pure_ok)
open KeyedStream (Follows fresh skipped)
open List

def EXECUTION_KEYS : List String := ["pid", "birth_100ns", "host_sha256"]

/-- The process that is observed. -/
structure Execution where
  (pid birth_100ns : Nat)
  host_sha256 : String
deriving DecidableEq

def isDigest (digest : String) : Bool :=
  digest.length = 64 ∧ digest.toList.all fun c => c.isDigit || ('A' ≤ c && c ≤ 'F')

/-- `_execution` -/
def readExecution (value : JsonTree) : Except String Execution := do
  exact value EXECUTION_KEYS "exact caller execution scope"
  let pid ← uint 1 (2 ^ 32 - 1) (value.field "pid")
  let birth_100ns ← uint 1 (2 ^ 64 - 1) (value.field "birth_100ns")
  let digest ← known (asText (value.field "host_sha256")) "uppercase host SHA256"
  need (isDigest digest = true) "uppercase host SHA256"
  return ⟨pid, birth_100ns, digest⟩

/-! ### The rows -/

/-- The publication that a slot has seen. -/
structure Binding where
  token : String
  scope : Execution
  (presenter_epoch acquired_sequence : Nat)

/-- What the row of a collected slot has besides. -/
structure Sighting where
  source_binding : Binding
  publication_qpc_bounds : Nat × Nat
  first_observed_slot : Nat
  duplicate_source : Bool
  bmp_sha256 : String
  rgb_sha256 : Option String

/-- A slot of the schedule, as it went. -/
structure WindowRow where
  slot : Nat
  status : Option String
  reason : JsonTree
  (due_qpc observed_qpc : Nat)
  sighting : Option Sighting

/-- What lies between two collected slots. -/
structure Gap where
  (from_slot to_slot : Nat)
  (uncollected_slots_between unsampled_source_ids_between : Int)
  same_publication : Bool
  (interval_difference_ticks_bounds publication_elapsed_ticks_bounds : Int × Int)
  witness_windows_overlap_or_touch : Bool

/-- What the analysis returns. -/
structure Analysis where
  execution_scope_claim : Execution
  token : String
  (qpc_frequency scheduled_slots : Nat)
  counts : Status → Nat
  uncollected_slots : Int
  (unique_sources duplicate_sources : Nat)
  unsampled_source_ids_between_observed_endpoints : Int
  observations : List WindowRow
  adjacent_selected_publications : List Gap

/-! ### The pass -/

/-- The window in which a source was first seen, and its slot. -/
abbrev Publications := List ((Nat × Nat) × Nat × Nat × Nat)

/-- What the loop keeps: of the row before, its slot and what it saw. -/
structure Survey where
  publications : Publications := []
  rows : List WindowRow := []
  gaps : List Gap := []
  previous : Option (Nat × Sighting) := none
  unsampled_total : Int := 0

/-- The table of publications, with this one if its source is new. -/
def publish (publications : Publications) (capture : Capture) (index : Nat) : Publications :=
  if (publications.lookup capture.source).isSome then publications
  else publications ++
    [(capture.source, capture.refresh_cpu_end_qpc, capture.acquire_after_qpc, index)]

/-- The source ids between a row and the row before. -/
def skippedIds (before : Sighting) (identity : Nat × Nat) : Int :=
  if identity.2 = before.source_binding.acquired_sequence then 0
  else (identity.2 : Int) - before.source_binding.acquired_sequence - 1

/-- From one collected slot to the next. -/
def gapOf (before : Nat × Sighting) (index : Nat) (identity : Nat × Nat) (lower upper : Nat) :
    Gap :=
  let old := before.2.publication_qpc_bounds
  let same : Bool := identity.2 = before.2.source_binding.acquired_sequence
  let difference := ((lower : Int) - old.2, (upper : Int) - old.1)
  { from_slot := before.1
    to_slot := index
    uncollected_slots_between := (index : Int) - before.1 - 1
    unsampled_source_ids_between := skippedIds before.2 identity
    same_publication := same
    interval_difference_ticks_bounds := difference
    publication_elapsed_ticks_bounds := if same then (0, 0) else difference
    witness_windows_overlap_or_touch := difference.1 ≤ 0 }

/-- What the gap to the row before adds, if there is one. -/
def Survey.across (s : Survey) (index : Nat) (identity : Nat × Nat) (lower upper : Nat) : Survey :=
  s.previous.elim s fun before =>
    { s with unsampled_total := s.unsampled_total + skippedIds before.2 identity
             gaps := s.gaps ++ [gapOf before index identity lower upper] }

@[simp] theorem Survey.across_rows (s : Survey) (index : Nat) (identity : Nat × Nat)
    (lower upper : Nat) : (s.across index identity lower upper).rows = s.rows := by
  unfold Survey.across
  cases s.previous <;> rfl

theorem Survey.across_total (s : Survey) (index : Nat) (identity : Nat × Nat)
    (lower upper : Nat) : (s.across index identity lower upper).unsampled_total =
      s.unsampled_total + s.previous.elim 0 fun before => skippedIds before.2 identity := by
  unfold Survey.across
  cases s.previous with
  | none => exact (Int.add_zero _).symm
  | some before => rfl

section Analyze
variable (sha256 : List UInt8 → String) (read_image : Reader)

/-- A slot, and what its row sees. -/
def rowOf (slot : JsonTree) (sighting : Option Sighting) : WindowRow where
  slot := number (slot.field "slot")
  status := asText (slot.field "status")
  reason := slot.field "reason"
  due_qpc := number (slot.field "due_qpc")
  observed_qpc := number (slot.field "observed_qpc")
  sighting := sighting

/-- One slot is gone over. -/
def surveySlot (token : String) (scope : Execution) (images : List (Nat × String)) (s : Survey)
    (slot : JsonTree) (observation : Observation) : Except String Survey :=
  match captureIn slot with
  | none => return { s with rows := s.rows ++ [rowOf slot none] }
  | some capture => do
    let index := number (slot.field "slot")
    let identity := capture.source
    let publications := publish s.publications capture index
    let (lower, upper, first) ← known (publications.lookup identity) "KeyError"
    let bmp_sha256 ← known (images.lookup index) "KeyError"
    let sighting : Sighting :=
      { source_binding := ⟨token, scope, identity.1, identity.2⟩
        publication_qpc_bounds := (lower, upper)
        first_observed_slot := first
        duplicate_source := (s.publications.lookup identity).isSome
        bmp_sha256 := bmp_sha256
        rgb_sha256 := observation.rgb_sha256 }
    let s := s.across index identity lower upper
    return { s with publications := publications
                    previous := some (index, sighting)
                    rows := s.rows ++ [rowOf slot (some sighting)] }

/-- All slots are gone over. -/
def surveySlots (token : String) (scope : Execution) (images : List (Nat × String)) (s : Survey) :
    List (JsonTree × Observation) → Except String Survey
  | [] => .ok s
  | (slot, observation) :: rest => do
    let s ← surveySlot token scope images s slot observation
    surveySlots token scope images s rest

/-- The receipt is gone over. -/
def analyze (receipt : JsonTree) (token : String) (image_names : List String)
    (execution : JsonTree) (expected_profile : Option String) : Except String Analysis := do
  let scope ← readExecution execution
  let schedule ← resolve receipt token expected_profile
  let decoded ← decode sha256 read_image receipt token image_names expected_profile
  let census := decoded.census
  let images := decoded.images.map fun row => (row.slot, row.sha256)
  let s ← surveySlots token scope images {} ((slotsOf receipt).zip census.observations)
  return { execution_scope_claim := scope
           token := token
           qpc_frequency := census.qpc_frequency
           scheduled_slots := schedule.scheduled_slots
           counts := census.counts
           uncollected_slots := (schedule.scheduled_slots : Int) - census.counts .collected
           unique_sources := census.unique_sources
           duplicate_sources := census.duplicate_sources
           unsampled_source_ids_between_observed_endpoints := s.unsampled_total
           observations := s.rows
           adjacent_selected_publications := s.gaps }

end Analyze

/-! ### What an analysis that passes says -/

section Runs
variable {sha256 : List UInt8 → String} {read_image : Reader}

/-- The number of the last collected slot is kept. -/
def Recalls (s : Survey) (last : Option Nat) : Prop :=
  s.previous.map (·.2.source_binding.acquired_sequence) = last

variable {images : List (Nat × String)} {s s' : Survey} {scope : Execution} {token : String}

theorem surveySlot_step {slot : JsonTree} {observation : Observation}
    (h : surveySlot token scope images s slot observation = .ok s') {last : Option Nat}
    (hs : Recalls s last) :
    Recalls s' (((captureIn slot).map (·.acquired_sequence)).or last) ∧
      s'.unsampled_total = s.unsampled_total +
        skipped last ((captureIn slot).map (·.acquired_sequence)).toList := by
  unfold surveySlot at h
  cases hcapture : captureIn slot with
  | none =>
    rw [hcapture] at h
    cases h
    exact ⟨hs, by simp [skipped]⟩
  | some capture =>
    simp only [hcapture, bind_ok, pure_ok] at h
    obtain ⟨⟨lower, upper, first⟩, -, bmp, -, rfl⟩ := h
    refine ⟨rfl, ?_⟩
    rw [← hs]
    dsimp only
    rw [Survey.across_total]
    cases s.previous with
    | none => rfl
    | some before =>
      rw [Option.map_some, Option.map_some, Option.toList_some, skipped, skipped, Int.add_zero]
      rfl

/-- The source ids stepped over, over a whole run. -/
theorem surveySlots_run {slots : List JsonTree} {observations : List Observation}
    (hlength : slots.length = observations.length)
    (h : surveySlots token scope images s (slots.zip observations) = .ok s') {last : Option Nat}
    (hs : Recalls s last) (index : Nat) :
    s'.unsampled_total = s.unsampled_total +
      skipped last ((collectedFrom index slots).map (·.2.acquired_sequence)) := by
  induction slots generalizing s last observations index with
  | nil =>
    rw [zip_nil_left, surveySlots] at h
    cases h
    simp [collectedFrom, skipped]
  | cons slot rest ih =>
    cases observations with
    | nil => cases hlength
    | cons observation others =>
      rw [zip_cons_cons, surveySlots, bind_ok] at h
      obtain ⟨next, hslot, hrest⟩ := h
      obtain ⟨hnext, htotal⟩ := surveySlot_step hslot hs
      rw [ih (Nat.succ.inj hlength) hrest hnext (index + 1), htotal, collectedFrom, Int.add_assoc]
      cases captureIn slot with
      | none => simp [skipped]
      | some capture => simp [skipped]

/-- A source that is in the table stays there as it is. -/
theorem lookup_publish {publications : Publications} {capture : Capture} {index : Nat}
    {identity : Nat × Nat} {window : Nat × Nat × Nat}
    (h : publications.lookup identity = some window) :
    (publish publications capture index).lookup identity = some window := by
  unfold publish
  split
  · exact h
  · rw [lookup_append, h, Option.some_or]

/-- Each row that saw a source has the window that the table has for it. -/
def Listed (s : Survey) : Prop :=
  ∀ row ∈ s.rows, ∀ seen ∈ row.sighting, s.publications.lookup
    (seen.source_binding.presenter_epoch, seen.source_binding.acquired_sequence) =
      some (seen.publication_qpc_bounds.1, seen.publication_qpc_bounds.2, seen.first_observed_slot)

theorem surveySlot_listed {slot : JsonTree} {observation : Observation}
    (h : surveySlot token scope images s slot observation = .ok s') (hs : Listed s) :
    Listed s' := by
  unfold surveySlot at h
  cases hcapture : captureIn slot with
  | none =>
    rw [hcapture] at h
    cases h
    intro row hrow seen hseen
    rcases mem_append.mp hrow with hold | hnew
    · exact hs row hold seen hseen
    · cases mem_singleton.mp hnew
      cases hseen
  | some capture =>
    simp only [hcapture, bind_ok, pure_ok, known_ok] at h
    obtain ⟨⟨lower, upper, first⟩, hwindow, bmp, -, rfl⟩ := h
    intro row hrow seen hseen
    rw [Survey.across_rows] at hrow
    rcases mem_append.mp hrow with hold | hnew
    · exact lookup_publish (hs row hold seen hseen)
    · cases mem_singleton.mp hnew
      cases hseen
      exact hwindow

theorem surveySlots_listed {pairs : List (JsonTree × Observation)}
    (h : surveySlots token scope images s pairs = .ok s') (hs : Listed s) : Listed s' := by
  induction pairs generalizing s with
  | nil =>
    rw [surveySlots] at h
    cases h
    exact hs
  | cons pair rest ih =>
    obtain ⟨slot, observation⟩ := pair
    rw [surveySlots, bind_ok] at h
    obtain ⟨next, hslot, hrest⟩ := h
    exact ih hrest (surveySlot_listed hslot hs)

/-- One epoch: as many sources as sequence numbers. -/
theorem fresh_sources {shots : List (Nat × Capture)}
    (h : shots.IsChain fun a b => Succeeds a.2 b.2) :
    fresh none (shots.map (·.2.source)) = fresh none (shots.map (·.2.acquired_sequence)) := by
  cases shots with
  | nil => rfl
  | cons first rest =>
    have hepoch : ∀ shot ∈ first :: rest, shot.2.presenter_epoch = first.2.presenter_epoch := by
      intro shot hshot
      have hchain : (first :: rest).IsChain (Follows (fun _ => ())
          fun shot => shot.2.presenter_epoch) :=
        h.imp fun _ _ hab => ⟨le_refl _, fun _ => hab.1⟩
      exact KeyedStream.agrees hchain hshot mem_cons_self rfl
    have hsources : (first :: rest).map (·.2.source) =
        ((first :: rest).map (·.2.acquired_sequence)).map
          (Prod.mk first.2.presenter_epoch) := by
      rw [map_map]
      apply map_congr_left
      intro shot hshot
      exact congrArg (·, shot.2.acquired_sequence) (hepoch shot hshot)
    rw [hsources]
    exact KeyedStream.fresh_map (Prod.mk_right_injective _) none _

end Runs

/-! ### A census and an analysis against the receipt -/

/-- What an analysis says of the collected slots of a receipt. -/
structure Spans (receipt : JsonTree) (analysis : Analysis) : Prop where
  ids : ∀ first ∈ (collectedSlots receipt).head?, ∀ last ∈ (collectedSlots receipt).getLast?,
    analysis.unsampled_source_ids_between_observed_endpoints + analysis.unique_sources =
      (last.2.acquired_sequence : Int) - first.2.acquired_sequence + 1
  bounds : ∀ a ∈ analysis.observations, ∀ b ∈ analysis.observations, ∀ x ∈ a.sighting,
    ∀ y ∈ b.sighting, x.source_binding = y.source_binding →
      x.publication_qpc_bounds = y.publication_qpc_bounds ∧
        x.first_observed_slot = y.first_observed_slot

theorem analyze_spans {sha256 : List UInt8 → String} {read_image : Reader} {receipt : JsonTree}
    {token : String} {names : List String} {execution : JsonTree} {expected : Option String}
    {analysis : Analysis}
    (h : analyze sha256 read_image receipt token names execution expected = .ok analysis) :
    Spans receipt analysis := by
  simp only [analyze, bind_ok, pure_ok] at h
  obtain ⟨scope, -, schedule, hresolve, decoded, hdecode, s, hsurvey, rfl⟩ := h
  obtain ⟨t, hrun, hunique, -, -, -, hobserved⟩ := decode_run hdecode
  have hchain := (resolve_rows hresolve).2.2.2
  constructor
  · have htotal := surveySlots_run hobserved.symm hsurvey (rfl : Recalls {} none) 0
    have hfresh := hrun.unique
    rw [← collectedSlots] at htotal
    rw [Option.map_none, fresh_sources hchain] at hfresh
    intro first hfirst last hlast
    dsimp only
    rw [htotal, hunique, hfresh]
    cases hshots : collectedSlots receipt with
    | nil =>
      rw [hshots] at hfirst
      cases hfirst
    | cons shot rest =>
      rw [hshots] at hfirst hlast
      cases hfirst
      have hlast' : (rest.map (·.2.acquired_sequence)).getLastD first.2.acquired_sequence =
          last.2.acquired_sequence := by
        rw [getLast?_cons, Option.mem_some] at hlast
        rw [← hlast, getLastD_eq_getLast?, getLast?_map]
        cases rest.getLast? <;> rfl
      rw [map_cons, ← hlast', ← KeyedStream.skipped_none]
      simp
  · have hlisted := surveySlots_listed hsurvey (fun _ hrow => nomatch hrow)
    intro a ha b hb x hx y hy heq
    have hleft := hlisted a ha x hx
    rw [heq, hlisted b hb y hy, Option.some.injEq, Prod.mk.injEq, Prod.mk.injEq] at hleft
    exact ⟨Prod.ext hleft.1.symm hleft.2.1.symm, hleft.2.2.symm⟩

/-! ### Nothing of its own that an analysis refuses -/

theorem lookup_publish_self (publications : Publications) (capture : Capture) (index : Nat) :
    ∃ window, (publish publications capture index).lookup capture.source = some window := by
  unfold publish
  split
  · next h => exact Option.isSome_iff_exists.mp h
  · next h =>
    rw [lookup_append, Option.not_isSome_iff_eq_none.mp h, Option.none_or, lookup_cons_self]
    exact ⟨_, rfl⟩

theorem surveySlots_total {token : String} {scope : Execution} {images : List (Nat × String)}
    (pairs : List (JsonTree × Observation)) (s : Survey)
    (h : ∀ pair ∈ pairs, ∀ c ∈ captureIn pair.1,
      number (pair.1.field "slot") ∈ images.map Prod.fst) :
    ∃ s', surveySlots token scope images s pairs = .ok s' := by
  induction pairs generalizing s with
  | nil => exact ⟨s, rfl⟩
  | cons pair rest ih =>
    obtain ⟨slot, observation⟩ := pair
    have hslot : ∃ t, surveySlot token scope images s slot observation = .ok t := by
      unfold surveySlot
      cases hcapture : captureIn slot with
      | none => exact ⟨_, rfl⟩
      | some c =>
        obtain ⟨⟨lower, upper, first⟩, hwindow⟩ :=
          lookup_publish_self s.publications c (number (slot.field "slot"))
        have himage := h _ mem_cons_self c hcapture
        have hsome : (images.lookup (number (slot.field "slot"))).isSome := by
          by_contra hnone
          rw [Option.not_isSome_iff_eq_none, lookup_eq_none_iff] at hnone
          obtain ⟨image, hmem, heq⟩ := mem_map.mp himage
          exact bne_iff_ne.mp (hnone image hmem) heq.symm
        obtain ⟨bmp, hbmp⟩ := Option.isSome_iff_exists.mp hsome
        simp only [hwindow, hbmp, bind_ok, pure_ok, known_ok]
        exact ⟨_, _, rfl, _, rfl, rfl⟩
    obtain ⟨t, ht⟩ := hslot
    obtain ⟨s', hs'⟩ := ih t fun other hother => h other (mem_cons_of_mem _ hother)
    exact ⟨s', bind_ok.mpr ⟨t, ht, hs'⟩⟩

/-- With a scope that passes, an analysis passes wherever the decode does: the image of each
collected slot is there. -/
theorem analyze_of_decode {sha256 : List UInt8 → String} {read_image : Reader} {receipt : JsonTree}
    {token : String} {names : List String} {execution : JsonTree} {expected : Option String}
    {scope : Execution} (hscope : readExecution execution = .ok scope) {result : Decoded}
    (h : decode sha256 read_image receipt token names expected = .ok result) :
    ∃ analysis, analyze sha256 read_image receipt token names execution expected =
      .ok analysis := by
  obtain ⟨t, hrun, -, -, -, himages, -⟩ := decode_run h
  have hdecode := h
  simp only [decode, bind_ok, pure_ok] at h
  obtain ⟨schedule, hresolve, -⟩ := h
  have hnumbers := (resolve_rows hresolve).2.2.1
  have hkept : ((result.images.map fun row => (row.slot, row.sha256)).map Prod.fst) =
      (collectedSlots receipt).map (·.1) := by
    rw [map_map, himages]
    exact hrun.kept
  have hsurvey : ∃ s, surveySlots token scope (result.images.map fun row => (row.slot, row.sha256))
      {} ((slotsOf receipt).zip result.census.observations) = .ok s := by
    apply surveySlots_total
    rintro ⟨slot, observation⟩ hpair c hc
    rw [hkept]
    exact mem_map.mpr ⟨_, hnumbers slot (of_mem_zip hpair).1 c hc, rfl⟩
  obtain ⟨s, hs⟩ := hsurvey
  exact ⟨_, bind_ok.mpr ⟨scope, hscope, bind_ok.mpr ⟨schedule, hresolve,
    bind_ok.mpr ⟨result, hdecode, bind_ok.mpr ⟨s, hs, rfl⟩⟩⟩⟩⟩

/-! ### The collected slots, accounted for -/

/-- Whatever a decode accepts accounts for the collected slots of its receipt, and so does
whatever an analysis of it accepts. -/
theorem sources_accounted {sha256 : List UInt8 → String} {read_image : Reader}
    {receipt : JsonTree} {token : String} {names : List String} {expected : Option String} :
    (∀ result, decode sha256 read_image receipt token names expected = .ok result →
      Accounts read_image receipt result.census) ∧
    ∀ execution analysis,
      analyze sha256 read_image receipt token names execution expected = .ok analysis →
      Spans receipt analysis :=
  ⟨fun _ h => decode_accounts h, fun _ _ h => analyze_spans h⟩

/-! A receipt of the short profile at ten ticks a second: one source twice, a missed slot, another
source four numbers on, and a stop. -/

/-- The document of a slot. -/
def slotTree (index observed : Nat) (status : String) (reason call capture : JsonTree)
    (image : String × Nat) : JsonTree :=
  .obj [("slot", .num index), ("due_qpc", .num (401 + index)), ("observed_qpc", .num observed),
    ("status", .str status), ("reason", reason), ("call_before_qpc", call),
    ("call_after_qpc", call), ("capture", capture), ("image_file", .str (slotName index)),
    ("image_state", .str image.1), ("image_bytes_written", .num image.2)]

/-- A slot whose call takes no time. -/
def collectedTree (index source published : Nat) : JsonTree :=
  let now := JsonTree.num (401 + index)
  slotTree index (401 + index) "COLLECTED" .null now
    (.obj [("presenter_epoch", .num 7), ("acquired_sequence", .num source),
      ("qpc_frequency", .num 10), ("refresh_cpu_begin_qpc", .num published),
      ("refresh_cpu_end_qpc", .num published), ("acquire_before_qpc", now),
      ("acquire_after_qpc", now), ("copy_submit_before_qpc", now),
      ("copy_completion_observed_qpc", now), ("pixels_ready_qpc", now), ("width", .num 1280),
      ("height", .num 720), ("stride", .num 5120)])
    ("complete", BMP_BYTES)

/-- A slot without a call. -/
def uncalledTree (index observed : Nat) (status reason : String) : JsonTree :=
  slotTree index observed status (.str reason) .null .null ("absent", 0)

/-- A short receipt. -/
def shortReceipt : JsonTree :=
  .obj (FALSE_FLAGS.map (·, .bool false) ++
    [("schema", .str "mcla-guest-source-scout-short31-v1"),
      ("token", .str "00000000000000000000000000000000"), ("status", .str INCOMPLETE),
      ("reason", .str REASON), ("readiness_sequence_not_pixel_identity", .num 60),
      ("readiness_wait_ms", .num 0), ("readiness_observed_qpc", .num 1),
      ("scout_delay_seconds", .num 40), ("diagnostic_buffer_limit_bytes", .num BUFFER_LIMIT),
      ("maximum_raw_capture_bytes", .num 114278400),
      ("clock", .str "win32-query-performance-counter"), ("pixel_format", .str "R8G8B8X8"),
      ("file_format", .str "24bit-BGR-bottom-up-BMP"), ("interpretation", .str INTERPRETATION),
      ("sequence", .obj [("begin_qpc", .num 401), ("qpc_frequency", .num 10),
        ("scheduled_slots", .num 31), ("schedule_hz", .num 10), ("width", .num 1280),
        ("height", .num 720),
        ("slots", .arr ([collectedTree 0 60 400, collectedTree 1 60 400,
          uncalledTree 2 404 "MISSED_DEADLINE" "SLOT_WINDOW_ELAPSED", collectedTree 3 64 403,
          uncalledTree 4 500 "NOT_ATTEMPTED" "STOPPED"] ++
          (List.range 26).map fun i =>
            uncalledTree (i + 5) 500 "NOT_ATTEMPTED" "PREVIOUS_STOP"))])])

def shortToken : String := "00000000000000000000000000000000"

def shortNames : List String := ["slot-00.bmp", "slot-01.bmp", "slot-03.bmp"]

/-- The same black image for every slot. -/
def blackReader : Reader := fun _ =>
  .ok (some (bmpHeader ++ replicate (BMP_STRIDE * HEIGHT) 0))

def shortExecution : JsonTree :=
  .obj [("pid", .num 4), ("birth_100ns", .num 1), ("host_sha256",
    .str "0000000000000000000000000000000000000000000000000000000000000000")]

set_option maxRecDepth 20000 in
theorem resolve_short : (resolve shortReceipt shortToken (some SHORT_PROFILE)).toOption.map
    (fun schedule => (schedule.scheduled_slots, schedule.image_names)) = some (31, shortNames) := by
  decide

theorem decode_short (sha256 : List UInt8 → String) : ∃ result,
    decode sha256 blackReader shortReceipt shortToken shortNames (some SHORT_PROFILE) =
      .ok result := by
  obtain ⟨schedule, hschedule, heq⟩ := Option.map_eq_some_iff.mp resolve_short
  have hresolve : resolve shortReceipt shortToken (some SHORT_PROFILE) = .ok schedule := by
    revert hschedule
    cases resolve shortReceipt shortToken (some SHORT_PROFILE) with
    | error reason => exact fun h => nomatch h
    | ok other => exact fun h => congrArg Except.ok (Option.some.inj h)
  rw [Prod.mk.injEq] at heq
  obtain ⟨rgb, hrgb⟩ := bmpRgb_of_pixels (length_replicate : (replicate
    (BMP_STRIDE * HEIGHT) (0 : UInt8)).length = _)
  have hrows : ∃ s, decodeRows sha256 blackReader {} schedule.slots = .ok s :=
    decodeRows_of_still (fun _ => rfl) hrgb schedule.slots fun _ h => nomatch h
  obtain ⟨s, hs⟩ := hrows
  refine ⟨_, bind_ok.mpr ⟨schedule, hresolve, bind_ok.mpr ⟨(), need_ok.mpr ?_,
    bind_ok.mpr ⟨(), need_ok.mpr ?_, bind_ok.mpr ⟨s, hs, rfl⟩⟩⟩⟩⟩
  · rw [heq.1]
    decide
  · rw [heq.2]
    exact ⟨by decide, fun _ h => h, fun _ h => h⟩

set_option maxRecDepth 20000 in
/-- Three numbers are stepped over between the two sources that were seen. -/
theorem sources_accounted_short : ∃ result analysis,
    decode (fun _ => "") blackReader shortReceipt shortToken shortNames (some SHORT_PROFILE) =
      .ok result ∧
    analyze (fun _ => "") blackReader shortReceipt shortToken shortNames shortExecution
      (some SHORT_PROFILE) = .ok analysis ∧
    Accounts blackReader shortReceipt result.census ∧ Spans shortReceipt analysis ∧
    result.census.unique_sources = 2 ∧ result.census.duplicate_sources = 1 := by
  obtain ⟨result, hresult⟩ := decode_short fun _ => ""
  have hscope : readExecution shortExecution = .ok ⟨4, 1,
    "0000000000000000000000000000000000000000000000000000000000000000"⟩ := by decide
  obtain ⟨analysis, hanalysis⟩ := analyze_of_decode hscope hresult
  have haccounts := sources_accounted.1 result hresult
  refine ⟨result, analysis, hresult, hanalysis, haccounts,
    sources_accounted.2 shortExecution analysis hanalysis, ?_, ?_⟩
  · rw [haccounts.unique]
    decide
  · have htotal := haccounts.total
    have hunique := haccounts.unique
    have htwo : ((collectedSlots shortReceipt).map (·.2.source)).dedup.length = 2 := by decide
    have hthree : (collectedSlots shortReceipt).length = 3 := by decide
    omega

end Mcla.SourceScout

import Mathlib

/-! # The developer overrides

`mcla_dev_overrides`: a file of lines `name=true` or `name=false` for a fixed set of keys.
A key writes a text to a cvar, its own or one that several keys share; keys that write
different texts to one cvar must not both be true.
-/
namespace Mcla.DevOverrides
open List

/-- A `std::string_view`. -/
abbrev Bytes := List UInt8

/-- The bytes of a string literal. -/
def literal (s : String) : Bytes := s.toUTF8.data.toList

def kMaxBytes : Nat := 2048
def kMaxIssues : Nat := 16

/-- The overrides that a file may give. -/
inductive Key where
  | readbackSyncComposite | nativeD3dRefcount | nativeXapiInterlocked | wrmEventWake
  | replayBatchedWake | readbackElideUnread | gpuBackendVulkan | prewarmSeedStore
  | readbackSyncTargeted | watchCensus | watchProbes | watchDisarmBridge | uploadAhead16
  | uploadAhead64 | hotBlocksShadow | hotBlocksOn | warpProbe | warpWatchdog | textureSoftCapOff
  | warpFinishFixOff | albumProbe | pursuitProbe | stableCreationTimeOff | contentTraceOff
  | audioSpeakerStereo | audioSpeakerSurround | audioDownmixItuOff | audioChannelRmsProbe
  | albumPreviewRestore | readbackKick256 | readbackKick128 | readbackKick1024 | fetchIdentityOff
  | fetchIdentityVerify | readbackSteadyExempt | xmaSwapCarryPacket | xmaValidOnlyWhenWritten
  | xmaWorkLockRecheck | xmaSwapTrace | xmaSiblingTrace | xmaStallOnInvalidNext | xmaHonorStartSkip
  | xmaResetCodecOnClear | xmaConsumeProbe | xmaHonorFrameTrim | xmaFrameTrimBlockGranular
  | xmaDumpAllRates | xmaDumpContextsOn | xmaFrameWalkTrace | xmaFrameWalkFix | xmaDumpInput
  | lockProbe | lockReadbackEnsure | fenceWriteDeferred | xmaFrameWalkFixOff | rawTimerOff
  | vblankHz72 | vblankHz80 | vblankHz88 | readbackSteadyExemptOff | fenceWriteDeferredOff
  | fenceDeferGap2000
deriving DecidableEq

/-- The keys in the order of their numbers. -/
def allKeys : List Key :=
  [.readbackSyncComposite, .nativeD3dRefcount, .nativeXapiInterlocked, .wrmEventWake,
    .replayBatchedWake, .readbackElideUnread, .gpuBackendVulkan, .prewarmSeedStore,
    .readbackSyncTargeted, .watchCensus, .watchProbes, .watchDisarmBridge, .uploadAhead16,
    .uploadAhead64, .hotBlocksShadow, .hotBlocksOn, .warpProbe, .warpWatchdog,
    .textureSoftCapOff, .warpFinishFixOff, .albumProbe, .pursuitProbe, .stableCreationTimeOff,
    .contentTraceOff, .audioSpeakerStereo, .audioSpeakerSurround, .audioDownmixItuOff,
    .audioChannelRmsProbe, .albumPreviewRestore, .readbackKick256, .readbackKick128,
    .readbackKick1024, .fetchIdentityOff, .fetchIdentityVerify, .readbackSteadyExempt,
    .xmaSwapCarryPacket, .xmaValidOnlyWhenWritten, .xmaWorkLockRecheck, .xmaSwapTrace,
    .xmaSiblingTrace, .xmaStallOnInvalidNext, .xmaHonorStartSkip, .xmaResetCodecOnClear,
    .xmaConsumeProbe, .xmaHonorFrameTrim, .xmaFrameTrimBlockGranular, .xmaDumpAllRates,
    .xmaDumpContextsOn, .xmaFrameWalkTrace, .xmaFrameWalkFix, .xmaDumpInput, .lockProbe,
    .lockReadbackEnsure, .fenceWriteDeferred, .xmaFrameWalkFixOff, .rawTimerOff, .vblankHz72,
    .vblankHz80, .vblankHz88, .readbackSteadyExemptOff, .fenceWriteDeferredOff,
    .fenceDeferGap2000]

/-- `KeyInfo`, so far as the parser and the cvar texts read it: an empty cvar is the name of
the key, an empty text is not written. -/
structure KeyInfo where
  name : Bytes
  cvar : Bytes := []
  trueText : Bytes := literal "true"
  falseText : Bytes := literal "false"

/-- `kKeys`. -/
def info : Key → KeyInfo
  | .readbackSyncComposite => { name := literal "mcla_readback_sync_composite" }
  | .nativeD3dRefcount => { name := literal "mcla_native_d3d_refcount" }
  | .nativeXapiInterlocked => { name := literal "mcla_native_xapi_interlocked" }
  | .wrmEventWake => { name := literal "d3d12_wrm_event_wake" }
  | .replayBatchedWake => { name := literal "d3d12_replay_batched_wake" }
  | .readbackElideUnread => { name := literal "d3d12_readback_elide_unread" }
  | .gpuBackendVulkan => { name := literal "mcla_gpu_backend_vulkan" }
  | .prewarmSeedStore => { name := literal "prewarm_seed_store" }
  | .readbackSyncTargeted => { name := literal "d3d12_readback_sync_targeted" }
  | .watchCensus => { name := literal "memory_watch_census" }
  | .watchProbes => { name := literal "memory_watch_probes" }
  | .watchDisarmBridge => { name := literal "memory_watch_disarm_bridge_safe_gaps" }
  | .uploadAhead16 =>
      ⟨literal "shared_memory_upload_ahead_16", literal "shared_memory_upload_ahead_pages",
        literal "16", []⟩
  | .uploadAhead64 =>
      ⟨literal "shared_memory_upload_ahead_64", literal "shared_memory_upload_ahead_pages",
        literal "64", []⟩
  | .hotBlocksShadow =>
      ⟨literal "shared_memory_hot_blocks_shadow", literal "shared_memory_hot_blocks",
        literal "1", []⟩
  | .hotBlocksOn =>
      ⟨literal "shared_memory_hot_blocks_on", literal "shared_memory_hot_blocks", literal "2", []⟩
  | .warpProbe => { name := literal "mcla_warp_probe" }
  | .warpWatchdog =>
      ⟨literal "mcla_warp_watchdog", literal "mcla_warp_watchdog_seconds", literal "15", []⟩
  | .textureSoftCapOff =>
      ⟨literal "mcla_texture_budget_soft_cap_off", literal "mcla_texture_budget_soft_cap_mb",
        literal "0", []⟩
  | .warpFinishFixOff =>
      ⟨literal "mcla_warp_finish_fix_off", literal "mcla_warp_finish_fix", literal "false", []⟩
  | .albumProbe => { name := literal "mcla_album_probe" }
  | .pursuitProbe => { name := literal "mcla_pursuit_probe" }
  | .stableCreationTimeOff =>
      ⟨literal "xam_content_stable_creation_time_off", literal "xam_content_stable_creation_time",
        literal "false", []⟩
  | .contentTraceOff =>
      ⟨literal "xam_content_trace_off", literal "xam_content_trace", literal "false", []⟩
  | .audioSpeakerStereo =>
      ⟨literal "audio_speaker_config_stereo", literal "audio_speaker_config", literal "stereo", []⟩
  | .audioSpeakerSurround =>
      ⟨literal "audio_speaker_config_surround", literal "audio_speaker_config",
        literal "surround", []⟩
  | .audioDownmixItuOff =>
      ⟨literal "audio_downmix_itu_off", literal "audio_downmix_itu", literal "false", []⟩
  | .audioChannelRmsProbe => { name := literal "audio_channel_rms_probe" }
  | .albumPreviewRestore => { name := literal "mcla_album_preview_restore" }
  | .readbackKick256 =>
      ⟨literal "readback_kick_256", literal "d3d12_readback_sync_kick_draws", literal "256", []⟩
  | .readbackKick128 =>
      ⟨literal "readback_kick_128", literal "d3d12_readback_sync_kick_draws", literal "128", []⟩
  | .readbackKick1024 =>
      ⟨literal "readback_kick_1024", literal "d3d12_readback_sync_kick_draws", literal "1024", []⟩
  | .fetchIdentityOff =>
      ⟨literal "fetch_identity_off", literal "d3d12_fetch_identity_cache", literal "false", []⟩
  | .fetchIdentityVerify =>
      ⟨literal "fetch_identity_verify", literal "d3d12_fetch_identity_verify", literal "true", []⟩
  | .readbackSteadyExempt =>
      ⟨literal "readback_steady_exempt", literal "d3d12_readback_sync_steady_exempt",
        literal "true", []⟩
  | .xmaSwapCarryPacket => ⟨literal "xma_swap_carry_packet", [], literal "true", []⟩
  | .xmaValidOnlyWhenWritten => ⟨literal "xma_valid_only_when_written", [], literal "true", []⟩
  | .xmaWorkLockRecheck => ⟨literal "xma_work_lock_recheck", [], literal "true", []⟩
  | .xmaSwapTrace => ⟨literal "xma_swap_trace", [], literal "true", []⟩
  | .xmaSiblingTrace => ⟨literal "xma_sibling_trace", [], literal "true", []⟩
  | .xmaStallOnInvalidNext => ⟨literal "xma_stall_on_invalid_next", [], literal "true", []⟩
  | .xmaHonorStartSkip => ⟨literal "xma_honor_start_skip", [], literal "true", []⟩
  | .xmaResetCodecOnClear => ⟨literal "xma_reset_codec_on_clear", [], literal "true", []⟩
  | .xmaConsumeProbe => { name := literal "mcla_xma_consume_probe" }
  | .xmaHonorFrameTrim => ⟨literal "xma_honor_frame_trim", [], literal "true", []⟩
  | .xmaFrameTrimBlockGranular => ⟨literal "xma_frame_trim_block_granular", [], literal "true", []⟩
  | .xmaDumpAllRates => ⟨literal "xma_dump_all_rates", [], literal "true", []⟩
  | .xmaDumpContextsOn =>
      ⟨literal "xma_dump_contexts_on", literal "xma_dump_contexts",
        literal "<diagnostics>/xma-dump/<yyyyMMdd-HHmmss>", []⟩
  | .xmaFrameWalkTrace => ⟨literal "xma_frame_walk_trace", [], literal "true", []⟩
  | .xmaFrameWalkFix => ⟨literal "xma_frame_walk_fix", [], literal "true", []⟩
  | .xmaDumpInput => ⟨literal "xma_dump_input", [], literal "true", []⟩
  | .lockProbe => { name := literal "mcla_lock_probe" }
  | .lockReadbackEnsure => { name := literal "mcla_lock_readback_ensure" }
  | .fenceWriteDeferred =>
      ⟨literal "fence_write_deferred", literal "d3d12_fence_write_deferred", literal "true", []⟩
  | .xmaFrameWalkFixOff =>
      ⟨literal "xma_frame_walk_fix_off", literal "xma_frame_walk_fix", literal "false", []⟩
  | .rawTimerOff => ⟨literal "raw_timer_off", literal "mcla_raw_timer", literal "false", []⟩
  | .vblankHz72 => ⟨literal "vblank_hz_72", literal "mcla_guest_vblank_hz", literal "72", []⟩
  | .vblankHz80 => ⟨literal "vblank_hz_80", literal "mcla_guest_vblank_hz", literal "80", []⟩
  | .vblankHz88 => ⟨literal "vblank_hz_88", literal "mcla_guest_vblank_hz", literal "88", []⟩
  | .readbackSteadyExemptOff =>
      ⟨literal "readback_steady_exempt_off", literal "d3d12_readback_sync_steady_exempt",
        literal "false", []⟩
  | .fenceWriteDeferredOff =>
      ⟨literal "fence_write_deferred_off", literal "d3d12_fence_write_deferred",
        literal "false", []⟩
  | .fenceDeferGap2000 =>
      ⟨literal "fence_defer_gap_2000", literal "d3d12_fence_defer_min_gap_us", literal "2000", []⟩

/-- `kConflictPairs`. -/
def kConflictPairs : List (Key × Key) :=
  [(.uploadAhead16, .uploadAhead64), (.hotBlocksShadow, .hotBlocksOn),
    (.audioSpeakerStereo, .audioSpeakerSurround), (.readbackKick256, .readbackKick128),
    (.readbackKick256, .readbackKick1024), (.readbackKick128, .readbackKick1024),
    (.xmaFrameWalkFix, .xmaFrameWalkFixOff), (.vblankHz72, .vblankHz80),
    (.vblankHz72, .vblankHz88), (.vblankHz80, .vblankHz88),
    (.readbackSteadyExempt, .readbackSteadyExemptOff),
    (.fenceWriteDeferred, .fenceWriteDeferredOff)]

/-- `CvarName`. -/
def cvarName (key : Key) : Bytes :=
  if (info key).cvar = [] then (info key).name else (info key).cvar

/-- `CvarText`. -/
def cvarText (key : Key) (value : Bool) : Bytes :=
  if value then (info key).trueText else (info key).falseText

/-- `FindKey`. -/
def findKey (name : Bytes) : Option Key := allKeys.find? fun key => (info key).name == name

/-- What became of the file. -/
inductive FileStatus where
  | absent | rejected | parsed
deriving DecidableEq

/-- What is wrong with a line. -/
inductive LineIssue where
  | malformed | unknownName | duplicate | conflict
deriving DecidableEq

/-- A line of the file, and what is wrong with it. -/
structure Issue where
  line : Nat
  issue : LineIssue

/-- The issues are those stored; their number is `issue_count`. -/
structure Parsed where
  status : FileStatus
  values : Key → Option Bool
  lines : Key → Nat
  issues : List Issue
  ignoredLines : Nat

/-- `Parsed{}` with a status. -/
def Parsed.empty (status : FileStatus) : Parsed := ⟨status, fun _ => none, fun _ => 0, [], 0⟩

/-- `AddIssue`. -/
def addIssue (parsed : Parsed) (line : Nat) (issue : LineIssue) : Parsed :=
  { parsed with
    issues := if parsed.issues.length < kMaxIssues then parsed.issues ++ [⟨line, issue⟩]
      else parsed.issues
    ignoredLines := parsed.ignoredLines + 1 }

/-- The loop of `ParseLine` over the characters: the place of the equals sign, or nothing
for a character that may not stand there. -/
def scan (i : Nat) (equals : Option Nat) : Bytes → Option (Option Nat)
  | [] => some equals
  | c :: rest =>
      if c.toNat < 0x21 || c.toNat > 0x7e then none
      else if c = 61 then
        if equals.isSome then none else scan (i + 1) (some i) rest
      else scan (i + 1) equals rest

/-- The end of `ParseLine`, for a well-formed line. -/
def assign (parsed : Parsed) (number : Nat) (name : Bytes) (value : Bool) : Parsed :=
  match findKey name with
  | none => addIssue parsed number .unknownName
  | some key =>
      if (parsed.values key).isSome then addIssue parsed number .duplicate
      else { parsed with
        values := Function.update parsed.values key (some value)
        lines := Function.update parsed.lines key number }

/-- A line without its carriage return. -/
def stripReturn (line : Bytes) : Bytes := if line.getLast? = some 13 then line.dropLast else line

/-- `ParseLine`. -/
def parseLine (parsed : Parsed) (number : Nat) (line : Bytes) : Parsed :=
  let line := stripReturn line
  if line.isEmpty || line.head? == some 35 then parsed
  else
    match scan 0 none line with
    | none => addIssue parsed number .malformed
    | some none => addIssue parsed number .malformed
    | some (some equals) =>
        if equals = 0 then addIssue parsed number .malformed
        else if line.drop (equals + 1) = literal "true" then
          assign parsed number (line.take equals) true
        else if line.drop (equals + 1) = literal "false" then
          assign parsed number (line.take equals) false
        else addIssue parsed number .malformed

/-- The pair loop of `ResolveConflicts`: which keys are dropped, and which are logged. -/
def markPairs (parsed : Parsed) (marks : (Key → Bool) × (Key → Bool)) :
    List (Key × Key) → (Key → Bool) × (Key → Bool)
  | [] => marks
  | (a, b) :: rest =>
      if parsed.values a = some true ∧ parsed.values b = some true then
        markPairs parsed
          (Function.update (Function.update marks.1 a true) b true,
            Function.update marks.2 (if parsed.lines a > parsed.lines b then a else b) true) rest
      else markPairs parsed marks rest

/-- A key that the inner loop of the log looks at. -/
def loggedAfter (lines : Key → Nat) (logged : Key → Bool) (previous : Nat) (key : Key) : Bool :=
  logged key && lines key > previous

/-- The inner loop of the log: the next logged line after `previous`, or zero. -/
def nextLine (lines : Key → Nat) (logged : Key → Bool) (previous : Nat) (keys : List Key) : Nat :=
  keys.foldl (fun next key =>
    if loggedAfter lines logged previous key && (next == 0 || lines key < next) then lines key
    else next) 0

/-- The inner loop finds the first of the logged lines after `previous`. -/
theorem nextLine_spec (lines : Key → Nat) (logged : Key → Bool) (previous : Nat) (keys : List Key) :
    (nextLine lines logged previous keys = 0 ∧
      ∀ key ∈ keys, loggedAfter lines logged previous key = false) ∨
    previous < nextLine lines logged previous keys ∧
      (∃ key ∈ keys, loggedAfter lines logged previous key = true ∧
        lines key = nextLine lines logged previous keys) ∧
      ∀ key ∈ keys, loggedAfter lines logged previous key = true →
        nextLine lines logged previous keys ≤ lines key := by
  induction keys using reverseRecOn with
  | nil => exact .inl ⟨rfl, by simp⟩
  | append_singleton keys key ih =>
    have hstep : nextLine lines logged previous (keys ++ [key]) =
        if loggedAfter lines logged previous key &&
            (nextLine lines logged previous keys == 0 ||
              lines key < nextLine lines logged previous keys) then lines key
        else nextLine lines logged previous keys := by
      unfold nextLine
      rw [foldl_append, foldl_cons, foldl_nil]
    rw [hstep]
    simp only [mem_append, mem_singleton]
    cases hkey : loggedAfter lines logged previous key with
    | false =>
      rw [Bool.false_and]
      simp only [Bool.false_eq_true, if_false]
      rcases ih with ⟨hzero, hnone⟩ | ⟨hlt, ⟨first, hmem, hfirst, heq⟩, hle⟩
      · left
        refine ⟨hzero, ?_⟩
        rintro k (hk | rfl)
        · exact hnone k hk
        · exact hkey
      · refine .inr ⟨hlt, ⟨first, .inl hmem, hfirst, heq⟩, ?_⟩
        rintro k (hk | rfl) hlogged
        · exact hle k hk hlogged
        · rw [hkey] at hlogged
          cases hlogged
    | true =>
      have hafter : previous < lines key := by
        simp only [loggedAfter, Bool.and_eq_true, decide_eq_true_eq] at hkey
        exact hkey.2
      right
      rw [Bool.true_and]
      split_ifs with hless
      · refine ⟨hafter, ⟨key, .inr rfl, hkey, rfl⟩, ?_⟩
        rintro k (hk | rfl) hlogged
        · rcases ih with ⟨hzero, hnone⟩ | ⟨hlt, -, hle⟩
          · rw [hnone k hk] at hlogged
            cases hlogged
          · have := hle k hk hlogged
            simp only [Bool.or_eq_true, beq_iff_eq, decide_eq_true_eq] at hless
            omega
        · exact le_refl _
      · simp only [Bool.or_eq_true, beq_iff_eq, decide_eq_true_eq, not_or, Nat.not_lt] at hless
        rcases ih with ⟨hzero, -⟩ | ⟨hlt, ⟨first, hmem, hfirst, heq⟩, hle⟩
        · exact absurd hzero hless.1
        · refine ⟨hlt, ⟨first, .inl hmem, hfirst, heq⟩, ?_⟩
          rintro k (hk | rfl) hlogged
          · exact hle k hk hlogged
          · exact hless.2

/-- Fewer logged lines are left after the one that was found. -/
theorem loggedAfter_length_lt {lines : Key → Nat} {logged : Key → Bool} {previous : Nat}
    (h : nextLine lines logged previous allKeys ≠ 0) :
    (allKeys.filter (loggedAfter lines logged (nextLine lines logged previous allKeys))).length <
      (allKeys.filter (loggedAfter lines logged previous)).length := by
  rcases nextLine_spec lines logged previous allKeys with ⟨hzero, -⟩ | ⟨hlt, ⟨key, hmem, hkey, heq⟩, -⟩
  · exact absurd hzero h
  · have hlater : ∀ k, loggedAfter lines logged (nextLine lines logged previous allKeys) k =
        (loggedAfter lines logged (nextLine lines logged previous allKeys) k &&
          loggedAfter lines logged previous k) := by
      intro k
      rw [Bool.eq_iff_iff]
      simp only [loggedAfter, Bool.and_eq_true, decide_eq_true_eq]
      constructor
      · rintro ⟨hk, hline⟩
        exact ⟨⟨hk, hline⟩, hk, hlt.trans hline⟩
      · exact And.left
    rw [funext hlater, ← filter_filter, length_filter_lt_length_iff_exists]
    refine ⟨key, mem_filter.mpr ⟨hmem, hkey⟩, ?_⟩
    simp [loggedAfter, heq]

/-- The outer loop of the log. -/
def logConflicts (lines : Key → Nat) (logged : Key → Bool) (parsed : Parsed) (previous : Nat) :
    Parsed :=
  if nextLine lines logged previous allKeys = 0 then parsed
  else logConflicts lines logged
    (addIssue parsed (nextLine lines logged previous allKeys) .conflict)
    (nextLine lines logged previous allKeys)
termination_by (allKeys.filter (loggedAfter lines logged previous)).length
decreasing_by exact loggedAfter_length_lt ‹_›

/-- `ResolveConflicts`. -/
def resolveConflicts (parsed : Parsed) : Parsed :=
  let (dropped, logged) := markPairs parsed (fun _ => false, fun _ => false) kConflictPairs
  let reported := logConflicts parsed.lines logged parsed 0
  { reported with values := fun key => if dropped key then none else reported.values key }

/-- The line loop of `Parse`; the line numbers are 16-bit. -/
def parseLines (parsed : Parsed) (number : Nat) (content : Bytes) : Parsed :=
  match content with
  | [] => parsed
  | c :: rest =>
      let number := (number + 1) % 2 ^ 16
      match h : (c :: rest).idxOf? 10 with
      | none => parseLine parsed number (c :: rest)
      | some stop =>
          parseLines (parseLine parsed number ((c :: rest).take stop)) number
            ((c :: rest).drop (stop + 1))
termination_by content.length
decreasing_by
  simp only [length_drop, length_cons]
  omega

/-- `Parse`. -/
def parse (content : Bytes) : Parsed :=
  if content.length > kMaxBytes then .empty .rejected
  else if content.any fun c => c.toNat > 0x7f then .empty .rejected
  else resolveConflicts (parseLines (.empty .parsed) 0 content)

end Mcla.DevOverrides

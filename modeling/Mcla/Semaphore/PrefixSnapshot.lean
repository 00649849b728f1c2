import Mcla.Library.JsonTree
import Mcla.Semaphore.CreditSize
import Mcla.Semaphore.Snapshot

/-! # The semaphore observer: the document of a snapshot

`PrefixJson` checks the rows of a snapshot and writes them out.  What the snapshot has no clock
for is written as null, and so is the outcome of an operation that is pending.
-/
namespace Mcla.Semaphore

def kMaxJsonBytes : Nat := 32 * 1024 * 1024

/-- `Name(value)`, empty for a value outside the names. -/
def Kind.name : Kind → String
  | .kRelease => "release" | .kWait => "wait" | .kWaitMultiple => "wait_multiple"
  | .kSignalAndWait => "signal_and_wait" | .kSave => "save" | .kRestore => "restore"
  | .kLifecycleGap => "lifecycle_gap" | .kUnknown => "unknown" | .other _ => ""

namespace Snapshot

/-- The issues that a healthy freeze may have. -/
def expectedIssues : Nat :=
  Issue.kEarlyCut.bit ||| Issue.kIncompleteCut.bit ||| Issue.kUnsupported.bit |||
    Issue.kNonfreshOrigin.bit ||| Issue.kInitialCredits.bit ||| Issue.kOperationOverflow.bit

variable (s : Snapshot)

/-- `Fatal` -/
def fatal : Bool :=
  s.issues &&& ((2 ^ 32 - 1) ^^^ expectedIssues) ≠ 0 ∨
    s.diagnostics.unknown_object_attempts ≠ 0 ∨ s.diagnostics.rejected_attempts ≠ 0 ∨
    s.diagnostics.stopped_attempts ≠ 0

/-! ### Representable -/

/-- An epoch that cannot be written. -/
def refusesEpoch (row : Epoch) : Bool :=
  row.epoch_id = 0 ∨ row.object_cookie = 0 ∨ row.creation_qpc ≥ s.freeze ∨
    row.maximum_count = 0 ∨ row.maximum_count > kMaxCount ∨
    row.initial_count > row.maximum_count ∨ row.origin.nameless ∨
    row.destroy_qpc.any fun destroyed => destroyed ≤ row.creation_qpc ∨ destroyed > s.freeze

/-- The checks of the previous count of a successful release. -/
def refusesPrevious (epoch : Epoch) (row : Operation) : Bool :=
  match row.previous_count with
  | none => true
  | some previous => previous < 0 ∨ previous.toNat > epoch.maximum_count ∨
    row.release_count > epoch.maximum_count - previous.toNat

/-- The checks of a release against its epoch. -/
def refusesRelease (epoch : Epoch) (row : Operation) : Bool :=
  row.release_count = 0 ∨ row.release_count > kMaxCount ∨ row.context.kind.nameless ∨
    (if row.context.kind = .kUpdate then !row.context.generation.valid
      else row.context.generation ≠ {}) ∨
    row.completed ∧ row.release_success ∧ refusesPrevious epoch row ∨
    (¬ row.completed ∨ ¬ row.release_success) ∧ row.previous_count.isSome

/-- The checks of row `i`, after the entry `last_entry`. -/
def refusesOperation (i last_entry : Nat) (row : Operation) : Bool :=
  row.op_id ≠ i + 1 ∨ row.epoch_id = 0 ∨ row.epoch_id > s.epochs.length ∨
    row.native_thread_id = 0 ∨ row.guest_handle = some 0 ∨ row.kind.nameless ∨
    row.entry_qpc > kMaxQpc ∨ row.exit_qpc > kMaxQpc ∨
    let epoch := s.epochs.getD (row.epoch_id - 1) {}
    row.entry_qpc ≠ 0 ∧ (row.entry_qpc < s.window.begin_qpc ∨ row.entry_qpc > s.freeze ∨
      row.entry_qpc ≤ epoch.creation_qpc ∨ row.entry_qpc < last_entry ∨
      epoch.destroy_qpc.any fun destroyed => row.entry_qpc ≥ destroyed) ∨
    ¬ row.completed ∧ (row.exit_qpc ≠ 0 ∨ epoch.destroy_qpc.isSome) ∨
    row.completed ∧ (row.exit_qpc > s.freeze ∨
      row.exit_qpc ≠ 0 ∧ (row.entry_qpc ≠ 0 ∧ row.exit_qpc < row.entry_qpc ∨
        epoch.destroy_qpc.any fun destroyed => row.exit_qpc ≥ destroyed)) ∨
    row.kind = .kRelease ∧ refusesRelease epoch row ∨
    row.kind = .kWait ∧ (row.timeout_kind.nameless ∨ row.wait_result.nameless)

/-- The loop over the operations, from row `i` on. -/
def representableFrom (s : Snapshot) : Nat → Nat → Nat → List Operation → Bool
  | _, _, completed, [] => completed = s.counts.completed_operations
  | i, last_entry, completed, row :: rest =>
    !refusesOperation s i last_entry row ∧
      representableFrom s (i + 1) (if row.entry_qpc ≠ 0 then row.entry_qpc else last_entry)
        (if row.completed then completed + 1 else completed) rest

/-- `Representable` -/
def representable : Bool :=
  (s.epochs.all fun row => !refusesEpoch s row) ∧ representableFrom s 0 0 0 s.operations

/-! ### The writer -/

def number (value : Nat) : JsonTree := .num value

/-- `Clock` -/
def clockJson (value : Nat) : JsonTree := if value ≠ 0 then number value else .null

def orNull {α : Type} (write : α → JsonTree) (value : Option α) : JsonTree :=
  (value.map write).getD .null

/-- `Epoch` -/
def epochJson (row : Epoch) (admission_covered : Bool) : JsonTree := .obj [
  ("epoch_id", number row.epoch_id), ("object_cookie", number row.object_cookie),
  ("creation_qpc", number row.creation_qpc), ("destroy_qpc", orNull number row.destroy_qpc),
  ("initial_count", number row.initial_count), ("maximum_count", number row.maximum_count),
  ("origin", .str row.origin.name), ("history_complete", .bool admission_covered)]

/-- The document of a context. -/
def contextJson (context : ReleaseContext) : JsonTree := .obj [
  ("kind", .str context.kind.name),
  ("generation", if context.kind = .kUpdate then
      .obj [("thread_epoch", number context.generation.thread_epoch),
        ("serial", number context.generation.serial)]
    else .null)]

/-- The document of a payload. -/
def payloadJson (row : Operation) : JsonTree :=
  if row.kind = .kRelease then .obj [
    ("count", number row.release_count),
    ("success", if row.completed then .bool row.release_success else .null),
    ("previous_count", if row.completed then orNull .num row.previous_count else .null),
    ("context", contextJson row.context)]
  else if row.kind = .kWait then .obj [
    ("result", if row.completed then .str row.wait_result.name else .null),
    ("timeout_kind", .str row.timeout_kind.name)]
  else .obj []

/-- `PrefixOperation` -/
def operationJson (row : Operation) : JsonTree := .obj [
  ("op_id", number row.op_id), ("epoch_id", number row.epoch_id),
  ("native_thread_id", number row.native_thread_id),
  ("guest_handle", orNull number row.guest_handle), ("entry_qpc", clockJson row.entry_qpc),
  ("exit_qpc", if row.completed then clockJson row.exit_qpc else .null),
  ("kind", .str row.kind.name), ("completed", .bool row.completed),
  ("payload", payloadJson row)]

/-- The proof flags of `Proofs`. -/
def proofs : List (String × JsonTree) :=
  [("native_admitted", .bool false), ("simulation_proven", .bool false),
    ("render_proven", .bool false), ("fps_proven", .bool false),
    ("frame_to_step_mapping_proven", .bool false), ("object_identity_proven", .bool false),
    ("object_lifetime_proven", .bool false), ("prefix_history_proven", .bool false),
    ("update_causality_proven", .bool false)]

/-- The document of the counters. -/
def countsJson : JsonTree := .obj [
  ("observed_operations", number s.counts.observed_operations),
  ("stored_operations", number s.counts.stored_operations),
  ("completed_operations", number s.counts.completed_operations),
  ("pending_operations", number s.pending),
  ("lost_operations", number s.counts.overflow_operations)]

/-- The coverage reaches to the freeze. -/
def covered (claim : EpochCoverage) : Bool :=
  claim.creation = .kCompleteThroughFreeze ∧ claim.operations = .kCompleteThroughFreeze

/-- The document of the losses. -/
def lossJson : List JsonTree :=
  if s.counts.overflow_operations ≠ 0 then [.obj [
    ("first_op_id", number (s.counts.stored_operations + 1)),
    ("last_op_id", number s.counts.observed_operations),
    ("entry_lower_bound_qpc", .null), ("kind", .str "overflow")]]
  else []

/-- The journal is written. -/
def document : JsonTree := .obj ([
  ("schema", .str "mcla-semaphore-prefix-journal-v2"), ("token", .str s.token),
  ("clock", .str "win32-query-performance-counter"), ("qpc_frequency", number s.window.qpc_frequency),
  ("observer_begin_qpc", number s.window.begin_qpc), ("freeze_qpc", number s.freeze),
  ("capacity", number kOperationCapacity),
  ("admission_inventory_complete", .bool (s.inventory = .kCompleteThroughFreeze ∧ ¬ s.fatal)),
  ("observer_failed", .bool (s.coverage_failed || s.fatal)),
  ("unknown_coverage_gap", .bool (s.coverage_gap || s.fatal))] ++ proofs ++ [
  ("counts", countsJson s),
  ("epochs", .arr ((s.epochs.zip s.coverage).map fun (row, claim) => epochJson row (covered claim))),
  ("operations", .arr (s.operations.map operationJson)), ("loss_ranges", .arr (lossJson s))])

/-- `PrefixJson`.  `allocated` says whether the memory for the text is there. -/
def prefixJson (allocated : Bool) : Except Error JsonTree :=
  if ¬ s.representable then .error .kUnrepresentable
  else if ¬ allocated then .error .kAllocation
  else if s.document.text.length > kMaxJsonBytes then .error .kTooLarge
  else .ok s.document

end Snapshot
end Mcla.Semaphore

import Mcla.Semaphore.CreditSize

/-! # The prefix audit

A reader of the journal of a run that was frozen before its end, in the second version.  It
validates the whole document, finds for each epoch the longest prefix of components that ends
without a credit, and hands that prefix to the audit of the first version.
-/
namespace Mcla.Semaphore
open Intervals (components)

namespace Prefix
open Credit (need uint uintOrNull U64)

def maxLossRanges : Nat := 4096

/-- The payload of an operation that may be pending: its outcome may be null. -/
inductive Payload where
  | release (count : Nat) (success : Option Bool) (previous_count : Option Nat)
      (context : Credit.Context)
  | wait (result : Option WaitResult) (timeout_kind : TimeoutKind)
  | unsupported (kind : String)
  deriving DecidableEq

/-- One operation on a semaphore, complete or not. -/
structure Operation where
  (op_id epoch_id native_thread_id : Nat := 0)
  (guest_handle entry_qpc exit_qpc : Option Nat := none)
  completed : Bool := false
  payload : Payload
  deriving DecidableEq

/-- How operations were lost. -/
inductive LossKind where
  | overflow | coverage_gap | unsupported_access
  | other (text : String)
  deriving DecidableEq

/-- Operations that were lost. -/
structure Loss where
  (first_op_id last_op_id : Nat := 0)
  entry_lower_bound_qpc : Option Nat := none
  kind : LossKind := .overflow
  deriving DecidableEq

/-- The counters of operations. -/
structure Counts where
  (observed_operations stored_operations completed_operations pending_operations
    lost_operations : Nat := 0)
  deriving DecidableEq

/-- The journal that is audited. -/
structure Source where
  schema : String := "mcla-semaphore-prefix-journal-v2"
  token : String := ""
  clock : String := "win32-query-performance-counter"
  (qpc_frequency observer_begin_qpc freeze_qpc capacity : Nat := 0)
  /-- The proof flags, in any order. -/
  flags : List Bool := []
  (admission_inventory_complete observer_failed unknown_coverage_gap : Bool := false)
  counts : Counts := {}
  epochs : List Credit.Epoch := []
  operations : List Operation := []
  loss_ranges : List Loss := []
  deriving DecidableEq

/-! ### Validation -/

/-- `_clock` -/
def checkClock (value : Option Nat) : Except String Unit := uintOrNull value kMaxQpc 1

/-- The payload of the scratch object that the checks of the first version are run on. -/
def scratchPayload (completed : Bool) : Payload → Except String Credit.Payload
  | .release count success previous context =>
    if completed then
      match success with
      | none => .error "exact boolean"
      | some success => .ok (.release count success previous context)
    else do
      need (success.isNone ∧ previous.isNone) "pending release has no outcome or previous count"
      return .release count false none context
  | .wait result timeout =>
    if completed then
      match result with
      | none => .error "single-wait result"
      | some result => .ok (.wait result timeout)
    else do
      need result.isNone "pending wait has no result"
      return .wait .kTimeout timeout
  | .unsupported kind => .ok (.unsupported kind)

/-- An operation as the first version has it. -/
def toCredit (row : Operation) (payload : Credit.Payload) : Credit.Operation where
  op_id := row.op_id
  epoch_id := row.epoch_id
  native_thread_id := row.native_thread_id
  guest_handle := row.guest_handle
  entry_qpc := row.entry_qpc.getD 1
  exit_qpc := row.exit_qpc.getD 1
  payload := payload

/-- The greatest count of the epoch of a row, zero where it has none. -/
def maximumOf (epochs : List Credit.Epoch) (row : Operation) : Nat :=
  ((epochs.find? fun epoch => epoch.epoch_id = row.epoch_id).map (·.maximum_count)).getD 0

/-- `_operation` -/
def checkOperation (row : Operation) (epochs : List Credit.Epoch) : Except String Unit := do
  checkClock row.entry_qpc
  checkClock row.exit_qpc
  need (row.completed ∨ row.exit_qpc.isNone) "pending operation has no exit timestamp"
  let payload ← scratchPayload row.completed row.payload
  Credit.checkOperation (toCredit row payload) epochs
  need (¬ row.completed ∨ row.entry_qpc.all fun entry => row.exit_qpc.all fun exit => entry ≤ exit)
    "operation clock regression"
  need (match payload with
    | .release count true (some previous) _ => previous + count ≤ maximumOf epochs row
    | _ => true) "impossible successful release count"

/-- `_unsupported` -/
def unsupported (row : Operation) : Bool :=
  match row.payload with
  | .release .. => false
  | .wait result _ => row.completed ∧ ¬ (result = some .kSuccess ∨ result = some .kTimeout ∨
      result = some .kApc ∨ result = some .kAlerted)
  | .unsupported _ => true

variable (source : Source)

/-- The checks of a row against its epoch and the window. -/
def checkBracket (row : Operation) (epoch : Credit.Epoch) :
    Except String Unit := do
  need (row.entry_qpc.all fun entry => source.observer_begin_qpc ≤ entry ∧
    entry ≤ source.freeze_qpc ∧ entry > epoch.creation_qpc)
    "operation admission within observed lifetime/window"
  need (row.entry_qpc.all fun entry => epoch.destroy_qpc.all fun destroyed => entry < destroyed)
    "admission before destruction"
  need (row.exit_qpc.all fun exit => exit ≤ source.freeze_qpc)
    "completed operation cannot finish after freeze"
  need (row.exit_qpc.all fun exit => epoch.destroy_qpc.all fun destroyed => exit < destroyed)
    "completion before destruction"
  need (row.completed ∨ epoch.destroy_qpc.isNone) "destroyed object cannot have pending operation"

/-- An operation, as it may be written. -/
def checkRow (row : Operation) : Except String Unit := do
  checkOperation row source.epochs
  match source.epochs.find? fun epoch => epoch.epoch_id = row.epoch_id with
  | none => .error "operation references unknown epoch"
  | some epoch => checkBracket source row epoch

/-- An epoch, as it may be written. -/
def checkEpoch (source : Source) (epoch : Credit.Epoch) : Except String Unit := do
  Credit.checkEpoch epoch
  need (epoch.creation_qpc < source.freeze_qpc) "creation before freeze"
  need (epoch.destroy_qpc.all fun destroyed => epoch.creation_qpc < destroyed ∧
    destroyed ≤ source.freeze_qpc) "destruction bracket"

/-- A loss, as it may be written. -/
def checkLoss (loss : Loss) : Except String Unit := do
  uint loss.first_op_id U64 1
  uint loss.last_op_id U64 1
  need (loss.first_op_id ≤ loss.last_op_id) "ordered loss IDs"
  need (loss.kind = .overflow ∨ loss.kind = .coverage_gap ∨ loss.kind = .unsupported_access)
    "loss kind"
  checkClock loss.entry_lower_bound_qpc
  need (loss.entry_lower_bound_qpc.all fun bound => source.observer_begin_qpc ≤ bound ∧
    bound ≤ source.freeze_qpc) "loss lower bound in window"

/-- An interval of admission numbers, with the clock of the admission. -/
structure Interval where
  (first last : Nat)
  clock : Option Nat

/-- The intervals of operations and losses. -/
def intervals : List Interval :=
  source.operations.map (fun row => ⟨row.op_id, row.op_id, row.entry_qpc⟩) ++
    source.loss_ranges.map fun loss =>
      ⟨loss.first_op_id, loss.last_op_id, loss.entry_lower_bound_qpc⟩

/-- The loop over the sorted intervals; it returns the number after the last one. -/
def checkPartition : Nat → Option Nat → List Interval → Except String Nat
  | next_id, _, [] => .ok next_id
  | next_id, last_clock, interval :: rest => do
    need (interval.first = next_id) "operation IDs/loss ranges must partition complete inventory"
    need (interval.clock.all fun clock => last_clock.all fun last => clock ≥ last)
      "nonmonotonic admission ID clocks"
    checkPartition (interval.last + 1) (interval.clock <|> last_clock) rest

/-- How many operations are lost. -/
def lost : Nat := (source.loss_ranges.map fun loss => loss.last_op_id - loss.first_op_id + 1).sum

/-- How many operations are pending. -/
def pending : Nat := source.operations.countP fun row => !row.completed

/-- The first half of `audit`: what a document must be. -/
def validate (size : Nat) (token : String) (observer_begin_qpc freeze_qpc qpc_frequency : Nat) :
    Except String Unit := do
  need (0 < size ∧ size ≤ Credit.maxBytes) "bounded immutable journal"
  need (Credit.isToken token) "expected token"
  uint observer_begin_qpc kMaxQpc 1
  uint freeze_qpc kMaxQpc 1
  uint qpc_frequency kMaxQpc 1
  need (observer_begin_qpc < freeze_qpc) "positive frozen interval"
  need (source.schema = "mcla-semaphore-prefix-journal-v2" ∧ source.token = token ∧
    source.clock = "win32-query-performance-counter") "prefix journal identity"
  need (source.observer_begin_qpc = observer_begin_qpc) "exact clock/capacity binding"
  need (source.freeze_qpc = freeze_qpc) "exact clock/capacity binding"
  need (source.qpc_frequency = qpc_frequency) "exact clock/capacity binding"
  need (Credit.isCapacity source.capacity) "supported exact semaphore capacity"
  need (source.flags.all (! ·)) "proof flags remain false"
  need (0 < source.epochs.length ∧ source.epochs.length ≤ Credit.maxEpochs)
    "bounded nonempty epochs"
  need (source.operations.length ≤ source.capacity) "bounded operations"
  need (source.loss_ranges.length ≤ maxLossRanges) "bounded loss ranges"
  source.epochs.forM (checkEpoch source)
  need (source.epochs.map (·.epoch_id)).Nodup "duplicate epoch ID"
  source.operations.forM (checkRow source)
  need (source.operations.map (·.op_id)).Nodup "duplicate operation ID"
  source.loss_ranges.forM (checkLoss source)
  uint (lost source)
  uint source.counts.observed_operations
  uint source.counts.stored_operations
  uint source.counts.completed_operations
  uint source.counts.pending_operations
  uint source.counts.lost_operations
  need (source.counts.stored_operations = source.operations.length ∧
    source.counts.pending_operations = pending source ∧
    source.counts.completed_operations = source.operations.length - pending source ∧
    source.counts.lost_operations = lost source ∧
    source.counts.observed_operations = source.operations.length + lost source)
    "complete admission accounting"
  let next_id ← checkPartition 1 none
    ((intervals source).insertionSort fun a b => a.first < b.first ∨
      a.first = b.first ∧ a.last ≤ b.last)
  need (next_id - 1 = source.counts.observed_operations) "exact final admission ID"

/-! ### Issues and barriers -/

def ifRaised (raised : Bool) (code : String) : List String := if raised then [code] else []

/-- What is wrong with an epoch. -/
def epochIssues (epoch : Credit.Epoch) : List String :=
  ifRaised (epoch.creation_qpc ≤ source.observer_begin_qpc)
    "CREATION_NOT_STRICTLY_AFTER_OBSERVER_START" ++
  ifRaised (epoch.origin ≠ .kFresh ∨ ¬ epoch.history_complete)
    "FRESH_LIFETIME_ADMISSION_COVERAGE_REQUIRED" ++
  ifRaised (epoch.initial_count ≠ 0) "INITIAL_CREDITS_NOT_ATTRIBUTABLE"

/-- Two epochs, one after the other by cookie and creation, whose lifetimes touch. -/
def lifetimesTouch (a b : Credit.Epoch) : Bool :=
  a.object_cookie = b.object_cookie ∧ a.destroy_qpc.all fun destroyed => destroyed ≥ b.creation_qpc

/-- Cookies that are used twice. -/
def reuseIssues : List String :=
  let ordered := source.epochs.insertionSort fun a b => a.object_cookie < b.object_cookie ∨
    a.object_cookie = b.object_cookie ∧ a.creation_qpc ≤ b.creation_qpc
  (ordered.zip ordered.tail).flatMap fun (a, b) =>
    ifRaised (lifetimesTouch a b) "COOKIE_REUSE_WITHOUT_SEPARATE_WITNESSED_LIFETIMES"

/-- What is wrong with the journal. -/
def issues : List String :=
  ifRaised (¬ source.admission_inventory_complete) "ADMISSION_INVENTORY_INCOMPLETE" ++
  ifRaised source.observer_failed "OBSERVER_FAILED" ++
  ifRaised source.unknown_coverage_gap "UNBOUNDED_COVERAGE_GAP" ++
  source.epochs.flatMap (epochIssues source) ++ reuseIssues source ++
  (source.operations.flatMap fun row =>
    ifRaised (row.entry_qpc.isNone ∨ row.completed ∧ row.exit_qpc.isNone)
      "UNKNOWN_OPERATION_CLOCK") ++
  source.loss_ranges.flatMap fun loss =>
    ifRaised loss.entry_lower_bound_qpc.isNone "LOSS_WITHOUT_RELIABLE_ENTRY_LOWER_BOUND"

/-- Where the audited prefix ends at the latest. -/
structure Barrier where
  reason : String
  (first_op_id last_op_id : Nat)
  qpc : Option Nat

def LossKind.reason : LossKind → String
  | .overflow => "ADMISSION_LOSS_OVERFLOW"
  | .coverage_gap => "ADMISSION_LOSS_COVERAGE_GAP"
  | .unsupported_access => "ADMISSION_LOSS_UNSUPPORTED_ACCESS"
  | .other text => "ADMISSION_LOSS_" ++ text.toUpper

/-- Where the prefix may have to end. -/
def barriers : List Barrier :=
  (source.operations.flatMap fun row =>
    (if row.completed then [] else [⟨"PENDING_OPERATION", row.op_id, row.op_id, row.entry_qpc⟩]) ++
    if unsupported row then [⟨"UNSUPPORTED_OPERATION", row.op_id, row.op_id, row.entry_qpc⟩]
    else []) ++
  source.loss_ranges.map fun loss =>
    ⟨loss.kind.reason, loss.first_op_id, loss.last_op_id, loss.entry_lower_bound_qpc⟩

/-- Where the prefix ends at the latest. -/
def barrier : Nat := ((barriers source).filterMap (·.qpc)).foldl min source.freeze_qpc

/-! ### The sweep over the components -/

def entryOf (row : Operation) : Nat := row.entry_qpc.getD 0

/-- The end of a row; one that is pending has none. -/
def exitOf (row : Operation) : Nat := if row.completed then row.exit_qpc.getD 0 else kMaxQpc

/-- The rows are in the order of their entries. -/
def rowBefore (a b : Operation) : Prop :=
  entryOf a < entryOf b ∨ entryOf a = entryOf b ∧ a.op_id ≤ b.op_id

instance : DecidableRel rowBefore := fun a b => by unfold rowBefore; infer_instance

/-- The rows of an epoch, in the order in which `_components` goes through them. -/
def epochRows (epoch : Credit.Epoch) : List Operation :=
  (source.operations.filter fun row => row.epoch_id = epoch.epoch_id).insertionSort rowBefore

def isRelease (row : Operation) : Bool := row.payload matches .release ..
def isWait (row : Operation) : Bool := row.payload matches .wait ..
/-- A release that succeeds. -/
def givesCredit (row : Operation) : Bool := row.payload matches .release 1 (some true) (some 0) _
/-- A wait that succeeds. -/
def takesCredit (row : Operation) : Bool := row.payload matches .wait (some .kSuccess) _

/-- What `_step` returns: the new balance, a coverage restriction or a contradiction. -/
inductive Outcome where
  | balance (count : Nat)
  | restriction (reason : String)
  | contradiction (reason : String)
  deriving DecidableEq

/-- `_step`, of one row. -/
def stepRow (row : Operation) (balance : Nat) : Outcome :=
  match row.payload with
  | .release count (some true) previous _ =>
    if previous ≠ some balance then .contradiction "PREVIOUS_COUNT_CONTRADICTS_COMPLETE_PREFIX"
    else if balance + count > 1 then .restriction "BATCH_OR_COMPETING_CREDITS_OUTSIDE_MODEL"
    else .balance (balance + count)
  | .release .. => .balance balance
  | .wait (some .kSuccess) _ =>
    if balance = 0 then .contradiction "SUCCESSFUL_WAIT_WITHOUT_PREFIX_CREDIT"
    else .balance (balance - 1)
  | .wait (some .kTimeout) _ =>
    if balance ≠ 0 then .contradiction "TIMEOUT_WITH_AVAILABLE_PREFIX_CREDIT" else .balance balance
  | _ => .balance balance

/-- `_step` -/
def step (group : List Operation) (balance : Nat) : Outcome :=
  match group with
  | [row] => stepRow row balance
  | group =>
    match group.filter isRelease, group.filter isWait with
    | [release], [wait] =>
      if group.length = 2 ∧ balance = 0 ∧ givesCredit release ∧ takesCredit wait then .balance 0
      else .restriction "OVERLAP_OUTSIDE_SINGLE_CREDIT_MODEL"
    | _, _ => .restriction "OVERLAP_OUTSIDE_SINGLE_CREDIT_MODEL"

/-- The least entry of a group. -/
def start (group : List Operation) : Nat := (group.map entryOf).min?.getD 0

/-- The sweep over the rows of an epoch. -/
structure Sweep where
  accepted : List Operation := []
  (last_zero balance : Nat := 0)
  stop_reason : String := "FROZEN_BARRIER"
  stop_qpc : Nat
  contradiction : Option String := none

/-- The loop over the groups of an epoch. -/
def sweep (barrier : Nat) : Sweep → List (List Operation) → Sweep
  | s, [] => s
  | s, group :: rest =>
    if start group ≥ barrier ∨
        group.any fun row => ¬ row.completed ∨ row.exit_qpc.any fun exit => exit ≥ barrier then
      { s with
        stop_reason := "COMPONENT_TOUCHES_OR_CROSSES_BARRIER"
        stop_qpc := min (start group) barrier }
    else
      match step group s.balance with
      | .contradiction reason =>
        { s with contradiction := some reason, stop_reason := reason, stop_qpc := start group }
      | .restriction reason => { s with stop_reason := reason, stop_qpc := start group }
      | .balance balance =>
        let accepted := s.accepted ++ group
        sweep barrier { s with
          accepted
          balance
          last_zero := if balance = 0 then accepted.length else s.last_zero } rest

/-- The rows that are accepted after the last zero balance are rolled back. -/
def rollBack (s : Sweep) : Sweep :=
  if s.last_zero < s.accepted.length then
    { s with
      stop_qpc := min s.stop_qpc (start (s.accepted.drop s.last_zero))
      stop_reason := "UNCONSUMED_TAIL_ROLLED_BACK_TO_ZERO_BALANCE" }
  else s

/-- The sweep over an epoch. -/
def sweepEpoch (epoch : Credit.Epoch) : Sweep :=
  rollBack (sweep (barrier source) { stop_qpc := barrier source }
    (components entryOf exitOf (epochRows source epoch)))

/-- The rows up to the last zero. -/
def Sweep.prefix_rows (s : Sweep) : List Operation := s.accepted.take s.last_zero

/-! ### The projection -/

/-- The payload of an operation that is completed. -/
def Payload.closed : Payload → Credit.Payload
  | .release count success previous context => .release count (success.getD false) previous context
  | .wait result timeout => .wait (result.getD .kUnknown) timeout
  | .unsupported kind => .unsupported kind

/-- `_projection` -/
def projection (epoch : Credit.Epoch) (rows : List Operation) (stop : Nat) : Credit.Source where
  token := source.token
  clock := source.clock
  qpc_frequency := source.qpc_frequency
  begin_qpc := source.observer_begin_qpc
  end_qpc_exclusive := stop
  capacity := source.capacity
  flags := List.replicate 7 false
  history_complete := true
  observer_failed := false
  counts := ⟨rows.length, rows.length, rows.length, 0⟩
  epochs := [{ epoch with
    destroy_qpc := if epoch.destroy_qpc.any fun destroyed => destroyed ≥ stop then none
      else epoch.destroy_qpc }]
  operations := rows.map fun row => toCredit row row.payload.closed

/-! ### The audit -/

/-- An entry of `prefixes`. -/
structure Summary where
  (epoch_id end_qpc_exclusive : Nat)
  prefix_eligible : Bool
  (operation_ids excluded_operation_ids : List Nat)
  ending_count : Nat := 0
  boundary_reason : String
  candidate_count : Nat := 0

/-- What the loop over the epochs gathers. -/
structure Evidence where
  issues : List String := []
  (associations unique_credit_consumptions : List Credit.Match := [])
  prefixes : List Summary := []

/-- The one issue that an accepted projection may have. -/
def noCandidate : Credit.Issue := ⟨none, "NO_UNAMBIGUOUS_UPDATE_WAIT_CANDIDATE"⟩

/-- The first version, called with a projection that ends at `stop`. -/
def auditProjection (token : String) (observer_begin_qpc qpc_frequency : Nat) (epoch : Credit.Epoch)
    (rows : List Operation) (stop : Nat) : Except String Credit.Result := do
  need (epoch.creation_qpc < stop ∧ rows.all fun row => row.exit_qpc.all fun exit => exit < stop)
    "strict observed closed prefix boundary"
  let projected := projection source epoch rows stop
  let checked ← Credit.audit projected projected.size token observer_begin_qpc stop qpc_frequency
  need (checked.diagnostic_issues.all (· = noCandidate))
    "derived complete prefix must satisfy unchanged v1 rules"
  return checked

/-- The body of the loop over the epochs. -/
def auditEpoch (token : String) (observer_begin_qpc qpc_frequency : Nat) (e : Evidence)
    (epoch : Credit.Epoch) : Except String Evidence := do
  let s := sweepEpoch source epoch
  let rows := s.prefix_rows
  let issues := e.issues ++ s.contradiction.toList.map fun code =>
    "EPOCH_" ++ toString epoch.epoch_id ++ ":" ++ code
  let operation_ids := (rows.map (·.op_id)).insertionSort (· ≤ ·)
  let summary : Summary := {
    epoch_id := epoch.epoch_id
    end_qpc_exclusive := s.stop_qpc
    prefix_eligible := rows ≠ [] ∧ issues = []
    operation_ids
    excluded_operation_ids :=
      (((epochRows source epoch).map (·.op_id)).filter (· ∉ operation_ids)).insertionSort (· ≤ ·)
    boundary_reason := s.stop_reason }
  if rows ≠ [] ∧ issues = [] then
    let checked ← auditProjection source token observer_begin_qpc qpc_frequency epoch rows s.stop_qpc
    return {
      issues
      associations := e.associations ++ checked.associations
      unique_credit_consumptions :=
        e.unique_credit_consumptions ++ checked.unique_credit_consumptions
      prefixes := e.prefixes ++ [{ summary with candidate_count := checked.associations.length }] }
  else
    return { e with issues, prefixes := e.prefixes ++ [summary] }

/-- What the audit returns. -/
structure Result where
  candidates_found : Bool
  global_barrier_qpc : Nat
  barrier_inventory : List Barrier
  validated_operation_count : Nat
  (associations unique_credit_consumptions : List Credit.Match)
  prefixes : List Summary
  excluded_operation_ids : List Nat
  diagnostic_issues : List String

/-- What is returned: with an issue there is no candidate, and every operation is excluded. -/
def result (e : Evidence) : Result :=
  let ids := (source.operations.map (·.op_id)).insertionSort (· ≤ ·)
  let retained := e.prefixes.flatMap (·.operation_ids)
  let associations := if e.issues = [] then e.associations else []
  { candidates_found := associations ≠ []
    global_barrier_qpc := barrier source
    barrier_inventory := barriers source
    validated_operation_count := source.operations.length
    associations
    unique_credit_consumptions := if e.issues = [] then e.unique_credit_consumptions else []
    prefixes := if e.issues = [] then e.prefixes
      else e.prefixes.map fun found => { found with prefix_eligible := false, candidate_count := 0 }
    excluded_operation_ids := if e.issues = [] then ids.filter (· ∉ retained) else ids
    diagnostic_issues := e.issues }

/-- `audit`, of a document of `size` bytes. -/
def audit (size : Nat) (token : String) (observer_begin_qpc freeze_qpc qpc_frequency : Nat) :
    Except String Result := do
  validate source size token observer_begin_qpc freeze_qpc qpc_frequency
  let e : Evidence := { issues := issues source }
  if e.issues = [] then
    let e ← source.epochs.foldlM (auditEpoch source token observer_begin_qpc qpc_frequency) e
    return result source e
  else return result source e

end Prefix
end Mcla.Semaphore

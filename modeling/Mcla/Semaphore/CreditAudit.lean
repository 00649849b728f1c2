import Mcla.Library.IntervalComponents
import Mcla.Semaphore.Journal

/-! # The semaphore-credit audit

A reader of the journal of a run, in its first version.  A document is what `json.loads` and
the exact key sets leave of it: a record with the fields of its schema, whose numbers are not
negative.  An enumerated text is a value of its enumeration, `other` where it is none of the
names.  A set of issues is a list here, in the order in which they are raised.
-/
namespace Mcla.Semaphore
open Intervals (components)

namespace Credit

def maxEpochs : Nat := 64
def maxBytes : Nat := 32 * 1024 * 1024
def U32 : Nat := 2 ^ 32 - 1
def U64 : Nat := 2 ^ 64 - 1

/-- `semaphore_capacity` -/
def isCapacity (value : Nat) : Bool := value = 4096 ∨ value = 32768

/-- The context of an operation. -/
structure Context where
  kind : ContextKind := .kUnknown
  generation : Option FrameId := none
  deriving DecidableEq

/-- The payload, with the kind it belongs to. -/
inductive Payload where
  | release (count : Nat) (success : Bool) (previous_count : Option Nat) (context : Context)
  | wait (result : WaitResult) (timeout_kind : TimeoutKind)
  | unsupported (kind : String)
  deriving DecidableEq

/-- The life of one semaphore. -/
structure Epoch where
  (epoch_id object_cookie creation_qpc : Nat := 0)
  destroy_qpc : Option Nat := none
  (initial_count maximum_count : Nat := 0)
  origin : Origin := .kUnknown
  history_complete : Bool := false
  deriving DecidableEq

/-- One operation on a semaphore. -/
structure Operation where
  (op_id epoch_id native_thread_id : Nat := 0)
  guest_handle : Option Nat := none
  (entry_qpc exit_qpc : Nat := 0)
  payload : Payload
  deriving DecidableEq

/-- The journal that is audited. -/
structure Source where
  schema : String := "mcla-semaphore-credit-journal-v1"
  token : String := ""
  clock : String := "win32-query-performance-counter"
  (qpc_frequency begin_qpc end_qpc_exclusive capacity : Nat := 0)
  /-- The proof flags, in any order. -/
  flags : List Bool := []
  (history_complete observer_failed : Bool := false)
  counts : Counts := {}
  epochs : List Epoch := []
  operations : List Operation := []

/-! ### Validation -/

/-- `need` -/
def need (ok : Bool) (reason : String) : Except String Unit := if ok then .ok () else .error reason

/-- A whole number in range. -/
def uint (value : Nat) (high : Nat := U64) (low : Nat := 0) : Except String Unit :=
  need (low ≤ value ∧ value ≤ high) "bounded exact integer"

/-- A number that may be null. -/
def uintOrNull (value : Option Nat) (high : Nat := U64) (low : Nat := 0) : Except String Unit :=
  match value with
  | none => .ok ()
  | some value => uint value high low

/-- `_epoch` -/
def checkEpoch (value : Epoch) : Except String Unit := do
  uint value.epoch_id U64 1
  uint value.object_cookie U64 1
  uint value.creation_qpc kMaxQpc
  uintOrNull value.destroy_qpc kMaxQpc
  uint value.maximum_count kMaxCount 1
  uint value.initial_count value.maximum_count
  need (¬ value.origin.nameless) "epoch origin"

/-- `[a-z][a-z_]{0,31}`, of a kind that is neither release nor wait. -/
def boundedKind (kind : String) : Bool :=
  kind ≠ "release" ∧ kind ≠ "wait" ∧ kind.toList.length ≤ 32 ∧
    (kind.toList.head?.any fun c => 'a' ≤ c ∧ c ≤ 'z') ∧
    kind.toList.all fun c => ('a' ≤ c ∧ c ≤ 'z') ∨ c = '_'

/-- A context, as it may be written. -/
def checkContext (context : Context) : Except String Unit := do
  need (¬ context.kind.nameless) "release context kind"
  if context.kind = .kUpdate then
    match context.generation with
    | none => .error "exact update ID pair"
    | some generation => do
      uint generation.thread_epoch U64 1
      uint generation.serial U64 1
  else need context.generation.isNone "non-update has no generation"

/-- The payload checks of `_operation`, with the greatest count of the epoch. -/
def checkPayload (maximum : Nat) : Payload → Except String Unit
  | .release count success previous context => do
    uint count kMaxCount 1
    uintOrNull previous maximum
    need (¬ success ∨ previous.isSome) "successful release requires previous count"
    need (success ∨ previous.isNone) "failed release previous count must be null (undefined output)"
    checkContext context
  | .wait result timeout => do
    need (¬ result.nameless) "single-wait result"
    need (¬ timeout.nameless) "wait timeout kind"
  | .unsupported kind => need (boundedKind kind) "bounded operation kind"

/-- `_operation` -/
def checkOperation (value : Operation) (epochs : List Epoch) : Except String Unit := do
  uint value.op_id U64 1
  uint value.epoch_id U64 1
  match epochs.find? fun epoch => epoch.epoch_id = value.epoch_id with
  | none => .error "operation references unknown epoch"
  | some epoch => do
    uint value.native_thread_id U32 1
    uintOrNull value.guest_handle U32 1
    uint value.entry_qpc kMaxQpc
    uint value.exit_qpc kMaxQpc
    checkPayload epoch.maximum_count value.payload

/-- `token`: 32 hexadecimal digits. -/
def isToken (token : String) : Bool :=
  token.toList.length = 32 ∧ token.toList.all fun c => ('0' ≤ c ∧ c ≤ '9') ∨ ('a' ≤ c ∧ c ≤ 'f')

/-- The first half of `audit`: what a document must be. -/
def validate (source : Source) (token : String) (begin_qpc end_qpc qpc_frequency : Nat) :
    Except String Unit := do
  need (isToken token) "expected token"
  uint begin_qpc kMaxQpc 1
  uint end_qpc kMaxQpc 1
  uint qpc_frequency kMaxQpc 1
  need (begin_qpc < end_qpc) "positive expected window"
  need (source.schema = "mcla-semaphore-credit-journal-v1") "supported schema"
  need (source.token = token) "journal token binding"
  need (source.clock = "win32-query-performance-counter") "QPC clock domain"
  need (source.begin_qpc = begin_qpc) "exact journal clock/capacity binding"
  need (source.end_qpc_exclusive = end_qpc) "exact journal clock/capacity binding"
  need (source.qpc_frequency = qpc_frequency) "exact journal clock/capacity binding"
  need (isCapacity source.capacity) "supported exact semaphore capacity"
  need (source.flags.all (! ·)) "proof/admission flag must be false"
  need (0 < source.epochs.length ∧ source.epochs.length ≤ maxEpochs) "bounded nonempty epochs"
  need (source.operations.length ≤ source.capacity) "bounded operations"
  source.epochs.forM checkEpoch
  need (source.epochs.map (·.epoch_id)).Nodup "duplicate object epoch"
  source.operations.forM fun operation => checkOperation operation source.epochs
  need (source.operations.map (·.op_id)).Nodup "duplicate operation ID"
  uint source.counts.stored_operations
  uint source.counts.observed_operations
  uint source.counts.completed_operations
  uint source.counts.overflow_operations
  need (source.counts.stored_operations = source.operations.length ∧
    source.counts.observed_operations =
      source.counts.stored_operations + source.counts.overflow_operations ∧
    source.counts.stored_operations ≤ source.counts.completed_operations ∧
    source.counts.completed_operations ≤ source.counts.observed_operations)
    "operation counter consistency"

/-! ### Issues -/

/-- An issue, of an epoch where it names one. -/
structure Issue where
  epoch_id : Option Nat
  code : String
  deriving DecidableEq

/-- `issue`, where it is raised on a condition. -/
def issue (raised : Bool) (code : String) (epoch_id : Option Nat := none) : List Issue :=
  if raised then [⟨epoch_id, code⟩] else []

/-- What is wrong with the journal as a whole. -/
def globalIssues (source : Source) : List Issue :=
  issue (¬ source.history_complete) "JOURNAL_HISTORY_INCOMPLETE" ++
  issue source.observer_failed "OBSERVER_FAILED" ++
  issue (source.counts.overflow_operations ≠ 0) "OPERATION_OVERFLOW" ++
  issue (source.counts.completed_operations ≠ source.counts.observed_operations)
    "OPERATIONS_NOT_DRAINED"

/-- What is wrong with an epoch. -/
def epochIssues (begin_qpc end_qpc : Nat) (epoch : Epoch) : List Issue :=
  issue (¬ (begin_qpc ≤ epoch.creation_qpc ∧ epoch.creation_qpc < end_qpc))
    "CREATION_OUTSIDE_WINDOW" epoch.epoch_id ++
  issue (epoch.destroy_qpc.any fun destruction =>
    ¬ (epoch.creation_qpc < destruction ∧ destruction < end_qpc))
    "INVALID_DESTRUCTION_BRACKET" epoch.epoch_id ++
  issue (epoch.initial_count ≠ 0) "INITIAL_CREDITS_NOT_ATTRIBUTABLE" epoch.epoch_id ++
  issue (epoch.origin ≠ .kFresh) "NONFRESH_CREATION_OR_RESTORE" epoch.epoch_id ++
  issue (¬ epoch.history_complete) "EPOCH_HISTORY_INCOMPLETE" epoch.epoch_id

/-- The two lifetimes of one cookie, in the order of their creation, where they touch. -/
def lifetimesOverlap (left right : Epoch) : Bool :=
  left.object_cookie = right.object_cookie ∧
    let (older, newer) := if left.creation_qpc ≤ right.creation_qpc then (left, right)
      else (right, left)
    older.destroy_qpc.all fun destroyed => destroyed ≥ newer.creation_qpc

/-- Cookies that are used twice. -/
def reuseIssues : List Epoch → List Issue
  | [] => []
  | left :: rest =>
    rest.flatMap (fun right => issue (lifetimesOverlap left right)
      "OBJECT_COOKIE_LIFETIMES_OVERLAP_OR_GAP") ++ reuseIssues rest

/-! ### The ledger of an epoch -/

/-- A wait, with the release that it consumes. -/
structure Match where
  (epoch_id release_op_id wait_op_id : Nat)
  context : Context
  association_rule : String
  (release_qpc_bracket wait_qpc_bracket : Nat × Nat)
  deriving DecidableEq

/-- `record_match`, of a release with its context. -/
def recordMatch (epoch_id : Nat) (release : Operation) (context : Context) (wait : Operation)
    (rule : String) : Match where
  epoch_id := epoch_id
  release_op_id := release.op_id
  wait_op_id := wait.op_id
  context := context
  association_rule := rule
  release_qpc_bracket := (release.entry_qpc, release.exit_qpc)
  wait_qpc_bracket := (wait.entry_qpc, wait.exit_qpc)

/-- The order of the rows: by entry, then by number. -/
def rowBefore (a b : Operation) : Prop :=
  a.entry_qpc < b.entry_qpc ∨ a.entry_qpc = b.entry_qpc ∧ a.op_id ≤ b.op_id

instance : DecidableRel rowBefore := fun a b => by unfold rowBefore; infer_instance

/-- The rows of an epoch, in their order. -/
def epochRows (source : Source) (epoch : Epoch) : List Operation :=
  (source.operations.filter fun row => row.epoch_id = epoch.epoch_id).insertionSort rowBefore

/-- The issues of one row, each of which leaves the order of the rows invalid. -/
def rowIssues (begin_qpc end_qpc : Nat) (epoch : Epoch) (row : Operation) : List Issue :=
  issue (¬ (begin_qpc ≤ row.entry_qpc ∧ row.entry_qpc ≤ row.exit_qpc ∧ row.exit_qpc < end_qpc))
    "INVALID_OR_OUTSIDE_OPERATION_BRACKET" epoch.epoch_id ++
  issue (row.entry_qpc ≤ epoch.creation_qpc ∨
    epoch.destroy_qpc.any fun destroyed => row.exit_qpc ≥ destroyed)
    "OPERATION_TOUCHES_OR_EXCEEDS_LIFETIME" epoch.epoch_id ++
  match row.payload with
  | .unsupported kind => [⟨some epoch.epoch_id, "UNSUPPORTED_OPERATION_" ++ kind.toUpper⟩]
  | _ => []

/-- A ledger.  A pending release is kept with its context. -/
structure Ledger where
  balance : Nat
  pending : Option (Operation × Context) := none
  (successful_releases successful_waits : Nat := 0)
  valid_order : Bool := true
  consumptions : List Match := []
  issues : List Issue := []

/-- The code of a wait with a result that says nothing of its credit. -/
def unsupportedResult : WaitResult → String
  | .kAbandoned => "UNSUPPORTED_WAIT_RESULT_ABANDONED"
  | .kFailed => "UNSUPPORTED_WAIT_RESULT_FAILED"
  | _ => "UNSUPPORTED_WAIT_RESULT_UNKNOWN"

namespace Ledger

/-- A component of one row.  A wait without a credit leaves the balance at zero. -/
def single (l : Ledger) (epoch : Epoch) (row : Operation) : Ledger :=
  match row.payload with
  | .release count success previous context =>
    if success then
      let balance := l.balance + count
      { l with
        balance
        successful_releases := l.successful_releases + count
        pending := if balance > 1 then none else if balance = 1 then some (row, context)
          else l.pending
        issues := l.issues ++
          issue (previous ≠ some l.balance) "PREVIOUS_COUNT_CONTRADICTS_LEDGER" epoch.epoch_id ++
          issue (balance > epoch.maximum_count) "SUCCESSFUL_RELEASE_EXCEEDS_MAXIMUM"
            epoch.epoch_id ++
          issue (balance > 1) "COMPETING_OR_BATCH_CREDITS_OUTSIDE_MODEL_COVERAGE" epoch.epoch_id }
    else l
  | .wait .kSuccess _ =>
    { l with
      balance := l.balance - 1
      successful_waits := l.successful_waits + 1
      pending := none
      consumptions := l.consumptions ++ l.pending.toList.map fun (release, context) =>
        recordMatch epoch.epoch_id release context row "strict-disjoint-single-credit"
      issues := l.issues ++ issue (l.balance = 0) "SUCCESSFUL_WAIT_WITHOUT_CREDIT" epoch.epoch_id }
  | .wait .kTimeout _ =>
    { l with
      issues := l.issues ++ issue (l.balance ≠ 0) "TIMEOUT_WITH_AVAILABLE_CREDIT" epoch.epoch_id }
  | .wait .kApc _ | .wait .kAlerted _ => l
  | .wait result _ =>
    { l with issues := l.issues ++ [⟨some epoch.epoch_id, unsupportedResult result⟩] }
  | .unsupported _ => l

/-- The credit of a release that gives one to a wait that overlaps it. -/
def oneCredit (payload : Payload) : Option Context :=
  match payload with
  | .release 1 true (some 0) context => some context
  | _ => none

def isRelease (row : Operation) : Bool := row.payload matches .release ..
def isWait (row : Operation) : Bool := row.payload matches .wait ..
/-- A wait that succeeds. -/
def takesCredit (row : Operation) : Bool := row.payload matches .wait .kSuccess _

/-- A component of several rows: it is a release of one credit and the wait that takes it, or
the ledger ends. -/
def overlap (l : Ledger) (epoch : Epoch) (component : List Operation) : Ledger :=
  let refused : Ledger := { l with
    valid_order := false
    issues := l.issues ++ [⟨some epoch.epoch_id, "OVERLAP_OR_TOUCH_OUTSIDE_MODEL_COVERAGE"⟩] }
  if component.length ≠ 2 then refused
  else
    match component.filter isRelease, component.filter isWait with
    | [released], [waited] =>
      match oneCredit released.payload with
      | some context =>
        if l.balance = 0 ∧ takesCredit waited then
          { l with
            successful_releases := l.successful_releases + 1
            successful_waits := l.successful_waits + 1
            balance := 0
            pending := none
            consumptions := l.consumptions ++
              [recordMatch epoch.epoch_id released context waited "isolated-overlap-single-credit"] }
        else refused
      | none => refused
    | _, _ => refused

/-- One row, or some that overlap. -/
def component (l : Ledger) (epoch : Epoch) : List Operation → Ledger
  | [row] => l.single epoch row
  | component => l.overlap epoch component

/-- The loop over the components. -/
def run (epoch : Epoch) : Ledger → List (List Operation) → Ledger
  | l, [] => l
  | l, component :: rest =>
    let l := l.component epoch component
    if l.valid_order then l.run epoch rest else l

end Ledger

/-- The rows of an epoch are balanced. -/
def ledger (begin_qpc end_qpc : Nat) (epoch : Epoch) (rows : List Operation) : Ledger :=
  let issues := rows.flatMap (rowIssues begin_qpc end_qpc epoch)
  let l : Ledger := { balance := epoch.initial_count, valid_order := issues = [], issues }
  if l.valid_order then
    l.run epoch (components Operation.entry_qpc Operation.exit_qpc rows)
  else l

/-- What is said of one epoch. -/
structure Summary where
  (epoch_id operation_count : Nat)
  ledger_evaluated : Bool
  (successful_release_credits successful_waits ending_count unconsumed_release_op_id : Option Nat)

/-- What is said of the epoch. -/
def Ledger.summary (l : Ledger) (epoch : Epoch) (rows : List Operation) : Summary where
  epoch_id := epoch.epoch_id
  operation_count := rows.length
  ledger_evaluated := l.valid_order
  successful_release_credits := if l.valid_order then some l.successful_releases else none
  successful_waits := if l.valid_order then some l.successful_waits else none
  ending_count := if l.valid_order then some l.balance else none
  unconsumed_release_op_id := l.pending.map fun pending => pending.1.op_id

/-- What the audit returns. -/
structure Result where
  candidates_found : Bool
  diagnostic_issues : List Issue
  (associations unique_credit_consumptions : List Match)
  epoch_summaries : List Summary
  validated_operation_count : Nat

/-- The issues of a document. -/
def issues (source : Source) (begin_qpc end_qpc : Nat) : List Issue :=
  globalIssues source ++ source.epochs.flatMap (epochIssues begin_qpc end_qpc) ++
    reuseIssues source.epochs ++
    source.epochs.flatMap fun epoch =>
      (ledger begin_qpc end_qpc epoch (epochRows source epoch)).issues

/-- The second half of `audit`. -/
def evaluate (source : Source) (begin_qpc end_qpc : Nat) : Result :=
  let issues := issues source begin_qpc end_qpc
  let consumptions := if issues ≠ [] then []
    else source.epochs.flatMap fun epoch =>
      (ledger begin_qpc end_qpc epoch (epochRows source epoch)).consumptions
  let candidates := consumptions.filter fun found => found.context.kind = .kUpdate
  let issues := issues ++ issue (candidates = []) "NO_UNAMBIGUOUS_UPDATE_WAIT_CANDIDATE"
  { candidates_found := issues = []
    diagnostic_issues := issues
    associations := candidates
    unique_credit_consumptions := consumptions
    epoch_summaries := source.epochs.map fun epoch =>
      (ledger begin_qpc end_qpc epoch (epochRows source epoch)).summary epoch
        (epochRows source epoch)
    validated_operation_count := source.operations.length }

/-- `audit`, of a document of `size` bytes. -/
def audit (source : Source) (size : Nat) (token : String) (begin_qpc end_qpc qpc_frequency : Nat) :
    Except String Result := do
  need (0 < size ∧ size ≤ maxBytes) "bounded immutable JSON bytes"
  validate source token begin_qpc end_qpc qpc_frequency
  return evaluate source begin_qpc end_qpc

end Credit
end Mcla.Semaphore

import Mcla.Semaphore.Snapshot

/-! # The semaphore collector

The collector owns the journal of one selected semaphore.  The witness registry calls it back
on every creation, destruction, begin and end of an operation; each callback runs whole under
the collector's mutex, on the thread that does the operation.  Helpers open scopes: a thread
has a stack of create scopes and one of operation scopes, innermost first, which the scopes of
all collectors share.  The clock is read at most once in a callback; a reading is none where
the clock throws.
-/
namespace Mcla.Semaphore

/-! ### What the registry hands over -/

namespace Witness

/-- Where a semaphore comes from. -/
inductive Origin where
  | kFresh | kNative | kRestored | kUnknown
  deriving DecidableEq

/-- The kinds of operations. -/
inductive Kind where
  | kRelease | kWait | kSave | kRestore | kSignalAndWait | kWaitMultiple
  deriving DecidableEq

/-- The kinds of timeouts. -/
inductive TimeoutClass where
  | kNotApplicable | kZero | kFinite | kInfinite
  deriving DecidableEq

/-- How an operation ended. -/
inductive Result where
  | kSuccess | kTimeout | kApc | kAlerted | kAbandoned | kFailed | kUnknown | kUnsupported
  deriving DecidableEq

/-- A semaphore that the witness reports. -/
structure Creation where
  (cookie initial_count maximum_count : Nat := 0)
  origin : Origin := .kUnknown

/-- An operation that the witness admits. -/
structure Admission where
  cookie : Nat := 0
  kind : Kind := .kWait
  count : Nat := 0
  timeout : TimeoutClass := .kNotApplicable
  deriving DecidableEq

/-- The end of an admitted operation. -/
structure Completion where
  ticket : Nat := 0
  kind : Kind := .kWait
  result : Result := .kUnknown
  previous_count : Option Int := none

/-- `Origin(value)` -/
def Origin.toCore : Origin → Semaphore.Origin
  | .kFresh => .kFresh | .kNative => .kNative | .kRestored => .kRestored | .kUnknown => .kUnknown

/-- `Kind(value)` -/
def Kind.toCore : Kind → Semaphore.Kind
  | .kRelease => .kRelease | .kWait => .kWait | .kSave => .kSave | .kRestore => .kRestore
  | .kSignalAndWait => .kSignalAndWait | .kWaitMultiple => .kWaitMultiple

/-- `Outcome(value)` -/
def Result.outcome : Result → WaitResult
  | .kSuccess => .kSuccess | .kTimeout => .kTimeout | .kApc => .kApc | .kAlerted => .kAlerted
  | .kAbandoned => .kAbandoned | .kFailed => .kFailed | .kUnknown | .kUnsupported => .kUnknown

/-- The timeout of a wait. -/
def TimeoutClass.toCore : TimeoutClass → TimeoutKind
  | .kZero => .kZero | .kFinite => .kFinite | .kNotApplicable | .kInfinite => .kInfinite

end Witness

/-! ### Scopes -/

def kCreationLR : Nat := 0x823062D8
def kReleaseLR : Nat := 0x82305DDC

/-- The lane that a helper runs on. -/
structure Lane where
  (context base : Nat := 0)
  deriving DecidableEq

/-- What a helper is about to create. -/
structure CreateIntent where
  (outer_lr initial_count owner_guest : Nat := 0)
  lane : Lane := {}

/-- The operation that a helper is about to make. -/
structure OperationIntent where
  (cookie phase_call_id : Nat := 0)
  handle : Option Nat := none
  lane : Lane := {}
  outer_lr : Nat := 0
  expected_kind : Witness.Kind := .kWait
  release_context : ReleaseContext := {}
  deriving DecidableEq

/-- What a helper is told of its wait. -/
structure WaitObservation where
  (op_id phase_call_id : Nat := 0)
  outcome : WaitResult := .kUnknown
  annotated : Bool := false
  deriving DecidableEq

/-- The label that a helper gives an operation. -/
structure AnnotationRecord where
  (op_id phase_call_id outer_lr native_thread_id : Nat := 0)
  annotated : Bool := false

/-- `ScopedCreate`.  `owner` is the address of its collector. -/
structure ScopedCreate where
  owner : Nat
  intent : CreateIntent
  (cookie epoch : Nat := 0)

/-- `ScopedOperation` -/
structure ScopedOperation where
  owner : Nat
  intent : OperationIntent
  (ticket begin_attempts : Nat := 0)
  ambiguous : Bool := false
  wait : Option WaitObservation := none
  deriving DecidableEq

/-- What a helper may rely on. -/
def ScopedOperation.wait_observation (s : ScopedOperation) : Option WaitObservation :=
  if s.ambiguous then none else s.wait

/-! ### The collector -/

/-- What the owner attests of the coverage. -/
structure CoverageAttestation where
  token : String := ""
  (observer_begin_qpc qpc_frequency selected_epoch : Nat := 0)
  (inventory creation operations : Coverage := .kUnknown)
  no_unknown_gap : Bool := false

/-- Counters, as 64-bit words that stop at their greatest value. -/
structure Counters where
  (failures ignored_creations ignored_operations annotation_mismatches late_callbacks : Nat := 0)

/-- `Increment` -/
def bump (value : Nat) : Nat := if value ≠ 2 ^ 64 - 1 then value + 1 else value

/-- What configuring and freezing answer. -/
inductive Status where
  | kOk | kDisabled | kAlreadyConfigured | kInvalidConfiguration | kRegistrationFailed
  | kAllocation | kNotConfigured | kAlreadyFrozen | kInvalidClock | kNoSelection | kCaptureFailed
  deriving DecidableEq

/-- What a freeze captures. -/
structure Frozen where
  snapshot : Snapshot
  annotations : List AnnotationRecord
  (cookie epoch freeze_qpc returned_handle owner_guest : Nat)
  counters : Counters

/-- The answer to a freeze. -/
structure FreezeResult where
  status : Status
  snapshot_error : Option Error := none
  frozen : Option Frozen := none

/-- A collector that is configured: it has its journal, and the registry has its callbacks. -/
structure Collector where
  self : Nat
  window : Window
  token : String
  journal : Journal
  (frozen bound destroyed : Bool := false)
  (cookie epoch handle owner_guest : Nat := 0)
  tickets : Nat → Ticket := fun _ => {}
  annotations : Nat → AnnotationRecord := fun _ => {}
  counters : Counters := {}

namespace Collector

/-- The collector when `Configure` has returned.  The journal is at the address `address`;
`last` is the last identity issued to a journal. -/
def configured (self address : Nat) (window : Window) (token : String) (last : Nat) : Collector :=
  { self, window, token, journal := .init address window true last }

variable (c : Collector)

/-- The collector fails, and its journal with it. -/
def failLocked : Collector :=
  { c with
    counters.failures := bump c.counters.failures
    journal := if c.frozen then c.journal else c.journal.fail }

/-- A callback after the freeze. -/
def late : Collector :=
  { c with counters.late_callbacks := bump c.counters.late_callbacks }

/-- The clock is read. -/
def readClockLocked (reading : Option Nat) : Collector × Nat :=
  match reading with
  | some value => if value ≠ 0 ∧ value ≤ kMaxQpc then (c, value) else (c.failLocked, 0)
  | none => (c.failLocked, 0)

/-- `BindReturnedHandle`, of a scope that may be the innermost one of its thread. -/
def bindReturnedHandle (scope : ScopedCreate) (innermost : Bool) (resolved_cookie handle : Nat) :
    Collector × Bool :=
  if c.frozen then (c.late, false)
  else if scope.cookie = 0 ∨ scope.owner ≠ c.self ∨ ¬ innermost ∨ scope.cookie ≠ c.cookie ∨
      scope.epoch ≠ c.epoch ∨ resolved_cookie ≠ c.cookie ∨ handle = 0 ∨ c.bound then
    (c.failLocked, false)
  else ({ c with handle, bound := true }, true)

/-- The coverage that an attestation gives to the epochs. -/
def coverage (attestation : CoverageAttestation) (registry_failed : Bool) (cut : Nat) :
    AdmissionCoverage :=
  let attested : Bool := attestation.token = c.token ∧
    attestation.observer_begin_qpc = c.window.begin_qpc ∧
    attestation.qpc_frequency = c.window.qpc_frequency ∧ attestation.selected_epoch = c.epoch ∧
    c.bound ∧ c.counters.failures = 0 ∧ ¬ registry_failed
  { token := c.token
    observer_begin_qpc := c.window.begin_qpc
    qpc_frequency := c.window.qpc_frequency
    freeze_qpc := cut
    inventory := if attested then attestation.inventory else .kUnknown
    unknown_coverage_gap := ¬ attested ∨ ¬ attestation.no_unknown_gap
    observer_failed := c.counters.failures ≠ 0 ∨ registry_failed
    epochs := c.journal.epochs.map fun row => {
      epoch_id := row.epoch_id, cookie := row.object_cookie, creation_qpc := row.creation_qpc
      creation := if attested then attestation.creation else .kUnknown
      operations := if attested then attestation.operations else .kUnknown } }

/-- `Freeze`.  `registry_failed` and `admitting` are what the registry answers; the two flags
after the reading say whether the memory for the snapshot and for the result is there. -/
def freeze (attestation : CoverageAttestation) (registry_failed admitting : Bool)
    (reading : Option Nat) (captured allocated : Bool) : Collector × FreezeResult :=
  if c.frozen then (c, { status := .kAlreadyFrozen })
  else
    let c := if registry_failed ∨ ¬ admitting then c.failLocked else c
    let (c, cut) := c.readClockLocked reading
    let c := { c with frozen := true, journal := c.journal.stop_admissions cut }
    if cut = 0 ∨ cut ≤ c.window.begin_qpc ∨ cut ≥ c.window.end_qpc_exclusive then
      (c, { status := .kInvalidClock })
    else if c.cookie = 0 ∨ c.journal.epochs = [] then (c, { status := .kNoSelection })
    else
      match capture c.journal c.token (c.coverage attestation registry_failed cut) captured with
      | .error error => (c, { status := .kCaptureFailed, snapshot_error := some error })
      | .ok snapshot =>
        if ¬ allocated then
          ({ c with counters.failures := bump c.counters.failures }, { status := .kAllocation })
        else (c, {
          status := .kOk
          frozen := some {
            snapshot, cookie := c.cookie, epoch := c.epoch, freeze_qpc := cut
            annotations := (List.range c.journal.counts.stored_operations).map c.annotations
            returned_handle := c.handle, owner_guest := c.owner_guest, counters := c.counters } })

/-! ### Callbacks -/

/-- `OnCreate`, with the create scopes of the thread. -/
def onCreate (scopes : List ScopedCreate) (value : Witness.Creation) (reading : Option Nat) :
    Collector × List ScopedCreate :=
  if c.frozen then (c.late, scopes)
  else
    let selected_intent : Bool := scopes.head?.any fun scope =>
      scope.owner = c.self ∧ scope.intent.outer_lr = kCreationLR
    if c.cookie ≠ 0 ∧ (value.cookie = c.cookie ∨ selected_intent) then
      let c := { c.failLocked with bound := false }
      if value.cookie = c.cookie then
        let (c, qpc) := c.readClockLocked reading
        ({ c with
          journal := (c.journal.create value.cookie qpc value.initial_count value.maximum_count
            value.origin.toCore).1 }, scopes)
      else (c, scopes)
    else
      match scopes with
      | [] => ({ c with counters.ignored_creations := bump c.counters.ignored_creations }, [])
      | scope :: outer =>
        if ¬ selected_intent then
          ({ c with counters.ignored_creations := bump c.counters.ignored_creations },
            scope :: outer)
        else if scope.intent.initial_count ≠ 0 ∨ value.initial_count ≠ 0 ∨
            value.maximum_count ≠ 32767 ∨ scope.intent.owner_guest = 0 ∨
            scope.intent.lane.context = 0 ∨ scope.intent.lane.base = 0 then
          (c.failLocked, scope :: outer)
        else
          let (c, qpc) := c.readClockLocked reading
          let (journal, created) := c.journal.create value.cookie qpc value.initial_count
            value.maximum_count value.origin.toCore
          let c := { c with journal }
          if created.epoch_id = 0 then (c.failLocked, scope :: outer)
          else
            let c := { c with
              cookie := value.cookie, epoch := created.epoch_id
              owner_guest := scope.intent.owner_guest }
            (if value.origin ≠ .kFresh then c.failLocked else c,
              { scope with cookie := value.cookie, epoch := created.epoch_id } :: outer)

/-- A semaphore is destroyed. -/
def onDestroy (cookie : Nat) (reading : Option Nat) : Collector :=
  if c.frozen then c.late
  else if c.cookie = 0 ∨ cookie ≠ c.cookie then
    { c with counters.ignored_operations := bump c.counters.ignored_operations }
  else
    let (c, qpc) := c.readClockLocked reading
    { c with journal := (c.journal.destroy cookie qpc).1, destroyed := true }

/-- The loop of `OnBegin` over the active scopes, for one of them: the admission is counted. -/
def countAdmission (value : Witness.Admission) (active : ScopedOperation) :
    Collector × ScopedOperation :=
  if active.owner ≠ c.self then (c, active)
  else
    let active :=
      if active.begin_attempts ≠ 2 ^ 64 - 1 then
        { active with begin_attempts := active.begin_attempts + 1 }
      else { active with ambiguous := true }
    if active.begin_attempts ≠ 1 ∨ active.intent.cookie ≠ value.cookie ∨
        active.intent.expected_kind ≠ value.kind then
      let active := { active with ambiguous := true, wait := none }
      if active.ticket ≠ 0 then
        -- The label stays in the raw history, so it is the association that fails.
        let c := if (c.journal.operation active.ticket).context.kind = .kUpdate then c.failLocked
          else c
        let old := c.annotations (active.ticket - 1)
        ({ c with
          annotations := Function.update c.annotations (active.ticket - 1)
            { old with annotated := false, phase_call_id := 0, outer_lr := 0 } }, active)
      else (c, active)
    else (c, active)

/-- The loop of `OnBegin` over the active scopes. -/
def countAdmissions (c : Collector) (value : Witness.Admission) :
    List ScopedOperation → Collector × List ScopedOperation
  | [] => (c, [])
  | active :: outer =>
    let (c, active) := c.countAdmission value active
    let (c, outer) := c.countAdmissions value outer
    (c, active :: outer)

/-- Whether the innermost scope is the helper of the admission. -/
def annotates (value : Witness.Admission) (scope : ScopedOperation) : Bool :=
  scope.owner = c.self ∧ scope.intent.cookie = value.cookie ∧ ¬ scope.ambiguous ∧
    scope.begin_attempts = 1 ∧ scope.intent.expected_kind = value.kind ∧
    scope.intent.lane.context ≠ 0 ∧ scope.intent.lane.base ≠ 0 ∧ scope.intent.outer_lr ≠ 0 ∧
    (scope.intent.handle.any fun handle => handle ≠ 0) ∧ c.bound ∧ ¬ c.destroyed ∧
    c.journal.lookup c.cookie = c.epoch ∧ scope.ticket = 0

/-- A release context that may be recorded with the helper's return address. -/
def wellLabelled (intent : OperationIntent) : Bool :=
  ¬ intent.release_context.kind.nameless ∧
    (if intent.release_context.kind = .kUpdate then
      intent.outer_lr = kReleaseLR ∧ intent.release_context.generation.valid
    else intent.release_context.generation = {})

/-- The journal's call for an admission. -/
def callBegin (j : Journal) (value : Witness.Admission) (tid : Nat) (handle : Option Nat) (qpc : Nat)
    (context : ReleaseContext) : Journal × BeginResult :=
  match value.kind with
  | .kRelease => j.begin_release value.cookie tid handle qpc value.count context
  | .kWait => j.begin_wait value.cookie tid handle qpc value.timeout.toCore
  | kind => j.begin_unsupported value.cookie tid handle qpc kind.toCore

/-- A label that does not fit. -/
def mismatch : Collector :=
  { c with counters.annotation_mismatches := bump c.counters.annotation_mismatches }

/-- An admission without a helper leaves the innermost scope that had its ticket ambiguous. -/
def unannotated (annotated : Bool) (scopes : List ScopedOperation) :
    Collector × List ScopedOperation :=
  if annotated then (c, scopes)
  else (c.mismatch, scopes.modifyHead fun scope =>
    if scope.owner = c.self ∧ scope.ticket ≠ 0 then { scope with ambiguous := true } else scope)

/-- The release context of an admission, and whether it is annotated still. -/
def label (annotated : Bool) (kind : Witness.Kind) (intent : OperationIntent) :
    Collector × Bool × ReleaseContext :=
  if annotated ∧ kind = .kRelease then
    if wellLabelled intent then (c, true, intent.release_context) else (c.mismatch, false, {})
  else (c, annotated, {})

/-- What `OnBegin` does with an admission of the selected semaphore. -/
def admitSelected (scopes : List ScopedOperation) (value : Witness.Admission) (tid : Nat)
    (reading : Option Nat) : Collector × List ScopedOperation × Nat :=
  let annotated := scopes.head?.any (c.annotates value)
  let intent := (scopes.head?.map (·.intent)).getD {}
  let (c, scopes) := c.unannotated annotated scopes
  let (c, annotated, context) := c.label annotated value.kind intent
  let (c, qpc) := c.readClockLocked reading
  let (journal, admitted) := callBegin c.journal value tid (if annotated then intent.handle else none)
    qpc context
  let c := { c with journal }
  if ¬ admitted.ticket.valid then (c, scopes, 0)
  else
    let id := admitted.ticket.op_id
    ({ c with
      tickets := Function.update c.tickets (id - 1) admitted.ticket
      annotations := Function.update c.annotations (id - 1) {
        op_id := id, native_thread_id := tid, annotated
        phase_call_id := if annotated then intent.phase_call_id else 0
        outer_lr := if annotated then intent.outer_lr else 0 } },
      scopes.modifyHead fun scope =>
        if scope.owner = c.self ∧ scope.ticket = 0 then { scope with ticket := id } else scope, id)

/-- `OnBegin`, with the operation scopes of the thread.  It returns the ticket, zero for none. -/
def onBegin (scopes : List ScopedOperation) (value : Witness.Admission) (tid : Nat)
    (reading : Option Nat) : Collector × List ScopedOperation × Nat :=
  if c.frozen then (c.late, scopes, 0)
  else
    let (c, scopes) := c.countAdmissions value scopes
    if c.cookie = 0 ∨ value.cookie ≠ c.cookie then
      ({ c with counters.ignored_operations := bump c.counters.ignored_operations }, scopes, 0)
    else c.admitSelected scopes value tid reading

/-- The journal's call for a completion, none where there is none to make. -/
def complete (value : Witness.Completion) (reading : Option Nat) : Collector × Option Disposition :=
  let ticket := c.tickets (value.ticket - 1)
  match value.kind with
  | .kRelease =>
    let (c, qpc) := c.readClockLocked reading
    let (journal, result) := c.journal.end_release ticket qpc (value.result = .kSuccess)
      value.previous_count
    ({ c with journal }, some result)
  | .kWait =>
    let (c, qpc) := c.readClockLocked reading
    let (journal, result) := c.journal.end_wait ticket qpc value.result.outcome
    ({ c with journal }, some result)
  | kind =>
    if (c.journal.operation value.ticket).kind ≠ kind.toCore then (c, none)
    else
      let (c, qpc) := c.readClockLocked reading
      let (journal, result) := c.journal.end_unsupported ticket qpc
      ({ c with journal }, some result)

/-- `OnEnd`, with the operation scopes of the thread. -/
def onEnd (scopes : List ScopedOperation) (value : Witness.Completion) (tid : Nat)
    (reading : Option Nat) : Collector × List ScopedOperation :=
  if c.frozen then (c.late, scopes)
  else if value.ticket = 0 ∨ value.ticket > c.journal.counts.stored_operations then
    (c.failLocked, scopes)
  else if (c.journal.operation value.ticket).native_thread_id ≠ tid then (c.failLocked, scopes)
  else
    let (c, result) := c.complete value reading
    if result ≠ some .kRecorded then (c.failLocked, scopes)
    else
      (c, scopes.modifyHead fun scope =>
        if value.kind = .kWait ∧ scope.owner = c.self ∧ scope.ticket = value.ticket ∧
            ¬ scope.ambiguous then
          { scope with
            wait := some {
              op_id := value.ticket, outcome := value.result.outcome
              phase_call_id := (c.annotations (value.ticket - 1)).phase_call_id
              annotated := (c.annotations (value.ticket - 1)).annotated } }
        else scope)

end Collector
end Mcla.Semaphore

import Mathlib

/-! # The semaphore observer: the journal

A journal keeps two bounded tables, the epochs of the semaphores it has seen created and the
operations on them, with counters beside them and a set of issues that is only ever added to.
Its methods are called one at a time.  An enumeration may hold a value outside its names, as
the checks of the code allow for.  Counters are machine words.
-/
namespace Mcla.Semaphore

def kEpochCapacity : Nat := 64
def kOperationCapacity : Nat := 32768
def kMaxQpc : Nat := 2 ^ 63 - 1
def kMaxCount : Nat := 2 ^ 31 - 1

/-- `AllocateJournalGeneration`: the counter after the call, and the identity, zero when the
counter is saturated. -/
def allocateJournalGeneration (last : Nat) : Nat × Nat :=
  if last = 2 ^ 64 - 1 then (last, 0) else (last + 1, last + 1)

/-- The window of a journal. -/
structure Window where
  (begin_qpc end_qpc_exclusive qpc_frequency : Nat := 0)
  deriving DecidableEq

/-- Where a semaphore comes from. -/
inductive Origin where
  | kFresh | kNative | kRestored | kUnknown
  | other (value : Nat)
  deriving DecidableEq

/-- The kinds of operations. -/
inductive Kind where
  | kRelease | kWait | kWaitMultiple | kSignalAndWait | kSave | kRestore | kLifecycleGap | kUnknown
  | other (value : Nat)
  deriving DecidableEq

/-- The kinds of contexts. -/
inductive ContextKind where
  | kUpdate | kControl | kUnknown
  | other (value : Nat)
  deriving DecidableEq

/-- The kinds of timeouts. -/
inductive TimeoutKind where
  | kZero | kFinite | kInfinite
  | other (value : Nat)
  deriving DecidableEq

/-- How a wait ended. -/
inductive WaitResult where
  | kSuccess | kTimeout | kApc | kAlerted | kAbandoned | kFailed | kUnknown
  | other (value : Nat)
  deriving DecidableEq

/-- What a call answers. -/
inductive Disposition where
  | kRecorded | kDisabled | kStopped | kUnknownObject | kCapacityExhausted
  | kInvalidArgument | kInvalidTicket | kAlreadyCompleted
  deriving DecidableEq

/-- What may be wrong with a journal. -/
inductive Issue where
  | kInvalidConfiguration | kUnknownObject | kInvalidArgument | kInvalidClock
  | kOutsideWindow | kDuplicateCreation | kAmbiguousReuse | kEpochOverflow
  | kOperationOverflow | kIncompleteCut | kUnsupported | kCompletionMismatch
  | kLifetimeBoundary | kCounterOverflow | kEarlyCut | kStoppedObservation
  | kNonfreshOrigin | kInitialCredits | kExternalFailure | kIdentityExhausted
  deriving DecidableEq

/-- The bit of an issue. -/
def Issue.bit : Issue → Nat
  | .kInvalidConfiguration => 1 <<< 0 | .kUnknownObject => 1 <<< 1
  | .kInvalidArgument => 1 <<< 2 | .kInvalidClock => 1 <<< 3
  | .kOutsideWindow => 1 <<< 4 | .kDuplicateCreation => 1 <<< 5
  | .kAmbiguousReuse => 1 <<< 6 | .kEpochOverflow => 1 <<< 7
  | .kOperationOverflow => 1 <<< 8 | .kIncompleteCut => 1 <<< 9
  | .kUnsupported => 1 <<< 10 | .kCompletionMismatch => 1 <<< 11
  | .kLifetimeBoundary => 1 <<< 12 | .kCounterOverflow => 1 <<< 13
  | .kEarlyCut => 1 <<< 14 | .kStoppedObservation => 1 <<< 15
  | .kNonfreshOrigin => 1 <<< 16 | .kInitialCredits => 1 <<< 17
  | .kExternalFailure => 1 <<< 18 | .kIdentityExhausted => 1 <<< 19

/-- `frame_context::Id` -/
structure FrameId where
  (thread_epoch serial : Nat := 0)
  deriving DecidableEq

/-- Both numbers are positive. -/
def FrameId.valid (id : FrameId) : Bool := id.thread_epoch ≠ 0 ∧ id.serial ≠ 0

/-- The context of a release. -/
structure ReleaseContext where
  kind : ContextKind := .kUnknown
  generation : FrameId := {}
  deriving DecidableEq

/-- The counters of operations. -/
structure Counts where
  (observed_operations stored_operations completed_operations overflow_operations : Nat := 0)
  deriving DecidableEq

/-- The counters of refused calls. -/
structure Diagnostics where
  (unknown_object_attempts rejected_attempts stopped_attempts : Nat := 0)
  deriving DecidableEq

/-- The life of one semaphore. -/
structure Epoch where
  (epoch_id object_cookie creation_qpc : Nat := 0)
  destroy_qpc : Option Nat := none
  (initial_count maximum_count pending_operations : Nat := 0)
  origin : Origin := .kUnknown
  history_complete : Bool := false
  deriving DecidableEq

/-- One operation on a semaphore. -/
structure Operation where
  (op_id epoch_id entry_qpc exit_qpc native_thread_id : Nat := 0)
  guest_handle : Option Nat := none
  kind : Kind := .kUnknown
  completed : Bool := false
  release_count : Nat := 0
  context : ReleaseContext := {}
  release_success : Bool := false
  previous_count : Option Int := none
  timeout_kind : TimeoutKind := .kInfinite
  wait_result : WaitResult := .kUnknown
  deriving DecidableEq

/-- A ticket names its journal by address, none for the null pointer. -/
structure Ticket where
  owner : Option Nat := none
  (generation op_id epoch_id : Nat := 0)

/-- A ticket that a journal gave out. -/
def Ticket.valid (t : Ticket) : Bool :=
  t.owner.isSome ∧ t.generation ≠ 0 ∧ t.op_id ≠ 0 ∧ t.epoch_id ≠ 0

/-- The answer to a creation. -/
structure EpochResult where
  disposition : Disposition
  epoch_id : Nat := 0

/-- The answer to the begin of an operation. -/
structure BeginResult where
  disposition : Disposition
  ticket : Ticket := {}

/-- `Name(value).empty()`: the value has no name. -/
def Origin.nameless : Origin → Bool | .other _ => true | _ => false
/-- A value that has no name in the source. -/
def Kind.nameless : Kind → Bool | .other _ => true | _ => false
def ContextKind.nameless : ContextKind → Bool | .other _ => true | _ => false
def TimeoutKind.nameless : TimeoutKind → Bool | .other _ => true | _ => false
def WaitResult.nameless : WaitResult → Bool | .other _ => true | _ => false

/-- The journal.  `self` is its address; a table holds the rows that are in use. -/
structure Journal where
  self : Nat
  window : Window
  generation : Nat := 0
  (enabled configured stopped malformed_fields post_stop_mutated : Bool := false)
  (issues pending : Nat := 0)
  cut_qpc : Option Nat := none
  counts : Counts := {}
  diagnostics : Diagnostics := {}
  last_completed_exit : Nat → Nat := fun _ => 0
  epochs : List Epoch := []
  operations : List Operation := []

namespace Journal

variable (j : Journal)

/-- An issue is noted. -/
def mark (issue : Issue) : Journal := { j with issues := j.issues ||| issue.bit }

/-- The issue was noted. -/
def has (issue : Issue) : Bool := j.issues &&& issue.bit ≠ 0

/-- A call after the stop is noted. -/
def note_mutation : Journal :=
  if j.enabled ∧ j.stopped then { j with post_stop_mutated := true } else j

/-- `increment`, of one of the diagnostics. -/
def increment (value : Nat) (next : Diagnostics) : Journal :=
  if value = 2 ^ 64 - 1 then j.mark .kCounterOverflow else { j with diagnostics := next }

/-- A bad argument is noted. -/
def reject_argument : Journal :=
  ({ j with malformed_fields := true }.mark .kInvalidArgument).increment
    j.diagnostics.rejected_attempts
    { j.diagnostics with rejected_attempts := j.diagnostics.rejected_attempts + 1 }

/-- A reading in range. -/
def valid_clock (qpc : Nat) : Bool := qpc ≠ 0 ∧ qpc ≤ kMaxQpc

/-- A reading in range, and in the window. -/
def clock (qpc : Nat) : Journal × Bool :=
  if ¬ valid_clock qpc then
    let j := j.mark .kInvalidClock
    (if qpc > kMaxQpc then { j with malformed_fields := true } else j, false)
  else if qpc < j.window.begin_qpc ∨ qpc ≥ j.window.end_qpc_exclusive then
    (j.mark .kOutsideWindow, false)
  else (j, true)

/-- Why a call is turned away, if it is. -/
def admission (qpc : Nat) : Journal × Option Disposition :=
  if ¬ j.enabled then (j, some .kDisabled)
  else if ¬ j.configured then (j, some .kInvalidArgument)
  else if j.generation = 0 then (j, some .kCapacityExhausted)
  else if j.stopped then
    let j := j.increment j.diagnostics.stopped_attempts
      { j.diagnostics with stopped_attempts := j.diagnostics.stopped_attempts + 1 }
    (if ¬ valid_clock qpc ∨ qpc < j.window.end_qpc_exclusive then j.mark .kStoppedObservation else j,
      some .kStopped)
  else (j, none)

/-- The journal as it is constructed.  `last` is the last identity issued. -/
def init (self : Nat) (window : Window) (enabled : Bool) (last : Nat) : Journal :=
  let configured : Bool := window.begin_qpc ≠ 0 ∧ window.begin_qpc < window.end_qpc_exclusive ∧
    window.end_qpc_exclusive ≤ kMaxQpc ∧ window.qpc_frequency ≠ 0 ∧ window.qpc_frequency ≤ kMaxQpc
  let j : Journal := { self, window, enabled, configured }
  let j := if enabled ∧ ¬ configured then j.mark .kInvalidConfiguration else j
  if enabled ∧ configured then
    let j := { j with generation := (allocateJournalGeneration last).2 }
    if j.generation = 0 then j.mark .kIdentityExhausted else j
  else j

/-- The live epoch of a cookie, or zero. -/
def lookup (cookie : Nat) : Nat :=
  match j.epochs.reverse.find? fun e => e.object_cookie = cookie ∧ e.destroy_qpc = none with
  | some e => e.epoch_id
  | none => 0

/-- A row of a table, the default row where there is none. -/
def epoch (id : Nat) : Epoch := j.epochs.getD (id - 1) {}
/-- The operation of this number. -/
def operation (id : Nat) : Operation := j.operations.getD (id - 1) {}

def setEpoch (id : Nat) (f : Epoch → Epoch) : Journal :=
  { j with epochs := j.epochs.modify (id - 1) f }

def setOperation (id : Nat) (f : Operation → Operation) : Journal :=
  { j with operations := j.operations.modify (id - 1) f }

/-- The live epoch of a cookie. -/
def find (cookie : Nat) : Option Epoch :=
  if j.lookup cookie = 0 then none else some (j.epoch (j.lookup cookie))

/-- An unknown object is noted. -/
def unknown : Journal :=
  (j.increment j.diagnostics.unknown_object_attempts
    { j.diagnostics with
      unknown_object_attempts := j.diagnostics.unknown_object_attempts + 1 }).mark .kUnknownObject

/-- The newest epoch of the cookie stands in the way of a creation. -/
def reuse (cookie qpc : Nat) : Option Issue :=
  match j.epochs.reverse.find? fun e => e.object_cookie = cookie with
  | none => none
  | some old =>
    match old.destroy_qpc with
    | none => some .kDuplicateCreation
    | some destroyed =>
      if ¬ valid_clock destroyed ∨ destroyed ≤ old.creation_qpc ∨ qpc ≤ destroyed then
        some .kAmbiguousReuse
      else none

/-- A semaphore is created. -/
def create (cookie qpc initial maximum : Nat) (origin : Origin) : Journal × EpochResult :=
  let j := j.note_mutation
  match j.admission qpc with
  | (j, some rejected) => (j, ⟨rejected, 0⟩)
  | (j, none) =>
    if cookie = 0 ∨ maximum = 0 ∨ maximum > kMaxCount ∨ initial > maximum ∨ origin.nameless then
      (j.reject_argument, ⟨.kInvalidArgument, 0⟩)
    else
      match j.reuse cookie qpc with
      | some issue => (j.mark issue, ⟨.kInvalidArgument, 0⟩)
      | none =>
        if j.epochs.length = kEpochCapacity then
          (j.mark .kEpochOverflow, ⟨.kCapacityExhausted, 0⟩)
        else
          let (j, inside) := j.clock qpc
          let row : Epoch := {
            epoch_id := j.epochs.length + 1, object_cookie := cookie, creation_qpc := qpc,
            initial_count := initial, maximum_count := maximum, origin,
            history_complete := inside ∧ origin = .kFresh }
          let j := { j with epochs := j.epochs ++ [row] }
          let j := if origin ≠ .kFresh then j.mark .kNonfreshOrigin else j
          let j := if initial ≠ 0 then j.mark .kInitialCredits else j
          (j, ⟨.kRecorded, row.epoch_id⟩)

/-- A semaphore is destroyed. -/
def destroy (cookie qpc : Nat) : Journal × Disposition :=
  let j := j.note_mutation
  match j.admission qpc with
  | (j, some rejected) => (j, rejected)
  | (j, none) =>
    match j.find cookie with
    | none => (j.unknown, .kUnknownObject)
    | some epoch =>
      let j := j.setEpoch epoch.epoch_id fun e => { e with destroy_qpc := some qpc }
      let (j, inside) := j.clock qpc
      if ¬ inside ∨ qpc ≤ epoch.creation_qpc ∨ epoch.pending_operations ≠ 0 ∨
          qpc ≤ j.last_completed_exit (epoch.epoch_id - 1) then
        ((j.setEpoch epoch.epoch_id fun e => { e with history_complete := false }).mark
          .kLifetimeBoundary, .kRecorded)
      else (j, .kRecorded)

/-- A row is stored. -/
def addOperation (row : Operation) : Journal :=
  { j with
    counts.stored_operations := (j.counts.stored_operations + 1) % 2 ^ 64
    operations := j.operations ++ [row] }

/-- The clock at the entry of an operation is checked. -/
def noteEntry (epoch : Epoch) (qpc : Nat) : Journal :=
  let (j, inside) := j.clock qpc
  if ¬ inside ∨ qpc ≤ epoch.creation_qpc then
    (j.setEpoch epoch.epoch_id fun e => { e with history_complete := false }).mark .kLifetimeBoundary
  else j

/-- An operation of the epoch is pending. -/
def addPending (id : Nat) : Journal :=
  { j.setEpoch id fun e =>
      { e with pending_operations := (e.pending_operations + 1) % 2 ^ 32 } with
    pending := (j.pending + 1) % 2 ^ 32 }

/-- `begin` -/
def beginOperation (cookie tid : Nat) (handle : Option Nat) (qpc : Nat) (kind : Kind) :
    Journal × BeginResult :=
  match j.admission qpc with
  | (j, some rejected) => (j, ⟨rejected, {}⟩)
  | (j, none) =>
    match j.find cookie with
    | none => (j.unknown, ⟨.kUnknownObject, {}⟩)
    | some epoch =>
      if j.counts.observed_operations = 2 ^ 64 - 1 then
        (j.mark .kCounterOverflow, ⟨.kCapacityExhausted, {}⟩)
      else
        let j := { j with
          counts.observed_operations := (j.counts.observed_operations + 1) % 2 ^ 64 }
        if j.counts.stored_operations = kOperationCapacity then
          let j := { j with
            counts.overflow_operations := (j.counts.overflow_operations + 1) % 2 ^ 64 }
          let j := j.setEpoch epoch.epoch_id fun e => { e with history_complete := false }
          (j.mark .kOperationOverflow, ⟨.kCapacityExhausted, {}⟩)
        else
          let row : Operation := {
            op_id := j.counts.observed_operations, epoch_id := epoch.epoch_id, kind,
            native_thread_id := tid, guest_handle := handle, entry_qpc := qpc }
          let j := j.addOperation row
          let j := if tid = 0 ∨ handle = some 0 then j.reject_argument else j
          let j := (j.noteEntry epoch qpc).addPending epoch.epoch_id
          (j, ⟨.kRecorded, ⟨some j.self, j.generation, row.op_id, row.epoch_id⟩⟩)

/-- A release begins. -/
def begin_release (cookie tid : Nat) (handle : Option Nat) (qpc count : Nat)
    (context : ReleaseContext) : Journal × BeginResult :=
  let j := j.note_mutation
  let (j, result) := j.beginOperation cookie tid handle qpc .kRelease
  if result.ticket.valid then
    let j := j.setOperation result.ticket.op_id fun row =>
      { row with release_count := count, context }
    let j := if count = 0 ∨ count > kMaxCount ∨ context.kind.nameless ∨
        (if context.kind = .kUpdate then ¬ context.generation.valid
          else context.generation ≠ {}) then j.reject_argument else j
    (j, result)
  else (j, result)

/-- A wait begins. -/
def begin_wait (cookie tid : Nat) (handle : Option Nat) (qpc : Nat) (timeout : TimeoutKind) :
    Journal × BeginResult :=
  let j := j.note_mutation
  let (j, result) := j.beginOperation cookie tid handle qpc .kWait
  if result.ticket.valid then
    let j := j.setOperation result.ticket.op_id fun row => { row with timeout_kind := timeout }
    (if timeout.nameless then j.reject_argument else j, result)
  else (j, result)

/-- An unsupported operation begins. -/
def begin_unsupported (cookie tid : Nat) (handle : Option Nat) (qpc : Nat) (kind : Kind) :
    Journal × BeginResult :=
  let j := j.note_mutation
  if ¬ j.enabled then (j, ⟨.kDisabled, {}⟩)
  else if kind.nameless ∨ kind = .kRelease ∨ kind = .kWait then
    (j.reject_argument, ⟨.kInvalidArgument, {}⟩)
  else
    let (j, result) := j.beginOperation cookie tid handle qpc kind
    if result.ticket.valid then
      ((j.setEpoch result.ticket.epoch_id fun e => { e with history_complete := false }).mark
        .kUnsupported, result)
    else (j, result)

/-- The ticket is one of this journal. -/
def owns (ticket : Ticket) : Bool :=
  ticket.owner = some j.self ∧ j.generation ≠ 0 ∧ ticket.generation = j.generation ∧
    ticket.op_id ≠ 0 ∧ ticket.op_id ≤ j.counts.stored_operations ∧
    (j.operation ticket.op_id).epoch_id = ticket.epoch_id

/-- A 32-bit counter, one down. -/
@[irreducible] def decrement (n : Nat) : Nat := (n + (2 ^ 32 - 1)) % 2 ^ 32

/-- The row of an operation is closed. -/
def closeOperation (op_id epoch_id qpc : Nat) : Journal :=
  { j with
    counts.completed_operations := (j.counts.completed_operations + 1) % 2 ^ 64
    pending := decrement j.pending
    last_completed_exit :=
      if qpc > j.last_completed_exit (epoch_id - 1) then
        Function.update j.last_completed_exit (epoch_id - 1) qpc
      else j.last_completed_exit
    operations := j.operations.modify (op_id - 1) fun row =>
      { row with completed := true, exit_qpc := qpc }
    epochs := j.epochs.modify (epoch_id - 1) fun e =>
      { e with pending_operations := decrement e.pending_operations } }

/-- The clock at the exit of an operation is checked. -/
def noteExit (row : Operation) (epoch : Epoch) (qpc : Nat) : Journal :=
  let (j, inside) := j.clock qpc
  if ¬ inside ∨ qpc < row.entry_qpc ∨ (∃ destroyed ∈ epoch.destroy_qpc, qpc ≥ destroyed) then
    let j := (j.setEpoch row.epoch_id fun e => { e with history_complete := false }).mark
      .kLifetimeBoundary
    if qpc < row.entry_qpc then j.mark .kInvalidClock else j
  else j

/-- `completion`: none where the operation was completed, else why not. -/
def completion (ticket : Ticket) (qpc : Nat) (kind : Kind) : Journal × Option Disposition :=
  if ¬ j.owns ticket ∨ (j.operation ticket.op_id).kind ≠ kind then
    (j.mark .kCompletionMismatch, some .kInvalidTicket)
  else
    let row := j.operation ticket.op_id
    if row.completed then (j.mark .kCompletionMismatch, some .kAlreadyCompleted)
    else
      let epoch := j.epoch row.epoch_id
      let j := j.closeOperation ticket.op_id row.epoch_id qpc
      (j.noteExit row epoch qpc, none)

/-- A release ends. -/
def end_release (ticket : Ticket) (qpc : Nat) (success : Bool) (previous : Option Int) :
    Journal × Disposition :=
  let j := j.note_mutation
  if ¬ j.enabled then (j, .kDisabled)
  else
    match j.completion ticket qpc .kRelease with
    | (j, some disposition) => (j, disposition)
    | (j, none) =>
      let j := j.setOperation ticket.op_id fun row =>
        { row with release_success := success, previous_count := if success then previous else none }
      let maximum := (j.epoch (j.operation ticket.op_id).epoch_id).maximum_count
      (if success ∧ (previous = none ∨ ∃ n ∈ previous, n < 0 ∨ n.toNat > maximum) then
        j.reject_argument else j, .kRecorded)

/-- A wait ends. -/
def end_wait (ticket : Ticket) (qpc : Nat) (result : WaitResult) : Journal × Disposition :=
  let j := j.note_mutation
  if ¬ j.enabled then (j, .kDisabled)
  else
    match j.completion ticket qpc .kWait with
    | (j, some disposition) => (j, disposition)
    | (j, none) =>
      let j := j.setOperation ticket.op_id fun row => { row with wait_result := result }
      let j := if result.nameless then j.reject_argument else j
      let j := if result = .kAbandoned ∨ result = .kFailed ∨ result = .kUnknown then
        j.mark .kUnsupported else j
      (j, .kRecorded)

/-- An unsupported operation ends. -/
def end_unsupported (ticket : Ticket) (qpc : Nat) : Journal × Disposition :=
  let j := j.note_mutation
  if ¬ j.enabled then (j, .kDisabled)
  else if ¬ j.owns ticket ∨ (j.operation ticket.op_id).kind = .kRelease ∨
      (j.operation ticket.op_id).kind = .kWait then
    (j.mark .kCompletionMismatch, .kInvalidTicket)
  else
    match j.completion ticket qpc (j.operation ticket.op_id).kind with
    | (j, none) => (j, .kRecorded)
    | (j, some disposition) => (j, disposition)

/-- The journal fails. -/
def fail : Journal :=
  let j := j.note_mutation
  if j.enabled then j.mark .kExternalFailure else j

/-- Nothing more is admitted. -/
def stop_admissions (qpc : Nat) : Journal :=
  if ¬ j.enabled then j
  else if j.stopped then j
  else
    let j := { j with stopped := true, cut_qpc := some qpc }
    let j := if ¬ valid_clock qpc then j.mark .kInvalidClock else j
    let j := if qpc < j.window.end_qpc_exclusive then j.mark .kEarlyCut else j
    if j.pending ≠ 0 then j.mark .kIncompleteCut else j

/-- Nothing is pending. -/
def drained : Bool := j.pending = 0

/-- Nothing is missing. -/
def history_complete : Bool :=
  j.enabled ∧ j.configured ∧ j.generation ≠ 0 ∧ j.stopped ∧ j.drained ∧ j.issues = 0

def observer_failed : Bool := j.issues ≠ 0

end Journal

/-- A call of one of the methods. -/
inductive Call where
  | create (cookie qpc initial maximum : Nat) (origin : Origin)
  | destroy (cookie qpc : Nat)
  | begin_release (cookie tid : Nat) (handle : Option Nat) (qpc count : Nat) (context : ReleaseContext)
  | begin_wait (cookie tid : Nat) (handle : Option Nat) (qpc : Nat) (timeout : TimeoutKind)
  | begin_unsupported (cookie tid : Nat) (handle : Option Nat) (qpc : Nat) (kind : Kind)
  | end_release (ticket : Ticket) (qpc : Nat) (success : Bool) (previous : Option Int)
  | end_wait (ticket : Ticket) (qpc : Nat) (result : WaitResult)
  | end_unsupported (ticket : Ticket) (qpc : Nat)
  | fail
  | stop_admissions (qpc : Nat)

/-- The journal after a call. -/
def Journal.call (j : Journal) : Call → Journal
  | .create cookie qpc initial maximum origin => (j.create cookie qpc initial maximum origin).1
  | .destroy cookie qpc => (j.destroy cookie qpc).1
  | .begin_release cookie tid handle qpc count context =>
    (j.begin_release cookie tid handle qpc count context).1
  | .begin_wait cookie tid handle qpc timeout => (j.begin_wait cookie tid handle qpc timeout).1
  | .begin_unsupported cookie tid handle qpc kind =>
    (j.begin_unsupported cookie tid handle qpc kind).1
  | .end_release ticket qpc success previous => (j.end_release ticket qpc success previous).1
  | .end_wait ticket qpc result => (j.end_wait ticket qpc result).1
  | .end_unsupported ticket qpc => (j.end_unsupported ticket qpc).1
  | .fail => j.fail
  | .stop_admissions qpc => j.stop_admissions qpc

/-- The journal after some calls. -/
def Journal.calls (j : Journal) (cs : List Call) : Journal := cs.foldl Journal.call j

end Mcla.Semaphore

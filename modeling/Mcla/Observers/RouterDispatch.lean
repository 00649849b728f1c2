import Mcla.Library.SnapshotReplay

/-! # Router dispatches

A router call asks a predicate and, if its answer is not zero, calls a consumer; each of the two
is dispatched through a register.  The recorder of a thread is told of every step of the router
calls, which may nest, and keeps a snapshot of the innermost call with each event.
-/
namespace Mcla.RouterDispatch
open NestedRecorder (Recorder need)
open SnapshotReplay (Snapshot)

/-! ### Data -/

/-- The number of an invocation, within its thread epoch. -/
structure InvocationId where
  (thread_epoch serial : BitVec 64 := 0)
  deriving DecidableEq

/-- The update that an invocation belongs to. -/
structure UpdateBinding where
  (phase_call_id thread_epoch : BitVec 64 := 0)
  native_thread_id : BitVec 32 := 0
  deriving DecidableEq

/-- No update is named. -/
def UpdateBinding.unbound (b : UpdateBinding) : Prop :=
  b.phase_call_id = 0 ∧ b.thread_epoch = 0 ∧ b.native_thread_id = 0

/-- An update is named in full. -/
def UpdateBinding.bound (b : UpdateBinding) : Prop :=
  b.phase_call_id ≠ 0 ∧ b.thread_epoch ≠ 0 ∧ b.native_thread_id ≠ 0

instance (b : UpdateBinding) : Decidable b.unbound := inferInstanceAs (Decidable (_ ∧ _))
instance (b : UpdateBinding) : Decidable b.bound := inferInstanceAs (Decidable (_ ∧ _))

/-- What the router is entered with. -/
structure Entry where
  invocation : InvocationId := {}
  update : UpdateBinding := {}
  (caller_lr manager_r3 selector_r4 f1_bits : BitVec 64 := 0)

/-- The operands of an indirect call. -/
structure Dispatch where
  (r3 table ctr f1_bits : BitVec 64 := 0)
  present : Bool := false

def Dispatch.requested_target_u32 (d : Dispatch) : BitVec 32 := d.ctr.setWidth 32

/-- How far a router has come. -/
inductive Stage where
  | kEntered | kPredicateActive | kPredicateReturned | kSkipped
  | kConsumerActive | kConsumerReturned | kDispatchException
  deriving DecidableEq

/-- The kinds of events. -/
inductive EventKind where
  | kEntry | kPredicatePre | kPredicateReturn | kPredicateException | kSkip
  | kConsumerPre | kConsumerReturn | kConsumerException | kNormalExit | kExceptionalExit
  deriving DecidableEq

/-- Why the model stops. -/
inductive Fault where
  | kIdentity | kTransition | kCapacity | kDepth
  deriving DecidableEq

/-- A router under way. -/
structure Frame where
  entry : Entry := {}
  parent : InvocationId := {}
  stage : Stage := .kEntered
  (predicate consumer : Dispatch := {})
  predicate_result_r3 : BitVec 64 := 0
  predicate_result_low8 : BitVec 8 := 0
  predicate_returned : Bool := false

/-- An event, with the frame that it leaves. -/
abbrev Event := Snapshot EventKind Frame

/-- What an entry is compared with. -/
structure Admission where
  epoch : BitVec 64
  last_serial : BitVec 64 := 0

/-! ### The recorder -/

/-- The model of one lane. -/
abbrev Model := Recorder Admission Frame Event Fault

/-- The two ends of a call that passed its checks: the frame after it, if it stays open, and the
event with its snapshot. -/
def changed (f : Frame) (kind : EventKind) : Option Frame × Event := (some f, ⟨kind, f⟩)

/-- The frame ends with this event. -/
def closed (f : Frame) (kind : EventKind) : Option Frame × Event := (none, ⟨kind, f⟩)

namespace Model

/-- The model of a fresh lane. -/
def new (epoch : BitVec 64) : Model :=
  { admission := { epoch := epoch }, fault := if epoch = 0 then some .kIdentity else none }

section Calls
variable (capacity depth : Nat) (m : Model)

/-- The router is entered. -/
def Enter (entry : Entry) : Model × Bool :=
  m.attempt do
    need (entry.invocation.thread_epoch = m.admission.epoch ∧ entry.invocation.serial ≠ 0 ∧
      m.admission.last_serial < entry.invocation.serial ∧
      (entry.update.unbound ∨ entry.update.bound)) .kIdentity
    need (m.stack.length ≠ depth) .kDepth
    m.room capacity .kCapacity
    let frame : Frame :=
      { entry := entry
        parent := match m.stack with
          | [] => {}
          | top :: _ => top.entry.invocation }
    return m.opened { m.admission with last_serial := entry.invocation.serial } frame
      ⟨.kEntry, frame⟩

variable (id : InvocationId)

/-- A call on the innermost frame. -/
def Top (body : Frame → Except Fault (Option Frame × Event)) : Model × Bool :=
  m.onTop (fun f => f.entry.invocation = id) .kIdentity body

def Room : Except Fault Unit := m.room capacity .kCapacity

/-- The frame has to be at that stage. -/
def At (f : Frame) (stage : Stage) : Except Fault Unit := do
  need (f.stage = stage) .kTransition
  m.Room capacity

/-- The predicate is called. -/
def PredicatePre (r3 r10 ctr : BitVec 64) : Model × Bool :=
  m.Top id fun f => do
    m.At capacity f .kEntered
    return changed { f with predicate := ⟨r3, r10, ctr, 0, true⟩, stage := .kPredicateActive }
      .kPredicatePre

/-- The predicate returns. -/
def PredicateReturn (r3 : BitVec 64) : Model × Bool :=
  m.Top id fun f => do
    m.At capacity f .kPredicateActive
    return changed { f with
      predicate_result_r3 := r3
      predicate_result_low8 := (r3 &&& 0xff).setWidth 8
      predicate_returned := true
      stage := .kPredicateReturned } .kPredicateReturn

/-- The call at that stage ends with an exception. -/
def DispatchException (stage : Stage) (event : EventKind) : Model × Bool :=
  m.Top id fun f => do
    m.At capacity f stage
    return changed { f with stage := .kDispatchException } event

def PredicateException : Model × Bool :=
  m.DispatchException capacity id .kPredicateActive .kPredicateException

/-- The consumer is passed over. -/
def Skip : Model × Bool :=
  m.Top id fun f => do
    m.At capacity f .kPredicateReturned
    need (f.predicate_result_low8 = 0) .kTransition
    return changed { f with stage := .kSkipped } .kSkip

/-- The consumer is called. -/
def ConsumerPre (r3 r11 ctr f1_bits : BitVec 64) : Model × Bool :=
  m.Top id fun f => do
    m.At capacity f .kPredicateReturned
    need (f.predicate_result_low8 ≠ 0) .kTransition
    return changed { f with consumer := ⟨r3, r11, ctr, f1_bits, true⟩, stage := .kConsumerActive }
      .kConsumerPre

/-- The consumer returns. -/
def ConsumerReturn : Model × Bool :=
  m.Top id fun f => do
    m.At capacity f .kConsumerActive
    return changed { f with stage := .kConsumerReturned } .kConsumerReturn

def ConsumerException : Model × Bool :=
  m.DispatchException capacity id .kConsumerActive .kConsumerException

/-- The router ends. -/
def Exit (normal : Bool) : Model × Bool :=
  m.Top id fun f => do
    m.Room capacity
    need (normal = true → f.stage = .kSkipped ∨ f.stage = .kConsumerReturned) .kTransition
    return closed f (if normal then .kNormalExit else .kExceptionalExit)

def Freeze : Model := { m with frozen := true }

end Calls
end Model

/-- The calls of the model. -/
inductive Call where
  | Enter (entry : Entry)
  | PredicatePre (id : InvocationId) (r3 r10 ctr : BitVec 64)
  | PredicateReturn (id : InvocationId) (r3 : BitVec 64)
  | PredicateException (id : InvocationId)
  | Skip (id : InvocationId)
  | ConsumerPre (id : InvocationId) (r3 r11 ctr f1_bits : BitVec 64)
  | ConsumerReturn (id : InvocationId)
  | ConsumerException (id : InvocationId)
  | Exit (id : InvocationId) (normal : Bool)
  | Freeze

/-- The model after a call, and whether the call succeeded; `Freeze` has no answer. -/
def Model.call (capacity depth : Nat) (m : Model) : Call → Model × Bool
  | .Enter entry => m.Enter capacity depth entry
  | .PredicatePre id r3 r10 ctr => m.PredicatePre capacity id r3 r10 ctr
  | .PredicateReturn id r3 => m.PredicateReturn capacity id r3
  | .PredicateException id => m.PredicateException capacity id
  | .Skip id => m.Skip capacity id
  | .ConsumerPre id r3 r11 ctr f1_bits => m.ConsumerPre capacity id r3 r11 ctr f1_bits
  | .ConsumerReturn id => m.ConsumerReturn capacity id
  | .ConsumerException id => m.ConsumerException capacity id
  | .Exit id normal => m.Exit capacity id normal
  | .Freeze => (m.Freeze, true)

/-- The model after some calls. -/
def run (capacity depth : Nat) (epoch : BitVec 64) (calls : List Call) : Model :=
  calls.foldl (fun m call => (m.call capacity depth call).1) (Model.new epoch)

end Mcla.RouterDispatch

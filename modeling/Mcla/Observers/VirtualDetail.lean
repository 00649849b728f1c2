import Mcla.Observers.ConsumerDetail

/-! # Virtual details

The first child that a consumer body calls, called through a register in turn, makes three calls
in order, each through a register.  The recorder of a lane is told of every step of these bodies,
which may nest; each belongs to a consumer body and a router invocation of its own.
-/
namespace Mcla.VirtualDetail
open NestedRecorder (Recorder need)
open SnapshotReplay (Snapshot)
open RouterDispatch (InvocationId UpdateBinding)

/-! ### Data -/

def kTarget : BitVec 32 := 0x8258D1A0
def kCaller : BitVec 64 := 0x822C78C0
def kCallReturnLr : List (BitVec 64) := [0x8258D1E8, 0x8258D1FC, 0x8258D214]

/-- What the virtual is entered with. -/
structure Entry where
  invocation : InvocationId := {}
  parent_entry : ConsumerDetail.Entry := {}
  parent_child : ConsumerDetail.Child := {}
  actual_target : BitVec 32 := 0
  (caller_lr r3 f1_bits : BitVec 64 := 0)
  deriving DecidableEq

/-- What an entry saves of the child it was called as. -/
structure Entry.Called (e : Entry) : Prop where
  state : e.parent_child.state = .kActive
  indirect : e.parent_child.indirect = true
  child_caller : e.parent_child.caller_lr = kCaller
  requested : e.parent_child.requested_target = kTarget
  ctr : e.parent_child.indirect_ctr.setWidth 32 = kTarget
  target : e.actual_target = kTarget
  caller : e.caller_lr = kCaller
  r3 : e.r3 = e.parent_child.r3
  f1_bits : e.f1_bits = e.parent_child.f1_bits

/-- How far a virtual has come. -/
inductive Stage where
  | kEntered | kCallActive | kCallReturned | kCallException
  deriving DecidableEq

/-- How far a call of the virtual has come. -/
inductive CallState where
  | kAbsent | kActive | kReturned | kException
  deriving DecidableEq

/-- The kinds of events. -/
inductive EventKind where
  | kEntry | kCallPre | kCallReturn | kCallException | kNormalExit | kExceptionalExit
  deriving DecidableEq

/-- Why the model stops. -/
inductive Fault where
  | kIdentity | kTransition | kCapacity | kDepth
  deriving DecidableEq

/-- A call that the virtual makes. -/
structure Call where
  (caller_lr r3 f1_bits indirect_ctr : BitVec 64 := 0)
  requested_target : BitVec 32 := 0
  state : CallState := .kAbsent
  deriving DecidableEq

/-- A virtual under way. -/
structure Frame where
  entry : Entry := {}
  parent : InvocationId := {}
  stage : Stage := .kEntered
  returned_calls : Nat := 0
  calls : List Call := List.replicate 3 {}
  deriving DecidableEq

/-- An event, with the frame that it leaves. -/
abbrev Event := Snapshot EventKind Frame

/-- What an entry is compared with; a parent epoch of zero is not bound yet. -/
structure Admission where
  epoch : BitVec 64
  (detail_epoch router_epoch last_serial last_detail_serial last_router_serial : BitVec 64 := 0)

/-! ### The recorder -/

/-- The model of one lane. -/
abbrev Model := Recorder Admission Frame Event Fault

/-- The frame goes on, and an event is recorded. -/
def changed (f : Frame) (kind : EventKind) : Option Frame × Event := (some f, ⟨kind, f⟩)

/-- The frame ends with an event. -/
def closed (f : Frame) (kind : EventKind) : Option Frame × Event := (none, ⟨kind, f⟩)

namespace Model

/-- The model of a fresh lane. -/
def new (own_thread_epoch parent_detail_thread_epoch : BitVec 64) : Model where
  admission := { epoch := own_thread_epoch, detail_epoch := parent_detail_thread_epoch }
  fault := if own_thread_epoch = 0 then some .kIdentity else none

section Calls
variable (capacity depth : Nat) (m : Model)

/-- The virtual is entered. -/
def Enter (entry : Entry) : Model × Bool :=
  m.attempt do
    let p := entry.parent_entry
    let c := entry.parent_child
    need (entry.invocation.thread_epoch = m.admission.epoch ∧ entry.invocation.serial ≠ 0 ∧
      m.admission.last_serial < entry.invocation.serial ∧ p.invocation.thread_epoch ≠ 0 ∧
      (m.admission.detail_epoch ≠ 0 → p.invocation.thread_epoch = m.admission.detail_epoch) ∧
      p.invocation.serial ≠ 0 ∧ m.admission.last_detail_serial < p.invocation.serial ∧
      p.router.thread_epoch ≠ 0 ∧
      (m.admission.router_epoch ≠ 0 → p.router.thread_epoch = m.admission.router_epoch) ∧
      p.router.serial ≠ 0 ∧ m.admission.last_router_serial < p.router.serial ∧
      (p.update.bound ∨ p.update.unbound) ∧
      p.actual_target = ConsumerDetail.kTarget ∧ p.caller_lr = ConsumerDetail.kCaller ∧
      c.state = .kActive ∧ c.indirect = true ∧ c.caller_lr = kCaller ∧
      c.requested_target = kTarget ∧ c.indirect_ctr.setWidth 32 = kTarget ∧
      entry.actual_target = kTarget ∧ entry.caller_lr = kCaller ∧
      entry.r3 = c.r3 ∧ entry.f1_bits = c.f1_bits) .kIdentity
    need (m.stack.length ≠ depth) .kDepth
    m.room capacity .kCapacity
    let frame : Frame :=
      { entry := entry
        parent := match m.stack with
          | [] => {}
          | top :: _ => top.entry.invocation }
    return m.opened { m.admission with
      detail_epoch := if m.admission.detail_epoch = 0 then p.invocation.thread_epoch
        else m.admission.detail_epoch
      router_epoch := if m.admission.router_epoch = 0 then p.router.thread_epoch
        else m.admission.router_epoch
      last_serial := entry.invocation.serial
      last_detail_serial := p.invocation.serial
      last_router_serial := p.router.serial } frame ⟨.kEntry, frame⟩

variable (id : InvocationId)

/-- A call on the innermost frame. -/
def Top (body : Frame → Except Fault (Option Frame × Event)) : Model × Bool :=
  m.onTop (fun f => f.entry.invocation = id) .kIdentity body

def Room : Except Fault Unit := m.room capacity .kCapacity

/-- The next call of the body. -/
def CallPre (call : Nat) (caller_lr r3 f1_bits indirect_ctr : BitVec 64) : Model × Bool :=
  m.Top id fun f => do
    need (call < 3 ∧ call = f.returned_calls ∧ kCallReturnLr[call]? = some caller_lr ∧
      (f.stage = .kEntered ∨ f.stage = .kCallReturned)) .kTransition
    m.Room capacity
    return changed { f with
      calls := f.calls.set call
        ⟨caller_lr, r3, f1_bits, indirect_ctr, indirect_ctr.setWidth 32, .kActive⟩
      stage := .kCallActive } .kCallPre

/-- The call is over. -/
def CallEnd (call : Nat) (normal : Bool) : Model × Bool :=
  m.Top id fun f => do
    need (call < 3 ∧ call = f.returned_calls ∧ f.stage = .kCallActive ∧
      (f.calls.getD call {}).state = .kActive) .kTransition
    m.Room capacity
    return changed { f with
      calls := f.calls.set call { f.calls.getD call {} with
        state := if normal then .kReturned else .kException }
      stage := if normal then .kCallReturned else .kCallException
      returned_calls := if normal then f.returned_calls + 1 else f.returned_calls }
      (if normal then .kCallReturn else .kCallException)

def CallReturn (call : Nat) : Model × Bool := m.CallEnd capacity id call true

def CallException (call : Nat) : Model × Bool := m.CallEnd capacity id call false

/-- The virtual ends. -/
def Exit (normal : Bool) : Model × Bool :=
  m.Top id fun f => do
    need (normal = true → f.stage = .kCallReturned ∧ f.returned_calls = 3) .kTransition
    m.Room capacity
    return closed f (if normal then .kNormalExit else .kExceptionalExit)

def Freeze : Model := { m with frozen := true }

end Calls
end Model

/-- What the recorder is asked for. -/
inductive Request where
  | Enter (entry : Entry)
  | CallPre (id : InvocationId) (call : Nat) (caller_lr r3 f1_bits indirect_ctr : BitVec 64)
  | CallReturn (id : InvocationId) (call : Nat)
  | CallException (id : InvocationId) (call : Nat)
  | Exit (id : InvocationId) (normal : Bool)
  | Freeze
  deriving DecidableEq

/-- The model after a request, and whether it succeeded; `Freeze` has no answer. -/
def Model.request (capacity depth : Nat) (m : Model) : Request → Model × Bool
  | .Enter entry => m.Enter capacity depth entry
  | .CallPre id call caller_lr r3 f1_bits indirect_ctr =>
    m.CallPre capacity id call caller_lr r3 f1_bits indirect_ctr
  | .CallReturn id call => m.CallReturn capacity id call
  | .CallException id call => m.CallException capacity id call
  | .Exit id normal => m.Exit capacity id normal
  | .Freeze => (m.Freeze, true)

/-- The model after some calls. -/
def run (capacity depth : Nat) (own_thread_epoch parent_detail_thread_epoch : BitVec 64)
    (requests : List Request) : Model :=
  requests.foldl (fun m request => (m.request capacity depth request).1)
    (Model.new own_thread_epoch parent_detail_thread_epoch)

end Mcla.VirtualDetail

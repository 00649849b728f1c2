import Mcla.Observers.RouterDispatch

/-! # Consumer details

The body that a router dispatch calls branches once; where the branch is taken it calls three
children in order, the first through a register.  The recorder of a lane is told of every step of
these bodies, which may nest; each belongs to a router invocation of its own.
-/
namespace Mcla.ConsumerDetail
open NestedRecorder (Recorder need)
open SnapshotReplay (Snapshot)
open RouterDispatch (InvocationId UpdateBinding)

/-! ### Data -/

def kTarget : BitVec 32 := 0x822C7870
def kCaller : BitVec 64 := 0x822C5328
def kChildReturnLr : List (BitVec 64) := [0x822C78C0, 0x822C78CC, 0x822C78D8]
def kDirectTarget : List (BitVec 32) := [0, 0x82588428, 0x82476238]

/-- What the consumer is entered with. -/
structure Entry where
  (invocation router : InvocationId := {})
  update : UpdateBinding := {}
  actual_target : BitVec 32 := 0
  (caller_lr r3 f1_bits : BitVec 64 := 0)
  deriving DecidableEq

/-- How far a consumer has come. -/
inductive Stage where
  | kEntered | kBranched | kChildActive | kChildReturned | kChildException
  deriving DecidableEq

/-- How far a call of the consumer has come. -/
inductive ChildState where
  | kAbsent | kActive | kReturned | kException
  deriving DecidableEq

/-- The kinds of events. -/
inductive EventKind where
  | kEntry | kBranch | kChildPre | kChildReturn | kChildException | kNormalExit
  | kExceptionalExit
  deriving DecidableEq

/-- Why the model stops. -/
inductive Fault where
  | kIdentity | kTransition | kCapacity | kDepth
  deriving DecidableEq

/-- A call that the consumer makes. -/
structure Child where
  (caller_lr r3 f1_bits indirect_ctr : BitVec 64 := 0)
  requested_target : BitVec 32 := 0
  state : ChildState := .kAbsent
  indirect : Bool := false
  deriving DecidableEq

/-- A consumer under way. -/
structure Frame where
  entry : Entry := {}
  parent : InvocationId := {}
  stage : Stage := .kEntered
  branch_r11 : BitVec 64 := 0
  (branch_observed branch_nonzero : Bool := false)
  returned_children : Nat := 0
  children : List Child := List.replicate 3 {}
  deriving DecidableEq

/-- An event, with the frame that it leaves. -/
abbrev Event := Snapshot EventKind Frame

/-- What an entry is compared with; a router epoch of zero is not bound yet. -/
structure Admission where
  epoch : BitVec 64
  (router_epoch last_serial last_router_serial : BitVec 64 := 0)

/-! ### The recorder -/

/-- The model of one lane. -/
abbrev Model := Recorder Admission Frame Event Fault

/-- The frame goes on, and an event is recorded. -/
def changed (f : Frame) (kind : EventKind) : Option Frame × Event := (some f, ⟨kind, f⟩)

/-- The frame ends with an event. -/
def closed (f : Frame) (kind : EventKind) : Option Frame × Event := (none, ⟨kind, f⟩)

namespace Model

/-- The model of a fresh lane. -/
def new (detail_thread_epoch router_thread_epoch : BitVec 64) : Model where
  admission := { epoch := detail_thread_epoch, router_epoch := router_thread_epoch }
  fault := if detail_thread_epoch = 0 then some .kIdentity else none

section Calls
variable (capacity depth : Nat) (m : Model)

/-- The consumer is entered. -/
def Enter (entry : Entry) : Model × Bool :=
  m.attempt do
    need (entry.invocation.thread_epoch = m.admission.epoch ∧ entry.invocation.serial ≠ 0 ∧
      m.admission.last_serial < entry.invocation.serial ∧ entry.router.thread_epoch ≠ 0 ∧
      (m.admission.router_epoch ≠ 0 → entry.router.thread_epoch = m.admission.router_epoch) ∧
      entry.router.serial ≠ 0 ∧ m.admission.last_router_serial < entry.router.serial ∧
      entry.actual_target = kTarget ∧ entry.caller_lr = kCaller ∧
      (entry.update.bound ∨ entry.update.unbound)) .kIdentity
    need (m.stack.length ≠ depth) .kDepth
    m.room capacity .kCapacity
    let frame : Frame :=
      { entry := entry
        parent := match m.stack with
          | [] => {}
          | top :: _ => top.entry.invocation }
    return m.opened { m.admission with
      router_epoch := if m.admission.router_epoch = 0 then entry.router.thread_epoch
        else m.admission.router_epoch
      last_serial := entry.invocation.serial
      last_router_serial := entry.router.serial } frame ⟨.kEntry, frame⟩

variable (id : InvocationId)

/-- A call on the innermost frame. -/
def Top (body : Frame → Except Fault (Option Frame × Event)) : Model × Bool :=
  m.onTop (fun f => f.entry.invocation = id) .kIdentity body

def Room : Except Fault Unit := m.room capacity .kCapacity

/-- The branch is taken. -/
def Branch (raw_r11 : BitVec 64) : Model × Bool :=
  m.Top id fun f => do
    need (f.stage = .kEntered) .kTransition
    m.Room capacity
    return changed { f with
      branch_r11 := raw_r11
      branch_observed := true
      branch_nonzero := raw_r11.setWidth 32 ≠ (0 : BitVec 32)
      stage := .kBranched } .kBranch

/-- A call is made. -/
def ChildPre (child : Nat) (caller_lr r3 f1_bits indirect_ctr : BitVec 64) : Model × Bool :=
  m.Top id fun f => do
    need (f.branch_observed = true ∧ f.branch_nonzero = true ∧ child < 3 ∧
      child = f.returned_children ∧ (f.stage = .kBranched ∨ f.stage = .kChildReturned) ∧
      kChildReturnLr[child]? = some caller_lr ∧ (child ≠ 0 → indirect_ctr = 0)) .kTransition
    m.Room capacity
    let target := if child = 0 then indirect_ctr.setWidth 32 else kDirectTarget.getD child 0
    return changed { f with
      children := f.children.set child
        ⟨caller_lr, r3, f1_bits, indirect_ctr, target, .kActive, child = 0⟩
      stage := .kChildActive } .kChildPre

/-- The call ends. -/
def ChildEnd (child : Nat) (normal : Bool) : Model × Bool :=
  m.Top id fun f => do
    need (f.stage = .kChildActive ∧ child < 3 ∧ child = f.returned_children ∧
      (f.children.getD child {}).state = .kActive) .kTransition
    m.Room capacity
    return changed { f with
      children := f.children.set child { f.children.getD child {} with
        state := if normal then .kReturned else .kException }
      stage := if normal then .kChildReturned else .kChildException
      returned_children := if normal then f.returned_children + 1 else f.returned_children }
      (if normal then .kChildReturn else .kChildException)

def ChildReturn (child : Nat) : Model × Bool := m.ChildEnd capacity id child true

def ChildException (child : Nat) : Model × Bool := m.ChildEnd capacity id child false

/-- The consumer ends. -/
def Exit (normal : Bool) : Model × Bool :=
  m.Top id fun f => do
    need (normal = true → f.branch_observed = true ∧
      if f.branch_nonzero then f.stage = .kChildReturned ∧ f.returned_children = 3
      else f.stage = .kBranched) .kTransition
    m.Room capacity
    return closed f (if normal then .kNormalExit else .kExceptionalExit)

def Freeze : Model := { m with frozen := true }

end Calls
end Model

/-- The calls of the model. -/
inductive Call where
  | Enter (entry : Entry)
  | Branch (id : InvocationId) (raw_r11 : BitVec 64)
  | ChildPre (id : InvocationId) (child : Nat) (caller_lr r3 f1_bits indirect_ctr : BitVec 64)
  | ChildReturn (id : InvocationId) (child : Nat)
  | ChildException (id : InvocationId) (child : Nat)
  | Exit (id : InvocationId) (normal : Bool)
  | Freeze

/-- The model after a call, and whether the call succeeded; `Freeze` has no answer. -/
def Model.call (capacity depth : Nat) (m : Model) : Call → Model × Bool
  | .Enter entry => m.Enter capacity depth entry
  | .Branch id raw_r11 => m.Branch capacity id raw_r11
  | .ChildPre id child caller_lr r3 f1_bits indirect_ctr =>
    m.ChildPre capacity id child caller_lr r3 f1_bits indirect_ctr
  | .ChildReturn id child => m.ChildReturn capacity id child
  | .ChildException id child => m.ChildException capacity id child
  | .Exit id normal => m.Exit capacity id normal
  | .Freeze => (m.Freeze, true)

/-- The model after some calls. -/
def run (capacity depth : Nat) (detail_thread_epoch router_thread_epoch : BitVec 64)
    (calls : List Call) : Model :=
  calls.foldl (fun m call => (m.call capacity depth call).1)
    (Model.new detail_thread_epoch router_thread_epoch)

end Mcla.ConsumerDetail

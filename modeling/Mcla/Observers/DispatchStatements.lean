import Mcla.Library.EarlyReturn
import Mcla.Observers.ConsumerDetail

/-! # The statements of the dispatch recorders

The calls of the router-dispatch and the consumer-detail recorder, statement by statement.
Each of them is the attempt that the recorder's model says it is.
-/

open NestedRecorder (Recorder need)
open EarlyReturn (Method Checks Sim call_attempt call_onTop)
open EarlyReturn.Method (Writable check top setTop push pop setAdmission append freeze)

namespace Mcla.RouterDispatch.Statements

/-- A body of the recorder. -/
abbrev Body := Method Admission Frame Event Fault

def TopFrame : Body Frame := top {}

/-- Only the innermost frame is called. -/
def Top (id : InvocationId) : Body Unit :=
  Method.onTop (fun _ f => f.entry.invocation = id) .kIdentity

def Emit (event : EventKind) : Body Unit := do append ⟨event, ← TopFrame⟩

section Calls
variable (capacity depth : Nat)

def Room : Body Unit := Method.room capacity .kCapacity

variable (id : InvocationId)

/-- It has to be at that stage. -/
def At (stage : Stage) : Body Unit := do
  Top id
  check ((← TopFrame).stage = stage) .kTransition
  Room capacity

/-- The entry is checked and pushed. -/
def Enter (entry : Entry) : Body Unit := do
  Writable
  let m ← get
  check (entry.invocation.thread_epoch = m.admission.epoch ∧ entry.invocation.serial ≠ 0 ∧
    m.admission.last_serial < entry.invocation.serial ∧
    (entry.update.unbound ∨ entry.update.bound)) .kIdentity
  check (m.stack.length ≠ depth) .kDepth
  Room capacity
  push { entry := entry
         parent := match m.stack with
           | [] => {}
           | top :: _ => top.entry.invocation }
  setAdmission fun a => { a with last_serial := entry.invocation.serial }
  Emit .kEntry

def PredicatePre (r3 r10 ctr : BitVec 64) : Body Unit := do
  At capacity id .kEntered
  setTop fun f => { f with predicate := ⟨r3, r10, ctr, 0, true⟩ }
  setTop fun f => { f with stage := .kPredicateActive }
  Emit .kPredicatePre

def PredicateReturn (r3 : BitVec 64) : Body Unit := do
  At capacity id .kPredicateActive
  setTop fun f => { f with predicate_result_r3 := r3 }
  setTop fun f => { f with predicate_result_low8 := (r3 &&& 0xff).setWidth 8 }
  setTop fun f => { f with predicate_returned := true }
  setTop fun f => { f with stage := .kPredicateReturned }
  Emit .kPredicateReturn

def DispatchException (stage : Stage) (event : EventKind) : Body Unit := do
  At capacity id stage
  setTop fun f => { f with stage := .kDispatchException }
  Emit event

def PredicateException : Body Unit :=
  DispatchException capacity id .kPredicateActive .kPredicateException

def Skip : Body Unit := do
  At capacity id .kPredicateReturned
  check ((← TopFrame).predicate_result_low8 = 0) .kTransition
  setTop fun f => { f with stage := .kSkipped }
  Emit .kSkip

def ConsumerPre (r3 r11 ctr f1_bits : BitVec 64) : Body Unit := do
  At capacity id .kPredicateReturned
  check ((← TopFrame).predicate_result_low8 ≠ 0) .kTransition
  setTop fun f => { f with consumer := ⟨r3, r11, ctr, f1_bits, true⟩ }
  setTop fun f => { f with stage := .kConsumerActive }
  Emit .kConsumerPre

def ConsumerReturn : Body Unit := do
  At capacity id .kConsumerActive
  setTop fun f => { f with stage := .kConsumerReturned }
  Emit .kConsumerReturn

def ConsumerException : Body Unit :=
  DispatchException capacity id .kConsumerActive .kConsumerException

/-- The frame ends. -/
def Exit (normal : Bool) : Body Unit := do
  Top id
  Room capacity
  let stage := (← TopFrame).stage
  check (normal = true → stage = .kSkipped ∨ stage = .kConsumerReturned) .kTransition
  Emit (if normal then .kNormalExit else .kExceptionalExit)
  pop

/-- The statements of a call. -/
def body : Call → Body Unit
  | .Enter entry => Enter capacity depth entry
  | .PredicatePre id r3 r10 ctr => PredicatePre capacity id r3 r10 ctr
  | .PredicateReturn id r3 => PredicateReturn capacity id r3
  | .PredicateException id => PredicateException capacity id
  | .Skip id => Skip capacity id
  | .ConsumerPre id r3 r11 ctr f1_bits => ConsumerPre capacity id r3 r11 ctr f1_bits
  | .ConsumerReturn id => ConsumerReturn capacity id
  | .ConsumerException id => ConsumerException capacity id
  | .Exit id normal => Exit capacity id normal
  | .Freeze => freeze

end Calls

section Attempts
variable {capacity depth : Nat} {m : Model}

theorem at_call {id : InvocationId} {stage : Stage} {x : Unit → Body Unit}
    {after : Frame → Except Fault (Option Frame × Event)}
    (h : ∀ f rest, ({ m with stack := f :: rest } : Model).writable = true →
      Sim { m with stack := f :: rest } (x ()) (after f >>= fun left =>
        pure { m with stack := left.1.toList ++ rest, events := m.events ++ [left.2] })) :
    (At capacity id stage >>= x).call m =
      m.Top id fun f => m.At capacity f stage >>= fun _ => after f := by
  unfold At
  rw [bind_assoc]
  refine call_onTop fun f rest hw => ?_
  have hchecks : Checks { m with stack := f :: rest }
      (check (f.stage = stage) .kTransition >>= fun _ => Room capacity) (m.At capacity f stage) :=
    (Checks.need hw _ _).seq (Checks.room hw capacity .kCapacity)
  exact (Checks.top hchecks).inside (h f rest hw)

theorem dispatchException_call (id : InvocationId) (stage : Stage) (event : EventKind) :
    (DispatchException capacity id stage event).call m =
      m.DispatchException capacity id stage event :=
  at_call fun _ _ _ => Sim.done rfl

theorem exit_call (id : InvocationId) (normal : Bool) :
    (Exit capacity id normal).call m = m.Exit capacity id normal := by
  refine call_onTop fun f rest hw => ?_
  refine (Checks.room hw capacity .kCapacity).inside (Sim.top ?_)
  exact (Checks.need hw _ _).inside (Sim.done rfl)

theorem enter_call (entry : Entry) :
    (Enter capacity depth entry).call m = m.Enter capacity depth entry := by
  refine call_attempt fun hw => Sim.get ?_
  refine (Checks.need hw _ _).before ((Checks.need hw _ _).before ?_)
  exact (Checks.room hw capacity .kCapacity).before (Sim.done rfl)

/-- **Every call** of the statements is the call of the model. -/
theorem body_call (call : Call) : (body capacity depth call).call m = m.call capacity depth call := by
  cases call with
  | Enter entry => exact enter_call entry
  | PredicatePre id r3 r10 ctr => exact at_call fun _ _ _ => Sim.done rfl
  | PredicateReturn id r3 => exact at_call fun _ _ _ => Sim.done rfl
  | PredicateException id => exact dispatchException_call id _ _
  | Skip id => exact at_call fun _ _ hw => Sim.top ((Checks.need hw _ _).inside (Sim.done rfl))
  | ConsumerPre id r3 r11 ctr f1_bits =>
    exact at_call fun _ _ hw => Sim.top ((Checks.need hw _ _).inside (Sim.done rfl))
  | ConsumerReturn id => exact at_call fun _ _ _ => Sim.done rfl
  | ConsumerException id => exact dispatchException_call id _ _
  | Exit id normal => exact exit_call id normal
  | Freeze => rfl

end Attempts

end Mcla.RouterDispatch.Statements

namespace Mcla.ConsumerDetail.Statements
open RouterDispatch (InvocationId UpdateBinding)

/-- A body of the recorder. -/
abbrev Body := Method Admission Frame Event Fault

def TopFrame : Body Frame := top {}

/-- Only the innermost frame is called. -/
def Top (id : InvocationId) : Body Unit :=
  Method.onTop (fun _ f => f.entry.invocation = id) .kIdentity

def Emit (kind : EventKind) : Body Unit := do append ⟨kind, ← TopFrame⟩

section Calls
variable (capacity depth : Nat)

def Room : Body Unit := Method.room capacity .kCapacity

variable (id : InvocationId)

/-- It has to be at that stage. -/
def At (stage : Stage) : Body Unit := do
  Top id
  check ((← TopFrame).stage = stage) .kTransition
  Room capacity

/-- The entry is checked and pushed. -/
def Enter (entry : Entry) : Body Unit := do
  Writable
  let m ← get
  check (entry.invocation.thread_epoch = m.admission.epoch ∧ entry.invocation.serial ≠ 0 ∧
    m.admission.last_serial < entry.invocation.serial ∧ entry.router.thread_epoch ≠ 0 ∧
    (m.admission.router_epoch ≠ 0 → entry.router.thread_epoch = m.admission.router_epoch) ∧
    entry.router.serial ≠ 0 ∧ m.admission.last_router_serial < entry.router.serial ∧
    entry.actual_target = kTarget ∧ entry.caller_lr = kCaller ∧
    (entry.update.bound ∨ entry.update.unbound)) .kIdentity
  check (m.stack.length ≠ depth) .kDepth
  Room capacity
  push { entry := entry
         parent := match m.stack with
           | [] => {}
           | top :: _ => top.entry.invocation }
  setAdmission fun a => { a with
    router_epoch := if a.router_epoch = 0 then entry.router.thread_epoch else a.router_epoch }
  setAdmission fun a => { a with last_serial := entry.invocation.serial }
  setAdmission fun a => { a with last_router_serial := entry.router.serial }
  Emit .kEntry

def Branch (raw_r11 : BitVec 64) : Body Unit := do
  At capacity id .kEntered
  setTop fun f => { f with branch_r11 := raw_r11 }
  setTop fun f => { f with branch_observed := true }
  setTop fun f => { f with branch_nonzero := raw_r11.setWidth 32 ≠ (0 : BitVec 32) }
  setTop fun f => { f with stage := .kBranched }
  Emit .kBranch

def ChildPre (child : Nat) (caller_lr r3 f1_bits indirect_ctr : BitVec 64) :
    Body Unit := do
  Top id
  let f ← TopFrame
  check (f.branch_observed = true ∧ f.branch_nonzero = true ∧ child < 3 ∧
    child = f.returned_children ∧ (f.stage = .kBranched ∨ f.stage = .kChildReturned) ∧
    kChildReturnLr[child]? = some caller_lr ∧ (child ≠ 0 → indirect_ctr = 0)) .kTransition
  Room capacity
  let target := if child = 0 then indirect_ctr.setWidth 32 else kDirectTarget.getD child 0
  let called : Child := ⟨caller_lr, r3, f1_bits, indirect_ctr, target, .kActive, child = 0⟩
  setTop fun f => { f with children := f.children.set child called }
  setTop fun f => { f with stage := .kChildActive }
  Emit .kChildPre

def ChildEnd (child : Nat) (normal : Bool) : Body Unit := do
  Top id
  let f ← TopFrame
  check (f.stage = .kChildActive ∧ child < 3 ∧ child = f.returned_children ∧
    (f.children.getD child {}).state = .kActive) .kTransition
  Room capacity
  let state : ChildState := if normal then .kReturned else .kException
  setTop fun f => { f with
    children := f.children.set child { f.children.getD child {} with state := state } }
  setTop fun f => { f with stage := if normal then .kChildReturned else .kChildException }
  if normal then setTop fun f => { f with returned_children := f.returned_children + 1 }
  Emit (if normal then .kChildReturn else .kChildException)

def ChildReturn (child : Nat) : Body Unit := ChildEnd capacity id child true

def ChildException (child : Nat) : Body Unit := ChildEnd capacity id child false

/-- The frame ends. -/
def Exit (normal : Bool) : Body Unit := do
  Top id
  let f ← TopFrame
  check (normal = true → f.branch_observed = true ∧
    if f.branch_nonzero then f.stage = .kChildReturned ∧ f.returned_children = 3
    else f.stage = .kBranched) .kTransition
  Room capacity
  Emit (if normal then .kNormalExit else .kExceptionalExit)
  pop

/-- The statements of a call. -/
def body : Call → Body Unit
  | .Enter entry => Enter capacity depth entry
  | .Branch id raw_r11 => Branch capacity id raw_r11
  | .ChildPre id child caller_lr r3 f1_bits indirect_ctr =>
    ChildPre capacity id child caller_lr r3 f1_bits indirect_ctr
  | .ChildReturn id child => ChildReturn capacity id child
  | .ChildException id child => ChildException capacity id child
  | .Exit id normal => Exit capacity id normal
  | .Freeze => freeze

end Calls

section Attempts
variable {capacity depth : Nat} {m : Model}

theorem enter_call (entry : Entry) :
    (Enter capacity depth entry).call m = m.Enter capacity depth entry := by
  refine call_attempt fun hw => Sim.get ?_
  refine (Checks.need hw _ _).before ((Checks.need hw _ _).before ?_)
  exact (Checks.room hw capacity .kCapacity).before (Sim.done rfl)

variable (id : InvocationId)

theorem branch_call (raw_r11 : BitVec 64) :
    (Branch capacity id raw_r11).call m = m.Branch capacity id raw_r11 := by
  unfold Branch At
  rw [bind_assoc]
  refine call_onTop fun f rest hw => ?_
  rw [bind_assoc]
  refine Sim.top ?_
  rw [bind_assoc]
  refine (Checks.need hw _ _).inside ?_
  exact (Checks.room hw capacity .kCapacity).inside (Sim.done rfl)

theorem childPre_call (child : Nat) (caller_lr r3 f1_bits indirect_ctr : BitVec 64) :
    (ChildPre capacity id child caller_lr r3 f1_bits indirect_ctr).call m =
      m.ChildPre capacity id child caller_lr r3 f1_bits indirect_ctr := by
  refine call_onTop fun f rest hw => Sim.top ?_
  refine (Checks.need hw _ _).inside ?_
  exact (Checks.room hw capacity .kCapacity).inside (Sim.done rfl)

theorem childEnd_call (child : Nat) (normal : Bool) :
    (ChildEnd capacity id child normal).call m = m.ChildEnd capacity id child normal := by
  refine call_onTop fun f rest hw => Sim.top ?_
  refine (Checks.need hw _ _).inside ((Checks.room hw capacity .kCapacity).inside ?_)
  cases normal with
  | false => exact Sim.done rfl
  | true => exact Sim.done rfl

theorem exit_call (normal : Bool) :
    (Exit capacity id normal).call m = m.Exit capacity id normal := by
  refine call_onTop fun f rest hw => Sim.top ?_
  refine (Checks.need hw _ _).inside ?_
  exact (Checks.room hw capacity .kCapacity).inside (Sim.done rfl)

/-- **Every call** of the statements is the call of the model. -/
theorem body_call (call : Call) : (body capacity depth call).call m = m.call capacity depth call := by
  cases call with
  | Enter entry => exact enter_call entry
  | Branch id raw_r11 => exact branch_call id raw_r11
  | ChildPre id child caller_lr r3 f1_bits indirect_ctr =>
    exact childPre_call id child caller_lr r3 f1_bits indirect_ctr
  | ChildReturn id child => exact childEnd_call id child true
  | ChildException id child => exact childEnd_call id child false
  | Exit id normal => exact exit_call id normal
  | Freeze => rfl

end Attempts

end Mcla.ConsumerDetail.Statements

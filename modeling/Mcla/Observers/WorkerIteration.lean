import Mcla.Library.AnsweredRun

/-! # The iterations of a worker

One worker waits, dispatches and renders, over and over; the inventory of it is told of every
boundary by its caller.  A wait that succeeds makes its operation eligible, in the one slot
there is; the next render takes the operation from the slot, and what nobody takes is retired.
A call that does not fit is a fault, which ends the inventory.  Addresses, identifiers and
clocks are numbers.
-/
namespace Mcla.WorkerIteration
open AnsweredRun
open List

/-! ### Calls and answers -/

/-- The lane that a worker serves. -/
structure Lane where
  (context base : Nat := 0)
  deriving DecidableEq

/-- The identity of a worker. -/
structure Key where
  (thread_epoch worker_serial : Nat := 0)
  lane : Lane := {}
  (owner object_epoch : Nat := 0)
  deriving DecidableEq

/-- How a wait ended. -/
inductive Outcome where
  | kSuccess | kTimeout | kApc | kFailed | kUnknown
  deriving DecidableEq

/-- A wait, as it was observed. -/
structure ValidatedWait where
  (operation_id object_epoch : Nat := 0)
  outcome : Outcome := .kUnknown
  exactly_one : Bool := false

/-- What a call does. -/
inductive Event where
  | kIgnored | kEntered | kWaitEntered | kWaitEligible | kWaitRejected | kDispatchEntered
  | kRenderConsumed | kDispatchCompleted | kExited | kFrozen | kFault
  deriving DecidableEq

/-- Why a call is refused, or ends the worker. -/
inductive Reason where
  | kNone | kInactive | kTerminal | kBadKey | kClock | kState | kIdentity | kCaller | kObject
  | kExtraOperation | kMissingOperation | kOutcome | kNullHandle | kWaitUnsuccessful | kUnwind
  | kDuplicateRender | kNextWait | kNoRender | kWorkerExit | kFreeze | kObserverFault
  deriving DecidableEq

/-- What a call answers. -/
structure Transition where
  event : Event := .kIgnored
  reason : Reason := .kNone
  (helper_id operation_id dispatch_id phase_call_id retired_wait_operation : Nat := 0)
  retirement_reason : Reason := .kNone
  (eligible phase_bound : Bool := false)

/-- The counters of the worker. -/
structure Counts where
  (waits eligible rejected retired renders unbound_renders no_render_dispatches : Nat := 0)

/-- What a worker is doing. -/
inductive State where
  | kIdle | kWait | kDispatch
  deriving DecidableEq

/-- A worker, between two calls. -/
structure Worker where
  key : Key := {}
  state : State := .kIdle
  (last_qpc last_helper last_operation last_dispatch last_phase helper operation dispatch
    eligible : Nat := 0)
  (entered exited frozen failed null_handle render_seen : Bool := false)
  counts : Counts := {}

def kWaitCaller : Nat := 0x82305EB8
def kRenderCaller : Nat := 0x82305F80
def kMaxQpc : Nat := 2 ^ 63 - 1
def kMaxAddress : Nat := 2 ^ 32 - 1

/-! ### Parts of the calls -/

/-- The key is complete, and the closure of the owner has an address. -/
def Key.valid (k : Key) : Bool :=
  k.thread_epoch ≠ 0 && k.worker_serial ≠ 0 && k.lane.context ≠ 0 && k.lane.base ≠ 0 &&
    k.owner ≠ 0 && k.owner ≤ kMaxAddress - 88 && k.object_epoch ≠ 0

namespace Worker

variable (w : Worker)

/-- The transition, with what the worker holds. -/
def record (event : Event) (reason : Reason := .kNone) : Transition where
  event := event
  reason := reason
  helper_id := w.helper
  operation_id := w.operation
  dispatch_id := w.dispatch
  eligible := w.eligible ≠ 0

/-- An eligible operation that nobody took leaves the slot. -/
def retire (result : Transition) (reason : Reason) : Worker × Transition :=
  if w.eligible ≠ 0 then
    ({ w with
        counts := { w.counts with retired := w.counts.retired + 1 }
        eligible := 0 },
      { result with retired_wait_operation := w.eligible, retirement_reason := reason })
  else (w, result)

/-- The worker has come to its end. -/
def terminal : Bool := w.failed || w.frozen || w.exited

/-- The worker fails. -/
def fault (reason : Reason) : Worker × Transition :=
  if w.terminal then (w, w.record .kIgnored .kTerminal)
  else
    let (w, result) := w.retire (w.record .kFault reason) reason
    ({ w with failed := true }, { result with eligible := false })

/-- Clocks do not go back. -/
def clock (qpc : Nat) : Bool := qpc ≠ 0 && qpc ≤ kMaxQpc && qpc ≥ w.last_qpc

/-- What every call but the first checks: it goes on with the worker at the new clock. -/
def check (key : Key) (qpc : Nat) : Except (Worker × Transition) Worker :=
  if w.terminal then .error (w, w.record .kIgnored .kTerminal)
  else if !w.entered then .error (w.fault .kInactive)
  else if key ≠ w.key then .error (w.fault .kBadKey)
  else if !w.clock qpc then .error (w.fault .kClock)
  else .ok { w with last_qpc := qpc }

def clearWait : Worker := { w with helper := 0, operation := 0, null_handle := false }

/-! ### The calls -/

/-- The worker starts. -/
def enter (key : Key) (qpc : Nat) : Worker × Transition :=
  if w.entered || w.failed || w.frozen || w.exited then w.fault .kState
  else if !key.valid then w.fault .kBadKey
  else if !w.clock qpc then w.fault .kClock
  else
    let w := { w with last_qpc := qpc, key := key, entered := true }
    (w, w.record .kEntered)

/-- A wait begins. -/
def waitEnter (key : Key) (qpc helper_id caller_lr guest_handle : Nat) : Worker × Transition :=
  match w.check key qpc with
  | .error failure => failure
  | .ok w =>
    if w.state ≠ .kIdle then w.fault .kState
    else if caller_lr ≠ kWaitCaller then w.fault .kCaller
    else if helper_id = 0 || helper_id ≤ w.last_helper then w.fault .kIdentity
    else
      let (w, result) := w.retire (w.record .kWaitEntered) .kNextWait
      ({ w with
          helper := helper_id, last_helper := helper_id, operation := 0
          null_handle := guest_handle = 0, state := .kWait
          counts := { w.counts with waits := w.counts.waits + 1 } },
        { result with helper_id := helper_id, operation_id := 0, eligible := false })

/-- What a wait with a handle asks of its one operation. -/
def validated (observation : Option ValidatedWait) : Except Reason ValidatedWait :=
  match observation with
  | none => .error .kMissingOperation
  | some observation =>
    if !observation.exactly_one then .error .kExtraOperation
    else if observation.object_epoch ≠ w.key.object_epoch then .error .kObject
    else if observation.operation_id = 0 || observation.operation_id ≤ w.last_operation then
      .error .kIdentity
    else if observation.outcome = .kUnknown then .error .kOutcome
    else .ok observation

/-- A wait that made nothing eligible. -/
def reject (reason : Reason) : Worker × Transition :=
  let w := { w with counts := { w.counts with rejected := w.counts.rejected + 1 } }
  (w.clearWait, w.record .kWaitRejected reason)

/-- A wait ends. -/
def waitExit (key : Key) (qpc helper_id : Nat) (normal_return : Bool)
    (observation : Option ValidatedWait) : Worker × Transition :=
  match w.check key qpc with
  | .error failure => failure
  | .ok w =>
    if w.state ≠ .kWait || helper_id ≠ w.helper then w.fault .kState
    else if !normal_return then w.fault .kUnwind
    else if w.null_handle then
      if observation.isSome then w.fault .kObject
      else { w with state := .kIdle }.reject .kNullHandle
    else
      match w.validated observation with
      | .error reason => w.fault reason
      | .ok observation =>
        let w := { w with
          operation := observation.operation_id, last_operation := observation.operation_id
          state := .kIdle }
        if observation.outcome ≠ .kSuccess then w.reject .kWaitUnsuccessful
        else
          let w := { w with
            eligible := w.operation
            counts := { w.counts with eligible := w.counts.eligible + 1 } }
          (w, w.record .kWaitEligible)

/-- A dispatch begins. -/
def dispatchEnter (key : Key) (qpc dispatch_id caller_lr closure_address : Nat) :
    Worker × Transition :=
  match w.check key qpc with
  | .error failure => failure
  | .ok w =>
    if w.state ≠ .kIdle then w.fault .kState
    else if caller_lr ≠ kRenderCaller then w.fault .kCaller
    else if closure_address ≠ (w.key.owner + 88) % 2 ^ 32 then w.fault .kObject
    else if dispatch_id = 0 || dispatch_id ≤ w.last_dispatch then w.fault .kIdentity
    else
      let w := { w with
        dispatch := dispatch_id, last_dispatch := dispatch_id, state := .kDispatch
        render_seen := false }
      (w, w.record .kDispatchEntered)

/-- The dispatch renders. -/
def render (key : Key) (qpc phase_call_id caller_lr : Nat) : Worker × Transition :=
  match w.check key qpc with
  | .error failure => failure
  | .ok w =>
    if w.state ≠ .kDispatch then w.fault .kState
    else if caller_lr ≠ kRenderCaller then w.fault .kCaller
    else if w.render_seen then w.fault .kDuplicateRender
    else if phase_call_id ≠ 0 && phase_call_id ≤ w.last_phase then w.fault .kIdentity
    else
      let w := { w with
        last_phase := if phase_call_id ≠ 0 then phase_call_id else w.last_phase
        render_seen := true
        counts := { w.counts with renders := w.counts.renders + 1 } }
      let bound := w.eligible ≠ 0 && phase_call_id ≠ 0
      let result := { w.record .kRenderConsumed with
        operation_id := w.eligible
        phase_call_id := phase_call_id
        phase_bound := bound
        eligible := w.eligible ≠ 0 }
      let unbound := if bound then w.counts.unbound_renders else w.counts.unbound_renders + 1
      -- the slot is empty afterwards even where no phase is bound
      ({ w with counts := { w.counts with unbound_renders := unbound }, eligible := 0 }, result)

/-- A dispatch ends. -/
def dispatchExit (key : Key) (qpc dispatch_id : Nat) (normal_return : Bool) : Worker × Transition :=
  match w.check key qpc with
  | .error failure => failure
  | .ok w =>
    if w.state ≠ .kDispatch || dispatch_id ≠ w.dispatch then w.fault .kState
    else if !normal_return then w.fault .kUnwind
    else
      let result := w.record .kDispatchCompleted
      let (w, result) :=
        if w.render_seen then (w, result)
        else
          { w with
            counts := { w.counts with
              no_render_dispatches := w.counts.no_render_dispatches + 1 } }.retire result .kNoRender
      ({ w with state := .kIdle, dispatch := 0 }.clearWait, { result with eligible := false })

/-- The worker ends. -/
def exit (key : Key) (qpc : Nat) (normal_return : Bool) : Worker × Transition :=
  match w.check key qpc with
  | .error failure => failure
  | .ok w =>
    if !normal_return then w.fault .kUnwind
    else if w.state ≠ .kIdle then w.fault .kState
    else
      let (w, result) := w.retire (w.record .kExited) .kWorkerExit
      ({ w.clearWait with exited := true }, { result with eligible := false })

/-- The worker is frozen. -/
def freeze (key : Key) (qpc : Nat) : Worker × Transition :=
  match w.check key qpc with
  | .error failure => failure
  | .ok w =>
    let (w, result) := w.retire (w.record .kFrozen) .kFreeze
    ({ w with frozen := true }, { result with eligible := false })

def observerFault : Worker × Transition := w.fault .kObserverFault

end Worker

/-! ### Runs -/

/-- The calls of a worker. -/
inductive Call where
  | enter (key : Key) (qpc : Nat)
  | waitEnter (key : Key) (qpc helper_id caller_lr guest_handle : Nat)
  | waitExit (key : Key) (qpc helper_id : Nat) (normal_return : Bool)
      (observation : Option ValidatedWait)
  | dispatchEnter (key : Key) (qpc dispatch_id caller_lr closure_address : Nat)
  | render (key : Key) (qpc phase_call_id caller_lr : Nat)
  | dispatchExit (key : Key) (qpc dispatch_id : Nat) (normal_return : Bool)
  | exit (key : Key) (qpc : Nat) (normal_return : Bool)
  | freeze (key : Key) (qpc : Nat)
  | observerFault

/-- One call. -/
def Worker.call (w : Worker) : Call → Worker × Transition
  | .enter key qpc => w.enter key qpc
  | .waitEnter key qpc helper caller handle => w.waitEnter key qpc helper caller handle
  | .waitExit key qpc helper normal observation => w.waitExit key qpc helper normal observation
  | .dispatchEnter key qpc dispatch caller closure => w.dispatchEnter key qpc dispatch caller closure
  | .render key qpc phase caller => w.render key qpc phase caller
  | .dispatchExit key qpc dispatch normal => w.dispatchExit key qpc dispatch normal
  | .exit key qpc normal => w.exit key qpc normal
  | .freeze key qpc => w.freeze key qpc
  | .observerFault => w.observerFault

/-- A new worker after some calls, and the answers to them. -/
def run (calls : List Call) : Worker × List Transition := AnsweredRun.run Worker.call {} calls

/-! ### What one call does -/

namespace Worker
variable (w : Worker)

/-- Whether the slot is occupied, and whether the worker is inside a wait. -/
def occupied : Nat := if w.eligible ≠ 0 then 1 else 0
def inside : Nat := if w.state = .kWait then 1 else 0

/-- The worker after the slot was emptied without a render. -/
def retired : Worker :=
  { w with
    counts := { w.counts with retired := w.counts.retired + w.occupied }
    eligible := 0 }

variable (result : Transition)

theorem retire_fst (reason : Reason) : (w.retire result reason).1 = w.retired := by
  unfold retire retired occupied
  split
  · rfl
  · rename_i h
    have hzero : w.eligible = 0 := by simpa using h
    cases w
    simp_all

@[simp] theorem retire_event (reason : Reason) :
    (w.retire result reason).2.event = result.event := by
  unfold retire
  split <;> rfl

@[simp] theorem retire_operation (reason : Reason) :
    (w.retire result reason).2.operation_id = result.operation_id := by
  unfold retire
  split <;> rfl

/-- What a call can do to the worker, and the event and operation of its answer. -/
inductive Effect : Worker → Event → Nat → Prop where
  | ignored (op : Nat) : w.terminal = true → Effect w .kIgnored op
  | fault (qpc op : Nat) : w.terminal = false →
      Effect { w.retired with last_qpc := qpc, failed := true } .kFault op
  | entered (key : Key) (qpc op : Nat) : w.terminal = false → w.entered = false →
      Effect { w with last_qpc := qpc, key := key, entered := true } .kEntered op
  | waitEntered (qpc helper : Nat) (null : Bool) : w.terminal = false → w.state = .kIdle →
      w.last_helper < helper →
      Effect
        { w.retired with
          last_qpc := qpc, helper := helper, last_helper := helper, operation := 0
          null_handle := null, state := .kWait
          counts := { w.retired.counts with waits := w.counts.waits + 1 } } .kWaitEntered 0
  | waitRejected (qpc operation op : Nat) : w.terminal = false → w.state = .kWait →
      w.last_operation ≤ operation →
      Effect
        { w with
          last_qpc := qpc, last_operation := operation, state := .kIdle, helper := 0
          operation := 0, null_handle := false
          counts := { w.counts with rejected := w.counts.rejected + 1 } } .kWaitRejected op
  | waitEligible (qpc operation : Nat) : w.terminal = false → w.entered = true →
      w.state = .kWait → w.last_operation < operation →
      Effect
        { w with
          last_qpc := qpc, operation := operation, last_operation := operation, state := .kIdle
          eligible := operation
          counts := { w.counts with eligible := w.counts.eligible + 1 } } .kWaitEligible operation
  | dispatchEntered (qpc dispatch op : Nat) : w.terminal = false → w.state = .kIdle →
      w.last_dispatch < dispatch →
      Effect
        { w with
          last_qpc := qpc, dispatch := dispatch, last_dispatch := dispatch, state := .kDispatch
          render_seen := false } .kDispatchEntered op
  | rendered (qpc phase unbound : Nat) : w.terminal = false → w.state = .kDispatch →
      w.render_seen = false → unbound ≤ w.counts.unbound_renders + 1 →
      Effect
        { w with
          last_qpc := qpc, last_phase := phase, render_seen := true, eligible := 0
          counts := { w.counts with renders := w.counts.renders + 1, unbound_renders := unbound } }
        .kRenderConsumed w.eligible
  | dispatchCompleted (qpc op : Nat) : w.terminal = false → w.state = .kDispatch →
      w.render_seen = true →
      Effect
        { w with
          last_qpc := qpc, state := .kIdle, dispatch := 0, helper := 0, operation := 0
          null_handle := false } .kDispatchCompleted op
  | dispatchUnrendered (qpc op : Nat) : w.terminal = false → w.state = .kDispatch →
      w.render_seen = false →
      Effect
        { w.retired with
          last_qpc := qpc, state := .kIdle, dispatch := 0, helper := 0, operation := 0
          null_handle := false
          counts := { w.retired.counts with
            no_render_dispatches := w.counts.no_render_dispatches + 1 } } .kDispatchCompleted op
  | exited (qpc op : Nat) : w.terminal = false → w.state = .kIdle →
      Effect
        { w.retired with
          last_qpc := qpc, helper := 0, operation := 0, null_handle := false, exited := true }
        .kExited op
  | frozen (qpc op : Nat) : w.terminal = false →
      Effect { w.retired with last_qpc := qpc, frozen := true } .kFrozen op

/-- A call with this answer has an effect. -/
def Does (s : Worker × Transition) : Prop := w.Effect s.1 s.2.event s.2.operation_id

variable {w}

theorem does_fault (h : w.terminal = false) (qpc : Nat) (reason : Reason) :
    w.Does ({ w with last_qpc := qpc }.fault reason) := by
  have hterminal : ({ w with last_qpc := qpc } : Worker).terminal = false := h
  unfold Does fault
  rw [if_neg (by simp [hterminal])]
  simp only [retire_fst, retire_event, retire_operation]
  exact Effect.fault qpc _ h

theorem does_fault_self (h : w.terminal = false) (reason : Reason) :
    w.Does (w.fault reason) := does_fault h w.last_qpc reason

/-- The check fails with an effect, or goes on at a new clock. -/
theorem check_does {key : Key} {qpc : Nat} {next : Worker → Worker × Transition}
    (hnext : w.terminal = false → w.entered = true → w.Does (next { w with last_qpc := qpc })) :
    w.Does (match w.check key qpc with
      | .error failure => failure
      | .ok w => next w) := by
  unfold check
  by_cases hterminal : w.terminal = true
  · rw [if_pos hterminal]
    exact Effect.ignored _ hterminal
  · rw [if_neg hterminal]
    simp only [Bool.not_eq_true] at hterminal
    split_ifs with hentered
    · exact does_fault_self hterminal _
    · exact does_fault_self hterminal _
    · exact does_fault_self hterminal _
    · exact hnext hterminal (by simpa using hentered)

theorem enter_does (key : Key) (qpc : Nat) : w.Does (w.enter key qpc) := by
  have hfault : ∀ reason, w.Does (w.fault reason) := by
    intro reason
    by_cases hterminal : w.terminal = true
    · unfold fault
      rw [if_pos hterminal]
      exact Effect.ignored _ hterminal
    · exact does_fault_self (by simpa using hterminal) reason
  unfold enter
  split
  · exact hfault _
  · rename_i hstart
    have hterminal : w.terminal = false := by
      simp only [terminal]
      grind
    split
    · exact hfault _
    · split
      · exact hfault _
      · exact Effect.entered key qpc _ hterminal (by grind)

theorem waitEnter_does (key : Key) (qpc helper_id caller_lr guest_handle : Nat) :
    w.Does (w.waitEnter key qpc helper_id caller_lr guest_handle) := by
  unfold waitEnter
  refine check_does fun hterminal hentered => ?_
  dsimp only
  split
  · exact does_fault hterminal qpc _
  · split
    · exact does_fault hterminal qpc _
    · split
      · exact does_fault hterminal qpc _
      · rename_i hstate hcaller hhelper
        unfold Does
        simp only [retire_fst, retire_event]
        exact Effect.waitEntered qpc helper_id _ hterminal (by simpa using hstate) (by
          simp only [Bool.or_eq_true, decide_eq_true_eq] at hhelper
          omega)

theorem validated_ok {observation : Option ValidatedWait} {o : ValidatedWait}
    (h : w.validated observation = .ok o) :
    observation = some o ∧ w.last_operation < o.operation_id ∧ o.outcome ≠ .kUnknown := by
  unfold validated at h
  cases observation with
  | none => cases h
  | some o' =>
    dsimp only at h
    split at h
    · cases h
    · split at h
      · cases h
      · split at h
        · cases h
        · split at h
          · cases h
          · rename_i hid hout
            cases h
            simp only [Bool.or_eq_true, decide_eq_true_eq] at hid
            exact ⟨rfl, by omega, hout⟩

theorem waitExit_does (key : Key) (qpc helper_id : Nat) (normal_return : Bool)
    (observation : Option ValidatedWait) :
    w.Does (w.waitExit key qpc helper_id normal_return observation) := by
  unfold waitExit
  refine check_does fun hterminal hentered => ?_
  dsimp only
  split
  · exact does_fault hterminal qpc _
  · rename_i hstate
    have hwait : w.state = .kWait := by
      simp only [Bool.or_eq_true, not_or] at hstate
      simpa using hstate.1
    split
    · exact does_fault hterminal qpc _
    · split
      · split
        · exact does_fault hterminal qpc _
        · exact Effect.waitRejected qpc w.last_operation _ hterminal hwait le_rfl
      · cases hvalid : ({ w with last_qpc := qpc } : Worker).validated observation with
        | error reason => exact does_fault hterminal qpc reason
        | ok o =>
          have hlast : w.last_operation < o.operation_id := (validated_ok hvalid).2.1
          dsimp only
          split
          · exact Effect.waitRejected qpc o.operation_id _ hterminal hwait hlast.le
          · exact Effect.waitEligible qpc o.operation_id hterminal hentered hwait hlast

theorem dispatchEnter_does (key : Key) (qpc dispatch_id caller_lr closure_address : Nat) :
    w.Does (w.dispatchEnter key qpc dispatch_id caller_lr closure_address) := by
  unfold dispatchEnter
  refine check_does fun hterminal hentered => ?_
  dsimp only
  split
  · exact does_fault hterminal qpc _
  · split
    · exact does_fault hterminal qpc _
    · split
      · exact does_fault hterminal qpc _
      · split
        · exact does_fault hterminal qpc _
        · rename_i hstate hcaller hclosure hdispatch
          exact Effect.dispatchEntered qpc dispatch_id _ hterminal (by simpa using hstate) (by
            simp only [Bool.or_eq_true, decide_eq_true_eq] at hdispatch
            omega)

theorem render_does (key : Key) (qpc phase_call_id caller_lr : Nat) :
    w.Does (w.render key qpc phase_call_id caller_lr) := by
  unfold render
  refine check_does fun hterminal hentered => ?_
  dsimp only
  split
  · exact does_fault hterminal qpc _
  · split
    · exact does_fault hterminal qpc _
    · split
      · exact does_fault hterminal qpc _
      · split
        · exact does_fault hterminal qpc _
        · rename_i hstate hcaller hseen hphase
          exact Effect.rendered qpc _ _ hterminal (by simpa using hstate) (by simpa using hseen)
            (by split <;> omega)

theorem dispatchExit_does (key : Key) (qpc dispatch_id : Nat) (normal_return : Bool) :
    w.Does (w.dispatchExit key qpc dispatch_id normal_return) := by
  unfold dispatchExit
  refine check_does fun hterminal hentered => ?_
  dsimp only
  split
  · exact does_fault hterminal qpc _
  · rename_i hstate
    have hdispatch : w.state = .kDispatch := by
      simp only [Bool.or_eq_true, not_or] at hstate
      simpa using hstate.1
    split
    · exact does_fault hterminal qpc _
    · unfold Does
      by_cases hseen : w.render_seen = true
      · simp only [if_pos hseen]
        exact Effect.dispatchCompleted qpc _ hterminal hdispatch hseen
      · simp only [if_neg hseen, retire_fst, retire_event, retire_operation]
        exact Effect.dispatchUnrendered qpc _ hterminal hdispatch (by simpa using hseen)

theorem exit_does (key : Key) (qpc : Nat) (normal_return : Bool) :
    w.Does (w.exit key qpc normal_return) := by
  unfold exit
  refine check_does fun hterminal hentered => ?_
  dsimp only
  split
  · exact does_fault hterminal qpc _
  · split
    · exact does_fault hterminal qpc _
    · rename_i hnormal hstate
      unfold Does
      simp only [retire_fst, retire_event, retire_operation]
      exact Effect.exited qpc _ hterminal (by simpa using hstate)

theorem freeze_does (key : Key) (qpc : Nat) : w.Does (w.freeze key qpc) := by
  unfold freeze
  refine check_does fun hterminal hentered => ?_
  unfold Does
  simp only [retire_fst, retire_event, retire_operation]
  exact Effect.frozen qpc _ hterminal

theorem observerFault_does : w.Does w.observerFault := by
  unfold observerFault
  by_cases hterminal : w.terminal = true
  · unfold fault
    rw [if_pos hterminal]
    exact Effect.ignored _ hterminal
  · exact does_fault_self (by simpa using hterminal) _

/-- **One call** does one of the things listed. -/
theorem call_does (w : Worker) (call : Call) : w.Does (w.call call) := by
  cases call with
  | enter key qpc => exact enter_does key qpc
  | waitEnter key qpc helper caller handle => exact waitEnter_does key qpc helper caller handle
  | waitExit key qpc helper normal observation =>
    exact waitExit_does key qpc helper normal observation
  | dispatchEnter key qpc dispatch caller closure =>
    exact dispatchEnter_does key qpc dispatch caller closure
  | render key qpc phase caller => exact render_does key qpc phase caller
  | dispatchExit key qpc dispatch normal => exact dispatchExit_does key qpc dispatch normal
  | exit key qpc normal => exact exit_does key qpc normal
  | freeze key qpc => exact freeze_does key qpc
  | observerFault => exact observerFault_does

end Worker

/-! ### What a run keeps -/

/-- A wait that made its operation eligible, and a render that took one. -/
def Transition.Grants (t : Transition) (op : Nat) : Prop :=
  t.event = .kWaitEligible ∧ t.operation_id = op

/-- The render consumes this operation. -/
def Transition.Links (t : Transition) (op : Nat) : Prop :=
  t.event = .kRenderConsumed ∧ t.operation_id = op ∧ op ≠ 0

def Transition.links (t : Transition) : Bool := t.event = .kRenderConsumed && t.operation_id ≠ 0

/-- The renders that took an operation. -/
def linked (ts : List Transition) : Nat := ts.countP (·.links)

/-- The render at `n` ends the iteration of the wait of `op`: the two answers before it are
that wait becoming eligible and the entry of the dispatch. -/
def OwnIteration (ts : List Transition) (n op : Nat) : Prop :=
  ∃ a b m, n = m + 2 ∧ ts[m]? = some a ∧ a.Grants op ∧ ts[m + 1]? = some b ∧
    b.event = .kDispatchEntered

/-- What holds of a worker together with the answers it gave. -/
structure Inv (w : Worker) (ts : List Transition) : Prop where
  eligible_eq : w.counts.eligible = w.counts.retired + linked ts + w.occupied
  waits_eq : w.counts.waits = w.counts.eligible + w.counts.rejected + w.inside
  closed : w.terminal = true → w.eligible = 0
  waiting : w.state = .kWait → w.eligible = 0
  unentered : w.entered = false → w.eligible = 0
  taken : w.state = .kDispatch → w.render_seen = true → w.eligible = 0
  idle : w.eligible ≠ 0 → w.state = .kIdle → ∃ front a, ts = front ++ [a] ∧ a.Grants w.eligible
  dispatched : w.eligible ≠ 0 → w.state = .kDispatch →
    ∃ front a b, ts = front ++ [a, b] ∧ a.Grants w.eligible ∧ b.event = .kDispatchEntered
  bounded : ∀ t ∈ ts, ∀ op, t.Grants op → 0 < op ∧ op ≤ w.last_operation
  increasing : ∀ (m n : Nat) a b i j, ts[m]? = some a → ts[n]? = some b → m < n → a.Grants i →
    b.Grants j → i < j
  own : ∀ n t op, ts[n]? = some t → t.Links op → OwnIteration ts n op
  waits_le : w.counts.waits ≤ w.last_helper
  eligible_le : w.counts.eligible ≤ w.last_operation
  dispatches_le : w.counts.renders + w.counts.no_render_dispatches +
    (if w.state = .kDispatch ∧ w.render_seen = false then 1 else 0) ≤ w.last_dispatch
  unbound_le : w.counts.unbound_renders ≤ w.counts.renders

theorem OwnIteration.snoc {ts : List Transition} {n op : Nat} (h : OwnIteration ts n op)
    (t : Transition) : OwnIteration (ts ++ [t]) n op := by
  obtain ⟨a, b, m, rfl, ha, hgrants, hb, hevent⟩ := h
  exact ⟨a, b, m, rfl, getElem?_before ha, hgrants, getElem?_before hb, hevent⟩

section Answers
variable {w : Worker} {ts : List Transition} {t : Transition}

theorem linked_snoc (ts : List Transition) (t : Transition) :
    linked (ts ++ [t]) = linked ts + if t.links then 1 else 0 := by
  simp [linked]

/-- An answer that is no grant keeps what is known of the grants. -/
theorem Inv.bounded_snoc (h : Inv w ts) (ht : t.event ≠ .kWaitEligible) :
    ∀ s ∈ ts ++ [t], ∀ op, s.Grants op → 0 < op ∧ op ≤ w.last_operation := by
  intro s hs op hgrants
  rcases mem_append.mp hs with hold | hnew
  · exact h.bounded s hold op hgrants
  · rw [mem_singleton.mp hnew] at hgrants
    exact absurd hgrants.1 ht

theorem Inv.increasing_snoc (h : Inv w ts) (ht : ∀ op, t.Grants op → w.last_operation < op) :
    ∀ (m n : Nat) a b i j, (ts ++ [t])[m]? = some a → (ts ++ [t])[n]? = some b → m < n →
      a.Grants i → b.Grants j → i < j := by
  intro m n a b i j ha hb hlt hi hj
  rcases getElem?_snoc ha with hold | ⟨hm, -⟩
  · have hbound := (h.bounded a (mem_of_getElem? hold) i hi).2
    rcases getElem?_snoc hb with hb | ⟨-, heq⟩
    · exact h.increasing m n a b i j hold hb hlt hi hj
    · have := ht j (heq ▸ hj)
      omega
  · have := (List.getElem?_eq_some_iff.mp hb).1
    rw [length_append, length_singleton] at this
    omega

theorem Inv.own_snoc (h : Inv w ts)
    (ht : ∀ op, t.Links op → OwnIteration (ts ++ [t]) ts.length op) :
    ∀ n s op, (ts ++ [t])[n]? = some s → s.Links op → OwnIteration (ts ++ [t]) n op := by
  intro n s op hs hlinks
  rcases getElem?_snoc hs with hold | ⟨rfl, rfl⟩
  · exact (h.own n s op hold hlinks).snoc t
  · exact ht op hlinks

/-- The render of an occupied slot is the render of the iteration. -/
theorem Inv.own_render (h : Inv w ts) (hstate : w.state = .kDispatch) (hslot : w.eligible ≠ 0) :
    OwnIteration (ts ++ [t]) ts.length w.eligible := by
  obtain ⟨front, a, b, rfl, hgrants, hevent⟩ := h.dispatched hslot hstate
  exact ⟨a, b, front.length, by simp, by simp, hgrants, by simp, hevent⟩

end Answers

theorem inv_new : Inv {} [] where
  eligible_eq := rfl
  waits_eq := rfl
  closed := by intro; rfl
  waiting := by intro; rfl
  unentered := by intro; rfl
  taken := by intro h; cases h
  idle := by intro h; exact absurd rfl h
  dispatched := by intro h; exact absurd rfl h
  bounded := by intro t ht; cases ht
  increasing := by intro m n a b i j ha; simp at ha
  own := by intro n t op ht; simp at ht
  waits_le := le_rfl
  eligible_le := le_rfl
  dispatches_le := by decide
  unbound_le := le_rfl

section Step
variable {w w' : Worker} {ts : List Transition} {t : Transition} {e : Event} {o : Nat}

/-- To empty the slot without a render moves its operation to the retired ones. -/
theorem Inv.emptied (h : Inv w ts) (hl : t.links = false)
    (heligible : w'.counts.eligible = w.counts.eligible)
    (hretired : w'.counts.retired = w.counts.retired + w.occupied) (hslot : w'.eligible = 0) :
    w'.counts.eligible = w'.counts.retired + linked (ts ++ [t]) + w'.occupied := by
  have hconserved := h.eligible_eq
  have hempty : w'.occupied = 0 := by simp [Worker.occupied, hslot]
  rw [linked_snoc, hl, hempty, heligible, hretired]
  simp only [Bool.false_eq_true, if_false]
  omega

/-- A call that neither grants nor links, and leaves the slot empty. -/
theorem Inv.of_emptied (h : Inv w ts) (hgrant : t.event ≠ .kWaitEligible)
    (hlink : t.event ≠ .kRenderConsumed) (heligible : w'.counts.eligible = w.counts.eligible)
    (hretired : w'.counts.retired = w.counts.retired + w.occupied) (hslot : w'.eligible = 0)
    (hlast : w'.last_operation = w.last_operation)
    (hwaits : w'.counts.waits = w'.counts.eligible + w'.counts.rejected + w'.inside)
    (hhelper : w'.counts.waits ≤ w'.last_helper)
    (hdispatches : w'.counts.renders + w'.counts.no_render_dispatches +
      (if w'.state = .kDispatch ∧ w'.render_seen = false then 1 else 0) ≤ w'.last_dispatch)
    (hunbound : w'.counts.unbound_renders ≤ w'.counts.renders) : Inv w' (ts ++ [t]) where
  eligible_eq := h.emptied (by simp [Transition.links, hlink]) heligible hretired hslot
  waits_eq := hwaits
  closed _ := hslot
  waiting _ := hslot
  unentered _ := hslot
  taken _ _ := hslot
  idle hne := absurd hslot hne
  dispatched hne := absurd hslot hne
  bounded := hlast ▸ h.bounded_snoc hgrant
  increasing := h.increasing_snoc fun _ hgrants => absurd hgrants.1 hgrant
  own := h.own_snoc fun _ hlinks => absurd hlinks.1 hlink
  waits_le := hhelper
  eligible_le := by rw [heligible, hlast]; exact h.eligible_le
  dispatches_le := hdispatches
  unbound_le := hunbound

theorem Inv.step (h : Inv w ts) (he : w.Effect w' e o) (hevent : t.event = e)
    (hop : t.operation_id = o) : Inv w' (ts ++ [t]) := by
  have hconserved := h.eligible_eq
  have hwaits := h.waits_eq
  have hdispatches := h.dispatches_le
  have hwaits_le := h.waits_le
  have heligible_le := h.eligible_le
  have hunbound := h.unbound_le
  have hquiet : e ≠ .kWaitEligible → e ≠ .kRenderConsumed → t.links = false ∧
      (∀ op, ¬t.Grants op) ∧ ∀ op, ¬t.Links op := by
    intro h1 h2
    refine ⟨?_, ?_, ?_⟩
    · simp [Transition.links, hevent, h2]
    · intro op hgrants
      exact h1 (hevent ▸ hgrants.1)
    · intro op hlinks
      exact h2 (hevent ▸ hlinks.1)
  cases he with
  | ignored op hterminal =>
    obtain ⟨hl, hg, hk⟩ := hquiet (by decide) (by decide)
    have hslot := h.closed hterminal
    exact { h with
      eligible_eq := by rw [linked_snoc, hl]; exact hconserved
      idle := by intro hne; exact absurd hslot hne
      dispatched := by intro hne; exact absurd hslot hne
      bounded := h.bounded_snoc (by simp [hevent])
      increasing := h.increasing_snoc (by intro op hgrants; exact absurd hgrants (hg op))
      own := h.own_snoc (by intro op hlinks; exact absurd hlinks (hk op)) }
  | fault qpc op hterminal =>
    exact h.of_emptied (by simp [hevent]) (by simp [hevent]) rfl rfl rfl rfl hwaits hwaits_le
      hdispatches hunbound
  | entered key qpc op hterminal hentered =>
    obtain ⟨hl, hg, hk⟩ := hquiet (by decide) (by decide)
    exact { h with
      eligible_eq := by rw [linked_snoc, hl]; exact hconserved
      unentered := by intro; exact h.unentered hentered
      idle := by intro hne; exact absurd (h.unentered hentered) hne
      dispatched := by intro hne; exact absurd (h.unentered hentered) hne
      bounded := h.bounded_snoc (by simp [hevent])
      increasing := h.increasing_snoc (by intro op hgrants; exact absurd hgrants (hg op))
      own := h.own_snoc (by intro op hlinks; exact absurd hlinks (hk op)) }
  | waitEntered qpc helper null hterminal hstate hhelper =>
    refine h.of_emptied (by simp [hevent]) (by simp [hevent]) rfl rfl rfl rfl ?_ ?_ ?_ hunbound
    · simp only [Worker.inside, hstate, reduceCtorEq, if_false] at hwaits
      simp only [Worker.inside, Worker.retired, if_true]
      omega
    · dsimp only
      omega
    · simp only [hstate, reduceCtorEq, false_and, if_false] at hdispatches
      simpa [Worker.retired] using hdispatches
  | waitRejected qpc operation op hterminal hstate hlast =>
    obtain ⟨hl, hg, hk⟩ := hquiet (by decide) (by decide)
    have hslot := h.waiting hstate
    exact { h with
      eligible_eq := by rw [linked_snoc, hl]; exact hconserved
      waits_eq := by
        simp only [Worker.inside, hstate, if_true] at hwaits
        simp only [Worker.inside, reduceCtorEq, if_false]
        omega
      waiting := by intro; exact hslot
      taken := by intro _ _; exact hslot
      idle := by intro hne; exact absurd hslot hne
      dispatched := by intro hne; exact absurd hslot hne
      bounded := by
        intro s hs op hgrants
        obtain ⟨hpos, hle⟩ := h.bounded_snoc (t := t) (by simp [hevent]) s hs op hgrants
        exact ⟨hpos, hle.trans hlast⟩
      increasing := h.increasing_snoc (by intro op hgrants; exact absurd hgrants (hg op))
      own := h.own_snoc (by intro op hlinks; exact absurd hlinks (hk op))
      eligible_le := heligible_le.trans hlast
      dispatches_le := by
        simp only [hstate, reduceCtorEq, false_and, if_false] at hdispatches
        simpa using hdispatches }
  | waitEligible qpc _ hterminal hentered hstate hlast =>
    have hslot := h.waiting hstate
    have hgrants : t.Grants o := ⟨hevent, hop⟩
    exact { h with
      eligible_eq := by
        have hl : t.links = false := by simp [Transition.links, hevent]
        rw [linked_snoc, hl]
        simp only [Worker.occupied, hslot] at hconserved
        have hne : o ≠ 0 := by omega
        simp only [Worker.occupied, if_pos hne]
        simp at hconserved
        simp
        omega
      waits_eq := by
        simp only [Worker.inside, hstate, if_true] at hwaits
        simp only [Worker.inside, reduceCtorEq, if_false]
        omega
      closed := by
        intro hclosed
        exact absurd (hclosed.symm.trans hterminal) (by decide)
      waiting := by intro hwait; cases hwait
      unentered := by
        intro hnot
        exact absurd (hentered.symm.trans hnot) (by decide)
      taken := by intro hdispatch; cases hdispatch
      idle := by
        intro _ _
        exact ⟨ts, t, rfl, hgrants⟩
      dispatched := by intro _ hdispatch; cases hdispatch
      bounded := by
        intro s hs op hs'
        rcases mem_append.mp hs with hold | hnew
        · obtain ⟨hpos, hle⟩ := h.bounded s hold op hs'
          exact ⟨hpos, hle.trans hlast.le⟩
        · rw [mem_singleton.mp hnew] at hs'
          have heq : op = o := hs'.2.symm.trans hop
          exact ⟨by omega, heq.le⟩
      increasing := h.increasing_snoc (by
        intro op hs'
        rw [← hs'.2, hop]
        exact hlast)
      own := h.own_snoc (by
        intro op hlinks
        exact absurd (hevent.symm.trans hlinks.1) (by decide))
      eligible_le := by
        dsimp only
        omega
      dispatches_le := by
        simp only [hstate, reduceCtorEq, false_and, if_false] at hdispatches
        simpa using hdispatches }
  | dispatchEntered qpc dispatch op hterminal hstate hlast =>
    obtain ⟨hl, hg, hk⟩ := hquiet (by decide) (by decide)
    exact { h with
      eligible_eq := by rw [linked_snoc, hl]; exact hconserved
      waits_eq := by
        simp only [Worker.inside, hstate, reduceCtorEq, if_false] at hwaits
        simpa [Worker.inside] using hwaits
      waiting := by intro hwait; cases hwait
      taken := by intro _ hseen; cases hseen
      idle := by intro _ hidle; cases hidle
      dispatched := by
        intro hne _
        obtain ⟨front, a, rfl, hgrants⟩ := h.idle hne hstate
        exact ⟨front, a, t, by simp, hgrants, hevent⟩
      bounded := h.bounded_snoc (by simp [hevent])
      increasing := h.increasing_snoc (by intro op hgrants; exact absurd hgrants (hg op))
      own := h.own_snoc (by intro op hlinks; exact absurd hlinks (hk op))
      dispatches_le := by
        simp only [hstate, reduceCtorEq, false_and, if_false] at hdispatches
        simp
        omega }
  | rendered qpc phase unbound hterminal hstate hseen hle =>
    exact { h with
      eligible_eq := by
        rw [linked_snoc]
        simp only [Worker.occupied, Transition.links, hevent, hop] at hconserved ⊢
        by_cases hslot : w.eligible = 0
        · simp [hslot] at hconserved ⊢
          exact hconserved
        · simp [hslot] at hconserved ⊢
          omega
      waits_eq := hwaits
      closed := by intro; rfl
      waiting := by intro; rfl
      unentered := by intro; rfl
      taken := by intro _ _; rfl
      idle := by intro hne; exact absurd rfl hne
      dispatched := by intro hne; exact absurd rfl hne
      bounded := h.bounded_snoc (by simp [hevent])
      increasing := h.increasing_snoc (by
        intro op hgrants
        exact absurd (hevent.symm.trans hgrants.1) (by decide))
      own := h.own_snoc (by
        intro op hlinks
        obtain ⟨-, hlink, hne⟩ := hlinks
        have heq : op = w.eligible := hlink.symm.trans hop
        subst heq
        exact h.own_render hstate hne)
      dispatches_le := by
        simp only [hstate, hseen, and_self, if_true] at hdispatches
        simp
        omega
      unbound_le := by
        dsimp only
        omega }
  | dispatchCompleted qpc op hterminal hstate hseen =>
    obtain ⟨hl, hg, hk⟩ := hquiet (by decide) (by decide)
    have hslot := h.taken hstate hseen
    exact { h with
      eligible_eq := by rw [linked_snoc, hl]; exact hconserved
      waits_eq := by
        simp only [Worker.inside, hstate, reduceCtorEq, if_false] at hwaits
        simpa [Worker.inside] using hwaits
      waiting := by intro; exact hslot
      taken := by intro _ _; exact hslot
      idle := by intro hne; exact absurd hslot hne
      dispatched := by intro hne; exact absurd hslot hne
      bounded := h.bounded_snoc (by simp [hevent])
      increasing := h.increasing_snoc (by intro op hgrants; exact absurd hgrants (hg op))
      own := h.own_snoc (by intro op hlinks; exact absurd hlinks (hk op))
      dispatches_le := by
        simp only [hstate, hseen, Bool.true_eq_false, and_false, if_false] at hdispatches
        simpa using hdispatches }
  | dispatchUnrendered qpc op hterminal hstate hseen =>
    refine h.of_emptied (by simp [hevent]) (by simp [hevent]) rfl rfl rfl rfl ?_ hwaits_le ?_
      hunbound
    · simp only [Worker.inside, hstate, reduceCtorEq, if_false] at hwaits
      simpa [Worker.inside, Worker.retired] using hwaits
    · simp only [hstate, hseen, and_self, if_true] at hdispatches
      simp [Worker.retired]
      omega
  | exited qpc op hterminal hstate =>
    exact h.of_emptied (by simp [hevent]) (by simp [hevent]) rfl rfl rfl rfl hwaits hwaits_le
      hdispatches hunbound
  | frozen qpc op hterminal =>
    exact h.of_emptied (by simp [hevent]) (by simp [hevent]) rfl rfl rfl rfl hwaits hwaits_le
      hdispatches hunbound

end Step

/-- **Every call** keeps what holds of the worker and its answers. -/
theorem Inv.call {w : Worker} {ts : List Transition} (h : Inv w ts) (call : Call) :
    Inv (w.call call).1 (ts ++ [(w.call call).2]) :=
  h.step (w.call_does call) rfl rfl

theorem run_inv (calls : List Call) : Inv (run calls).1 (run calls).2 :=
  AnsweredRun.run_induction inv_new (fun _ _ call h => h.call call) calls

/-- A grant is for one render: it stands right before the dispatch of that render. -/
theorem Inv.linked_once {w : Worker} {ts : List Transition} (h : Inv w ts) {m n op : Nat}
    {a b : Transition} (ha : ts[m]? = some a) (hb : ts[n]? = some b) (hla : a.Links op)
    (hlb : b.Links op) : m = n := by
  obtain ⟨c, _, i, rfl, hc, hgc, -⟩ := h.own m a op ha hla
  obtain ⟨d, _, j, rfl, hd, hgd, -⟩ := h.own n b op hb hlb
  rcases Nat.lt_trichotomy i j with hlt | heq | hlt
  · have := h.increasing i j c d op op hc hd hlt hgc hgd
    omega
  · rw [heq]
  · have := h.increasing j i d c op op hd hc hlt hgd hgc
    omega

/-! ### A failed worker -/

/-- A call on a worker that has ended leaves it alone. -/
theorem Worker.call_terminal {w : Worker} (h : w.terminal = true) (call : Call) :
    (w.call call).1 = w ∧ (w.call call).2.event = .kIgnored := by
  have hdoes := w.call_does call
  unfold Worker.Does at hdoes
  generalize (w.call call).1 = w', (w.call call).2.event = e,
    (w.call call).2.operation_id = o at hdoes ⊢
  cases hdoes with
  | ignored => exact ⟨rfl, rfl⟩
  | _ => simp_all

theorem Worker.terminal_of_failed {w : Worker} (h : w.failed = true) : w.terminal = true := by
  simp [Worker.terminal, h]

/-- **Work is conserved.**  After any calls on a new worker: every eligible wait was retired, is
linked to a render, or is in the slot; every wait became eligible, was rejected, or is not over;
a render that is linked to an operation comes right after the wait of that operation became
eligible and its dispatch was entered, and no other render is linked to it; and once the worker
has failed, it stays as it is whatever is called. -/
theorem work_conserved (calls : List Call) :
    (run calls).1.counts.eligible =
      (run calls).1.counts.retired + linked (run calls).2 + (run calls).1.occupied ∧
    (run calls).1.counts.waits =
      (run calls).1.counts.eligible + (run calls).1.counts.rejected + (run calls).1.inside ∧
    (∀ n t op, (run calls).2[n]? = some t → t.Links op → OwnIteration (run calls).2 n op) ∧
    (∀ (m n : Nat) (a b : Transition) (op : Nat), (run calls).2[m]? = some a → (run calls).2[n]? = some b → a.Links op →
      b.Links op → m = n) ∧
    ((run calls).1.failed = true → ∀ more, (run (calls ++ more)).1 = (run calls).1) := by
  have h := run_inv calls
  refine ⟨h.eligible_eq, h.waits_eq, h.own, ?_, ?_⟩
  · intro m n a b op ha hb hla hlb
    exact h.linked_once ha hb hla hlb
  · intro hfailed more
    have hterminal := Worker.terminal_of_failed hfailed
    unfold run
    rw [AnsweredRun.run_fst_append]
    exact AnsweredRun.foldl_fixed (fun call => (Worker.call_terminal hterminal call).1) more

end Mcla.WorkerIteration

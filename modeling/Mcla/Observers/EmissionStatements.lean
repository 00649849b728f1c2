import Mcla.Library.EarlyReturn
import Mcla.Observers.VectorTarget

/-! # The statements of the emission recorders

The calls of the work-emission and the vector-target recorder, statement by statement.  Each of
them is the attempt that the recorder's model says it is.
-/

open NestedRecorder (Recorder need)
open EarlyReturn (Method Checks Sim call_attempt call_onTop need_congr need_both)
open EarlyReturn.Method (Writable check top setTop push pop setAdmission append freeze)

namespace Mcla.WorkEmission.Statements
open RouterDispatch (InvocationId UpdateBinding)

/-- A body of the recorder. -/
abbrev Body := Method Admission Frame Event Fault

def TopFrame : Body Frame := top {}

/-- Only the innermost frame is called. -/
def Top (id : InvocationId) : Body Unit :=
  Method.onTop (fun m f => Model.invocation m f = id) .kIdentity

/-- It has to be at that stage. -/
def At (id : InvocationId) (s : Stage) : Body Unit := do
  Top id
  check ((← TopFrame).stage = s) .kTransition

def Emit (kind : EventKind) (p : Payload) : Body Unit := do
  let f ← TopFrame
  let m ← get
  append ⟨Model.invocation m f, f.entry_index, kind, p⟩

section Calls
variable (entries events depth : Nat)

def Room : Body Unit := Method.room events .kEventCapacity

/-- The entry is checked and pushed. -/
def Enter (e : Entry) : Body Unit := do
  Writable
  let m ← get
  let v := e.virtual_entry
  let p := v.parent_entry
  let c := v.parent_child
  let call := e.active_call0
  check (e.invocation.thread_epoch = m.admission.epoch ∧ e.invocation.serial ≠ 0 ∧
    m.admission.last_serial < e.invocation.serial ∧ v.invocation.thread_epoch ≠ 0 ∧
    (m.admission.virtual_epoch ≠ 0 → v.invocation.thread_epoch = m.admission.virtual_epoch) ∧
    v.invocation.serial ≠ 0 ∧ m.admission.last_virtual_serial < v.invocation.serial ∧
    p.invocation.thread_epoch ≠ 0 ∧
    (m.admission.detail_epoch ≠ 0 → p.invocation.thread_epoch = m.admission.detail_epoch) ∧
    p.invocation.serial ≠ 0 ∧ m.admission.last_detail_serial < p.invocation.serial ∧
    p.router.thread_epoch ≠ 0 ∧
    (m.admission.router_epoch ≠ 0 → p.router.thread_epoch = m.admission.router_epoch) ∧
    p.router.serial ≠ 0 ∧ m.admission.last_router_serial < p.router.serial ∧
    (p.update.unbound ∨ p.update.bound) ∧
    p.actual_target = ConsumerDetail.kTarget ∧ p.caller_lr = ConsumerDetail.kCaller ∧
    c.state = .kActive ∧ c.indirect = true ∧ c.caller_lr = VirtualDetail.kCaller ∧
    c.requested_target = VirtualDetail.kTarget ∧
    c.indirect_ctr.setWidth 32 = VirtualDetail.kTarget ∧
    v.actual_target = VirtualDetail.kTarget ∧ v.caller_lr = VirtualDetail.kCaller ∧
    v.r3 = c.r3 ∧ v.f1_bits = c.f1_bits ∧ call.state = .kActive ∧
    call.caller_lr = kCaller ∧ call.requested_target = kTail ∧
    call.indirect_ctr.setWidth 32 = kTail ∧
    e.actual_target = kBody ∧ e.caller_lr = kCaller ∧ e.r3 = call.r3 ∧
    e.f1_bits = call.f1_bits) .kIdentity
  check (m.stack.length ≠ depth) .kDepth
  check (m.admission.entries.length ≠ entries) .kEntryCapacity
  Room events
  let frame : Frame :=
    { entry_index := m.admission.entries.length
      parent := match m.stack with
        | [] => {}
        | top :: _ => Model.invocation m top }
  setAdmission fun a => { a with entries := a.entries ++ [e] }
  push frame
  setAdmission fun a => { a with
    virtual_epoch := if a.virtual_epoch = 0 then v.invocation.thread_epoch else a.virtual_epoch }
  setAdmission fun a => { a with
    detail_epoch := if a.detail_epoch = 0 then p.invocation.thread_epoch else a.detail_epoch }
  setAdmission fun a => { a with
    router_epoch := if a.router_epoch = 0 then p.router.thread_epoch else a.router_epoch }
  setAdmission fun a => { a with last_serial := e.invocation.serial }
  setAdmission fun a => { a with last_virtual_serial := v.invocation.serial }
  setAdmission fun a => { a with last_detail_serial := p.invocation.serial }
  setAdmission fun a => { a with last_router_serial := p.router.serial }
  Emit .kEntry {}

variable (id : InvocationId)

def MainGate (r7 : BitVec 64) : Body Unit := do
  At id .kEntered
  check (r7 ≤ UINT8_MAX) .kTransition
  Room events
  setTop fun f => { f with main_observed := true }
  setTop fun f => { f with main_raw := r7 }
  setTop fun f => { f with stage := if r7 ≠ 0 then .kScalarCount else .kComplete }
  Emit .kMainGate (One r7)

def ScalarCount (r9 : BitVec 64) : Body Unit := do
  At id .kScalarCount
  check (r9 ≤ UINT16_MAX) .kTransition
  Room events
  setTop fun f => { f with scalar_count_observed := true }
  setTop fun f => { f with scalar_count := r9, scalar_upper := r9 }
  setTop fun f => { f with stage := .kScalarReady }
  Emit .kScalarCount (One r9)

def ScalarPre (index r3 f1 f2 ctr lr : BitVec 64) : Body Unit := do
  At id .kScalarReady
  let f ← TopFrame
  check (index < f.scalar_upper && lr = kScalarLr) .kTransition
  Room events
  setTop fun f => { f with scalar_index := index }
  setTop fun f => { f with scalar_upper := index }
  setTop fun f => { f with scalar_emissions := f.scalar_emissions + 1 }
  setTop fun f => { f with stage := .kScalarActive }
  Emit .kScalarPre (Payload.of [lr, index, r3, f1, f2, ctr])

def ScalarReturn (raw_r3 : BitVec 64) : Body Unit := do
  At id .kScalarActive
  Room events
  setTop fun f => { f with scalar_return := raw_r3 }
  setTop fun f => { f with
    stage := if raw_r3.setWidth 8 = 0 then .kCleanupRequired else .kScalarReady }
  Emit .kScalarReturn (One raw_r3)

def CleanupPre (r3 ctr lr : BitVec 64) : Body Unit := do
  At id .kCleanupRequired
  check (lr = kCleanupLr) .kTransition
  Room events
  setTop fun f => { f with cleanup_emissions := f.cleanup_emissions + 1 }
  setTop fun f => { f with stage := .kCleanupActive }
  Emit .kCleanupPre (Payload.of [lr, r3, ctr])

def End (active next : Stage) (kind : EventKind) : Body Unit := do
  At id active
  Room events
  setTop fun f => { f with stage := next }
  Emit kind {}

def Exception (active : Stage) (kind : EventKind) : Body Unit :=
  End events id active .kEmissionException kind

def ScalarException : Body Unit := Exception events id .kScalarActive .kScalarException

def CleanupReturn : Body Unit := End events id .kCleanupActive .kScalarReady .kCleanupReturn

def CleanupException : Body Unit := Exception events id .kCleanupActive .kCleanupException

def ModeGate (r10 : BitVec 64) : Body Unit := do
  At id .kScalarReady
  check (r10 ≤ UINT8_MAX) .kTransition
  Room events
  setTop fun f => { f with mode_observed := true }
  setTop fun f => { f with mode_raw := r10 }
  setTop fun f => { f with stage := if r10 ≠ 0 then .kVectorCount else .kJobInitialBound }
  Emit .kModeGate (One r10)

def JobBound (raw_r11 : BitVec 64) : Body Unit := do
  Top id
  let f ← TopFrame
  check ((f.stage = .kJobInitialBound ∨ f.stage = .kJobReloadBound) ∧ raw_r11 ≤ UINT32_MAX)
    .kTransition
  Room events
  let initial := f.stage = .kJobInitialBound
  setTop fun f => { f with job_bound_observed := true }
  setTop fun f => { f with job_bound := raw_r11 }
  setTop fun f => { f with
    stage := if moreJobs raw_r11 f.next_job then .kJobReady else .kWaitRequired }
  Emit (if initial then .kJobInitialBound else .kJobReloadBound) (One raw_r11)

def JobPre (index : BitVec 64) (r3_to_r8 : Vector (BitVec 64) 6) (descriptor_f32_bits : BitVec 32)
    (lr : BitVec 64) : Body Unit := do
  At id .kJobReady
  let f ← TopFrame
  check (index = f.next_job && lr = kJobLr) .kTransition
  Room events
  setTop fun f => { f with job_emissions := f.job_emissions + 1 }
  setTop fun f => { f with stage := .kJobActive }
  Emit .kJobPre
    (Payload.of (lr :: index :: (r3_to_r8.toList ++ [descriptor_f32_bits.setWidth 64])))

def JobReturn (raw_r3 : BitVec 64) : Body Unit := do
  At id .kJobActive
  Room events
  setTop fun f => { f with job_return := raw_r3 }
  setTop fun f => { f with next_job := f.next_job + 1 }
  setTop fun f => { f with stage := .kJobReloadBound }
  Emit .kJobReturn (One raw_r3)

def JobException : Body Unit := Exception events id .kJobActive .kJobException

def WaitPre (r3 r4 r5 lr : BitVec 64) : Body Unit := do
  At id .kWaitRequired
  let f ← TopFrame
  check (r3 = f.job_bound && r5 = 1 && lr = kWaitLr) .kTransition
  Room events
  setTop fun f => { f with wait_emissions := f.wait_emissions + 1 }
  setTop fun f => { f with stage := .kWaitActive }
  Emit .kWaitPre (Payload.of [lr, r3, r4, r5])

def WaitReturn : Body Unit := End events id .kWaitActive .kComplete .kWaitReturn

def WaitException : Body Unit := Exception events id .kWaitActive .kWaitException

def VectorCount (r10 : BitVec 64) : Body Unit := do
  At id .kVectorCount
  check (r10 ≤ UINT16_MAX) .kTransition
  Room events
  setTop fun f => { f with vector_count_observed := true }
  setTop fun f => { f with vector_count := r10 }
  setTop fun f => { f with next_vector := if r10 ≠ 0 then r10 - 1 else 0 }
  setTop fun f => { f with stage := if r10 ≠ 0 then .kVectorReady else .kComplete }
  Emit .kVectorCount (One r10)

def VectorPre (index r3 f1 ctr : BitVec 64) (v1 : Vector (BitVec 32) 4) (lr : BitVec 64) :
    Body Unit := do
  At id .kVectorReady
  let f ← TopFrame
  check (index = f.next_vector && lr = kVectorLr) .kTransition
  Room events
  setTop fun f => { f with vector_emissions := f.vector_emissions + 1 }
  setTop fun f => { f with stage := .kVectorActive }
  Emit .kVectorPre { Payload.of [lr, index, r3, f1, ctr] with vector := v1.toList }

def VectorReturn : Body Unit := do
  At id .kVectorActive
  Room events
  let f ← TopFrame
  if f.next_vector ≠ 0 then
    setTop fun f => { f with next_vector := f.next_vector - 1 }
    setTop fun f => { f with stage := .kVectorReady }
  else
    setTop fun f => { f with stage := .kComplete }
  Emit .kVectorReturn {}

def VectorException : Body Unit := Exception events id .kVectorActive .kVectorException

/-- The frame ends. -/
def Exit (normal : Bool) : Body Unit := do
  Top id
  let f ← TopFrame
  check (normal = true → f.stage = .kComplete) .kTransition
  Room events
  Emit (if normal then .kNormalExit else .kExceptionalExit) {}
  pop

/-- The statements of a call. -/
def body : Call → Body Unit
  | .Enter e => Enter entries events depth e
  | .MainGate id r7 => MainGate events id r7
  | .ScalarCount id r9 => ScalarCount events id r9
  | .ScalarPre id index r3 f1 f2 ctr lr => ScalarPre events id index r3 f1 f2 ctr lr
  | .ScalarReturn id raw_r3 => ScalarReturn events id raw_r3
  | .ScalarException id => ScalarException events id
  | .CleanupPre id r3 ctr lr => CleanupPre events id r3 ctr lr
  | .CleanupReturn id => CleanupReturn events id
  | .CleanupException id => CleanupException events id
  | .ModeGate id r10 => ModeGate events id r10
  | .JobBound id raw_r11 => JobBound events id raw_r11
  | .JobPre id index r3_to_r8 descriptor lr => JobPre events id index r3_to_r8 descriptor lr
  | .JobReturn id raw_r3 => JobReturn events id raw_r3
  | .JobException id => JobException events id
  | .WaitPre id r3 r4 r5 lr => WaitPre events id r3 r4 r5 lr
  | .WaitReturn id => WaitReturn events id
  | .WaitException id => WaitException events id
  | .VectorCount id r10 => VectorCount events id r10
  | .VectorPre id index r3 f1 ctr v1 lr => VectorPre events id index r3 f1 ctr v1 lr
  | .VectorReturn id => VectorReturn events id
  | .VectorException id => VectorException events id
  | .Exit id normal => Exit events id normal
  | .Freeze => freeze

end Calls

section Attempts
variable {entries events depth : Nat} {m : Model}

variable {check' : Frame → Bool} {id : InvocationId} {kind : EventKind}

/-- A call at a stage, where what follows the stage's check is what the model's call does. -/
theorem at_call {s : Stage} {x : Unit → Body Unit} {next : Frame → Frame} {p : Payload}
    (h : ∀ f rest, ({ m with stack := f :: rest } : Model).writable = true →
      Sim { m with stack := f :: rest } (x ()) ((need (check' f = true) .kTransition >>= fun _ =>
        m.Room events >>= fun _ => pure (some (next f), m.Emit f kind p)) >>= fun left =>
          pure { m with stack := left.1.toList ++ rest, events := m.events ++ [left.2] })) :
    (At id s >>= x).call m = m.At events id s check' next kind p := by
  unfold At
  rw [bind_assoc]
  refine call_onTop fun f rest hw => ?_
  exact (Checks.top (Checks.need hw _ _)).inside (h f rest hw)

theorem end_call (id : InvocationId) (active next : Stage) (kind : EventKind) :
    (End events id active next kind).call m = m.End events id active next kind :=
  at_call fun _ _ hw => (Checks.room hw events .kEventCapacity).inside (Sim.done rfl)

theorem enter_call (e : Entry) :
    (Enter entries events depth e).call m = m.Enter entries events depth e := by
  refine call_attempt fun hw => Sim.get ?_
  refine (Checks.need hw _ _).before ((Checks.need hw _ _).before ((Checks.need hw _ _).before ?_))
  refine (Checks.room hw events .kEventCapacity).before (Sim.done ?_)
  -- the event reads the entry back from the table that it was just added to
  refine Eq.trans (b := (some (), m.opened (m.admission.after e) m.frame
    ⟨((m.admission.entries ++ [e]).getD m.admission.entries.length {}).invocation,
      m.admission.entries.length, .kEntry, {}⟩)) rfl ?_
  rw [List.getD_eq_getElem?_getD, List.getElem?_concat_length]
  rfl

theorem jobBound_call (id : InvocationId) (raw_r11 : BitVec 64) :
    (JobBound events id raw_r11).call m = m.JobBound events id raw_r11 := by
  refine call_onTop fun f rest hw => Sim.top ?_
  refine (Checks.need hw _ _).inside ?_
  exact (Checks.room hw events .kEventCapacity).inside (Sim.done rfl)

theorem vectorReturn_call (id : InvocationId) :
    (VectorReturn events id).call m = m.VectorReturn events id := by
  refine at_call fun f rest hw => ?_
  refine (Checks.room hw events .kEventCapacity).inside (Sim.top ?_)
  by_cases hlast : f.next_vector ≠ 0
  · simp only [if_pos hlast]
    exact Sim.done rfl
  · simp only [if_neg hlast]
    exact Sim.done rfl

theorem exit_call (id : InvocationId) (normal : Bool) :
    (Exit events id normal).call m = m.Exit events id normal := by
  refine call_onTop fun f rest hw => Sim.top ?_
  refine (Checks.need hw _ _).inside ?_
  exact (Checks.room hw events .kEventCapacity).inside (Sim.done rfl)

/-- A call at a stage that checks operands which are given with it. -/
theorem given_call {s : Stage} {p : Prop} [Decidable p] {x : Unit → Body Unit}
    {next : Frame → Frame} {payload : Payload} (hp : ∀ f, p ↔ check' f = true)
    (h : ∀ f rest, (x ()).run.run { m with stack := f :: rest } =
      (some (), { m with
        stack := next f :: rest, events := m.events ++ [m.Emit f kind payload] })) :
    (At id s >>= fun _ => check p .kTransition >>= fun _ => Room events >>= x).call m =
      m.At events id s check' next kind payload := by
  refine at_call fun f rest hw => ?_
  rw [← need_congr (hp f)]
  exact (Checks.need hw _ _).inside
    ((Checks.room hw events .kEventCapacity).inside (Sim.done (h f rest)))

/-- A call at a stage that compares its operands with the frame. -/
theorem compared_call {s : Stage} {p : Frame → Prop} [DecidablePred p]
    {x : Frame → Unit → Body Unit} {next : Frame → Frame} {payload : Payload}
    (hp : ∀ f, p f ↔ check' f = true)
    (h : ∀ f rest, (x f ()).run.run { m with stack := f :: rest } =
      (some (), { m with
        stack := next f :: rest, events := m.events ++ [m.Emit f kind payload] })) :
    (At id s >>= fun _ => TopFrame >>= fun f => check (p f) .kTransition >>= fun _ =>
      Room events >>= x f).call m = m.At events id s check' next kind payload := by
  refine at_call fun f rest hw => Sim.top ?_
  rw [← need_congr (hp f)]
  exact (Checks.need hw _ _).inside
    ((Checks.room hw events .kEventCapacity).inside (Sim.done (h f rest)))

/-- **Every call** of the statements is the call of the model. -/
theorem body_call (call : Call) :
    (body entries events depth call).call m = m.call entries events depth call := by
  cases call with
  | Enter e => exact enter_call e
  | MainGate id r7 => exact given_call (fun _ => decide_eq_true_iff.symm) fun _ _ => rfl
  | ScalarCount id r9 => exact given_call (fun _ => decide_eq_true_iff.symm) fun _ _ => rfl
  | ScalarPre id index r3 f1 f2 ctr lr => exact compared_call (fun _ => Iff.rfl) fun _ _ => rfl
  | ScalarReturn id raw_r3 =>
    exact at_call fun _ _ hw => (Checks.room hw events .kEventCapacity).inside (Sim.done rfl)
  | ScalarException id => exact end_call id _ _ _
  | CleanupPre id r3 ctr lr => exact given_call (fun _ => decide_eq_true_iff.symm) fun _ _ => rfl
  | CleanupReturn id => exact end_call id _ _ _
  | CleanupException id => exact end_call id _ _ _
  | ModeGate id r10 => exact given_call (fun _ => decide_eq_true_iff.symm) fun _ _ => rfl
  | JobBound id raw_r11 => exact jobBound_call id raw_r11
  | JobPre id index r3_to_r8 descriptor lr =>
    exact compared_call (fun _ => Iff.rfl) fun _ _ => rfl
  | JobReturn id raw_r3 =>
    exact at_call fun _ _ hw => (Checks.room hw events .kEventCapacity).inside (Sim.done rfl)
  | JobException id => exact end_call id _ _ _
  | WaitPre id r3 r4 r5 lr => exact compared_call (fun _ => Iff.rfl) fun _ _ => rfl
  | WaitReturn id => exact end_call id _ _ _
  | WaitException id => exact end_call id _ _ _
  | VectorCount id r10 => exact given_call (fun _ => decide_eq_true_iff.symm) fun _ _ => rfl
  | VectorPre id index r3 f1 ctr v1 lr => exact compared_call (fun _ => Iff.rfl) fun _ _ => rfl
  | VectorReturn id => exact vectorReturn_call id
  | VectorException id => exact end_call id _ _ _
  | Exit id normal => exact exit_call id normal
  | Freeze => rfl

end Attempts

end Mcla.WorkEmission.Statements

namespace Mcla.VectorTarget.Statements
open RouterDispatch (InvocationId)
open WorkEmission (UINT16_MAX UINT32_MAX AllZero)

/-- A body of the recorder. -/
abbrev Body := Method Admission Frame Event Fault

def TopFrame : Body Frame := top {}

/-- The entry of the innermost frame. -/
def Current : Body Entry := do
  let f ← TopFrame
  let m ← get
  return Model.current m f

/-- Only the innermost frame is called. -/
def Top (id : InvocationId) : Body Unit :=
  Method.onTop (fun m f => (Model.current m f).invocation = id) .kIdentity

/-- It has to be at that stage. -/
def At (id : InvocationId) (s : Stage) : Body Unit := do
  Top id
  check ((← TopFrame).stage = s) .kTransition

def Emit (k : EventKind) (p : Payload) (s : Site) : Body Unit := do
  let e ← Current
  let f ← TopFrame
  append ⟨e.invocation, f.entry_index, k, s, p⟩

section Calls
variable (entries events depth : Nat)

def Room : Body Unit := Method.room events .kEventCapacity

/-- The entry is checked and pushed. -/
def Enter (e : Entry) : Body Unit := do
  Writable
  let m ← get
  let w := e.work_entry
  let p := e.vector_pre
  check (Model.parentCheck w = true ∧ e.invocation.thread_epoch = m.admission.epoch ∧
    e.invocation.serial ≠ 0 ∧ m.admission.last_serial < e.invocation.serial ∧
    (m.admission.work_epoch ≠ 0 → w.invocation.thread_epoch = m.admission.work_epoch) ∧
    e.actual_target = kTarget ∧ e.caller_lr = kCaller ∧ p.lr = kCaller ∧
    p.ctr.setWidth 32 = kTarget ∧ p.index < UINT16_MAX ∧
    AllZero (p.fields.toList.drop 5) ∧ e.r3 = p.r3 ∧ e.v1 = p.vector ∧
    e.parent_event_index ≠ 0 ∧ e.parent_event_index < 65536 ∧
    m.admission.last_work_serial ≤ w.invocation.serial) .kIdentity
  check (∀ old ∈ m.admission.entries.getLast?, old.parent_event_index < e.parent_event_index ∧
    (w.invocation.serial = m.admission.last_work_serial →
      w = old.work_entry ∧ p.index < old.vector_pre.index)) .kIdentity
  check (m.stack.length ≠ depth) .kDepth
  check (m.admission.entries.length ≠ entries) .kEntryCapacity
  Room events
  let frame : Frame :=
    { entry_index := m.admission.entries.length
      parent := match m.stack with
        | [] => {}
        | top :: _ => (Model.current m top).invocation }
  setAdmission fun a => { a with entries := a.entries ++ [e] }
  push frame
  setAdmission fun a => { a with work_epoch := w.invocation.thread_epoch }
  setAdmission fun a => { a with last_work_serial := w.invocation.serial }
  setAdmission fun a => { a with last_serial := e.invocation.serial }
  Emit .kEntry {} .kDirectE790

variable (id : InvocationId)

def InitialV126 (address : BitVec 32) (lanes : Lanes) : Body Unit := do
  At id .kEntered
  let e ← Current
  check (address = (e.r3.setWidth 32 + 400) &&& ~~~(15 : BitVec 32)) .kTransition
  Room events
  setTop fun f => { f with stage := .kDirectE790 }
  Emit .kInitialV126 ⟨quad (address.setWidth 64) 0 0 0, lanes⟩ .kDirectE790

def CallPre (site : Site) (lr r3 ctr : BitVec 64) (v1 : Lanes) :
    Body Unit := do
  Top id
  let f ← TopFrame
  let e ← Current
  check (Caller site ≠ 0 ∧ f.stage = Ready site ∧ lr = Caller site ∧ r3 = e.r3 ∧
    (Restored site → v1 = e.v1)) .kTransition
  Room events
  setTop fun f => { f with active := site }
  setTop fun f => { f with stage := .kCallActive }
  Emit .kCallPre ⟨quad lr r3 ctr 0, v1⟩ site

def EndCall (s : Site) (exception : Bool) : Body Unit := do
  At id .kCallActive
  let f ← TopFrame
  check (f.active = s) .kTransition
  Room events
  setTop fun f => { f with stage := if exception then .kCallException else After s }
  Emit (if exception then .kCallException else .kCallReturn) {} s

def CallReturn (site : Site) : Body Unit := EndCall events id site false

def CallException (site : Site) : Body Unit := EndCall events id site true

def FlagStore (address : BitVec 32) (raw_r3 : BitVec 64) : Body Unit := do
  At id .kFlagStore
  let e ← Current
  check (address = e.r3.setWidth 32 + 657 ∧ raw_r3 ≤ 1) .kTransition
  Room events
  setTop fun f => { f with stage := .kGate100 }
  Emit .kFlagStore { fields := quad (address.setWidth 64) raw_r3 0 0 } .kDirectE790

def Gate100 (raw_r10 : BitVec 64) : Body Unit := do
  At id .kGate100
  check (raw_r10 = 0 ∨ raw_r10 = 16) .kTransition
  Room events
  setTop fun f => { f with stage := if raw_r10 ≠ 0 then .kSlot104 else .kSlot100 }
  Emit .kGate100 { fields := quad raw_r10 0 0 0 } .kDirectE790

def CounterLoad (address : BitVec 32) (loaded_u32 : BitVec 64) :
    Body Unit := do
  At id .kCounterLoad
  let e ← Current
  check (address = e.r3.setWidth 32 + 664 ∧ loaded_u32 ≤ UINT32_MAX) .kTransition
  Room events
  setTop fun f => { f with counter_loaded := loaded_u32 }
  setTop fun f => { f with stage := .kCounterStore }
  Emit .kCounterLoad { fields := quad (address.setWidth 64) loaded_u32 0 0 } .kDirectE790

def CounterStore (address : BitVec 32) (loaded_u32 incremented_r11 : BitVec 64) :
    Body Unit := do
  At id .kCounterStore
  let f ← TopFrame
  let e ← Current
  check (address = e.r3.setWidth 32 + 664 ∧ loaded_u32 ≤ UINT32_MAX ∧
    loaded_u32 = f.counter_loaded ∧ incremented_r11 = loaded_u32 + 1) .kTransition
  Room events
  setTop fun f => { f with stage := counted incremented_r11 }
  Emit .kCounterStore { fields := quad (address.setWidth 64) loaded_u32 incremented_r11 0 }
    .kDirectE790

/-- The frame ends. -/
def Exit (normal : Bool) : Body Unit := do
  Top id
  let f ← TopFrame
  check (normal = true → f.stage = .kComplete) .kTransition
  Room events
  Emit (if normal then .kNormalExit else .kExceptionalExit) {} .kDirectE790
  pop

/-- The statements of a call. -/
def body : Call → Body Unit
  | .Enter e => Enter entries events depth e
  | .InitialV126 id address lanes => InitialV126 events id address lanes
  | .CallPre id site lr r3 ctr v1 => CallPre events id site lr r3 ctr v1
  | .CallReturn id site => CallReturn events id site
  | .CallException id site => CallException events id site
  | .FlagStore id address raw_r3 => FlagStore events id address raw_r3
  | .Gate100 id raw_r10 => Gate100 events id raw_r10
  | .CounterLoad id address loaded_u32 => CounterLoad events id address loaded_u32
  | .CounterStore id address loaded_u32 incremented_r11 =>
    CounterStore events id address loaded_u32 incremented_r11
  | .Exit id normal => Exit events id normal
  | .Freeze => freeze

end Calls

section Attempts
variable {entries events depth : Nat} {m : Model}

theorem enter_call (e : Entry) :
    (Enter entries events depth e).call m = m.Enter entries events depth e := by
  refine call_attempt fun hw => Sim.get ?_
  refine (Checks.need hw _ _).before ((Checks.need hw _ _).before ?_)
  refine (Checks.need hw _ _).before ((Checks.need hw _ _).before ?_)
  refine (Checks.room hw events .kEventCapacity).before (Sim.done ?_)
  refine Eq.trans (b := (some (), m.opened (m.admission.after e) m.frame
    ⟨((m.admission.entries ++ [e]).getD m.admission.entries.length {}).invocation,
      m.admission.entries.length, .kEntry, .kDirectE790, {}⟩)) rfl ?_
  rw [List.getD_eq_getElem?_getD, List.getElem?_concat_length]
  rfl

/-- The entry of the innermost frame is looked at first. -/
theorem current_first {f : Frame} {rest : List Frame} {x : Entry → Body Unit}
    {z : Except Fault Model} (h : Sim { m with stack := f :: rest } (x (m.current f)) z) :
    Sim { m with stack := f :: rest } (Current >>= x) z := h

/-- A call at a stage that compares its operands with the frame and its entry. -/
theorem at_call {id : InvocationId} {s : Stage} {p : Frame → Entry → Prop}
    [∀ f e, Decidable (p f e)] {x y : Unit → Body Unit} {check' : Frame → Entry → Bool}
    {next : Frame → Frame} {kind : EventKind} {site : Site} {payload : Payload}
    (hp : ∀ f e, p f e ↔ check' f e = true) (hx : ∀ f rest z, Sim { m with stack := f :: rest }
      (check (p f (m.current f)) .kTransition >>= fun _ => Room events >>= y) z →
        Sim { m with stack := f :: rest } (x ()) z)
    (h : ∀ f rest, (y ()).run.run { m with stack := f :: rest } =
      (some (), { m with
        stack := next f :: rest, events := m.events ++ [m.Emit f kind site payload] })) :
    (At id s >>= x).call m = m.At events id s check' next kind site payload := by
  unfold At
  rw [bind_assoc]
  refine call_onTop fun f rest hw => ?_
  refine (Checks.top (Checks.need hw _ _)).inside (hx f rest _ ?_)
  rw [← need_congr (hp f _)]
  exact (Checks.need hw _ _).inside
    ((Checks.room hw events .kEventCapacity).inside (Sim.done (h f rest)))

theorem callPre_call (id : InvocationId) (site : Site) (lr r3 ctr : BitVec 64) (v1 : Lanes) :
    (CallPre events id site lr r3 ctr v1).call m = m.CallPre events id site lr r3 ctr v1 := by
  unfold Model.CallPre Model.At
  refine call_onTop fun f rest hw => Sim.top (current_first ?_)
  have hboth : (Caller site ≠ 0 ∧ f.stage = Ready site ∧ lr = Caller site ∧
      r3 = (m.current f).r3 ∧ (Restored site → v1 = (m.current f).v1)) ↔ f.stage = Ready site ∧
        decide (Caller site ≠ 0 ∧ lr = Caller site ∧ r3 = (m.current f).r3 ∧
          (Restored site → v1 = (m.current f).v1)) = true := by
    rw [decide_eq_true_iff]
    exact and_left_comm
  rw [need_both hboth]
  exact (Checks.need hw _ _).inside
    ((Checks.room hw events .kEventCapacity).inside (Sim.done rfl))

theorem exit_call (id : InvocationId) (normal : Bool) :
    (Exit events id normal).call m = m.Exit events id normal := by
  refine call_onTop fun f rest hw => Sim.top ?_
  refine (Checks.need hw _ _).inside ?_
  exact (Checks.room hw events .kEventCapacity).inside (Sim.done rfl)

/-- **Every call** of the statements is the call of the model. -/
theorem body_call (call : Call) :
    (body entries events depth call).call m = m.call entries events depth call := by
  cases call with
  | Enter e => exact enter_call e
  | InitialV126 id address lanes =>
    unfold body Model.call InitialV126 Model.InitialV126
    exact at_call (p := fun _ e => address = (e.r3.setWidth 32 + 400) &&& ~~~(15 : BitVec 32))
      (fun _ _ => decide_eq_true_iff.symm) (fun _ _ _ h => current_first h) fun _ _ => rfl
  | CallPre id site lr r3 ctr v1 => exact callPre_call id site lr r3 ctr v1
  | CallReturn id site =>
    unfold body Model.call CallReturn Model.CallReturn EndCall Model.EndCall
    exact at_call (p := fun f _ => f.active = site)
      (fun _ _ => decide_eq_true_iff.symm) (fun _ _ _ h => Sim.top h) fun _ _ => rfl
  | CallException id site =>
    unfold body Model.call CallException Model.CallException EndCall Model.EndCall
    exact at_call (p := fun f _ => f.active = site)
      (fun _ _ => decide_eq_true_iff.symm) (fun _ _ _ h => Sim.top h) fun _ _ => rfl
  | FlagStore id address raw_r3 =>
    unfold body Model.call FlagStore Model.FlagStore
    exact at_call (p := fun _ e => address = e.r3.setWidth 32 + 657 ∧ raw_r3 ≤ 1)
      (fun _ _ => decide_eq_true_iff.symm) (fun _ _ _ h => current_first h) fun _ _ => rfl
  | Gate100 id raw_r10 =>
    unfold body Model.call Gate100 Model.Gate100
    exact at_call (p := fun _ _ => raw_r10 = 0 ∨ raw_r10 = 16)
      (fun _ _ => decide_eq_true_iff.symm) (fun _ _ _ h => h) fun _ _ => rfl
  | CounterLoad id address loaded_u32 =>
    unfold body Model.call CounterLoad Model.CounterLoad
    exact at_call (p := fun _ e => address = e.r3.setWidth 32 + 664 ∧ loaded_u32 ≤ UINT32_MAX)
      (fun _ _ => decide_eq_true_iff.symm) (fun _ _ _ h => current_first h) fun _ _ => rfl
  | CounterStore id address loaded_u32 incremented_r11 =>
    unfold body Model.call CounterStore Model.CounterStore
    exact at_call (p := fun f e => address = e.r3.setWidth 32 + 664 ∧
      loaded_u32 ≤ UINT32_MAX ∧ loaded_u32 = f.counter_loaded ∧ incremented_r11 = loaded_u32 + 1)
      (fun _ _ => decide_eq_true_iff.symm) (fun _ _ _ h => Sim.top (current_first h)) fun _ _ => rfl
  | Exit id normal => exact exit_call id normal
  | Freeze => rfl

end Attempts

end Mcla.VectorTarget.Statements

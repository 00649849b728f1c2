import Mcla.Observers.VirtualDetail

/-! # Work emissions

The body that the first call of a virtual body reaches sends out work: first, behind a gate,
scalar items with a falling index; then either vector items from the last to the first, or jobs
from the first on with one wait after them.  The recorder of a lane is told of every gate, count,
bound and item, and of what the items return.
-/
namespace Mcla.WorkEmission
open NestedRecorder BitVec
open RouterDispatch (InvocationId UpdateBinding)

/-! ### Data -/

def kBody : BitVec 32 := 0x82588490
def kTail : BitVec 32 := 0x82741010
def kCaller : BitVec 64 := 0x8258D1E8
def kScalarLr : BitVec 64 := 0x825885AC
def kCleanupLr : BitVec 64 := 0x825885CC
def kJobLr : BitVec 64 := 0x8258866C
def kWaitLr : BitVec 64 := 0x82588694
def kVectorLr : BitVec 64 := 0x825886F4

def UINT8_MAX : BitVec 64 := 0xff
def UINT16_MAX : BitVec 64 := 0xffff
def UINT32_MAX : BitVec 64 := 0xffffffff

/-- What the emission is entered with. -/
structure Entry where
  invocation : InvocationId := {}
  virtual_entry : VirtualDetail.Entry := {}
  active_call0 : VirtualDetail.Call := {}
  actual_target : BitVec 32 := 0
  (caller_lr r3 f1_bits : BitVec 64 := 0)
  deriving DecidableEq

/-- The operands of an event: ten fields, of which those not used are zero, and four lanes. -/
structure Payload where
  fields : List (BitVec 64) := List.replicate 10 0
  vector : List (BitVec 32) := List.replicate 4 0
  deriving DecidableEq

/-- The first fields, and zeros after them. -/
def Payload.of (fields : List (BitVec 64)) : Payload :=
  { fields := fields ++ List.replicate (10 - fields.length) 0 }

/-- Fields that are not used. -/
def AllZero (fields : List (BitVec 64)) : Prop := ∀ v ∈ fields, v = 0

instance : DecidablePred AllZero := fun fields => List.decidableBAll (· = 0) fields

/-- The kinds of events. -/
inductive EventKind where
  | kEntry | kMainGate | kScalarCount | kScalarPre | kScalarReturn | kScalarException
  | kCleanupPre | kCleanupReturn | kCleanupException | kModeGate | kJobInitialBound
  | kJobPre | kJobReturn | kJobException | kJobReloadBound | kWaitPre | kWaitReturn
  | kWaitException | kVectorCount | kVectorPre | kVectorReturn | kVectorException
  | kNormalExit | kExceptionalExit
  deriving DecidableEq

/-- An event, with its payload. -/
structure Event where
  invocation : InvocationId := {}
  entry_index : Nat := 0
  kind : EventKind := .kEntry
  payload : Payload := {}

/-- How far an emission has come. -/
inductive Stage where
  | kEntered | kScalarCount | kScalarReady | kScalarActive | kCleanupRequired
  | kCleanupActive | kJobInitialBound | kJobReady | kJobActive | kJobReloadBound
  | kWaitRequired | kWaitActive | kVectorCount | kVectorReady | kVectorActive
  | kComplete | kEmissionException
  deriving DecidableEq

/-- Why the model stops. -/
inductive Fault where
  | kIdentity | kTransition | kEntryCapacity | kEventCapacity | kDepth
  deriving DecidableEq

/-- An emission under way. -/
structure Frame where
  entry_index : Nat := 0
  parent : InvocationId := {}
  stage : Stage := .kEntered
  (main_observed scalar_count_observed mode_observed job_bound_observed
    vector_count_observed : Bool := false)
  (main_raw mode_raw scalar_count scalar_upper scalar_index scalar_return next_job job_bound
    job_return vector_count next_vector : BitVec 64 := 0)
  (scalar_emissions cleanup_emissions job_emissions wait_emissions
    vector_emissions : BitVec 32 := 0)

/-- What an entry is compared with, and the entries so far; a parent epoch of zero is not bound
yet. -/
structure Admission where
  epoch : BitVec 64
  (virtual_epoch detail_epoch router_epoch last_serial last_virtual_serial last_detail_serial
    last_router_serial : BitVec 64 := 0)
  entries : List Entry := []

/-! ### The recorder -/

/-- The model of one lane. -/
abbrev Model := Recorder Admission Frame Event Fault

def One (v : BitVec 64) : Payload := Payload.of [v]

/-- The bound of the jobs, a signed word that was loaded without its sign. -/
def signedBound (raw_r11 : BitVec 64) : BitVec 64 :=
  if raw_r11 &&& 0x80000000 ≠ 0 then raw_r11 - 0x100000000 else raw_r11

/-- Whether the bound asks for a job of that number. -/
def moreJobs (raw_r11 next_job : BitVec 64) : Bool :=
  (0 : BitVec 64).slt (signedBound raw_r11) && next_job < signedBound raw_r11

namespace Model

/-- The model of a fresh lane. -/
def new (own_epoch parent_virtual_epoch : BitVec 64) : Model where
  admission := { epoch := own_epoch, virtual_epoch := parent_virtual_epoch }
  fault := if own_epoch = 0 then some .kIdentity else none

section Calls
variable (entries events depth : Nat) (m : Model)

/-- The invocation of the entry that a frame belongs to. -/
def invocation (f : Frame) : InvocationId := (m.admission.entries.getD f.entry_index {}).invocation

/-- The emission is entered. -/
def Enter (e : Entry) : Model × Bool :=
  m.attempt do
    let v := e.virtual_entry
    let p := v.parent_entry
    let c := v.parent_child
    let call := e.active_call0
    need (e.invocation.thread_epoch = m.admission.epoch ∧ e.invocation.serial ≠ 0 ∧
      m.admission.last_serial < e.invocation.serial ∧ v.invocation.thread_epoch ≠ 0 ∧
      (m.admission.virtual_epoch ≠ 0 → v.invocation.thread_epoch = m.admission.virtual_epoch) ∧
      v.invocation.serial ≠ 0 ∧ m.admission.last_virtual_serial < v.invocation.serial ∧
      p.invocation.thread_epoch ≠ 0 ∧
      (m.admission.detail_epoch ≠ 0 → p.invocation.thread_epoch = m.admission.detail_epoch) ∧
      p.invocation.serial ≠ 0 ∧ m.admission.last_detail_serial < p.invocation.serial ∧
      p.router.thread_epoch ≠ 0 ∧
      (m.admission.router_epoch ≠ 0 → p.router.thread_epoch = m.admission.router_epoch) ∧
      p.router.serial ≠ 0 ∧ m.admission.last_router_serial < p.router.serial ∧
      (p.update.unbound ∨ p.update.bound) ∧
      p.actual_target = ConsumerDetail.kTarget ∧ p.caller_lr = ConsumerDetail.kCaller ∧
      c.state = .kActive ∧ c.indirect = true ∧ c.caller_lr = VirtualDetail.kCaller ∧
      c.requested_target = VirtualDetail.kTarget ∧
      c.indirect_ctr.setWidth 32 = VirtualDetail.kTarget ∧
      v.actual_target = VirtualDetail.kTarget ∧ v.caller_lr = VirtualDetail.kCaller ∧
      v.r3 = c.r3 ∧ v.f1_bits = c.f1_bits ∧ call.state = .kActive ∧
      call.caller_lr = kCaller ∧ call.requested_target = kTail ∧
      call.indirect_ctr.setWidth 32 = kTail ∧
      e.actual_target = kBody ∧ e.caller_lr = kCaller ∧ e.r3 = call.r3 ∧
      e.f1_bits = call.f1_bits) .kIdentity
    need (m.stack.length ≠ depth) .kDepth
    need (m.admission.entries.length ≠ entries) .kEntryCapacity
    m.room events .kEventCapacity
    let frame : Frame :=
      { entry_index := m.admission.entries.length
        parent := match m.stack with
          | [] => {}
          | top :: _ => m.invocation top }
    return m.opened { m.admission with
      virtual_epoch := if m.admission.virtual_epoch = 0 then v.invocation.thread_epoch
        else m.admission.virtual_epoch
      detail_epoch := if m.admission.detail_epoch = 0 then p.invocation.thread_epoch
        else m.admission.detail_epoch
      router_epoch := if m.admission.router_epoch = 0 then p.router.thread_epoch
        else m.admission.router_epoch
      last_serial := e.invocation.serial
      last_virtual_serial := v.invocation.serial
      last_detail_serial := p.invocation.serial
      last_router_serial := p.router.serial
      entries := m.admission.entries ++ [e] } frame
        ⟨e.invocation, m.admission.entries.length, .kEntry, {}⟩

variable (id : InvocationId)

/-- A call on the innermost frame. -/
def Top (body : Frame → Except Fault (Option Frame × Event)) : Model × Bool :=
  m.onTop (fun f => m.invocation f = id) .kIdentity body

def Room : Except Fault Unit := m.room events .kEventCapacity

/-- The event of a frame, as it was before the call. -/
def Emit (f : Frame) (kind : EventKind) (p : Payload) : Event :=
  ⟨m.invocation f, f.entry_index, kind, p⟩

/-- A call at a stage that changes the innermost frame, if its operands pass. -/
def At (s : Stage) (check : Frame → Bool) (next : Frame → Frame) (kind : EventKind) (p : Payload) :
    Model × Bool :=
  m.Top id fun f => do
    need (f.stage = s) .kTransition
    need (check f = true) .kTransition
    m.Room events
    return (some (next f), m.Emit f kind p)

/-- The byte that says whether there is work. -/
def MainGate (r7 : BitVec 64) : Model × Bool :=
  m.At events id .kEntered (fun _ => r7 ≤ UINT8_MAX)
    (fun f => { f with
      main_observed := true, main_raw := r7
      stage := if r7 ≠ 0 then .kScalarCount else .kComplete })
    .kMainGate (One r7)

/-- How many scalar items there are. -/
def ScalarCount (r9 : BitVec 64) : Model × Bool :=
  m.At events id .kScalarCount (fun _ => r9 ≤ UINT16_MAX)
    (fun f => { f with
      scalar_count_observed := true, scalar_count := r9, scalar_upper := r9
      stage := .kScalarReady })
    .kScalarCount (One r9)

/-- A scalar item is called, of a lower index than the last. -/
def ScalarPre (index r3 f1 f2 ctr lr : BitVec 64) : Model × Bool :=
  m.At events id .kScalarReady (fun f => index < f.scalar_upper && lr = kScalarLr)
    (fun f => { f with
      scalar_index := index, scalar_upper := index, scalar_emissions := f.scalar_emissions + 1
      stage := .kScalarActive })
    .kScalarPre (Payload.of [lr, index, r3, f1, f2, ctr])

/-- It comes back: a zero byte asks for a cleanup. -/
def ScalarReturn (raw_r3 : BitVec 64) : Model × Bool :=
  m.At events id .kScalarActive (fun _ => true)
    (fun f => { f with
      scalar_return := raw_r3
      stage := if raw_r3.setWidth 8 = 0 then .kCleanupRequired else .kScalarReady })
    .kScalarReturn (One raw_r3)

/-- The cleanup is called. -/
def CleanupPre (r3 ctr lr : BitVec 64) : Model × Bool :=
  m.At events id .kCleanupRequired (fun _ => lr = kCleanupLr)
    (fun f => { f with
      cleanup_emissions := f.cleanup_emissions + 1, stage := .kCleanupActive })
    .kCleanupPre (Payload.of [lr, r3, ctr])

/-- A call is over. -/
def End (active next : Stage) (kind : EventKind) : Model × Bool :=
  m.At events id active (fun _ => true) (fun f => { f with stage := next }) kind {}

/-- A call ends with an exception. -/
def Exception (active : Stage) (kind : EventKind) : Model × Bool :=
  m.End events id active .kEmissionException kind

def ScalarException : Model × Bool := m.Exception events id .kScalarActive .kScalarException

def CleanupReturn : Model × Bool := m.End events id .kCleanupActive .kScalarReady .kCleanupReturn

def CleanupException : Model × Bool := m.Exception events id .kCleanupActive .kCleanupException

/-- The byte that tells vectors from jobs. -/
def ModeGate (r10 : BitVec 64) : Model × Bool :=
  m.At events id .kScalarReady (fun _ => r10 ≤ UINT8_MAX)
    (fun f => { f with
      mode_observed := true, mode_raw := r10
      stage := if r10 ≠ 0 then .kVectorCount else .kJobInitialBound })
    .kModeGate (One r10)

/-- The bound of the jobs, read before each of them. -/
def JobBound (raw_r11 : BitVec 64) : Model × Bool :=
  m.Top id fun f => do
    need ((f.stage = .kJobInitialBound ∨ f.stage = .kJobReloadBound) ∧ raw_r11 ≤ UINT32_MAX)
      .kTransition
    m.Room events
    return (some { f with
      job_bound_observed := true, job_bound := raw_r11
      stage := if moreJobs raw_r11 f.next_job then .kJobReady else .kWaitRequired },
      m.Emit f (if f.stage = .kJobInitialBound then .kJobInitialBound else .kJobReloadBound)
        (One raw_r11))

/-- The next job is called. -/
def JobPre (index : BitVec 64) (r3_to_r8 : Vector (BitVec 64) 6) (descriptor_f32_bits : BitVec 32)
    (lr : BitVec 64) : Model × Bool :=
  m.At events id .kJobReady (fun f => index = f.next_job && lr = kJobLr)
    (fun f => { f with job_emissions := f.job_emissions + 1, stage := .kJobActive })
    .kJobPre (Payload.of (lr :: index :: (r3_to_r8.toList ++ [descriptor_f32_bits.setWidth 64])))

/-- It comes back, and the bound is read again. -/
def JobReturn (raw_r3 : BitVec 64) : Model × Bool :=
  m.At events id .kJobActive (fun _ => true)
    (fun f => { f with
      job_return := raw_r3, next_job := f.next_job + 1, stage := .kJobReloadBound })
    .kJobReturn (One raw_r3)

def JobException : Model × Bool := m.Exception events id .kJobActive .kJobException

/-- The wait after the jobs is called. -/
def WaitPre (r3 r4 r5 lr : BitVec 64) : Model × Bool :=
  m.At events id .kWaitRequired (fun f => r3 = f.job_bound && r5 = 1 && lr = kWaitLr)
    (fun f => { f with wait_emissions := f.wait_emissions + 1, stage := .kWaitActive })
    .kWaitPre (Payload.of [lr, r3, r4, r5])

def WaitReturn : Model × Bool := m.End events id .kWaitActive .kComplete .kWaitReturn

def WaitException : Model × Bool := m.Exception events id .kWaitActive .kWaitException

/-- How many vector items there are. -/
def VectorCount (r10 : BitVec 64) : Model × Bool :=
  m.At events id .kVectorCount (fun _ => r10 ≤ UINT16_MAX)
    (fun f => { f with
      vector_count_observed := true, vector_count := r10
      next_vector := if r10 ≠ 0 then r10 - 1 else 0
      stage := if r10 ≠ 0 then .kVectorReady else .kComplete })
    .kVectorCount (One r10)

/-- The next vector item is called. -/
def VectorPre (index r3 f1 ctr : BitVec 64) (v1 : Vector (BitVec 32) 4) (lr : BitVec 64) :
    Model × Bool :=
  m.At events id .kVectorReady (fun f => index = f.next_vector && lr = kVectorLr)
    (fun f => { f with vector_emissions := f.vector_emissions + 1, stage := .kVectorActive })
    .kVectorPre { Payload.of [lr, index, r3, f1, ctr] with vector := v1.toList }

/-- It comes back; the item at index zero is the last. -/
def VectorReturn : Model × Bool :=
  m.At events id .kVectorActive (fun _ => true)
    (fun f => { f with
      next_vector := if f.next_vector ≠ 0 then f.next_vector - 1 else f.next_vector
      stage := if f.next_vector ≠ 0 then .kVectorReady else .kComplete })
    .kVectorReturn {}

def VectorException : Model × Bool := m.Exception events id .kVectorActive .kVectorException

/-- The emission ends. -/
def Exit (normal : Bool) : Model × Bool :=
  m.Top id fun f => do
    need (normal = true → f.stage = .kComplete) .kTransition
    m.Room events
    return (none, m.Emit f (if normal then .kNormalExit else .kExceptionalExit) {})

/-- Nothing is recorded from here on. -/
def Freeze : Model := { m with frozen := true }

end Calls
end Model

/-- The calls of the model. -/
inductive Call where
  | Enter (e : Entry)
  | MainGate (id : InvocationId) (r7 : BitVec 64)
  | ScalarCount (id : InvocationId) (r9 : BitVec 64)
  | ScalarPre (id : InvocationId) (index r3 f1 f2 ctr lr : BitVec 64)
  | ScalarReturn (id : InvocationId) (raw_r3 : BitVec 64)
  | ScalarException (id : InvocationId)
  | CleanupPre (id : InvocationId) (r3 ctr lr : BitVec 64)
  | CleanupReturn (id : InvocationId)
  | CleanupException (id : InvocationId)
  | ModeGate (id : InvocationId) (r10 : BitVec 64)
  | JobBound (id : InvocationId) (raw_r11 : BitVec 64)
  | JobPre (id : InvocationId) (index : BitVec 64) (r3_to_r8 : Vector (BitVec 64) 6)
      (descriptor_f32_bits : BitVec 32) (lr : BitVec 64)
  | JobReturn (id : InvocationId) (raw_r3 : BitVec 64)
  | JobException (id : InvocationId)
  | WaitPre (id : InvocationId) (r3 r4 r5 lr : BitVec 64)
  | WaitReturn (id : InvocationId)
  | WaitException (id : InvocationId)
  | VectorCount (id : InvocationId) (r10 : BitVec 64)
  | VectorPre (id : InvocationId) (index r3 f1 ctr : BitVec 64) (v1 : Vector (BitVec 32) 4)
      (lr : BitVec 64)
  | VectorReturn (id : InvocationId)
  | VectorException (id : InvocationId)
  | Exit (id : InvocationId) (normal : Bool)
  | Freeze
  deriving DecidableEq

/-- The model after a call, and whether the call succeeded; `Freeze` has no answer. -/
def Model.call (entries events depth : Nat) (m : Model) : Call → Model × Bool
  | .Enter e => m.Enter entries events depth e
  | .MainGate id r7 => m.MainGate events id r7
  | .ScalarCount id r9 => m.ScalarCount events id r9
  | .ScalarPre id index r3 f1 f2 ctr lr => m.ScalarPre events id index r3 f1 f2 ctr lr
  | .ScalarReturn id raw_r3 => m.ScalarReturn events id raw_r3
  | .ScalarException id => m.ScalarException events id
  | .CleanupPre id r3 ctr lr => m.CleanupPre events id r3 ctr lr
  | .CleanupReturn id => m.CleanupReturn events id
  | .CleanupException id => m.CleanupException events id
  | .ModeGate id r10 => m.ModeGate events id r10
  | .JobBound id raw_r11 => m.JobBound events id raw_r11
  | .JobPre id index r3_to_r8 descriptor_f32_bits lr =>
    m.JobPre events id index r3_to_r8 descriptor_f32_bits lr
  | .JobReturn id raw_r3 => m.JobReturn events id raw_r3
  | .JobException id => m.JobException events id
  | .WaitPre id r3 r4 r5 lr => m.WaitPre events id r3 r4 r5 lr
  | .WaitReturn id => m.WaitReturn events id
  | .WaitException id => m.WaitException events id
  | .VectorCount id r10 => m.VectorCount events id r10
  | .VectorPre id index r3 f1 ctr v1 lr => m.VectorPre events id index r3 f1 ctr v1 lr
  | .VectorReturn id => m.VectorReturn events id
  | .VectorException id => m.VectorException events id
  | .Exit id normal => m.Exit events id normal
  | .Freeze => (m.Freeze, true)

/-- The model after some calls. -/
def run (entries events depth : Nat) (own_epoch parent_virtual_epoch : BitVec 64)
    (calls : List Call) : Model :=
  calls.foldl (fun m call => (m.call entries events depth call).1)
    (Model.new own_epoch parent_virtual_epoch)

/-! ### What a call does -/

theorem signBit_iff {raw : BitVec 64} (hraw : raw ≤ UINT32_MAX) :
    raw &&& 0x80000000 ≠ 0 ↔ 2 ^ 31 ≤ raw.toNat := by
  have hlt : raw.toNat ≤ 0xffffffff := hraw
  have hbit : raw &&& 0x80000000 = if raw.getLsbD 31 then BitVec.twoPow 64 31 else 0#64 :=
    and_twoPow raw 31
  have htest : raw.getLsbD 31 = true ↔ 2 ^ 31 ≤ raw.toNat := by
    rw [BitVec.getLsbD, Nat.testBit_eq_decide_div_mod_eq, decide_eq_true_eq]
    omega
  rw [hbit, ← htest]
  cases raw.getLsbD 31 with
  | true => decide
  | false => decide

/-- The next job is asked for if it is below the bound, which has no sign. -/
theorem moreJobs_iff {raw next : BitVec 64} (hraw : raw ≤ UINT32_MAX) :
    moreJobs raw next = true ↔ raw.toNat < 2 ^ 31 ∧ next.toNat < raw.toNat := by
  have hlt : raw.toNat ≤ 0xffffffff := hraw
  unfold moreJobs signedBound
  rw [Bool.and_eq_true, decide_eq_true_eq]
  by_cases hsign : raw &&& 0x80000000 ≠ 0
  · have hge := (signBit_iff hraw).mp hsign
    rw [if_pos hsign, slt_eq_decide, decide_eq_true_eq]
    have hnat : (raw - 0x100000000 : BitVec 64).toNat = raw.toNat + 0xffffffff00000000 := by
      rw [toNat_sub]
      have : (0x100000000 : BitVec 64).toNat = 0x100000000 := rfl
      omega
    have hint : (raw - 0x100000000 : BitVec 64).toInt < 0 := by
      rw [toInt_eq_toNat_cond, hnat]
      omega
    have hzero : (0 : BitVec 64).toInt = 0 := rfl
    omega
  · have hge := mt (signBit_iff hraw).mpr hsign
    rw [if_neg hsign, slt_eq_decide, decide_eq_true_eq, lt_def]
    have hint : raw.toInt = raw.toNat := by
      rw [toInt_eq_toNat_cond]
      omega
    have hzero : (0 : BitVec 64).toInt = 0 := rfl
    omega

/-- What a call does to the innermost frame, and the event it leaves. -/
inductive Moves (f : Frame) : EventKind → Payload → Frame → Prop where
  | mainGate (hstage : f.stage = .kEntered) {r7 : BitVec 64} (hgate : r7 ≤ UINT8_MAX) :
    Moves f .kMainGate (One r7) { f with
      main_observed := true, main_raw := r7
      stage := if r7 ≠ 0 then .kScalarCount else .kComplete }
  | scalarCount (hstage : f.stage = .kScalarCount) {r9 : BitVec 64} (hcount : r9 ≤ UINT16_MAX) :
    Moves f .kScalarCount (One r9) { f with
      scalar_count_observed := true, scalar_count := r9, scalar_upper := r9
      stage := .kScalarReady }
  | scalarPre (hstage : f.stage = .kScalarReady) {index : BitVec 64}
      (hindex : index < f.scalar_upper) (r3 f1 f2 ctr : BitVec 64) :
    Moves f .kScalarPre (Payload.of [kScalarLr, index, r3, f1, f2, ctr]) { f with
      scalar_index := index, scalar_upper := index, scalar_emissions := f.scalar_emissions + 1
      stage := .kScalarActive }
  | scalarReturn (hstage : f.stage = .kScalarActive) (raw_r3 : BitVec 64) :
    Moves f .kScalarReturn (One raw_r3) { f with
      scalar_return := raw_r3
      stage := if raw_r3.setWidth 8 = 0 then .kCleanupRequired else .kScalarReady }
  | cleanupPre (hstage : f.stage = .kCleanupRequired) (r3 ctr : BitVec 64) :
    Moves f .kCleanupPre (Payload.of [kCleanupLr, r3, ctr]) { f with
      cleanup_emissions := f.cleanup_emissions + 1, stage := .kCleanupActive }
  | cleanupReturn (hstage : f.stage = .kCleanupActive) :
    Moves f .kCleanupReturn {} { f with stage := .kScalarReady }
  | modeGate (hstage : f.stage = .kScalarReady) {r10 : BitVec 64} (hgate : r10 ≤ UINT8_MAX) :
    Moves f .kModeGate (One r10) { f with
      mode_observed := true, mode_raw := r10
      stage := if r10 ≠ 0 then .kVectorCount else .kJobInitialBound }
  | initialBound (hstage : f.stage = .kJobInitialBound) {raw_r11 : BitVec 64}
      (hbound : raw_r11 ≤ UINT32_MAX) :
    Moves f .kJobInitialBound (One raw_r11) { f with
      job_bound_observed := true, job_bound := raw_r11
      stage := if moreJobs raw_r11 f.next_job then .kJobReady else .kWaitRequired }
  | reloadBound (hstage : f.stage = .kJobReloadBound) {raw_r11 : BitVec 64}
      (hbound : raw_r11 ≤ UINT32_MAX) :
    Moves f .kJobReloadBound (One raw_r11) { f with
      job_bound_observed := true, job_bound := raw_r11
      stage := if moreJobs raw_r11 f.next_job then .kJobReady else .kWaitRequired }
  | jobPre (hstage : f.stage = .kJobReady) (r3_to_r8 : Vector (BitVec 64) 6)
      (descriptor_f32_bits : BitVec 32) :
    Moves f .kJobPre (Payload.of (kJobLr :: f.next_job ::
      (r3_to_r8.toList ++ [descriptor_f32_bits.setWidth 64]))) { f with
        job_emissions := f.job_emissions + 1, stage := .kJobActive }
  | jobReturn (hstage : f.stage = .kJobActive) (raw_r3 : BitVec 64) :
    Moves f .kJobReturn (One raw_r3) { f with
      job_return := raw_r3, next_job := f.next_job + 1, stage := .kJobReloadBound }
  | waitPre (hstage : f.stage = .kWaitRequired) (r4 : BitVec 64) :
    Moves f .kWaitPre (Payload.of [kWaitLr, f.job_bound, r4, 1]) { f with
      wait_emissions := f.wait_emissions + 1, stage := .kWaitActive }
  | waitReturn (hstage : f.stage = .kWaitActive) :
    Moves f .kWaitReturn {} { f with stage := .kComplete }
  | vectorCount (hstage : f.stage = .kVectorCount) {r10 : BitVec 64} (hcount : r10 ≤ UINT16_MAX) :
    Moves f .kVectorCount (One r10) { f with
      vector_count_observed := true, vector_count := r10
      next_vector := if r10 ≠ 0 then r10 - 1 else 0
      stage := if r10 ≠ 0 then .kVectorReady else .kComplete }
  | vectorPre (hstage : f.stage = .kVectorReady) (r3 f1 ctr : BitVec 64)
      (v1 : Vector (BitVec 32) 4) :
    Moves f .kVectorPre
      { Payload.of [kVectorLr, f.next_vector, r3, f1, ctr] with vector := v1.toList } { f with
        vector_emissions := f.vector_emissions + 1, stage := .kVectorActive }
  | vectorReturn (hstage : f.stage = .kVectorActive) :
    Moves f .kVectorReturn {} { f with
      next_vector := if f.next_vector ≠ 0 then f.next_vector - 1 else f.next_vector
      stage := if f.next_vector ≠ 0 then .kVectorReady else .kComplete }
  | scalarException (hstage : f.stage = .kScalarActive) :
    Moves f .kScalarException {} { f with stage := .kEmissionException }
  | cleanupException (hstage : f.stage = .kCleanupActive) :
    Moves f .kCleanupException {} { f with stage := .kEmissionException }
  | jobException (hstage : f.stage = .kJobActive) :
    Moves f .kJobException {} { f with stage := .kEmissionException }
  | waitException (hstage : f.stage = .kWaitActive) :
    Moves f .kWaitException {} { f with stage := .kEmissionException }
  | vectorException (hstage : f.stage = .kVectorActive) :
    Moves f .kVectorException {} { f with stage := .kEmissionException }

/-- A move neither opens a frame nor ends it. -/
theorem moves_kind {f f' : Frame} {kind : EventKind} {p : Payload} (h : Moves f kind p f') :
    kind ≠ .kEntry ∧ kind ≠ .kNormalExit ∧ kind ≠ .kExceptionalExit := by
  cases h <;> decide

/-- What an entry leaves to compare the next with. -/
def Admission.after (a : Admission) (e : Entry) : Admission :=
  { a with
    virtual_epoch := if a.virtual_epoch = 0 then e.virtual_entry.invocation.thread_epoch
      else a.virtual_epoch
    detail_epoch := if a.detail_epoch = 0
      then e.virtual_entry.parent_entry.invocation.thread_epoch else a.detail_epoch
    router_epoch := if a.router_epoch = 0
      then e.virtual_entry.parent_entry.router.thread_epoch else a.router_epoch
    last_serial := e.invocation.serial
    last_virtual_serial := e.virtual_entry.invocation.serial
    last_detail_serial := e.virtual_entry.parent_entry.invocation.serial
    last_router_serial := e.virtual_entry.parent_entry.router.serial
    entries := a.entries ++ [e] }

/-- What an entry saves of the call it was reached by. -/
structure Entry.Called (e : Entry) : Prop where
  state : e.active_call0.state = .kActive
  call_caller : e.active_call0.caller_lr = kCaller
  requested : e.active_call0.requested_target = kTail
  ctr : e.active_call0.indirect_ctr.setWidth 32 = kTail
  target : e.actual_target = kBody
  caller : e.caller_lr = kCaller
  r3 : e.r3 = e.active_call0.r3
  f1_bits : e.f1_bits = e.active_call0.f1_bits

/-- What the fields of an entry are checked for. -/
structure Admission.Admits (a : Admission) (e : Entry) : Prop where
  epoch : e.invocation.thread_epoch = a.epoch
  positive : e.invocation.serial ≠ 0
  serial : a.last_serial < e.invocation.serial
  virtual_epoch : e.virtual_entry.invocation.thread_epoch ≠ 0
  virtual_bound : a.virtual_epoch ≠ 0 → e.virtual_entry.invocation.thread_epoch = a.virtual_epoch
  virtual_positive : e.virtual_entry.invocation.serial ≠ 0
  virtual_serial : a.last_virtual_serial < e.virtual_entry.invocation.serial
  detail_epoch : e.virtual_entry.parent_entry.invocation.thread_epoch ≠ 0
  detail_bound : a.detail_epoch ≠ 0 →
    e.virtual_entry.parent_entry.invocation.thread_epoch = a.detail_epoch
  detail_positive : e.virtual_entry.parent_entry.invocation.serial ≠ 0
  detail_serial : a.last_detail_serial < e.virtual_entry.parent_entry.invocation.serial
  router_epoch : e.virtual_entry.parent_entry.router.thread_epoch ≠ 0
  router_bound : a.router_epoch ≠ 0 →
    e.virtual_entry.parent_entry.router.thread_epoch = a.router_epoch
  router_positive : e.virtual_entry.parent_entry.router.serial ≠ 0
  router_serial : a.last_router_serial < e.virtual_entry.parent_entry.router.serial
  update : e.virtual_entry.parent_entry.update.unbound ∨ e.virtual_entry.parent_entry.update.bound
  parent_target : e.virtual_entry.parent_entry.actual_target = ConsumerDetail.kTarget
  parent_caller : e.virtual_entry.parent_entry.caller_lr = ConsumerDetail.kCaller
  virtual_called : e.virtual_entry.Called
  called : e.Called

/-- The frame that an entry opens. -/
def Model.frame (m : Model) : Frame :=
  { entry_index := m.admission.entries.length
    parent := match m.stack with
      | [] => {}
      | top :: _ => m.invocation top }

/-- The model after an entry. -/
def Model.entered (m : Model) (e : Entry) : Model :=
  m.opened (m.admission.after e) m.frame ⟨e.invocation, m.admission.entries.length, .kEntry, {}⟩

/-- What a call does: it is refused, faults and changes nothing else, or succeeds with one
event. -/
inductive Effect (entries events depth : Nat) (m : Model) : Model → Bool → Prop where
  | refused (hw : m.writable = false) : Effect entries events depth m m false
  | faults (hw : m.writable = true) (fault : Fault) :
    Effect entries events depth m { m with fault := some fault } false
  | enters (hw : m.writable = true) {e : Entry} (hadmits : m.admission.Admits e)
      (hdepth : m.stack.length ≠ depth) (hentries : m.admission.entries.length ≠ entries)
      (hroom : m.events.length < events) :
    Effect entries events depth m (m.entered e) true
  | moves (hw : m.writable = true) {f : Frame} {rest : List Frame} (hstack : m.stack = f :: rest)
      (hroom : m.events.length < events) {kind : EventKind} {p : Payload} {f' : Frame}
      (hmoves : Moves f kind p f') :
    Effect entries events depth m
      { m with stack := f' :: rest, events := m.events ++ [m.Emit f kind p] } true
  | exits (hw : m.writable = true) {f : Frame} {rest : List Frame} (hstack : m.stack = f :: rest)
      (hroom : m.events.length < events) {normal : Bool}
      (hnormal : normal = true → f.stage = .kComplete) :
    Effect entries events depth m { m with
      stack := rest
      events := m.events ++
        [m.Emit f (if normal then .kNormalExit else .kExceptionalExit) {}] } true

section Effects
variable {entries events depth : Nat} {m : Model}

theorem top_effect {id : InvocationId} {body : Frame → Except Fault (Option Frame × Event)}
    (hok : ∀ f rest left e, m.writable = true → m.stack = f :: rest → body f = .ok (left, e) →
      Effect entries events depth m
        { m with stack := left.toList ++ rest, events := m.events ++ [e] } true) :
    Effect entries events depth m (m.Top id body).1 (m.Top id body).2 := by
  refine Recorder.attempt_rec (P := Effect entries events depth m) .refused .faults
    fun hw m' hamended => ?_
  obtain ⟨f, rest, left, e, hstack, -, hsucceeds, rfl⟩ := Recorder.amended_ok.mp hamended
  exact hok f rest left e hw hstack hsucceeds

theorem at_effect {id : InvocationId} {s : Stage} {check : Frame → Bool} {next : Frame → Frame}
    {kind : EventKind} {p : Payload}
    (hmoves : ∀ f, f.stage = s → check f = true → Moves f kind p (next f)) :
    Effect entries events depth m (m.At events id s check next kind p).1
      (m.At events id s check next kind p).2 := by
  refine top_effect fun f rest left e hw hstack hbody => ?_
  simp only [Model.Room, Recorder.room_ok, check_ok, need_ok, pure_ok] at hbody
  obtain ⟨hstage, hcheck, hroom, heq⟩ := hbody
  cases heq
  exact .moves hw hstack hroom (hmoves f hstage hcheck)

theorem jobBound_effect (id : InvocationId) (raw_r11 : BitVec 64) :
    Effect entries events depth m (m.JobBound events id raw_r11).1
      (m.JobBound events id raw_r11).2 := by
  refine top_effect fun f rest left e hw hstack hbody => ?_
  simp only [Model.Room, Recorder.room_ok, check_ok, need_ok, pure_ok] at hbody
  obtain ⟨⟨hstage, hbound⟩, hroom, heq⟩ := hbody
  cases heq
  rcases hstage with hinitial | hreload
  · have hkind : (if f.stage = .kJobInitialBound then EventKind.kJobInitialBound
        else .kJobReloadBound) = .kJobInitialBound := if_pos hinitial
    rw [hkind]
    exact .moves hw hstack hroom (.initialBound hinitial hbound)
  · have hkind : (if f.stage = .kJobInitialBound then EventKind.kJobInitialBound
        else .kJobReloadBound) = .kJobReloadBound := if_neg (by rw [hreload]; decide)
    rw [hkind]
    exact .moves hw hstack hroom (.reloadBound hreload hbound)

theorem exit_effect (id : InvocationId) (normal : Bool) :
    Effect entries events depth m (m.Exit events id normal).1 (m.Exit events id normal).2 := by
  refine top_effect fun f rest left e hw hstack hbody => ?_
  simp only [Model.Room, Recorder.room_ok, check_ok, need_ok, pure_ok] at hbody
  obtain ⟨hnormal, hroom, heq⟩ := hbody
  cases heq
  exact .exits hw hstack hroom hnormal

theorem Enter_body (e : Entry) :
    ∃ body, m.Enter entries events depth e = m.attempt body ∧ ∀ m', body = .ok m' ↔
      (m.admission.Admits e ∧ m.stack.length ≠ depth ∧ m.admission.entries.length ≠ entries ∧
        m.events.length < events) ∧ m.entered e = m' := by
  refine ⟨_, rfl, fun m' => ?_⟩
  rw [check_ok, check_ok, check_ok, check_ok, need_ok, need_ok, need_ok, Recorder.room_ok, pure_ok]
  constructor
  · rintro ⟨⟨h1, h2, h3, h4, h5, h6, h7, h8, h9, h10, h11, h12, h13, h14, h15, h16, h17, h18, h19,
      h20, h21, h22, h23, h24, h25, h26, h27, h28, h29, h30, h31, h32, h33, h34, h35⟩, hdepth,
      hentries, hroom, heq⟩
    exact ⟨⟨⟨h1, h2, h3, h4, h5, h6, h7, h8, h9, h10, h11, h12, h13, h14, h15, h16, h17, h18,
      ⟨h19, h20, h21, h22, h23, h24, h25, h26, h27⟩,
      ⟨h28, h29, h30, h31, h32, h33, h34, h35⟩⟩, hdepth, hentries, hroom⟩, heq⟩
  · rintro ⟨⟨h, hdepth, hentries, hroom⟩, heq⟩
    have v := h.virtual_called
    have c := h.called
    exact ⟨⟨h.epoch, h.positive, h.serial, h.virtual_epoch, h.virtual_bound, h.virtual_positive,
      h.virtual_serial, h.detail_epoch, h.detail_bound, h.detail_positive, h.detail_serial,
      h.router_epoch, h.router_bound, h.router_positive, h.router_serial, h.update,
      h.parent_target, h.parent_caller, v.state, v.indirect, v.child_caller, v.requested, v.ctr,
      v.target, v.caller, v.r3, v.f1_bits, c.state, c.call_caller, c.requested, c.ctr, c.target,
      c.caller, c.r3, c.f1_bits⟩, hdepth, hentries, hroom, heq⟩

theorem enter_effect (e : Entry) :
    Effect entries events depth m (m.Enter entries events depth e).1
      (m.Enter entries events depth e).2 := by
  obtain ⟨body, heq, hbody⟩ := @Enter_body entries events depth m e
  rw [heq]
  refine Recorder.attempt_rec (P := Effect entries events depth m) .refused .faults
    fun hw m' hok => ?_
  obtain ⟨⟨hadmits, hdepth, hentries, hroom⟩, rfl⟩ := (hbody m').mp hok
  exact .enters hw hadmits hdepth hentries hroom

theorem Enter_ok {e : Entry} (hw : m.writable = true) (h : m.admission.Admits e)
    (hdepth : m.stack.length ≠ depth) (hentries : m.admission.entries.length ≠ entries)
    (hroom : m.events.length < events) : m.Enter entries events depth e = (m.entered e, true) := by
  obtain ⟨body, heq, hbody⟩ := @Enter_body entries events depth m e
  rw [heq]
  exact Recorder.attempt_ok hw ((hbody _).mpr ⟨⟨h, hdepth, hentries, hroom⟩, rfl⟩)

theorem Enter_true {e : Entry} (h : (m.Enter entries events depth e).2 = true) :
    m.writable = true ∧ m.admission.Admits e := by
  obtain ⟨body, heq, hbody⟩ := @Enter_body entries events depth m e
  rw [heq] at h
  obtain ⟨hw, m', hok⟩ := Recorder.attempt_true h
  exact ⟨hw, ((hbody m').mp hok).1.1⟩

/-- **Every call** other than `Freeze` has one of these effects. -/
theorem call_effect (call : Call) (hcall : call ≠ .Freeze) :
    Effect entries events depth m (m.call entries events depth call).1
      (m.call entries events depth call).2 := by
  cases call with
  | Enter e => exact enter_effect e
  | MainGate id r7 => exact at_effect fun f hs hc => .mainGate hs (of_decide_eq_true hc)
  | ScalarCount id r9 => exact at_effect fun f hs hc => .scalarCount hs (of_decide_eq_true hc)
  | ScalarPre id index r3 f1 f2 ctr lr =>
    refine at_effect fun f hs hc => ?_
    obtain ⟨hindex, hlr⟩ := Bool.and_eq_true_iff.mp hc
    obtain rfl := of_decide_eq_true hlr
    exact .scalarPre hs (of_decide_eq_true hindex) r3 f1 f2 ctr
  | ScalarReturn id raw_r3 => exact at_effect fun f hs _ => .scalarReturn hs raw_r3
  | ScalarException id => exact at_effect fun f hs _ => .scalarException hs
  | CleanupPre id r3 ctr lr =>
    refine at_effect fun f hs hc => ?_
    obtain rfl := of_decide_eq_true hc
    exact .cleanupPre hs r3 ctr
  | CleanupReturn id => exact at_effect fun f hs _ => .cleanupReturn hs
  | CleanupException id => exact at_effect fun f hs _ => .cleanupException hs
  | ModeGate id r10 => exact at_effect fun f hs hc => .modeGate hs (of_decide_eq_true hc)
  | JobBound id raw_r11 => exact jobBound_effect id raw_r11
  | JobPre id index r3_to_r8 descriptor lr =>
    refine at_effect fun f hs hc => ?_
    obtain ⟨hindex, hlr⟩ := Bool.and_eq_true_iff.mp hc
    obtain rfl := of_decide_eq_true hlr
    obtain rfl := of_decide_eq_true hindex
    exact .jobPre hs r3_to_r8 descriptor
  | JobReturn id raw_r3 => exact at_effect fun f hs _ => .jobReturn hs raw_r3
  | JobException id => exact at_effect fun f hs _ => .jobException hs
  | WaitPre id r3 r4 r5 lr =>
    refine at_effect fun f hs hc => ?_
    obtain ⟨hrest, hlr⟩ := Bool.and_eq_true_iff.mp hc
    obtain ⟨hr3, hr5⟩ := Bool.and_eq_true_iff.mp hrest
    obtain rfl := of_decide_eq_true hlr
    obtain rfl := of_decide_eq_true hr3
    obtain rfl := of_decide_eq_true hr5
    exact .waitPre hs r4
  | WaitReturn id => exact at_effect fun f hs _ => .waitReturn hs
  | WaitException id => exact at_effect fun f hs _ => .waitException hs
  | VectorCount id r10 => exact at_effect fun f hs hc => .vectorCount hs (of_decide_eq_true hc)
  | VectorPre id index r3 f1 ctr v1 lr =>
    refine at_effect fun f hs hc => ?_
    obtain ⟨hindex, hlr⟩ := Bool.and_eq_true_iff.mp hc
    obtain rfl := of_decide_eq_true hlr
    obtain rfl := of_decide_eq_true hindex
    exact .vectorPre hs r3 f1 ctr v1
  | VectorReturn id => exact at_effect fun f hs _ => .vectorReturn hs
  | VectorException id => exact at_effect fun f hs _ => .vectorException hs
  | Exit id normal => exact exit_effect id normal
  | Freeze => exact absurd rfl hcall

end Effects

end Mcla.WorkEmission

import Mcla.Observers.RouterDispatch

/-! # Reading a router journal back

A journal shows the events of a lane, each with its snapshot; a dispatch is shown with the low
half of its register.  The replay keeps the snapshots of the open calls, and makes each next
snapshot from the one before.

What the journal says of clocks, of bindings observed at an event and of phases is not modelled.
-/
namespace Mcla.RouterDispatch
open NestedRecorder
open SnapshotReplay Nat BitVec

/-! ### The journal -/

/-- An indirect call, as the journal writes it. -/
structure DispatchRow where
  (r3 table ctr : BitVec 64 := 0)
  requested_target_u32 : BitVec 32 := 0
  f1_bits : BitVec 64 := 0
  present : Bool := false
  deriving DecidableEq

/-- A frame, as the journal writes it. -/
structure FrameRow where
  (invocation model_parent : InvocationId := {})
  entry_binding : UpdateBinding := {}
  (caller_lr manager_r3 selector_r4 entry_f1_bits : BitVec 64 := 0)
  stage : Stage := .kEntered
  (predicate consumer : DispatchRow := {})
  predicate_result_r3 : BitVec 64 := 0
  predicate_result_low8 : BitVec 8 := 0
  predicate_returned : Bool := false
  deriving DecidableEq

/-- An event, as the journal writes it. -/
abbrev EventRow := Snapshot EventKind FrameRow

def Dispatch.row (d : Dispatch) : DispatchRow :=
  ⟨d.r3, d.table, d.ctr, d.requested_target_u32, d.f1_bits, d.present⟩

/-- A frame, as the journal writes it. -/
def Frame.row (f : Frame) : FrameRow where
  invocation := f.entry.invocation
  model_parent := f.parent
  entry_binding := f.entry.update
  caller_lr := f.entry.caller_lr
  manager_r3 := f.entry.manager_r3
  selector_r4 := f.entry.selector_r4
  entry_f1_bits := f.entry.f1_bits
  stage := f.stage
  predicate := f.predicate.row
  consumer := f.consumer.row
  predicate_result_r3 := f.predicate_result_r3
  predicate_result_low8 := f.predicate_result_low8
  predicate_returned := f.predicate_returned

/-! ### The decoder -/

def checkId (value : InvocationId) (zero : Bool) : Except String Unit :=
  need ((zero = true ∧ value.thread_epoch = 0 ∧ value.serial = 0) ∨
    (0 < value.thread_epoch ∧ 0 < value.serial)) "whole positive or absent invocation ID"

def checkBinding (value : UpdateBinding) : Except String Unit :=
  need ((value.phase_call_id = 0 ∧ value.thread_epoch = 0 ∧ value.native_thread_id = 0) ∨
    (0 < value.phase_call_id ∧ 0 < value.thread_epoch ∧ 0 < value.native_thread_id))
    "whole positive or absent phase binding"

def U32 : BitVec 64 := 0xffffffff

/-- An indirect call, as it may be written. -/
def checkDispatch (value : DispatchRow) : Except String Unit := do
  need (value.requested_target_u32.setWidth 64 = value.ctr &&& U32)
    "requested target is exact low32 CTR"
  need (value.present = false → value.r3 = 0 ∧ value.table = 0 ∧ value.ctr = 0 ∧
    value.requested_target_u32 = 0 ∧ value.f1_bits = 0) "absent dispatch zeroed"

/-- A frame, as it may be written. -/
def checkFrame (value : FrameRow) : Except String Unit := do
  checkId value.invocation false
  checkId value.model_parent true
  checkBinding value.entry_binding
  checkDispatch value.predicate
  checkDispatch value.consumer
  need (value.predicate_result_low8.setWidth 64 = value.predicate_result_r3 &&& 255)
    "predicate result low byte"

/-- The snapshot that an event asks for, from the one before; `f` is the snapshot it comes
with. -/
def wanted (top : FrameRow) (kind : EventKind) (f : FrameRow) : Except String FrameRow :=
  match kind with
  | .kEntry => return top
  | .kPredicatePre => do
    need (top.stage = .kEntered ∧ f.predicate.present = true ∧ f.predicate.f1_bits = 0)
      "predicate pre transition"
    return { top with stage := .kPredicateActive, predicate := f.predicate }
  | .kPredicateReturn => do
    need (top.stage = .kPredicateActive) "predicate return transition"
    return { top with
      stage := .kPredicateReturned
      predicate_result_r3 := f.predicate_result_r3
      predicate_result_low8 := f.predicate_result_low8
      predicate_returned := true }
  | .kPredicateException => do
    need (top.stage = .kPredicateActive) "dispatch exception transition"
    return { top with stage := .kDispatchException }
  | .kConsumerException => do
    need (top.stage = .kConsumerActive) "dispatch exception transition"
    return { top with stage := .kDispatchException }
  | .kSkip => do
    need (top.stage = .kPredicateReturned ∧ top.predicate_result_low8 = 0)
      "skip requires predicate false"
    return { top with stage := .kSkipped }
  | .kConsumerPre => do
    need (top.stage = .kPredicateReturned ∧ top.predicate_result_low8 ≠ 0 ∧
      f.consumer.present = true) "consumer pre requires predicate true"
    return { top with stage := .kConsumerActive, consumer := f.consumer }
  | .kConsumerReturn => do
    need (top.stage = .kConsumerActive) "consumer return transition"
    return { top with stage := .kConsumerReturned }
  | .kNormalExit => do
    need (top.stage = .kSkipped ∨ top.stage = .kConsumerReturned)
      "normal exit requires skip or normal consumer return"
    return top
  | .kExceptionalExit => return top

def EventKind.isExit : EventKind → Bool
  | .kNormalExit | .kExceptionalExit => true
  | _ => false

/-- The snapshot of a call that begins. -/
def FrameRow.fresh (f : FrameRow) (parent : InvocationId) : FrameRow :=
  { f with
    model_parent := parent, stage := .kEntered, predicate := {}, consumer := {},
    predicate_result_r3 := 0, predicate_result_low8 := 0, predicate_returned := false }

/-- What a lane is asked for; of the entries before, the last serial is kept.  A journal is
`healthy` when it counts no dropped entry and no error. -/
def format (epoch : BitVec 64) (healthy : Bool) :
    Format (BitVec 64) FrameRow EventKind InvocationId String where
  common last f := do
    checkFrame f
    need (f.invocation.thread_epoch = epoch) "model invocation lane"
    return last
  isEntry kind := kind = .kEntry
  isExit kind := kind.isExit
  enter last stack f := do
    need (last < f.invocation.serial ∧ stack < 8) "strict serial and bounded nesting"
    need (healthy = true → f.invocation.serial.toNat = last.toNat + 1)
      "healthy native lane has consecutive allocated serials"
    return f.invocation.serial
  idOf f := f.invocation
  absent := {}
  fresh := FrameRow.fresh
  wanted := wanted
  notFresh := "exact new frame initialization"
  notTop := "top-only LIFO events"
  notExact := "full snapshot matches exact model transition"

/-- The pending snapshots, from the innermost one, of a lane that is accepted. -/
def replay_lane (epoch : BitVec 64) (healthy : Bool) (events : List EventRow) :
    Except String (List FrameRow) := do
  let r ← (format epoch healthy).replay 0 events
  return r.stack

/-! ### Snapshots of the recorder -/

theorem pos_iff {w : Nat} {x : BitVec w} : 0 < x ↔ x ≠ 0 := by
  rw [lt_def, ne_eq, ← toNat_inj]
  simp only [ofNat_eq_ofNat, toNat_ofNat, zero_mod]
  omega

theorem low_eq {w : Nat} (hw : w ≤ 64) (x : BitVec w) (y : BitVec 64) :
    x.setWidth 64 = y &&& BitVec.ofNat 64 (2 ^ w - 1) ↔ x = y.setWidth w := by
  have hx := x.isLt
  have hpow : 2 ^ w ≤ 2 ^ 64 := Nat.pow_le_pow_right (by omega) hw
  have hpos : 0 < 2 ^ w := Nat.two_pow_pos w
  rw [← toNat_inj, ← toNat_inj, toNat_setWidth, toNat_and,
    toNat_ofNat, toNat_setWidth, mod_eq_of_lt (by omega : x.toNat < 2 ^ 64),
    mod_eq_of_lt (by omega : 2 ^ w - 1 < 2 ^ 64), and_two_pow_sub_one_eq_mod]

theorem low8_eq (r3 : BitVec 64) : (r3 &&& 0xff).setWidth 8 = r3.setWidth 8 := by
  rw [← low_eq (by omega : 8 ≤ 64)]
  apply eq_of_toNat_eq
  have hlt : (r3 &&& 0xff).toNat < 2 ^ 8 := by
    rw [toNat_and]
    exact lt_of_le_of_lt and_le_right (by decide)
  simp only [toNat_setWidth]
  rw [mod_eq_of_lt hlt, mod_eq_of_lt (by omega)]
  rfl

theorem checkDispatch_iff {value : DispatchRow} :
    checkDispatch value = .ok () ↔ value.requested_target_u32 = value.ctr.setWidth 32 ∧
      (value.present = false → value = {}) := by
  have hlow := low_eq (by omega : 32 ≤ 64) value.requested_target_u32 value.ctr
  unfold checkDispatch
  simp only [check_ok, need_ok]
  rw [show U32 = BitVec.ofNat 64 (2 ^ 32 - 1) from rfl, hlow]
  cases value with
  | mk r3 table ctr target f1 present =>
    simp only [DispatchRow.mk.injEq]
    constructor
    · rintro ⟨htarget, hzero⟩
      refine ⟨htarget, fun habsent => ?_⟩
      obtain ⟨h1, h2, h3, h4, h5⟩ := hzero habsent
      exact ⟨h1, h2, h3, h4, h5, habsent⟩
    · rintro ⟨htarget, hzero⟩
      refine ⟨htarget, fun habsent => ?_⟩
      obtain ⟨h1, h2, h3, h4, h5, -⟩ := hzero habsent
      exact ⟨h1, h2, h3, h4, h5⟩

/-- A dispatch that passes its check is one that the recorder shows. -/
def DispatchRow.native (d : DispatchRow) : Dispatch := ⟨d.r3, d.table, d.ctr, d.f1_bits, d.present⟩

theorem DispatchRow.row_native {d : DispatchRow} (h : checkDispatch d = .ok ()) :
    d.native.row = d := by
  obtain ⟨htarget, -⟩ := checkDispatch_iff.mp h
  cases d
  dsimp only at htarget
  subst htarget
  rfl

theorem checkDispatch_row {d : Dispatch} (h : d.present = false → d = {}) :
    checkDispatch d.row = .ok () := by
  rw [checkDispatch_iff]
  refine ⟨rfl, fun habsent => ?_⟩
  rw [h habsent]
  rfl

theorem checkFrame_iff {value : FrameRow} : checkFrame value = .ok () ↔
    checkId value.invocation false = .ok () ∧ checkId value.model_parent true = .ok () ∧
      checkBinding value.entry_binding = .ok () ∧ checkDispatch value.predicate = .ok () ∧
      checkDispatch value.consumer = .ok () ∧
      value.predicate_result_low8 = value.predicate_result_r3.setWidth 8 := by
  have hlow := low_eq (by omega : 8 ≤ 64) value.predicate_result_low8 value.predicate_result_r3
  unfold checkFrame
  simp only [check_ok, need_ok]
  rw [show (255 : BitVec 64) = BitVec.ofNat 64 (2 ^ 8 - 1) from rfl, hlow]

/-! ### Recorder and replay side by side -/

/-- What holds of every open frame. -/
def Frame.Shown (epoch : BitVec 64) (f : Frame) : Prop :=
  checkFrame f.row = .ok () ∧ f.entry.invocation.thread_epoch = epoch

/-- What the replay knows of the entries. -/
def Admission.Known (epoch : BitVec 64) (a : Admission) (last : BitVec 64) : Prop :=
  a.epoch = epoch ∧ last = a.last_serial

section Simulation
variable {epoch : BitVec 64} {healthy : Bool} {m : Model} {r r' : State (BitVec 64) FrameRow}
  {f : Frame} {event : EventRow}

theorem common_ok {last last' : BitVec 64} {row : FrameRow} :
    (format epoch healthy).common last row = .ok last' ↔
      checkFrame row = .ok () ∧ row.invocation.thread_epoch = epoch ∧ last = last' := by
  show (checkFrame row >>= fun _ => need _ _ >>= fun _ => pure last) = _ ↔ _
  rw [check_ok, check_ok, need_ok, pure_ok]

theorem enter_ok {last last' : BitVec 64} {stack : Nat} {row : FrameRow} :
    (format epoch healthy).enter last stack row = .ok last' ↔
      (last < row.invocation.serial ∧ stack < 8) ∧
        (healthy = true → row.invocation.serial.toNat = last.toNat + 1) ∧
        row.invocation.serial = last' := by
  show (need _ _ >>= fun _ => need _ _ >>= fun _ => pure row.invocation.serial) = _ ↔ _
  rw [check_ok, check_ok, need_ok, need_ok, pure_ok]

theorem router_common (epoch : BitVec 64) :
    Common (format epoch false) Frame.row (Frame.Shown epoch) (Admission.Known epoch) :=
  fun _ b _ h hf => ⟨b, common_ok.mpr ⟨hf.1, hf.2, rfl⟩, h⟩

/-- The decoder follows the model. -/
abbrev RouterRel (epoch : BitVec 64) : Model → State (BitVec 64) FrameRow → Prop :=
  Rel Frame.row (Frame.Shown epoch) (Admission.Known epoch) 8 16384

/-- One event, as the decoder accepts it. -/
abbrev RouterStep (epoch : BitVec 64) : Frame → Option Frame → Event → Prop :=
  Step (format epoch false) Frame.row (Frame.Shown epoch)

theorem Room_ok {capacity : Nat} {u : Unit} :
    m.Room capacity = .ok u ↔ m.events.length < capacity := Recorder.room_ok

theorem At_ok {capacity : Nat} {stage : Stage} {u : Unit} :
    m.At capacity f stage = .ok u ↔ f.stage = stage ∧ m.events.length < capacity := by
  unfold Model.At
  rw [check_ok, need_ok, Room_ok]

/-! Each call on the innermost frame, as the replay sees it. -/

/-- A frame that a call changed and left open. -/
theorem stays {f' : Frame} {kind : EventKind} (hf : f.Shown epoch) (hkind : kind ≠ .kEntry)
    (hstays : kind.isExit = false) (hentry : f'.entry = f.entry)
    (hshown : checkFrame f'.row = .ok ()) (hwanted : wanted f.row kind f'.row = .ok f'.row) :
    RouterStep epoch f (changed f' kind).1 (changed f' kind).2 where
  ends := by
    show some f' = if kind.isExit then none else some f'
    rw [hstays]
    rfl
  kind := decide_eq_false hkind
  id := congrArg Entry.invocation hentry.symm
  ok := ⟨hshown, (congrArg (·.invocation.thread_epoch) hentry).trans hf.2⟩
  wanted := hwanted

theorem predicatePre_step (hf : f.Shown epoch) (hstage : f.stage = .kEntered)
    (r3 r10 ctr : BitVec 64) :
    let f' := { f with predicate := ⟨r3, r10, ctr, 0, true⟩, stage := .kPredicateActive }
    RouterStep epoch f (changed f' .kPredicatePre).1 (changed f' .kPredicatePre).2 := by
  obtain ⟨h1, h2, h3, -, h5, h6⟩ := checkFrame_iff.mp hf.1
  refine stays hf (by decide) rfl rfl ?_ ?_
  · exact checkFrame_iff.mpr ⟨h1, h2, h3, checkDispatch_row (fun h => by cases h), h5, h6⟩
  · rw [wanted, need_pure_ok]
    exact ⟨⟨hstage, rfl, rfl⟩, rfl⟩

theorem predicateReturn_step (hf : f.Shown epoch) (hstage : f.stage = .kPredicateActive)
    (r3 : BitVec 64) :
    let f' := { f with
      predicate_result_r3 := r3, predicate_result_low8 := (r3 &&& 0xff).setWidth 8,
      predicate_returned := true, stage := .kPredicateReturned }
    RouterStep epoch f (changed f' .kPredicateReturn).1 (changed f' .kPredicateReturn).2 := by
  obtain ⟨h1, h2, h3, h4, h5, -⟩ := checkFrame_iff.mp hf.1
  refine stays hf (by decide) rfl rfl ?_ ?_
  · refine checkFrame_iff.mpr ⟨h1, h2, h3, h4, h5, ?_⟩
    exact low8_eq r3
  · rw [wanted, need_pure_ok]
    exact ⟨hstage, rfl⟩

/-- A call that only moves the stage. -/
theorem moves (hf : f.Shown epoch) {stage : Stage} {kind : EventKind} (hkind : kind ≠ .kEntry)
    (hstays : kind.isExit = false) (hwanted : wanted f.row kind { f with stage := stage }.row =
      .ok { f with stage := stage }.row) :
    RouterStep epoch f (changed { f with stage := stage } kind).1
      (changed { f with stage := stage } kind).2 :=
  stays hf hkind hstays rfl (checkFrame_iff.mpr (checkFrame_iff.mp hf.1)) hwanted

theorem exception_step (hf : f.Shown epoch) {kind : EventKind}
    (hkind : kind = .kPredicateException ∧ f.stage = .kPredicateActive ∨
      kind = .kConsumerException ∧ f.stage = .kConsumerActive) :
    let f' := { f with stage := .kDispatchException }
    RouterStep epoch f (changed f' kind).1 (changed f' kind).2 := by
  rcases hkind with ⟨rfl, hstage⟩ | ⟨rfl, hstage⟩
  · refine moves hf (by decide) rfl ?_
    rw [wanted, need_pure_ok]
    exact ⟨hstage, rfl⟩
  · refine moves hf (by decide) rfl ?_
    rw [wanted, need_pure_ok]
    exact ⟨hstage, rfl⟩

theorem skip_step (hf : f.Shown epoch) (hstage : f.stage = .kPredicateReturned)
    (hfalse : f.predicate_result_low8 = 0) :
    let f' := { f with stage := .kSkipped }
    RouterStep epoch f (changed f' .kSkip).1 (changed f' .kSkip).2 := by
  refine moves hf (by decide) rfl ?_
  rw [wanted, need_pure_ok]
  exact ⟨⟨hstage, hfalse⟩, rfl⟩

theorem consumerReturn_step (hf : f.Shown epoch) (hstage : f.stage = .kConsumerActive) :
    let f' := { f with stage := .kConsumerReturned }
    RouterStep epoch f (changed f' .kConsumerReturn).1 (changed f' .kConsumerReturn).2 := by
  refine moves hf (by decide) rfl ?_
  rw [wanted, need_pure_ok]
  exact ⟨hstage, rfl⟩

theorem consumerPre_step (hf : f.Shown epoch) (hstage : f.stage = .kPredicateReturned)
    (htrue : f.predicate_result_low8 ≠ 0) (r3 r11 ctr f1_bits : BitVec 64) :
    let f' := { f with consumer := ⟨r3, r11, ctr, f1_bits, true⟩, stage := .kConsumerActive }
    RouterStep epoch f (changed f' .kConsumerPre).1 (changed f' .kConsumerPre).2 := by
  obtain ⟨h1, h2, h3, h4, -, h6⟩ := checkFrame_iff.mp hf.1
  refine stays hf (by decide) rfl rfl ?_ ?_
  · exact checkFrame_iff.mpr ⟨h1, h2, h3, h4, checkDispatch_row (fun h => by cases h), h6⟩
  · rw [wanted, need_pure_ok]
    exact ⟨⟨hstage, htrue, rfl⟩, rfl⟩

theorem exit_step (hf : f.Shown epoch) {normal : Bool}
    (hnormal : normal = true → f.stage = .kSkipped ∨ f.stage = .kConsumerReturned) :
    let kind := if normal then EventKind.kNormalExit else .kExceptionalExit
    RouterStep epoch f (closed f kind).1 (closed f kind).2 := by
  cases normal with
  | true =>
    refine ⟨rfl, rfl, rfl, hf, ?_⟩
    show wanted f.row .kNormalExit f.row = .ok f.row
    rw [wanted, need_pure_ok]
    exact ⟨hnormal rfl, rfl⟩
  | false => exact ⟨rfl, rfl, rfl, hf, rfl⟩

/-- What an entry is checked for, on both sides. -/
theorem checkFrame_new {entry : Entry} {parent : InvocationId}
    (hown : 0 < entry.invocation.thread_epoch) (hserial : 0 < entry.invocation.serial)
    (hbinding : entry.update.unbound ∨ entry.update.bound)
    (hparent : checkId parent true = .ok ()) :
    checkFrame ({ entry := entry, parent := parent } : Frame).row = .ok () := by
  refine checkFrame_iff.mpr ⟨?_, hparent, ?_, checkDispatch_row fun _ => rfl,
    checkDispatch_row fun _ => rfl, rfl⟩
  · exact need_ok.mpr (Or.inr ⟨hown, hserial⟩)
  · refine need_ok.mpr ?_
    rcases hbinding with hunbound | ⟨h1, h2, h3⟩
    · exact Or.inl hunbound
    · exact Or.inr ⟨pos_iff.mpr h1, pos_iff.mpr h2, pos_iff.mpr h3⟩

theorem checkId_of_shown (hf : f.Shown epoch) : checkId f.entry.invocation true = .ok () := by
  obtain ⟨hid, -⟩ := checkFrame_iff.mp hf.1
  rcases need_ok.mp hid with ⟨hfalse, -⟩ | hpos
  · cases hfalse
  · exact need_ok.mpr (Or.inr hpos)

/-- The innermost call, which is the parent of the next. -/
def Model.parent (m : Model) : InvocationId :=
  match m.stack with
  | [] => {}
  | top :: _ => top.entry.invocation

/-- The frame that an entry opens. -/
def Model.frame (m : Model) (entry : Entry) : Frame := { entry := entry, parent := m.parent }

/-- The model after an entry. -/
def Model.entered (m : Model) (entry : Entry) : Model :=
  m.opened { m.admission with last_serial := entry.invocation.serial } (m.frame entry)
    ⟨.kEntry, m.frame entry⟩

/-- What an entry is checked for. -/
def Model.Admits (m : Model) (capacity depth : Nat) (entry : Entry) : Prop :=
  (entry.invocation.thread_epoch = m.admission.epoch ∧ entry.invocation.serial ≠ 0 ∧
    m.admission.last_serial < entry.invocation.serial ∧
    (entry.update.unbound ∨ entry.update.bound)) ∧
    m.stack.length ≠ depth ∧ m.events.length < capacity

theorem Enter_cases {capacity depth : Nat} {entry : Entry}
    (h : (m.Enter capacity depth entry).1.fault = none) :
    m.frozen = true ∧ (m.Enter capacity depth entry).1 = m ∨
      m.Admits capacity depth entry ∧ (m.Enter capacity depth entry).1 = m.entered entry := by
  rcases Recorder.attempt_cases h with hfrozen | ⟨-, hbody⟩
  · exact Or.inl hfrozen
  · right
    rw [check_ok, check_ok, check_ok, need_ok, need_ok, Recorder.room_ok, pure_ok] at hbody
    exact ⟨⟨hbody.1, hbody.2.1, hbody.2.2.1⟩, hbody.2.2.2.symm⟩

theorem Enter_ok {capacity depth : Nat} {entry : Entry} (hw : m.writable = true)
    (h : m.Admits capacity depth entry) :
    m.Enter capacity depth entry = (m.entered entry, true) := by
  apply Recorder.attempt_ok hw
  rw [check_ok, check_ok, check_ok, need_ok, need_ok, Recorder.room_ok, pure_ok]
  exact ⟨h.1, h.2.1, h.2.2, rfl⟩

theorem parent_eq (h : RouterRel epoch m r) : (format epoch false).parent r.stack = m.parent := by
  unfold Model.parent
  rw [h.stack]
  cases m.stack <;> rfl

theorem parent_shown (h : RouterRel epoch m r) : checkId m.parent true = .ok () := by
  unfold Model.parent
  cases hstack : m.stack with
  | nil => exact need_ok.mpr (Or.inl ⟨rfl, rfl, rfl⟩)
  | cons top rest => exact checkId_of_shown (h.ok top (by rw [hstack]; exact List.mem_cons_self))

/-- An entry that the recorder admits, as the replay sees it. -/
theorem opening (h : RouterRel epoch m r) {entry : Entry}
    (hserial : m.admission.last_serial < entry.invocation.serial) (hdepth : m.stack.length < 8)
    (hshown : (m.frame entry).Shown epoch) :
    Opening (format epoch false) Frame.row (Frame.Shown epoch) (Admission.Known epoch) r
      { m.admission with last_serial := entry.invocation.serial } ⟨.kEntry, m.frame entry⟩
      entry.invocation.serial where
  kind := rfl
  accept := by
    refine ⟨r.admission, common_ok.mpr ⟨hshown.1, hshown.2, rfl⟩,
      enter_ok.mpr ⟨⟨?_, ?_⟩, fun hhealthy => (by cases hhealthy), rfl⟩⟩
    · rw [h.admission.2]
      exact hserial
    · rw [h.stack, List.length_map]
      exact hdepth
  fresh := by
    rw [parent_eq h]
    rfl
  ok := hshown
  admission := ⟨h.admission.1, rfl⟩

theorem Enter_emits (hepoch : epoch ≠ 0) {entry : Entry}
    (hsound : (m.Enter 16384 8 entry).1.fault = none) :
    Emits (logOf Frame.row) (format epoch false).event (fun _ => True) (RouterRel epoch) m
      (m.Enter 16384 8 entry).1 := by
  rcases Enter_cases hsound with ⟨-, hsame⟩ |
    ⟨⟨⟨hlane, hpos, hserial, hbinding⟩, hdepth, hroom⟩, heq⟩
  · left
    rw [hsame]
    exact ⟨rfl, fun r h => h⟩
  · right
    refine ⟨⟨.kEntry, (m.frame entry).row⟩, ?_, fun _ r h => ?_⟩
    · rw [heq]
      simp [logOf, Model.entered, Recorder.opened, Snapshot.map]
    · have hdepth' : m.stack.length < 8 := lt_of_le_of_ne h.depth hdepth
      have hown : entry.invocation.thread_epoch = epoch := hlane.trans h.admission.1
      have hshown : (m.frame entry).Shown epoch :=
        ⟨checkFrame_new (pos_iff.mpr (hown ▸ hepoch)) (pos_iff.mpr hpos) hbinding (parent_shown h),
          hown⟩
      have hopens := h.opens hdepth' hroom (opening h hserial hdepth' hshown)
      rw [heq]
      exact ⟨_, hopens.1, hopens.2⟩

/-- One call. -/
def Model.step (m : Model) (call : Call) : Model := (m.call 16384 8 call).1

theorem call_sticky (m : Model) (call : Call) (h : (m.step call).fault = none) :
    m.fault = none := by
  cases call with
  | Freeze => exact h
  | _ => exact Recorder.attempt_sticky h

/-- **Every call that leaves no fault** is followed by the replay. -/
theorem router_follows (hepoch : epoch ≠ 0) :
    Follows Model.step (logOf Frame.row) (fun m => m.fault = none ∧ True)
      (format epoch false).event (fun _ => True) (RouterRel epoch) where
  sticky := fun m call h => ⟨call_sticky m call h.1, trivial⟩
  emits := by
    rintro m call ⟨hsound, -⟩
    have hcommon := router_common epoch
    cases call with
    | Enter entry => exact Enter_emits hepoch hsound
    | PredicatePre id r3 r10 ctr =>
      refine onTop_emits hcommon _ hsound fun f left e hf hbody => ?_
      simp only [At_ok, check_ok, pure_ok] at hbody
      obtain ⟨⟨hstage, hroom⟩, heq⟩ := hbody
      cases heq
      exact ⟨hroom, predicatePre_step hf hstage r3 r10 ctr⟩
    | PredicateReturn id r3 =>
      refine onTop_emits hcommon _ hsound fun f left e hf hbody => ?_
      simp only [At_ok, check_ok, pure_ok] at hbody
      obtain ⟨⟨hstage, hroom⟩, heq⟩ := hbody
      cases heq
      exact ⟨hroom, predicateReturn_step hf hstage r3⟩
    | PredicateException id =>
      refine onTop_emits hcommon _ hsound fun f left e hf hbody => ?_
      simp only [At_ok, check_ok, pure_ok] at hbody
      obtain ⟨⟨hstage, hroom⟩, heq⟩ := hbody
      cases heq
      exact ⟨hroom, exception_step hf (Or.inl ⟨rfl, hstage⟩)⟩
    | Skip id =>
      refine onTop_emits hcommon _ hsound fun f left e hf hbody => ?_
      simp only [At_ok, check_ok, need_ok, pure_ok] at hbody
      obtain ⟨⟨hstage, hroom⟩, hfalse, heq⟩ := hbody
      cases heq
      exact ⟨hroom, skip_step hf hstage hfalse⟩
    | ConsumerPre id r3 r11 ctr f1_bits =>
      refine onTop_emits hcommon _ hsound fun f left e hf hbody => ?_
      simp only [At_ok, check_ok, need_ok, pure_ok] at hbody
      obtain ⟨⟨hstage, hroom⟩, htrue, heq⟩ := hbody
      cases heq
      exact ⟨hroom, consumerPre_step hf hstage htrue r3 r11 ctr f1_bits⟩
    | ConsumerReturn id =>
      refine onTop_emits hcommon _ hsound fun f left e hf hbody => ?_
      simp only [At_ok, check_ok, pure_ok] at hbody
      obtain ⟨⟨hstage, hroom⟩, heq⟩ := hbody
      cases heq
      exact ⟨hroom, consumerReturn_step hf hstage⟩
    | ConsumerException id =>
      refine onTop_emits hcommon _ hsound fun f left e hf hbody => ?_
      simp only [At_ok, check_ok, pure_ok] at hbody
      obtain ⟨⟨hstage, hroom⟩, heq⟩ := hbody
      cases heq
      exact ⟨hroom, exception_step hf (Or.inr ⟨rfl, hstage⟩)⟩
    | Exit id normal =>
      refine onTop_emits hcommon _ hsound fun f left e hf hbody => ?_
      simp only [Room_ok, check_ok, need_ok, pure_ok] at hbody
      obtain ⟨hroom, hnormal, heq⟩ := hbody
      cases heq
      exact ⟨hroom, exit_step hf hnormal⟩
    | Freeze =>
      left
      exact ⟨rfl, fun r h => h.frozen⟩

theorem DispatchRow.row_of_shown {d : DispatchRow} (h : checkDispatch d = .ok ())
    (hpresent : d.present = true) :
    (⟨d.r3, d.table, d.ctr, d.f1_bits, true⟩ : Dispatch).row = d := by
  rw [← hpresent]
  exact DispatchRow.row_native h

/-- The call that an accepted event comes from. -/
theorem reply_call (h : RouterRel epoch m r) (hw : m.writable = true)
    (hroom : m.events.length < 16384) (hentry : event.kind ≠ .kEntry)
    (haccept : (format epoch false).event r event = .ok r') :
    ∃ call, Replies (logOf Frame.row) (fun m => m.writable = true) (RouterRel epoch) m
      (m.step call) event r' := by
  obtain ⟨b, top, rows, hcheck, hrows, -, hwanted, -⟩ :=
    (Format.event_call (decide_eq_false hentry)).mp haccept
  obtain ⟨f, rest, hstack, rfl, hf⟩ := h.innermost hrows
  obtain ⟨-, -, -, hpredicate, hconsumer, hlow⟩ := checkFrame_iff.mp (common_ok.mp hcheck).1
  have hcommon := router_common epoch
  have hreplies : ∀ {body : Frame → Except Fault (Option Frame × Event)} {left : Option Frame}
      {e : Event}, body f = .ok (left, e) → RouterStep epoch f left e →
      e.map Frame.row = event → Replies (logOf Frame.row) (fun m => m.writable = true)
        (RouterRel epoch) m (m.Top f.entry.invocation body).1 event r' :=
    fun hbody hs hrow => h.replies hcommon hw hroom hstack (by simp) hbody hs hrow haccept
  obtain ⟨kind, row⟩ := event
  dsimp only at hpredicate hconsumer hlow
  replace hwanted : wanted f.row kind row = .ok row := hwanted
  cases kind with
  | kEntry => exact absurd rfl hentry
  | kPredicatePre =>
    rw [wanted, need_pure_ok] at hwanted
    obtain ⟨⟨hstage, hpresent, hzero⟩, hrow⟩ := hwanted
    refine ⟨.PredicatePre f.entry.invocation row.predicate.r3 row.predicate.table
      row.predicate.ctr, hreplies ?_ (predicatePre_step hf hstage
        row.predicate.r3 row.predicate.table row.predicate.ctr) ?_⟩
    · simp only [At_ok, check_ok, pure_ok]
      exact ⟨⟨hstage, hroom⟩, trivial⟩
    · have hd := DispatchRow.row_of_shown hpredicate hpresent
      rw [hzero] at hd
      refine congrArg _ (Eq.trans ?_ hrow)
      rw [← hd]
      rfl
  | kPredicateReturn =>
    rw [wanted, need_pure_ok] at hwanted
    obtain ⟨hstage, hrow⟩ := hwanted
    refine ⟨.PredicateReturn f.entry.invocation row.predicate_result_r3, hreplies ?_
      (predicateReturn_step hf hstage row.predicate_result_r3) ?_⟩
    · simp only [At_ok, check_ok, pure_ok]
      exact ⟨⟨hstage, hroom⟩, trivial⟩
    · refine congrArg _ (Eq.trans ?_ hrow)
      rw [hlow.trans (low8_eq _).symm]
      rfl
  | kPredicateException =>
    rw [wanted, need_pure_ok] at hwanted
    obtain ⟨hstage, hrow⟩ := hwanted
    refine ⟨.PredicateException f.entry.invocation, hreplies ?_
      (exception_step hf (Or.inl ⟨rfl, hstage⟩)) (congrArg _ hrow)⟩
    simp only [At_ok, check_ok, pure_ok]
    exact ⟨⟨hstage, hroom⟩, trivial⟩
  | kSkip =>
    rw [wanted, need_pure_ok] at hwanted
    obtain ⟨⟨hstage, hfalse⟩, hrow⟩ := hwanted
    refine ⟨.Skip f.entry.invocation, hreplies ?_
      (skip_step hf hstage hfalse) (congrArg _ hrow)⟩
    simp only [At_ok, check_ok, need_ok, pure_ok]
    exact ⟨⟨hstage, hroom⟩, hfalse, trivial⟩
  | kConsumerPre =>
    rw [wanted, need_pure_ok] at hwanted
    obtain ⟨⟨hstage, htrue, hpresent⟩, hrow⟩ := hwanted
    refine ⟨.ConsumerPre f.entry.invocation row.consumer.r3 row.consumer.table row.consumer.ctr
      row.consumer.f1_bits, hreplies ?_ (consumerPre_step hf hstage htrue
        row.consumer.r3 row.consumer.table row.consumer.ctr row.consumer.f1_bits) ?_⟩
    · simp only [At_ok, check_ok, need_ok, pure_ok]
      exact ⟨⟨hstage, hroom⟩, htrue, trivial⟩
    · have hd := DispatchRow.row_of_shown hconsumer hpresent
      refine congrArg _ (Eq.trans ?_ hrow)
      rw [← hd]
      rfl
  | kConsumerReturn =>
    rw [wanted, need_pure_ok] at hwanted
    obtain ⟨hstage, hrow⟩ := hwanted
    refine ⟨.ConsumerReturn f.entry.invocation, hreplies ?_
      (consumerReturn_step hf hstage) (congrArg _ hrow)⟩
    simp only [At_ok, check_ok, pure_ok]
    exact ⟨⟨hstage, hroom⟩, trivial⟩
  | kConsumerException =>
    rw [wanted, need_pure_ok] at hwanted
    obtain ⟨hstage, hrow⟩ := hwanted
    refine ⟨.ConsumerException f.entry.invocation, hreplies ?_
      (exception_step hf (Or.inr ⟨rfl, hstage⟩)) (congrArg _ hrow)⟩
    simp only [At_ok, check_ok, pure_ok]
    exact ⟨⟨hstage, hroom⟩, trivial⟩
  | kNormalExit =>
    rw [wanted, need_pure_ok] at hwanted
    obtain ⟨hstage, hrow⟩ := hwanted
    have hnormal : true = true → f.stage = .kSkipped ∨ f.stage = .kConsumerReturned := fun _ =>
      hstage
    refine ⟨.Exit f.entry.invocation true, hreplies ?_
      (exit_step hf hnormal) (congrArg (Snapshot.mk EventKind.kNormalExit) hrow)⟩
    simp only [Room_ok, check_ok, need_ok, pure_ok]
    exact ⟨hroom, fun _ => hstage, trivial⟩
  | kExceptionalExit =>
    rw [wanted, pure_ok] at hwanted
    have hnormal : false = true → f.stage = .kSkipped ∨ f.stage = .kConsumerReturned := fun h => by
      cases h
    refine ⟨.Exit f.entry.invocation false, hreplies ?_
      (exit_step hf hnormal) (congrArg (Snapshot.mk EventKind.kExceptionalExit) hwanted)⟩
    simp only [Room_ok, check_ok, need_ok, pure_ok]
    exact ⟨hroom, hnormal, trivial⟩

/-- The entry that a snapshot of a new call shows. -/
def FrameRow.entry (f : FrameRow) : Entry :=
  ⟨f.invocation, f.entry_binding, f.caller_lr, f.manager_r3, f.selector_r4, f.entry_f1_bits⟩

theorem FrameRow.frame_entry {row : FrameRow} (h : row = row.fresh m.parent) :
    (m.frame row.entry).row = row := by
  rw [h]
  rfl

theorem reply_entry (h : RouterRel epoch m r) (hw : m.writable = true)
    (hroom : m.events.length < 16384) (hentry : event.kind = .kEntry)
    (haccept : (format epoch false).event r event = .ok r') :
    ∃ call, Replies (logOf Frame.row) (fun m => m.writable = true) (RouterRel epoch) m
      (m.step call) event r' := by
  obtain ⟨b, b', hcommon, henter, hfresh, rfl⟩ :=
    (Format.event_entry (decide_eq_true hentry)).mp haccept
  obtain ⟨kind, row⟩ := event
  dsimp only at hcommon henter hfresh hentry
  subst hentry
  obtain ⟨hcheck, hlane, rfl⟩ := common_ok.mp hcommon
  obtain ⟨⟨hserial, hdepth⟩, -, rfl⟩ := enter_ok.mp henter
  have hrow : (m.frame row.entry).row = row := by
    apply FrameRow.frame_entry
    rwa [parent_eq h] at hfresh
  obtain ⟨hid, -, hbinding, -⟩ := checkFrame_iff.mp hcheck
  rw [h.admission.2] at hserial
  rw [h.stack, List.length_map] at hdepth
  have hpos : row.entry.invocation.serial ≠ 0 := by
    rcases need_ok.mp hid with ⟨hfalse, -⟩ | ⟨-, hpos⟩
    · cases hfalse
    · exact pos_iff.mp hpos
  have hbound : row.entry.update.unbound ∨ row.entry.update.bound := by
    rcases need_ok.mp hbinding with hunbound | ⟨h1, h2, h3⟩
    · exact Or.inl hunbound
    · exact Or.inr ⟨pos_iff.mp h1, pos_iff.mp h2, pos_iff.mp h3⟩
  have heq : m.Enter 16384 8 row.entry = (m.entered row.entry, true) :=
    Enter_ok hw ⟨⟨hlane.trans h.admission.1.symm, hpos, hserial, hbound⟩, by omega, hroom⟩
  have hshown : (m.frame row.entry).Shown epoch := ⟨by rw [hrow]; exact hcheck, hlane⟩
  have hopens := h.opens hdepth hroom (opening h hserial hdepth hshown)
  refine ⟨.Enter row.entry, ?_⟩
  rw [Model.step, Model.call, heq]
  refine ⟨hw, ?_, ?_⟩
  · simp [logOf, Model.entered, Recorder.opened, Snapshot.map, hrow]
  · rw [← hrow]
    exact hopens.2

/-- **Every event that the replay accepts** is the success of a call. -/
theorem router_answers (epoch : BitVec 64) :
    Answers Model.step (logOf Frame.row) (fun m => m.writable = true) 16384
      (format epoch false).event (fun _ => True) (RouterRel epoch) where
  answers := by
    intro m r event r' h hw hroom _ haccept
    have hroom : m.events.length < 16384 := by simpa [logOf] using hroom
    by_cases hentry : event.kind = .kEntry
    · exact reply_entry h hw hroom hentry haccept
    · exact reply_call h hw hroom hentry haccept

end Simulation

/-! ### The language -/

theorem router_numbers (epoch : BitVec 64) :
    Numbers (format epoch false) (fun f => f.invocation.serial.toNat)
      BitVec.toNat where
  common := fun _ _ _ h => congrArg _ (common_ok.mp h).2.2.symm
  enter := fun _ _ _ _ h => congrArg _ (enter_ok.mp h).2.2.symm

theorem router_numbering (epoch : BitVec 64) :
    Numbering (format epoch false) (format epoch true)
      (fun f => f.invocation.serial.toNat) BitVec.toNat where
  same := rfl
  enter := by
    intro b n g b'
    rw [enter_ok, enter_ok]
    simp only [forall_const, Bool.false_eq_true, false_implies, true_and]
    tauto

/-- The serials of the entries of a log. -/
def entrySerials (log : List EventRow) : List Nat :=
  (log.filter fun event => event.kind = .kEntry).map fun event =>
    event.frame.invocation.serial.toNat

/-- **Recorder and replay have one language**, as far as the log fits: a lane is accepted, with
the pending snapshots it ends with, where the log and these snapshots are those of some calls
without a fault; in a healthy lane, of calls whose serials leave none out. -/
theorem router_language {epoch : BitVec 64} (hepoch : epoch ≠ 0) (healthy : Bool)
    (log : List EventRow) (pending : List FrameRow) :
    log.length ≤ 16384 ∧ replay_lane epoch healthy log = .ok pending ↔
      (∃ calls : List Call, (run 16384 8 epoch calls).fault = none ∧
        (run 16384 8 epoch calls).events.map (Snapshot.map Frame.row) = log ∧
        (run 16384 8 epoch calls).stack.map Frame.row = pending) ∧
      (healthy = true → Consecutive (entrySerials log)) := by
  have hnew : Model.new epoch = { admission := { epoch := epoch } } := by
    unfold Model.new
    rw [if_neg hepoch]
  have hknown : Admission.Known epoch { epoch := epoch } 0 := ⟨rfl, rfl⟩
  have hreplay : replay_lane epoch healthy log = .ok pending ↔
      ∃ r, (format epoch healthy).replay 0 log = .ok r ∧ True ∧ r.stack = pending := by
    unfold replay_lane
    simp only [bind_ok, pure_ok, true_and]
  have hlanguage := lane_iff (fun _ => ()) (fun _ => ()) (fun _ => True) True
    (router_follows hepoch) (router_answers epoch) (fun _ _ _ => ⟨trivial, rfl⟩)
    (fun _ _ => trivial) hknown (fun _ _ => trivial : ∀ e ∈ log, True) (fun _ _ => Iff.rfl)
    (fun _ _ _ => rfl) (router_numbering epoch) (router_numbers epoch) rfl healthy pending
  rw [← hnew] at hlanguage
  rw [hreplay]
  simp only [and_true, true_and] at hlanguage ⊢
  exact hlanguage

/-- A router call whose consumer is another router call, which an exception ends. -/
def nestedCalls : List Call :=
  [.Enter { invocation := ⟨1, 1⟩, update := ⟨7, 8, 9⟩ }, .PredicatePre ⟨1, 1⟩ 0x10 0x20 0x30,
    .PredicateReturn ⟨1, 1⟩ 0x101, .ConsumerPre ⟨1, 1⟩ 0x11 0x21 0x1f00000031 0x41,
    .Enter { invocation := ⟨1, 2⟩ }, .Exit ⟨1, 2⟩ false, .ConsumerReturn ⟨1, 1⟩, .Freeze]

theorem router_language_nested :
    replay_lane 1 true ((run 16384 8 1 nestedCalls).events.map (Snapshot.map Frame.row)) =
      .ok ((run 16384 8 1 nestedCalls).stack.map Frame.row) :=
  ((router_language (by decide) true _ _).mpr
    ⟨⟨nestedCalls, by decide, rfl, rfl⟩, fun _ => by decide⟩).2

/-- The calls of the lane `1`, each of which an exception ends before anything else happens. -/
def unfinished (n : Nat) : FrameRow := { invocation := ⟨1, BitVec.ofNat 64 (n + 1)⟩ }

theorem lt_succ {n : Nat} (hn : n < 8193) : BitVec.ofNat 64 n < BitVec.ofNat 64 (n + 1) := by
  rw [lt_def, toNat_ofNat, toNat_ofNat, mod_eq_of_lt (by omega),
    mod_eq_of_lt (by omega)]
  omega

theorem checkFrame_unfinished {n : Nat} (hn : n < 8193) : checkFrame (unfinished n) = .ok () := by
  have hpositive : 0 < BitVec.ofNat 64 (n + 1) := by
    have hlt := lt_succ hn
    rw [lt_def] at hlt ⊢
    exact lt_of_le_of_lt (Nat.zero_le _) hlt
  exact @checkFrame_new { invocation := ⟨1, BitVec.ofNat 64 (n + 1)⟩ } {}
    (show (0 : BitVec 64) < 1 by decide) hpositive (Or.inl ⟨rfl, rfl, rfl⟩)
    (need_ok.mpr (Or.inl ⟨rfl, rfl, rfl⟩))

theorem replay_unfinished :
    (format 1 false).replay 0 (pairs .kEntry .kExceptionalExit unfinished 8193) =
      .ok ⟨[], BitVec.ofNat 64 8193⟩ := by
  refine Format.replay_pairs (b := fun n => BitVec.ofNat 64 n)
    (c := fun n => BitVec.ofNat 64 (n + 1)) ?_ ?_ 8193 le_rfl
  · intro n hn
    exact (Format.event_entry rfl).mpr ⟨_, _, common_ok.mpr ⟨checkFrame_unfinished hn, rfl, rfl⟩,
      enter_ok.mpr ⟨⟨lt_succ hn, zero_lt_succ 7⟩, fun h => (by cases h), rfl⟩, rfl, rfl⟩
  · intro n hn
    exact (Format.event_call rfl).mpr
      ⟨_, _, _, common_ok.mpr ⟨checkFrame_unfinished hn, rfl, rfl⟩, rfl, rfl, rfl, rfl⟩

/-- No run records as many. -/
theorem unfinished_unrecorded {calls : List Call} (hsound : (run 16384 8 1 calls).fault = none) :
    (run 16384 8 1 calls).events.map (Snapshot.map Frame.row) ≠
      pairs .kEntry .kExceptionalExit unfinished 8193 := by
  intro hlog
  obtain ⟨r, -, hrel⟩ := (router_follows (by decide)).run
    (rel_new (show Admission.Known 1 { epoch := 1 } 0 from ⟨rfl, rfl⟩)) rfl calls
    ⟨hsound, trivial⟩ fun _ _ => trivial
  have hlength := congrArg List.length hlog
  rw [List.length_map, length_pairs] at hlength
  have hfits : (run 16384 8 1 calls).events.length ≤ 16384 := hrel.fits
  omega

/-- The replay itself has no bound on the log, and in a healthy journal it asks for serials that
leave none out, which the recorder does not. -/
theorem router_language_unbounded :
    (¬ ∀ (log : List EventRow) (pending : List FrameRow),
      replay_lane 1 false log = .ok pending ↔
        ∃ calls : List Call, (run 16384 8 1 calls).fault = none ∧
          (run 16384 8 1 calls).events.map (Snapshot.map Frame.row) = log ∧
          (run 16384 8 1 calls).stack.map Frame.row = pending) ∧
    ¬ ∀ (log : List EventRow) (pending : List FrameRow), log.length ≤ 16384 →
      (replay_lane 1 true log = .ok pending ↔
        ∃ calls : List Call, (run 16384 8 1 calls).fault = none ∧
          (run 16384 8 1 calls).events.map (Snapshot.map Frame.row) = log ∧
          (run 16384 8 1 calls).stack.map Frame.row = pending) := by
  refine ⟨fun h => ?_, fun h => ?_⟩
  · have haccept : replay_lane 1 false
        (pairs .kEntry .kExceptionalExit unfinished 8193) = .ok [] := by
      unfold replay_lane
      rw [replay_unfinished]
      rfl
    obtain ⟨calls, hsound, hlog, -⟩ := (h _ _).mp haccept
    exact unfinished_unrecorded hsound hlog
  · have hrun := (h [⟨.kEntry, unfinished 1⟩] [unfinished 1] (by decide)).mpr
      ⟨[.Enter { invocation := ⟨1, 2⟩ }], by decide, by decide, by decide⟩
    have hrefused : replay_lane 1 true [⟨.kEntry, unfinished 1⟩] ≠ .ok [unfinished 1] := by decide
    exact hrefused hrun

end Mcla.RouterDispatch

import Mcla.Observers.ConsumerReplay
import Mcla.Observers.VirtualDetail

/-! # Reading a virtual journal back

A lane of the journal belongs to one native thread, whose consumer lane has the same epoch, to one
router lane and, while it lasts, to one update thread.  An entry saves the consumer entry and the
child it was called as, which are checked with it.

What the journal says of clocks, of accessors and of the lexical parent is not modelled, nor are
the other lanes.
-/
namespace Mcla.VirtualDetail
open NestedRecorder
open SnapshotReplay
open RouterDispatch (InvocationId UpdateBinding U32 low_eq)
open ConsumerDetail (checkId)
open List

/-- An event, as the journal writes it. -/
abbrev EventRow := Snapshot EventKind Frame

/-! ### The decoder -/

def TARGET : BitVec 32 := 0x8258D1A0
def CALLER : BitVec 64 := 0x822C78C0
def CALL_LRS : List (BitVec 64) := [0x8258D1E8, 0x8258D1FC, 0x8258D214]

/-- The child that an entry says it comes from. -/
def checkChild (c : ConsumerDetail.Child) : Except String Unit :=
  need (c.state = .kAbsent → c = {}) "absent parent child is zero"

/-- The parent's call is the one that enters here. -/
def childBound (c : ConsumerDetail.Child) : Prop :=
  c.state = .kActive ∧ c.indirect = true ∧ c.caller_lr = CALLER ∧ c.requested_target = TARGET ∧
    c.indirect_ctr &&& U32 = TARGET.setWidth 64

instance (c : ConsumerDetail.Child) : Decidable (childBound c) :=
  inferInstanceAs (Decidable (_ ∧ _))

/-- An entry, as it may be written. -/
def checkEntry (e : Entry) (admitted : Bool) : Except String Unit := do
  checkId e.invocation admitted
  ConsumerDetail.checkEntry e.parent_entry admitted
  checkChild e.parent_child
  need (admitted = true → childBound e.parent_child ∧ e.actual_target = TARGET ∧
    e.caller_lr = CALLER ∧ e.r3 = e.parent_child.r3 ∧ e.f1_bits = e.parent_child.f1_bits)
    "exact active child0 entry operands"

/-- A call, as it may be written. -/
def checkCall (i : Nat) (c : Call) : Except String Unit :=
  if c.state = .kAbsent then need (c = {}) "absent virtual call is zero"
  else need (CALL_LRS[i]? = some c.caller_lr ∧
      c.requested_target.setWidth 64 = c.indirect_ctr &&& U32)
    "exact virtual callsite and raw low32 target"

/-- A frame, as it may be written. -/
def checkFrame (f : Frame) : Except String Unit := do
  checkEntry f.entry true
  checkId f.parent false
  need (f.returned_calls ≤ 3) "bounded integer"
  need (f.calls.length = 3) "exact three virtual slots"
  f.calls.zipIdx.forM fun slot => checkCall slot.2 slot.1

/-- The snapshot that an event asks for, from the one before; `f` is the snapshot it comes
with. -/
def wanted (top : Frame) (kind : EventKind) (f : Frame) : Except String Frame :=
  let call := top.returned_calls
  match kind with
  | .kEntry => return top
  | .kCallPre => do
    need ((top.stage = .kEntered ∨ top.stage = .kCallReturned) ∧ call < 3 ∧
      (f.calls.getD call {}).state = .kActive) "ordered active virtual pre"
    return { top with
      calls := top.calls.set call (f.calls.getD call {})
      stage := .kCallActive }
  | .kCallReturn => do
    need (top.stage = .kCallActive ∧ call < 3 ∧ (top.calls.getD call {}).state = .kActive)
      "matching active virtual end"
    return { top with
      calls := top.calls.set call { top.calls.getD call {} with state := .kReturned }
      stage := .kCallReturned
      returned_calls := call + 1 }
  | .kCallException => do
    need (top.stage = .kCallActive ∧ call < 3 ∧ (top.calls.getD call {}).state = .kActive)
      "matching active virtual end"
    return { top with
      calls := top.calls.set call { top.calls.getD call {} with state := .kException }
      stage := .kCallException }
  | .kNormalExit => do
    need (top.stage = .kCallReturned ∧ call = 3) "normal exit requires three returns"
    return top
  | .kExceptionalExit => return top

def EventKind.isExit : EventKind → Bool
  | .kNormalExit | .kExceptionalExit => true
  | _ => false

/-- The frame as its entry leaves it. -/
def Frame.fresh (f : Frame) (parent : InvocationId) : Frame :=
  { f with
    parent := parent, stage := .kEntered, returned_calls := 0, calls := replicate 3 {} }

/-- A lane, as far as its events are compared with it. -/
structure Lane where
  thread_epoch : BitVec 64
  native_thread_id : BitVec 32
  (parent_detail_thread_epoch parent_router_thread_epoch : BitVec 64)

/-- What the replay keeps of the entries. -/
structure Kept where
  (last_id last_detail last_router : BitVec 64 := 0)
  entries : Nat := 0
  (parents routers : List InvocationId := [])
  phase_epoch : Option (BitVec 64) := none

/-- A journal is `healthy` when it counts no dropped entry and no error. -/
def format (lane : Lane) (healthy : Bool) : Format Kept Frame EventKind InvocationId String where
  common kept f := do
    checkFrame f
    let p := f.entry.parent_entry
    need (f.entry.invocation.thread_epoch = lane.thread_epoch ∧
      (p.invocation.thread_epoch = lane.parent_detail_thread_epoch ∧
        lane.parent_detail_thread_epoch = lane.thread_epoch) ∧
      p.router.thread_epoch = lane.parent_router_thread_epoch)
      "explicit shared consumer lane, separate identity namespaces"
    need (p.update.native_thread_id = lane.native_thread_id) "admitted native lane/context/base"
    let phase_epoch := kept.phase_epoch.getD p.update.thread_epoch
    need (p.update.thread_epoch = phase_epoch) "stable Update thread lifetime"
    return { kept with phase_epoch := some phase_epoch }
  isEntry kind := kind = .kEntry
  isExit kind := kind.isExit
  enter kept stack f := do
    let p := f.entry.parent_entry
    need (kept.last_id < f.entry.invocation.serial ∧ kept.last_detail < p.invocation.serial ∧
      kept.last_router < p.router.serial ∧ p.invocation ∉ kept.parents ∧
      p.router ∉ kept.routers ∧ stack < 8)
      "strict unique own/parent serials and bounded depth"
    need (healthy = true → f.entry.invocation.serial.toNat = kept.last_id.toNat + 1)
      "healthy allocation serial ordinal"
    return { kept with
      last_id := f.entry.invocation.serial
      last_detail := p.invocation.serial
      last_router := p.router.serial
      entries := kept.entries + 1
      parents := p.invocation :: kept.parents
      routers := p.router :: kept.routers }
  idOf f := f.entry.invocation
  absent := {}
  fresh := Frame.fresh
  wanted := wanted
  notFresh := "exact initialized virtual frame"
  notTop := "LIFO exact virtual identity"
  notExact := "full detached transition snapshot exact"

/-- The pending snapshots, from the innermost one, of a lane that is accepted. -/
def replay (lane : Lane) (healthy : Bool) (events : List EventRow) :
    Except String (List Frame) := do
  let r ← (format lane healthy).replay {} events
  need ((lane.parent_detail_thread_epoch ≠ 0 ↔ r.admission.entries ≠ 0) ∧
    (lane.parent_router_thread_epoch ≠ 0 ↔ r.admission.entries ≠ 0))
    "bound parent epochs only after successful entry"
  return r.stack

/-! ### Snapshots of the recorder -/

/-- What the check of a slot says of a call that is not absent. -/
def Call.Selected (c : Call) (i : Nat) : Prop :=
  kCallReturnLr[i]? = some c.caller_lr ∧ c.requested_target = c.indirect_ctr.setWidth 32

theorem low32_eq {target : BitVec 32} {ctr : BitVec 64} :
    target.setWidth 64 = ctr &&& U32 ↔ target = ctr.setWidth 32 :=
  low_eq (by omega : 32 ≤ 64) target ctr

theorem checkCall_absent (i : Nat) : checkCall i {} = .ok () := rfl

theorem checkCall_iff {i : Nat} {c : Call} (hc : c.state ≠ .kAbsent) :
    checkCall i c = .ok () ↔ c.Selected i := by
  unfold checkCall
  rw [if_neg hc, need_ok, low32_eq]
  rfl

theorem checkFrame_iff {f : Frame} : checkFrame f = .ok () ↔
    checkEntry f.entry true = .ok () ∧ f.returned_calls ≤ 3 ∧ f.calls.length = 3 ∧
      ∀ i c, f.calls[i]? = some c → checkCall i c = .ok () := by
  have hparent : checkId f.parent false = .ok () := need_ok.mpr fun h => by cases h
  unfold checkFrame
  rw [check_ok, check_ok, check_ok, check_ok, need_ok, need_ok, slots_ok]
  exact ⟨fun h => ⟨h.1, h.2.2⟩, fun h => ⟨h.1, hparent, h.2⟩⟩

theorem slots_length {f : Frame} (h : checkFrame f = .ok ()) : f.calls.length = 3 :=
  (checkFrame_iff.mp h).2.2.1

/-- A slot of a frame that was checked, filled anew. -/
theorem checkFrame_set {f f' : Frame} (h : checkFrame f = .ok ()) {i : Nat} {c : Call}
    (hentry : f'.entry = f.entry) (hreturned : f'.returned_calls ≤ 3)
    (hcalls : f'.calls = f.calls.set i c) (hc : checkCall i c = .ok ()) :
    checkFrame f' = .ok () := by
  obtain ⟨h1, -, h3, h4⟩ := checkFrame_iff.mp h
  refine checkFrame_iff.mpr ⟨by rw [hentry]; exact h1, hreturned, ?_, ?_⟩
  · rw [hcalls, length_set]
    exact h3
  · rw [hcalls]
    exact slots_set h4 hc

theorem slot_selected {f : Frame} (h : checkFrame f = .ok ()) {i : Nat} (hi : i < 3)
    (hc : (f.calls.getD i {}).state ≠ .kAbsent) : (f.calls.getD i {}).Selected i := by
  obtain ⟨-, -, hlength, hslots⟩ := checkFrame_iff.mp h
  have hplace : i < f.calls.length := by omega
  exact (checkCall_iff hc).mp (hslots i _ (slot_eq hplace {}))

theorem checkEntry_iff {e : Entry} : checkEntry e true = .ok () ↔
    e.invocation.thread_epoch ≠ 0 ∧ e.invocation.serial ≠ 0 ∧
      ConsumerDetail.checkEntry e.parent_entry true = .ok () ∧ e.Called := by
  have hid : checkId e.invocation true = .ok () ↔
      e.invocation.thread_epoch ≠ 0 ∧ e.invocation.serial ≠ 0 := by
    unfold checkId
    rw [need_ok]
    simp only [RouterDispatch.pos_iff, forall_const]
  have hchild : childBound e.parent_child ↔ e.parent_child.state = .kActive ∧
      e.parent_child.indirect = true ∧ e.parent_child.caller_lr = kCaller ∧
      e.parent_child.requested_target = kTarget ∧
      e.parent_child.indirect_ctr.setWidth 32 = kTarget := by
    have hctr : e.parent_child.indirect_ctr &&& U32 = TARGET.setWidth 64 ↔
        e.parent_child.indirect_ctr.setWidth 32 = kTarget :=
      eq_comm.trans (low32_eq.trans eq_comm)
    unfold childBound
    rw [hctr]
    rfl
  unfold checkEntry checkChild
  rw [check_ok, check_ok, check_ok, need_ok, need_ok, hid, hchild]
  constructor
  · rintro ⟨⟨h1, h2⟩, h3, -, h4⟩
    obtain ⟨⟨h5, h6, h7, h8, h9⟩, h10, h11, h12, h13⟩ := h4 rfl
    exact ⟨h1, h2, h3, h5, h6, h7, h8, h9, h10, h11, h12, h13⟩
  · rintro ⟨h1, h2, h3, h⟩
    -- the child is active, so nothing is asked of an absent one
    exact ⟨⟨h1, h2⟩, h3, fun habsent => (by rw [h.state] at habsent; cases habsent),
      fun _ => ⟨⟨h.state, h.indirect, h.child_caller, h.requested, h.ctr⟩, h.target, h.caller,
        h.r3, h.f1_bits⟩⟩

theorem checkFrame_new {entry : Entry} {parent : InvocationId}
    (h : checkEntry entry true = .ok ()) :
    checkFrame { entry := entry, parent := parent } = .ok () := by
  refine checkFrame_iff.mpr ⟨h, Nat.zero_le _, rfl, ?_⟩
  intro i c hc
  obtain rfl : c = {} := (mem_replicate.mp (mem_of_getElem? hc)).2
  exact checkCall_absent i

/-! ### Recorder and replay side by side -/

/-- What holds of every open frame of a lane. -/
structure Frame.Shown (lane : Lane) (pe : BitVec 64) (f : Frame) : Prop where
  check : checkFrame f = .ok ()
  own : f.entry.invocation.thread_epoch = lane.thread_epoch
  detail : f.entry.parent_entry.invocation.thread_epoch = lane.parent_detail_thread_epoch
  shared : lane.parent_detail_thread_epoch = lane.thread_epoch
  router : f.entry.parent_entry.router.thread_epoch = lane.parent_router_thread_epoch
  native : f.entry.parent_entry.update.native_thread_id = lane.native_thread_id
  phase : f.entry.parent_entry.update.thread_epoch = pe

/-- What the replay knows of the entries, of which the first binds both parent epochs. -/
structure Admission.Known (lane : Lane) (pe bound : BitVec 64) (a : Admission) (kept : Kept) :
    Prop where
  epoch : a.epoch = lane.thread_epoch
  serial : kept.last_id = a.last_serial
  detail_serial : kept.last_detail = a.last_detail_serial
  router_serial : kept.last_router = a.last_router_serial
  parents : ∀ id ∈ kept.parents, id.serial ≤ kept.last_detail
  routers : ∀ id ∈ kept.routers, id.serial ≤ kept.last_router
  phase : kept.phase_epoch = none ∨ kept.phase_epoch = some pe
  detail : a.detail_epoch = if kept.entries = 0 then bound else lane.parent_detail_thread_epoch
  router : a.router_epoch = if kept.entries = 0 then 0 else lane.parent_router_thread_epoch

section Simulation
variable {lane : Lane} {pe bound : BitVec 64} {healthy : Bool} {m : Model} {r r' : State Kept Frame}
  {f : Frame} {event : EventRow} {kept kept' : Kept} {row : Frame}

theorem common_ok : (format lane healthy).common kept row = .ok kept' ↔
    checkFrame row = .ok () ∧ (row.entry.invocation.thread_epoch = lane.thread_epoch ∧
      (row.entry.parent_entry.invocation.thread_epoch = lane.parent_detail_thread_epoch ∧
        lane.parent_detail_thread_epoch = lane.thread_epoch) ∧
      row.entry.parent_entry.router.thread_epoch = lane.parent_router_thread_epoch) ∧
      row.entry.parent_entry.update.native_thread_id = lane.native_thread_id ∧
      row.entry.parent_entry.update.thread_epoch =
        kept.phase_epoch.getD row.entry.parent_entry.update.thread_epoch ∧
      { kept with
        phase_epoch := some (kept.phase_epoch.getD row.entry.parent_entry.update.thread_epoch) } =
        kept' := by
  show (checkFrame row >>= fun _ => need _ _ >>= fun _ => need _ _ >>= fun _ => need _ _ >>=
    fun _ => pure _) = _ ↔ _
  rw [check_ok, check_ok, check_ok, check_ok, need_ok, need_ok, need_ok, pure_ok]

theorem enter_ok {stack : Nat} : (format lane healthy).enter kept stack row = .ok kept' ↔
    (kept.last_id < row.entry.invocation.serial ∧
      kept.last_detail < row.entry.parent_entry.invocation.serial ∧
      kept.last_router < row.entry.parent_entry.router.serial ∧
      row.entry.parent_entry.invocation ∉ kept.parents ∧
      row.entry.parent_entry.router ∉ kept.routers ∧ stack < 8) ∧
      (healthy = true → row.entry.invocation.serial.toNat = kept.last_id.toNat + 1) ∧
      { kept with
        last_id := row.entry.invocation.serial
        last_detail := row.entry.parent_entry.invocation.serial
        last_router := row.entry.parent_entry.router.serial
        entries := kept.entries + 1
        parents := row.entry.parent_entry.invocation :: kept.parents
        routers := row.entry.parent_entry.router :: kept.routers } = kept' := by
  show (need _ _ >>= fun _ => need _ _ >>= fun _ => pure _) = _ ↔ _
  rw [check_ok, check_ok, need_ok, need_ok, pure_ok]

theorem virtual_common (lane : Lane) (pe bound : BitVec 64) :
    Common (format lane false) id (Frame.Shown lane pe) (Admission.Known lane pe bound) := by
  intro a kept f h hf
  have hphase : kept.phase_epoch.getD f.entry.parent_entry.update.thread_epoch = pe := by
    rcases h.phase with hnone | hsome
    · rw [hnone]
      exact hf.phase
    · rw [hsome]
      rfl
  refine ⟨{ kept with phase_epoch := some pe },
    common_ok.mpr ⟨hf.check, ⟨hf.own, ⟨hf.detail, hf.shared⟩, hf.router⟩, hf.native,
      hf.phase.trans hphase.symm, ?_⟩,
    ⟨h.epoch, h.serial, h.detail_serial, h.router_serial, h.parents, h.routers, Or.inr rfl,
      h.detail, h.router⟩⟩
  show { kept with
    phase_epoch := some (kept.phase_epoch.getD f.entry.parent_entry.update.thread_epoch) } = _
  rw [hphase]

/-- The decoder follows the model. -/
abbrev VirtualRel (lane : Lane) (pe bound : BitVec 64) : Model → State Kept Frame → Prop :=
  Rel id (Frame.Shown lane pe) (Admission.Known lane pe bound) 8 16384

/-- One event, as the decoder accepts it. -/
abbrev VirtualStep (lane : Lane) (pe : BitVec 64) : Frame → Option Frame → Event → Prop :=
  Step (format lane false) id (Frame.Shown lane pe)

theorem Room_ok {capacity : Nat} {u : Unit} :
    m.Room capacity = .ok u ↔ m.events.length < capacity := Recorder.room_ok

/-! Each request on the innermost frame, as the replay sees it. -/

theorem Frame.Shown.amended {f' : Frame} (hf : f.Shown lane pe) (hentry : f'.entry = f.entry)
    (hcheck : checkFrame f' = .ok ()) : f'.Shown lane pe := by
  refine ⟨hcheck, ?_, ?_, hf.shared, ?_, ?_, ?_⟩
  · rw [hentry]
    exact hf.own
  · rw [hentry]
    exact hf.detail
  · rw [hentry]
    exact hf.router
  · rw [hentry]
    exact hf.native
  · rw [hentry]
    exact hf.phase

/-- A frame that a request changed and left open. -/
theorem stays {f' : Frame} {kind : EventKind} (hf : f.Shown lane pe) (hkind : kind ≠ .kEntry)
    (hstays : kind.isExit = false) (hentry : f'.entry = f.entry)
    (hcheck : checkFrame f' = .ok ()) (hwanted : wanted f kind f' = .ok f') :
    VirtualStep lane pe f (changed f' kind).1 (changed f' kind).2 where
  ends := by
    show some f' = if kind.isExit then none else some f'
    rw [hstays]
    rfl
  kind := decide_eq_false hkind
  id := congrArg Entry.invocation hentry.symm
  ok := hf.amended hentry hcheck
  wanted := hwanted

theorem callPre_step (hf : f.Shown lane pe) (hstage : f.stage = .kEntered ∨ f.stage = .kCallReturned)
    (hcall : f.returned_calls < 3) {caller_lr : BitVec 64}
    (hcaller : kCallReturnLr[f.returned_calls]? = some caller_lr)
    (r3 f1_bits indirect_ctr : BitVec 64) :
    let f' := { f with
      calls := f.calls.set f.returned_calls
        ⟨caller_lr, r3, f1_bits, indirect_ctr, indirect_ctr.setWidth 32, .kActive⟩
      stage := .kCallActive }
    VirtualStep lane pe f (changed f' .kCallPre).1 (changed f' .kCallPre).2 := by
  have hc : checkCall f.returned_calls
      ⟨caller_lr, r3, f1_bits, indirect_ctr, indirect_ctr.setWidth 32, .kActive⟩ = .ok () :=
    (checkCall_iff (by simp)).mpr ⟨hcaller, rfl⟩
  refine stays hf (by decide) rfl rfl
    (checkFrame_set hf.check rfl (Nat.le_of_lt hcall) rfl hc) ?_
  rw [wanted, need_pure_ok, slot_set (by rw [slots_length hf.check]; exact hcall)]
  exact ⟨⟨hstage, hcall, rfl⟩, rfl⟩

theorem callEnd_step (hf : f.Shown lane pe) (hstage : f.stage = .kCallActive)
    (hcall : f.returned_calls < 3) (hactive : (f.calls.getD f.returned_calls {}).state = .kActive)
    (normal : Bool) :
    let f' := { f with
      calls := f.calls.set f.returned_calls { f.calls.getD f.returned_calls {} with
        state := if normal then .kReturned else .kException }
      stage := if normal then .kCallReturned else .kCallException
      returned_calls := if normal then f.returned_calls + 1 else f.returned_calls }
    let kind := if normal then EventKind.kCallReturn else .kCallException
    VirtualStep lane pe f (changed f' kind).1 (changed f' kind).2 := by
  have hselected := slot_selected hf.check hcall (by rw [hactive]; decide)
  have hc : ∀ state, state ≠ .kAbsent → checkCall f.returned_calls
      { f.calls.getD f.returned_calls {} with state := state } = .ok () :=
    fun state hstate => (checkCall_iff hstate).mpr hselected
  cases normal with
  | true =>
    refine stays hf (by decide) rfl rfl
      (checkFrame_set hf.check rfl hcall rfl (hc .kReturned (by decide))) ?_
    show wanted f .kCallReturn _ = _
    rw [wanted, need_pure_ok]
    exact ⟨⟨hstage, hcall, hactive⟩, rfl⟩
  | false =>
    refine stays hf (by decide) rfl rfl
      (checkFrame_set hf.check rfl (Nat.le_of_lt hcall) rfl (hc .kException (by decide))) ?_
    show wanted f .kCallException _ = _
    rw [wanted, need_pure_ok]
    exact ⟨⟨hstage, hcall, hactive⟩, rfl⟩

theorem exit_step (hf : f.Shown lane pe) {normal : Bool}
    (hnormal : normal = true → f.stage = .kCallReturned ∧ f.returned_calls = 3) :
    let kind := if normal then EventKind.kNormalExit else .kExceptionalExit
    VirtualStep lane pe f (closed f kind).1 (closed f kind).2 := by
  cases normal with
  | true =>
    refine ⟨rfl, rfl, rfl, hf, ?_⟩
    show wanted f .kNormalExit f = .ok f
    rw [wanted, need_pure_ok]
    exact ⟨hnormal rfl, rfl⟩
  | false => exact ⟨rfl, rfl, rfl, hf, rfl⟩

/-! Entries. -/

/-- The innermost body, which is the parent of the next. -/
def Model.parent (m : Model) : InvocationId :=
  match m.stack with
  | [] => {}
  | top :: _ => top.entry.invocation

/-- The frame that an entry opens. -/
def Model.frame (m : Model) (entry : Entry) : Frame := { entry := entry, parent := m.parent }

/-- What an entry leaves to compare the next with. -/
def Admission.after (a : Admission) (entry : Entry) : Admission :=
  { a with
    detail_epoch := if a.detail_epoch = 0 then entry.parent_entry.invocation.thread_epoch
      else a.detail_epoch
    router_epoch := if a.router_epoch = 0 then entry.parent_entry.router.thread_epoch
      else a.router_epoch
    last_serial := entry.invocation.serial
    last_detail_serial := entry.parent_entry.invocation.serial
    last_router_serial := entry.parent_entry.router.serial }

/-- The model after an entry. -/
def Model.entered (m : Model) (entry : Entry) : Model :=
  m.opened (m.admission.after entry) (m.frame entry) ⟨.kEntry, m.frame entry⟩

/-- What the fields of an entry are checked for. -/
structure Admission.Admits (a : Admission) (entry : Entry) : Prop where
  epoch : entry.invocation.thread_epoch = a.epoch
  positive : entry.invocation.serial ≠ 0
  serial : a.last_serial < entry.invocation.serial
  detail_epoch : entry.parent_entry.invocation.thread_epoch ≠ 0
  detail_bound : a.detail_epoch ≠ 0 → entry.parent_entry.invocation.thread_epoch = a.detail_epoch
  detail_positive : entry.parent_entry.invocation.serial ≠ 0
  detail_serial : a.last_detail_serial < entry.parent_entry.invocation.serial
  router_epoch : entry.parent_entry.router.thread_epoch ≠ 0
  router_bound : a.router_epoch ≠ 0 → entry.parent_entry.router.thread_epoch = a.router_epoch
  router_positive : entry.parent_entry.router.serial ≠ 0
  router_serial : a.last_router_serial < entry.parent_entry.router.serial
  update : entry.parent_entry.update.bound ∨ entry.parent_entry.update.unbound
  parent_target : entry.parent_entry.actual_target = ConsumerDetail.kTarget
  parent_caller : entry.parent_entry.caller_lr = ConsumerDetail.kCaller
  called : entry.Called

variable {capacity depth : Nat}

theorem Enter_body (entry : Entry) :
    ∃ body, m.Enter capacity depth entry = m.attempt body ∧ ∀ m', body = .ok m' ↔
      (m.admission.Admits entry ∧ m.stack.length ≠ depth ∧ m.events.length < capacity) ∧
        m.entered entry = m' := by
  refine ⟨_, rfl, fun m' => ?_⟩
  rw [check_ok, check_ok, check_ok, need_ok, need_ok, Recorder.room_ok, pure_ok]
  constructor
  · rintro ⟨⟨h1, h2, h3, h4, h5, h6, h7, h8, h9, h10, h11, h12, h13, h14, h15, h16, h17, h18, h19,
      h20, h21, h22, h23⟩, hdepth, hroom, heq⟩
    exact ⟨⟨⟨h1, h2, h3, h4, h5, h6, h7, h8, h9, h10, h11, h12, h13, h14,
      ⟨h15, h16, h17, h18, h19, h20, h21, h22, h23⟩⟩, hdepth, hroom⟩, heq⟩
  · rintro ⟨⟨h, hdepth, hroom⟩, heq⟩
    exact ⟨⟨h.epoch, h.positive, h.serial, h.detail_epoch, h.detail_bound, h.detail_positive,
      h.detail_serial, h.router_epoch, h.router_bound, h.router_positive, h.router_serial,
      h.update, h.parent_target, h.parent_caller, h.called.state, h.called.indirect,
      h.called.child_caller, h.called.requested, h.called.ctr, h.called.target, h.called.caller,
      h.called.r3, h.called.f1_bits⟩, hdepth, hroom, heq⟩

theorem Enter_cases {entry : Entry} (h : (m.Enter capacity depth entry).1.fault = none) :
    m.frozen = true ∧ (m.Enter capacity depth entry).1 = m ∨
      (m.admission.Admits entry ∧ m.stack.length ≠ depth ∧ m.events.length < capacity) ∧
        (m.Enter capacity depth entry).1 = m.entered entry := by
  obtain ⟨body, hEnter, hbody⟩ := @Enter_body m capacity depth entry
  rw [hEnter] at h ⊢
  rcases Recorder.attempt_cases h with hfrozen | ⟨-, hok⟩
  · exact Or.inl hfrozen
  · obtain ⟨hconds, heq⟩ := (hbody _).mp hok
    exact Or.inr ⟨hconds, heq.symm⟩

theorem Enter_ok {entry : Entry} (hw : m.writable = true) (h : m.admission.Admits entry)
    (hdepth : m.stack.length ≠ depth) (hroom : m.events.length < capacity) :
    m.Enter capacity depth entry = (m.entered entry, true) := by
  obtain ⟨body, hEnter, hbody⟩ := @Enter_body m capacity depth entry
  rw [hEnter]
  exact Recorder.attempt_ok hw ((hbody _).mpr ⟨⟨h, hdepth, hroom⟩, rfl⟩)

/-- The event's update binding is there, it is of the epoch and the lane's native thread, and the
consumer body was entered in the lane's epoch. -/
def Bound (lane : Lane) (pe : BitVec 64) (event : EventRow) : Prop :=
  let p := event.frame.entry.parent_entry
  p.update.bound ∧ p.update.thread_epoch = pe ∧ p.update.native_thread_id = lane.native_thread_id ∧
    p.invocation.thread_epoch = lane.thread_epoch

instance (lane : Lane) (pe : BitVec 64) (event : EventRow) : Decidable (Bound lane pe event) :=
  inferInstanceAs (Decidable (_ ∧ _))

theorem parent_eq (h : VirtualRel lane pe bound m r) :
    (format lane false).parent r.stack = m.parent := by
  unfold Model.parent
  rw [h.stack]
  cases m.stack <;> rfl

/-- An identity whose serial is above those of a list is not in it. -/
theorem notMem_of_serial_lt {ids : List InvocationId} {last : BitVec 64} {id : InvocationId}
    (hids : ∀ id' ∈ ids, id'.serial ≤ last) (hlt : last < id.serial) : id ∉ ids :=
  fun hmem => absurd hlt (BitVec.not_lt.mpr (hids id hmem))

/-- The serials of a list stay below the one that joins it. -/
theorem serial_le_cons {ids : List InvocationId} {last : BitVec 64} {id : InvocationId}
    (hids : ∀ id' ∈ ids, id'.serial ≤ last) (hlt : last < id.serial) :
    ∀ id' ∈ id :: ids, id'.serial ≤ id.serial := by
  intro id' hid'
  rcases mem_cons.mp hid' with rfl | hold
  · exact BitVec.le_refl _
  · exact BitVec.le_trans (hids id' hold) (BitVec.le_of_lt hlt)

/-- An entry that the recorder admits, as the replay sees it. -/
theorem opening (h : VirtualRel lane pe bound m r) {entry : Entry}
    (hserial : m.admission.last_serial < entry.invocation.serial)
    (hdetail : m.admission.last_detail_serial < entry.parent_entry.invocation.serial)
    (hrouter : m.admission.last_router_serial < entry.parent_entry.router.serial)
    (hepochs : (m.admission.after entry).detail_epoch = lane.parent_detail_thread_epoch ∧
      (m.admission.after entry).router_epoch = lane.parent_router_thread_epoch)
    (hdepth : m.stack.length < 8) (hshown : (m.frame entry).Shown lane pe) :
    ∃ kept, Opening (format lane false) id (Frame.Shown lane pe)
      (Admission.Known lane pe bound) r (m.admission.after entry) ⟨.kEntry, m.frame entry⟩ kept := by
  obtain ⟨kept, hcommon, hknown⟩ := virtual_common lane pe bound _ _ _ h.admission hshown
  rw [← hknown.serial] at hserial
  rw [← hknown.detail_serial] at hdetail
  rw [← hknown.router_serial] at hrouter
  refine ⟨_, rfl, ⟨kept, hcommon, enter_ok.mpr ⟨⟨hserial, hdetail, hrouter,
    notMem_of_serial_lt hknown.parents hdetail, notMem_of_serial_lt hknown.routers hrouter, ?_⟩,
    fun hhealthy => (by cases hhealthy), rfl⟩⟩, ?_, hshown, ?_⟩
  · rw [h.stack, length_map]
    exact hdepth
  · rw [parent_eq h]
    rfl
  · exact ⟨hknown.epoch, rfl, rfl, rfl, serial_le_cons hknown.parents hdetail,
      serial_le_cons hknown.routers hrouter, hknown.phase, hepochs.1, hepochs.2⟩

/-- What is asked of the recorder: its parent epochs are not bound, or those of the lane. -/
def Admission.Good (lane : Lane) (a : Admission) : Prop :=
  (a.detail_epoch = lane.parent_detail_thread_epoch ∨ a.detail_epoch = 0) ∧
    (a.router_epoch = lane.parent_router_thread_epoch ∨ a.router_epoch = 0)

/-- An epoch that an entry binds, if it was not bound, is bound for good. -/
theorem bound_eq {old new epoch : BitVec 64} (hnew : new ≠ 0) (hold : old ≠ 0 → new = old)
    (hgood : (if old = 0 then new else old) = epoch ∨ (if old = 0 then new else old) = 0) :
    new = epoch ∧ (if old = 0 then new else old) = epoch := by
  have hafter : (if old = 0 then new else old) = new := by
    split
    · rfl
    · rename_i hbound
      exact (hold hbound).symm
  rw [hafter] at hgood ⊢
  rcases hgood with heq | hzero
  · exact ⟨heq, heq⟩
  · exact absurd hzero hnew

/-- An epoch that is good after an entry was so before. -/
theorem good_before {old new epoch : BitVec 64}
    (hgood : (if old = 0 then new else old) = epoch ∨ (if old = 0 then new else old) = 0) :
    old = epoch ∨ old = 0 := by
  by_cases hzero : old = 0
  · exact Or.inr hzero
  · rw [if_neg hzero] at hgood
    exact hgood

theorem Enter_emits (hlane : lane.thread_epoch ≠ 0) {entry : Entry}
    (hsound : (m.Enter 16384 8 entry).1.fault = none)
    (hgood : (m.Enter 16384 8 entry).1.admission.Good lane) :
    Emits (logOf id) (format lane false).event (Bound lane pe) (VirtualRel lane pe bound) m
      (m.Enter 16384 8 entry).1 := by
  rcases Enter_cases hsound with ⟨-, hsame⟩ | ⟨⟨hadmits, hdepth, hroom⟩, heq⟩
  · left
    rw [hsame]
    exact ⟨rfl, fun r h => h⟩
  · right
    refine ⟨⟨.kEntry, m.frame entry⟩, ?_, ?_⟩
    · rw [heq]
      simp [logOf, Model.entered, Recorder.opened, Snapshot.map]
    · rintro ⟨hupdate, hphase, hnative, hshared⟩ r h
      rw [heq] at hgood ⊢
      obtain ⟨hdetail, hdetail'⟩ := bound_eq hadmits.detail_epoch hadmits.detail_bound hgood.1
      obtain ⟨hrouter, hrouter'⟩ := bound_eq hadmits.router_epoch hadmits.router_bound hgood.2
      have hown : entry.invocation.thread_epoch = lane.thread_epoch :=
        hadmits.epoch.trans h.admission.epoch
      have hparent : ConsumerDetail.checkEntry entry.parent_entry true = .ok () :=
        ConsumerDetail.checkEntry_iff.mpr ⟨hadmits.detail_epoch, hadmits.detail_positive,
          hadmits.router_epoch, hadmits.router_positive, hupdate, hadmits.parent_target,
          hadmits.parent_caller⟩
      have hcheck : checkEntry entry true = .ok () :=
        checkEntry_iff.mpr ⟨hown ▸ hlane, hadmits.positive, hparent, hadmits.called⟩
      have hshown : (m.frame entry).Shown lane pe :=
        ⟨checkFrame_new hcheck, hown, hdetail, hdetail.symm.trans hshared, hrouter, hnative, hphase⟩
      have hdepth' : m.stack.length < 8 := lt_of_le_of_ne h.depth hdepth
      obtain ⟨kept, ho⟩ := opening h hadmits.serial hadmits.detail_serial hadmits.router_serial
        ⟨hdetail', hrouter'⟩ hdepth' hshown
      have hopens := h.opens hdepth' hroom ho
      exact ⟨_, hopens.1, hopens.2⟩

/-- One request. -/
def Model.step (m : Model) (request : Request) : Model := (m.request 16384 8 request).1

theorem step_sound (m : Model) (request : Request) (h : (m.step request).fault = none) :
    m.fault = none ∧ ((m.step request).admission.Good lane → m.admission.Good lane) := by
  have htop : ∀ {id body}, (m.Top id body).1.fault = none →
      m.fault = none ∧ ((m.Top id body).1.admission.Good lane → m.admission.Good lane) := by
    intro id body hsound
    refine ⟨Recorder.attempt_sticky hsound, fun hgood => ?_⟩
    rwa [Model.Top, Recorder.onTop_admission hsound] at hgood
  cases request with
  | Enter entry =>
    refine ⟨Recorder.attempt_sticky h, fun hgood => ?_⟩
    replace hgood : (m.Enter 16384 8 entry).1.admission.Good lane := hgood
    rcases Enter_cases h with ⟨-, hsame⟩ | ⟨-, heq⟩
    · rwa [hsame] at hgood
    · rw [heq] at hgood
      exact ⟨good_before hgood.1, good_before hgood.2⟩
  | Freeze => exact ⟨h, fun hgood => hgood⟩
  | _ => exact htop h

/-- **Every request that leaves no fault** is followed by the replay. -/
theorem virtual_follows (hlane : lane.thread_epoch ≠ 0) (pe bound : BitVec 64) :
    Follows Model.step (logOf id) (fun m => m.fault = none ∧ m.admission.Good lane)
      (format lane false).event (Bound lane pe) (VirtualRel lane pe bound) where
  sticky := by
    rintro m request ⟨hsound, hgood⟩
    obtain ⟨hbefore, hback⟩ := @step_sound lane m request hsound
    exact ⟨hbefore, hback hgood⟩
  emits := by
    rintro m request ⟨hsound, hgood⟩
    have hcommon := virtual_common lane pe bound
    cases request with
    | Enter entry => exact Enter_emits hlane hsound hgood
    | CallPre id call caller_lr r3 f1_bits indirect_ctr =>
      refine onTop_emits hcommon _ hsound fun f left e hf hbody => ?_
      simp only [Room_ok, check_ok, need_ok, pure_ok] at hbody
      obtain ⟨⟨hlt, rfl, hcaller, hstage⟩, hroom, heq⟩ := hbody
      cases heq
      exact ⟨hroom, callPre_step hf hstage hlt hcaller r3 f1_bits indirect_ctr⟩
    | CallReturn id call =>
      refine onTop_emits hcommon _ hsound fun f left e hf hbody => ?_
      simp only [Room_ok, check_ok, need_ok, pure_ok] at hbody
      obtain ⟨⟨hlt, rfl, hstage, hactive⟩, hroom, heq⟩ := hbody
      cases heq
      exact ⟨hroom, callEnd_step hf hstage hlt hactive true⟩
    | CallException id call =>
      refine onTop_emits hcommon _ hsound fun f left e hf hbody => ?_
      simp only [Room_ok, check_ok, need_ok, pure_ok] at hbody
      obtain ⟨⟨hlt, rfl, hstage, hactive⟩, hroom, heq⟩ := hbody
      cases heq
      exact ⟨hroom, callEnd_step hf hstage hlt hactive false⟩
    | Exit id normal =>
      refine onTop_emits hcommon _ hsound fun f left e hf hbody => ?_
      simp only [Room_ok, check_ok, need_ok, pure_ok] at hbody
      obtain ⟨hnormal, hroom, heq⟩ := hbody
      cases heq
      exact ⟨hroom, exit_step hf hnormal⟩
    | Freeze =>
      left
      exact ⟨rfl, fun r h => h.frozen⟩

/-- The request that an accepted event comes from. -/
theorem reply_call (h : VirtualRel lane pe bound m r) (hw : m.writable = true)
    (hroom : m.events.length < 16384) (hentry : event.kind ≠ .kEntry)
    (haccept : (format lane false).event r event = .ok r') :
    ∃ request, Replies (logOf id) (fun m => m.writable = true) (VirtualRel lane pe bound) m
      (m.step request) event r' := by
  obtain ⟨kept, top, rows, hcheck, hrows, -, hwanted, -⟩ :=
    (Format.event_call (decide_eq_false hentry)).mp haccept
  obtain ⟨f, rest, hstack, rfl, hf⟩ := h.innermost hrows
  replace hcheck := (common_ok.mp hcheck).1
  have hcommon := virtual_common lane pe bound
  have hreplies : ∀ {body : Frame → Except Fault (Option Frame × Event)} {left : Option Frame}
      {e : Event}, body f = .ok (left, e) → VirtualStep lane pe f left e →
      e = event → Replies (logOf id) (fun m => m.writable = true)
        (VirtualRel lane pe bound) m (m.Top f.entry.invocation body).1 event r' :=
    fun hbody hs hrow => h.replies hcommon hw hroom hstack (by simp) hbody hs hrow haccept
  obtain ⟨kind, row⟩ := event
  dsimp only at hcheck
  replace hwanted : wanted f kind row = .ok row := hwanted
  cases kind with
  | kEntry => exact absurd rfl hentry
  | kCallPre =>
    rw [wanted, need_pure_ok] at hwanted
    obtain ⟨⟨hstage, hlt, hactive⟩, hrow⟩ := hwanted
    have hselected := slot_selected hcheck hlt (by rw [hactive]; decide)
    generalize row.calls.getD f.returned_calls {} = c at hactive hrow hselected
    obtain ⟨hcaller, htarget⟩ := hselected
    -- the slot is what a request with its own operands fills in
    obtain ⟨caller_lr, r3, f1_bits, indirect_ctr, requested_target, state⟩ := c
    dsimp only at hactive hcaller htarget
    subst hactive htarget
    refine ⟨.CallPre f.entry.invocation f.returned_calls caller_lr r3 f1_bits indirect_ctr,
      hreplies ?_ (callPre_step hf hstage hlt hcaller r3 f1_bits indirect_ctr)
      (congrArg (Snapshot.mk EventKind.kCallPre) hrow)⟩
    simp only [Room_ok, check_ok, need_ok, pure_ok]
    exact ⟨⟨hlt, trivial, hcaller, hstage⟩, hroom, trivial⟩
  | kCallReturn =>
    rw [wanted, need_pure_ok] at hwanted
    obtain ⟨⟨hstage, hlt, hactive⟩, hrow⟩ := hwanted
    refine ⟨.CallReturn f.entry.invocation f.returned_calls, hreplies ?_
      (callEnd_step hf hstage hlt hactive true)
      (congrArg (Snapshot.mk EventKind.kCallReturn) hrow)⟩
    simp only [Room_ok, check_ok, need_ok, pure_ok]
    exact ⟨⟨hlt, trivial, hstage, hactive⟩, hroom, trivial⟩
  | kCallException =>
    rw [wanted, need_pure_ok] at hwanted
    obtain ⟨⟨hstage, hlt, hactive⟩, hrow⟩ := hwanted
    refine ⟨.CallException f.entry.invocation f.returned_calls, hreplies ?_
      (callEnd_step hf hstage hlt hactive false)
      (congrArg (Snapshot.mk EventKind.kCallException) hrow)⟩
    simp only [Room_ok, check_ok, need_ok, pure_ok]
    exact ⟨⟨hlt, trivial, hstage, hactive⟩, hroom, trivial⟩
  | kNormalExit =>
    rw [wanted, need_pure_ok] at hwanted
    obtain ⟨hdone, hrow⟩ := hwanted
    have hnormal : true = true → f.stage = .kCallReturned ∧ f.returned_calls = 3 := fun _ => hdone
    refine ⟨.Exit f.entry.invocation true, hreplies ?_ (exit_step hf hnormal)
      (congrArg (Snapshot.mk EventKind.kNormalExit) hrow)⟩
    rw [check_ok, check_ok, need_ok, Room_ok, pure_ok]
    exact ⟨hnormal, hroom, rfl⟩
  | kExceptionalExit =>
    rw [wanted, pure_ok] at hwanted
    have hnormal : false = true → f.stage = .kCallReturned ∧ f.returned_calls = 3 :=
      fun hfalse => by cases hfalse
    refine ⟨.Exit f.entry.invocation false, hreplies ?_ (exit_step hf hnormal)
      (congrArg (Snapshot.mk EventKind.kExceptionalExit) hwanted)⟩
    rw [check_ok, check_ok, need_ok, Room_ok, pure_ok]
    exact ⟨hnormal, hroom, rfl⟩

/-- An epoch of the recorder, which is not bound before the first entry. -/
theorem unbound_or_eq {entries : Nat} {old start epoch : BitVec 64}
    (h : old = if entries = 0 then start else epoch) (hstart : start = 0 ∨ start = epoch) :
    old = 0 ∨ old = epoch := by
  split at h
  · rw [h]
    exact hstart
  · exact Or.inr h

/-- An entry of a lane, compared with an epoch that is not bound or that of the lane. -/
theorem binds {old new epoch : BitVec 64} (hold : old = 0 ∨ old = epoch) (hnew : new = epoch) :
    (old ≠ 0 → new = old) ∧ (if old = 0 then new else old) = epoch := by
  rcases hold with rfl | rfl
  · exact ⟨fun hne => absurd rfl hne, by rw [if_pos rfl]; exact hnew⟩
  · exact ⟨fun _ => hnew, by rw [hnew, ite_self]⟩

theorem reply_entry (hbound : bound = 0 ∨ bound = lane.parent_detail_thread_epoch)
    (h : VirtualRel lane pe bound m r) (hw : m.writable = true)
    (hroom : m.events.length < 16384) (hentry : event.kind = .kEntry)
    (hphase : event.frame.entry.parent_entry.update.thread_epoch = pe)
    (haccept : (format lane false).event r event = .ok r') :
    ∃ request, Replies (logOf id) (fun m => m.writable = true) (VirtualRel lane pe bound) m
      (m.step request) event r' := by
  obtain ⟨kept, kept', hcommon, henter, hfresh, rfl⟩ :=
    (Format.event_entry (decide_eq_true hentry)).mp haccept
  obtain ⟨kind, row⟩ := event
  dsimp only at hcommon henter hfresh hentry hphase
  subst hentry
  obtain ⟨hcheck, ⟨hown, ⟨hdetail, hshared⟩, hrouter⟩, hnative, -, hkept⟩ := common_ok.mp hcommon
  obtain ⟨⟨hserial, hdetails, hrouters, -, -, hdepth⟩, -, -⟩ := enter_ok.mp henter
  subst hkept
  rw [h.admission.serial] at hserial
  rw [h.admission.detail_serial] at hdetails
  rw [h.admission.router_serial] at hrouters
  rw [h.stack, length_map] at hdepth
  have hrow : m.frame row.entry = row := by
    rw [parent_eq h] at hfresh
    rw [hfresh]
    rfl
  obtain ⟨-, hpositive, hparent, hcalled⟩ := checkEntry_iff.mp (checkFrame_iff.mp hcheck).1
  obtain ⟨h1, h2, h3, h4, h5, h6, h7⟩ := ConsumerDetail.checkEntry_iff.mp hparent
  obtain ⟨hdetailBound, hdetailAfter⟩ := binds (unbound_or_eq h.admission.detail hbound) hdetail
  obtain ⟨hrouterBound, hrouterAfter⟩ :=
    binds (unbound_or_eq h.admission.router (Or.inl rfl)) hrouter
  have hadmits : m.admission.Admits row.entry :=
    ⟨hown.trans h.admission.epoch.symm, hpositive, hserial, h1, hdetailBound, h2, hdetails, h3,
      hrouterBound, h4, hrouters, Or.inl h5, h6, h7, hcalled⟩
  have hshown : (m.frame row.entry).Shown lane pe :=
    ⟨by rw [hrow]; exact hcheck, hown, hdetail, hshared, hrouter, hnative, hphase⟩
  obtain ⟨kept'', ho⟩ :=
    opening h hserial hdetails hrouters ⟨hdetailAfter, hrouterAfter⟩ hdepth hshown
  obtain ⟨haccept', hrel⟩ := h.opens hdepth hroom ho
  rw [show (m.frame row.entry) = row from hrow] at haccept' hrel
  refine ⟨.Enter row.entry, ?_⟩
  have heq : m.step (.Enter row.entry) = m.entered row.entry :=
    congrArg Prod.fst (Enter_ok hw hadmits (by omega) hroom)
  rw [heq]
  refine ⟨hw, ?_, ?_⟩
  · simp [logOf, Model.entered, Recorder.opened, Snapshot.map, hrow]
  · have hsame := Except.ok.inj (haccept'.symm.trans haccept)
    rw [hsame] at hrel
    unfold Model.entered
    rw [hrow]
    exact hrel

/-- **Every event that the replay accepts** is the success of a request. -/
theorem virtual_answers (pe : BitVec 64)
    (hbound : bound = 0 ∨ bound = lane.parent_detail_thread_epoch) :
    Answers Model.step (logOf id) (fun m => m.writable = true) 16384 (format lane false).event
      (Bound lane pe) (VirtualRel lane pe bound) where
  answers := by
    intro m r event r' h hw hroom hevent haccept
    have hroom : m.events.length < 16384 := by simpa [logOf] using hroom
    by_cases hentry : event.kind = .kEntry
    · exact reply_entry hbound h hw hroom hentry hevent.2.1 haccept
    · exact reply_call h hw hroom hentry haccept

end Simulation

/-! ### The language -/

theorem virtual_numbers (lane : Lane) :
    Numbers (format lane false) (fun f => f.entry.invocation.serial.toNat)
      (fun kept => kept.last_id.toNat) where
  common := by
    intro kept f kept' h
    obtain ⟨-, -, -, -, rfl⟩ := common_ok.mp h
    rfl
  enter := by
    intro kept stack f kept' h
    obtain ⟨-, -, rfl⟩ := enter_ok.mp h
    rfl

theorem virtual_numbering (lane : Lane) :
    Numbering (format lane false) (format lane true)
      (fun f => f.entry.invocation.serial.toNat) (fun kept => kept.last_id.toNat) where
  same := rfl
  enter := by
    intro kept stack f kept'
    rw [enter_ok, enter_ok]
    simp only [forall_const, Bool.false_eq_true, false_implies, true_and]
    tauto

/-- Entries are counted, and a log that is accepted begins with one. -/
theorem replay_entries {lane : Lane} {r : State Kept Frame} (log : List EventRow)
    (h : (format lane false).replay {} log = .ok r) : r.admission.entries = 0 ↔ log = [] := by
  refine Format.count_eq_zero (fun kept => kept.entries) rfl ?_ ?_ log h
  · intro kept f kept' hcommon
    obtain ⟨-, -, -, -, rfl⟩ := common_ok.mp hcommon
    rfl
  · intro kept stack f kept' henter
    obtain ⟨-, -, rfl⟩ := enter_ok.mp henter
    exact Nat.succ_ne_zero _

/-- The serials of the entries of a log. -/
def entrySerials (log : List EventRow) : List Nat :=
  (log.filter fun event => event.kind = .kEntry).map fun event =>
    event.frame.entry.invocation.serial.toNat

/-- **Recorder and replay have one language**, as far as the log fits.  Among the logs whose
entries are bound to one update thread and the native thread of the lane, and come from a
consumer lane of its epoch, a lane is accepted, with the pending snapshots it ends with, where
the log and these snapshots are those of some requests without a fault that end with the parent
epochs of the lane, which are bound if and only if there is an event; in a healthy lane, of
requests whose serials leave none out.  The recorder may start with its detail epoch not bound,
or with that of the lane. -/
theorem virtual_language {lane : Lane} (hlane : lane.thread_epoch ≠ 0) {bound : BitVec 64}
    (hbound : bound = 0 ∨ bound = lane.parent_detail_thread_epoch) (pe : BitVec 64)
    (healthy : Bool) {log : List EventRow} (hlog : ∀ event ∈ log, Bound lane pe event)
    (pending : List Frame) :
    log.length ≤ 16384 ∧ replay lane healthy log = .ok pending ↔
      (∃ requests : List Request, (run 16384 8 lane.thread_epoch bound requests).fault = none ∧
        (run 16384 8 lane.thread_epoch bound requests).events = log ∧
        (run 16384 8 lane.thread_epoch bound requests).stack = pending ∧
        (run 16384 8 lane.thread_epoch bound requests).admission.detail_epoch =
          lane.parent_detail_thread_epoch ∧
        (run 16384 8 lane.thread_epoch bound requests).admission.router_epoch =
          lane.parent_router_thread_epoch) ∧
      (lane.parent_detail_thread_epoch = 0 ↔ log = []) ∧
      (lane.parent_router_thread_epoch = 0 ↔ log = []) ∧
      (healthy = true → Consecutive (entrySerials log)) := by
  have hnew : Model.new lane.thread_epoch bound =
      { admission := { epoch := lane.thread_epoch, detail_epoch := bound } } := by
    unfold Model.new
    rw [if_neg hlane]
  have hknown : Admission.Known lane pe bound
      { epoch := lane.thread_epoch, detail_epoch := bound } {} :=
    ⟨rfl, rfl, rfl, rfl, fun id hid => (by cases hid), fun id hid => (by cases hid), Or.inl rfl,
      rfl, rfl⟩
  let epochs (kept : Kept) : BitVec 64 × BitVec 64 :=
    (if kept.entries = 0 then bound else lane.parent_detail_thread_epoch,
      if kept.entries = 0 then 0 else lane.parent_router_thread_epoch)
  have hgood : ∀ a kept, Admission.Known lane pe bound a kept → a.Good lane ∧
      (a.detail_epoch, a.router_epoch) = epochs kept := by
    intro a kept h
    refine ⟨⟨?_, ?_⟩, Prod.ext h.detail h.router⟩
    · exact (unbound_or_eq h.detail hbound).symm
    · exact (unbound_or_eq h.router (Or.inl rfl)).symm
  have hends : ∀ r, (format lane false).replay {} log = .ok r →
      (lane.parent_detail_thread_epoch = 0 ↔ log = []) ∧
        (lane.parent_router_thread_epoch = 0 ↔ log = []) →
      epochs r.admission = (lane.parent_detail_thread_epoch, lane.parent_router_thread_epoch) := by
    rintro r hreplay ⟨hdetail, hrouter⟩
    by_cases hzero : r.admission.entries = 0
    · have hempty := (replay_entries log hreplay).mp hzero
      have hstart : bound = lane.parent_detail_thread_epoch := by
        rcases hbound with hunbound | heq
        · rw [hunbound, hdetail.mpr hempty]
        · exact heq
      simp only [epochs, hzero, if_true, hstart, hrouter.mpr hempty]
    · simp only [epochs, hzero, if_false]
  have hreplay : replay lane healthy log = .ok pending ↔
      ∃ r, (format lane healthy).replay {} log = .ok r ∧
        ((lane.parent_detail_thread_epoch ≠ 0 ↔ r.admission.entries ≠ 0) ∧
          (lane.parent_router_thread_epoch ≠ 0 ↔ r.admission.entries ≠ 0)) ∧
        r.stack = pending := by
    unfold replay
    simp only [bind_ok, need_ok, pure_ok]
    constructor
    · rintro ⟨r, haccept, _, hepoch, hend⟩
      exact ⟨r, haccept, hepoch, hend⟩
    · rintro ⟨r, haccept, hepoch, hend⟩
      exact ⟨r, haccept, (), hepoch, hend⟩
  have hlanguage := lane_iff
    (fun a : Admission => (a.detail_epoch, a.router_epoch)) epochs
    (fun kept => (lane.parent_detail_thread_epoch ≠ 0 ↔ kept.entries ≠ 0) ∧
      (lane.parent_router_thread_epoch ≠ 0 ↔ kept.entries ≠ 0))
    ((lane.parent_detail_thread_epoch = 0 ↔ log = []) ∧
      (lane.parent_router_thread_epoch = 0 ↔ log = []))
    (virtual_follows hlane pe bound) (virtual_answers pe hbound) hgood
    (fun a heq => ⟨Or.inl (Prod.ext_iff.mp heq).1, Or.inl (Prod.ext_iff.mp heq).2⟩) hknown hlog
    (fun r haccept => by
      rw [not_iff_not, not_iff_not, replay_entries log haccept]) hends
    (virtual_numbering lane) (virtual_numbers lane) rfl healthy pending
  rw [← hnew] at hlanguage
  have hid : ∀ events : List Event, events.map (Snapshot.map id) = events := fun events =>
    map_id events
  simp only [hid, map_id, Prod.mk.injEq, and_assoc] at hlanguage
  rw [hreplay]
  simp only [and_assoc]
  exact hlanguage

/-- The entry of a body, with the serials of its own, its consumer body and its router. -/
def entryOf (serial detail router : BitVec 64) (r3 f1_bits : BitVec 64) : Entry where
  invocation := ⟨1, serial⟩
  parent_entry := ⟨⟨1, detail⟩, ⟨5, router⟩, ⟨7, 8, 9⟩, ConsumerDetail.kTarget,
    ConsumerDetail.kCaller, 0, 0⟩
  parent_child := ⟨kCaller, r3, f1_bits, 0x1f8258D1A0, kTarget, .kActive, true⟩
  actual_target := kTarget
  caller_lr := kCaller
  r3 := r3
  f1_bits := f1_bits

/-- A body whose first call is another body, which an exception ends after its second call. -/
def nestedRequests : List Request :=
  [.Enter (entryOf 1 3 4 0x10 0x20), .CallPre ⟨1, 1⟩ 0 0x8258D1E8 0x11 0x21 0x1f00000031,
    .Enter (entryOf 2 5 9 0x12 0x22), .CallPre ⟨1, 2⟩ 0 0x8258D1E8 0x13 0x23 0,
    .CallReturn ⟨1, 2⟩ 0, .CallPre ⟨1, 2⟩ 1 0x8258D1FC 0x14 0x24 0x32, .CallException ⟨1, 2⟩ 1,
    .Exit ⟨1, 2⟩ false, .CallReturn ⟨1, 1⟩ 0, .Freeze]

theorem virtual_language_nested :
    replay ⟨1, 9, 1, 5⟩ true (run 16384 8 1 0 nestedRequests).events =
      .ok (run 16384 8 1 0 nestedRequests).stack :=
  ((@virtual_language ⟨1, 9, 1, 5⟩ (by decide) 0 (Or.inl rfl) 8 true _ (by decide) _).mpr
    ⟨⟨nestedRequests, by decide, rfl, rfl, by decide, by decide⟩,
      by decide, by decide, fun _ => by decide⟩).2

/-- The bodies of a lane, each of which an exception ends before anything else happens. -/
def unfinished (n : Nat) : Frame :=
  { entry := entryOf (BitVec.ofNat 64 (n + 1)) (BitVec.ofNat 64 (n + 1)) (BitVec.ofNat 64 (n + 1))
      0 0 }

/-- What the replay keeps of the first of them. -/
def unfinishedKept (n : Nat) (phase_epoch : Option (BitVec 64)) : Kept where
  last_id := BitVec.ofNat 64 n
  last_detail := BitVec.ofNat 64 n
  last_router := BitVec.ofNat 64 n
  entries := n
  parents := (List.range n).reverse.map fun i => ⟨1, BitVec.ofNat 64 (i + 1)⟩
  routers := (List.range n).reverse.map fun i => ⟨5, BitVec.ofNat 64 (i + 1)⟩
  phase_epoch := phase_epoch

/-- The identities of an epoch up to a serial do not have the next. -/
theorem next_notMem (epoch : BitVec 64) {n : Nat} (hn : n < 8193) :
    (⟨epoch, BitVec.ofNat 64 (n + 1)⟩ : InvocationId) ∉
      (List.range n).reverse.map fun i => ⟨epoch, BitVec.ofNat 64 (i + 1)⟩ := by
  intro hmem
  obtain ⟨i, hi, heq⟩ := mem_map.mp hmem
  have hi : i < n := by simpa using hi
  have hserial := congrArg (fun id : InvocationId => id.serial.toNat) heq
  have hnat : (BitVec.ofNat 64 (i + 1)).toNat = (BitVec.ofNat 64 (n + 1)).toNat := hserial
  rw [BitVec.toNat_ofNat, BitVec.toNat_ofNat, Nat.mod_eq_of_lt (by omega),
    Nat.mod_eq_of_lt (by omega)] at hnat
  omega

theorem checkFrame_unfinished {n : Nat} (hn : n < 8193) : checkFrame (unfinished n) = .ok () := by
  have hpositive : BitVec.ofNat 64 (n + 1) ≠ 0 := by
    intro h
    have hnat := congrArg BitVec.toNat h
    rw [BitVec.toNat_ofNat, Nat.mod_eq_of_lt (by omega)] at hnat
    exact Nat.succ_ne_zero n hnat
  have hparent : ConsumerDetail.checkEntry (unfinished n).entry.parent_entry true = .ok () :=
    ConsumerDetail.checkEntry_iff.mpr ⟨show (1 : BitVec 64) ≠ 0 by decide, hpositive,
      show (5 : BitVec 64) ≠ 0 by decide, hpositive, ConsumerDetail.bound_unfinished, rfl, rfl⟩
  exact checkFrame_new (checkEntry_iff.mpr ⟨show (1 : BitVec 64) ≠ 0 by decide, hpositive, hparent,
    ⟨rfl, rfl, rfl, rfl, show (0x1f8258D1A0 : BitVec 64).setWidth 32 = kTarget by decide, rfl, rfl,
      rfl, rfl⟩⟩)

theorem replay_unfinished : (format ⟨1, 9, 1, 5⟩ false).replay (unfinishedKept 0 none)
    (pairs .kEntry .kExceptionalExit unfinished 8193) =
      .ok ⟨[], unfinishedKept 8193 (some 8)⟩ := by
  refine Format.replay_pairs (b := fun n => unfinishedKept n (if n = 0 then none else some 8))
    (c := fun n => unfinishedKept (n + 1) (some 8)) ?_ ?_ 8193 le_rfl
  · intro n hn
    have hlt := RouterDispatch.lt_succ hn
    refine (Format.event_entry rfl).mpr ⟨unfinishedKept n (some 8), _,
      common_ok.mpr ⟨checkFrame_unfinished hn, ⟨rfl, ⟨rfl, rfl⟩, rfl⟩, rfl, ?_, ?_⟩,
      enter_ok.mpr ⟨⟨hlt, hlt, hlt, next_notMem 1 hn, next_notMem 5 hn, Nat.zero_lt_succ 7⟩,
        fun h => (by cases h), ?_⟩, rfl, rfl⟩
    · cases n <;> rfl
    · cases n <;> rfl
    · unfold unfinishedKept
      rw [range_succ, reverse_append]
      rfl
  · intro n hn
    exact (Format.event_call rfl).mpr ⟨_, _, _,
      common_ok.mpr ⟨checkFrame_unfinished hn, ⟨rfl, ⟨rfl, rfl⟩, rfl⟩, rfl, rfl, rfl⟩, rfl, rfl,
      rfl, rfl⟩

theorem unfinished_bound :
    ∀ event ∈ pairs .kEntry .kExceptionalExit unfinished 8193,
      Bound ⟨1, 9, 1, 5⟩ 8 event := by
  intro event hevent
  obtain ⟨i, -, heq⟩ := mem_pairs hevent
  rw [Bound, heq]
  exact ⟨ConsumerDetail.bound_unfinished, rfl, rfl, rfl⟩

/-- No run records as many. -/
theorem unfinished_unrecorded {requests : List Request}
    (hsound : (run 16384 8 1 0 requests).fault = none)
    (hdetail : (run 16384 8 1 0 requests).admission.detail_epoch = 1)
    (hrouter : (run 16384 8 1 0 requests).admission.router_epoch = 5) :
    (run 16384 8 1 0 requests).events ≠
      pairs .kEntry .kExceptionalExit unfinished 8193 := by
  intro hlog
  obtain ⟨r, -, hrel⟩ := (@virtual_follows ⟨1, 9, 1, 5⟩ (by decide) 8 0).run
    (rel_new (show Admission.Known ⟨1, 9, 1, 5⟩ 8 0 { epoch := 1 } {} from
      ⟨rfl, rfl, rfl, rfl, fun id hid => (by cases hid), fun id hid => (by cases hid), Or.inl rfl,
        rfl, rfl⟩)) rfl requests ⟨hsound, Or.inl hdetail, Or.inl hrouter⟩ (by
      intro event hevent
      have hmem : event ∈ (run 16384 8 1 0 requests).events.map (Snapshot.map id) := hevent
      rw [show (run 16384 8 1 0 requests).events.map (Snapshot.map id) = _ from map_id _,
        hlog] at hmem
      exact unfinished_bound event hmem)
  have hlength := congrArg List.length hlog
  rw [length_pairs] at hlength
  have hfits : (run 16384 8 1 0 requests).events.length ≤ 16384 := hrel.fits
  omega

/-- The replay itself has no bound on the log, and in a healthy journal it asks for serials that
leave none out, which the recorder does not. -/
theorem virtual_language_unbounded :
    (¬ ∀ (log : List EventRow) (pending : List Frame), (∀ event ∈ log, Bound ⟨1, 9, 1, 5⟩ 8 event) →
      (replay ⟨1, 9, 1, 5⟩ false log = .ok pending ↔
        ∃ requests : List Request, (run 16384 8 1 0 requests).fault = none ∧
          (run 16384 8 1 0 requests).events = log ∧
          (run 16384 8 1 0 requests).stack = pending ∧
          (run 16384 8 1 0 requests).admission.detail_epoch = 1 ∧
          (run 16384 8 1 0 requests).admission.router_epoch = 5)) ∧
    ¬ ∀ (log : List EventRow) (pending : List Frame),
      (∀ event ∈ log, Bound ⟨1, 9, 1, 5⟩ 8 event) → log.length ≤ 16384 →
      (replay ⟨1, 9, 1, 5⟩ true log = .ok pending ↔
        ∃ requests : List Request, (run 16384 8 1 0 requests).fault = none ∧
          (run 16384 8 1 0 requests).events = log ∧
          (run 16384 8 1 0 requests).stack = pending ∧
          (run 16384 8 1 0 requests).admission.detail_epoch = 1 ∧
          (run 16384 8 1 0 requests).admission.router_epoch = 5) := by
  refine ⟨fun h => ?_, fun h => ?_⟩
  · have haccept : replay ⟨1, 9, 1, 5⟩ false
        (pairs .kEntry .kExceptionalExit unfinished 8193) = .ok [] := by
      unfold replay
      rw [show (format ⟨1, 9, 1, 5⟩ false).replay {} _ = _ from replay_unfinished]
      rfl
    obtain ⟨requests, hsound, hlog, -, hdetail, hrouter⟩ := (h _ _ unfinished_bound).mp haccept
    exact unfinished_unrecorded hsound hdetail hrouter hlog
  · have hrun := (h [⟨.kEntry, unfinished 1⟩] [unfinished 1] (by decide) (by decide)).mpr
      ⟨[.Enter (unfinished 1).entry], by decide, by decide, by decide, by decide, by decide⟩
    have hrefused : replay ⟨1, 9, 1, 5⟩ true [⟨.kEntry, unfinished 1⟩] ≠ .ok [unfinished 1] := by
      decide
    exact hrefused hrun

end Mcla.VirtualDetail

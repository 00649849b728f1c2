import Mcla.Observers.RouterReplay
import Mcla.Observers.ConsumerDetail

/-! # Reading a consumer journal back

A lane of the journal belongs to one native thread, one router lane and, while it lasts, one
update thread; the snapshots of its events are checked for their shape, and then followed from
one to the next.

What the journal says of clocks, of accessors and of the lexical parent is not modelled, nor are
the other lanes.
-/
namespace Mcla.ConsumerDetail
open NestedRecorder
open SnapshotReplay
open RouterDispatch (InvocationId UpdateBinding U32 pos_iff low_eq)
open List

/-- An event, as the journal writes it. -/
abbrev EventRow := Snapshot EventKind Frame

/-! ### The decoder -/

def TARGET : BitVec 32 := 0x822C7870
def CALLER : BitVec 64 := 0x822C5328
def CHILD_LRS : List (BitVec 64) := [0x822C78C0, 0x822C78CC, 0x822C78D8]
def DIRECT_TARGETS : List (BitVec 32) := [0, 0x82588428, 0x82476238]

/-- An identity is positive or zero. -/
def checkId (value : InvocationId) (positive : Bool) : Except String Unit :=
  need (positive = true → 0 < value.thread_epoch ∧ 0 < value.serial) "positive invocation identity"

/-- An update binding, as it may be written. -/
def checkBinding (value : UpdateBinding) (positive : Bool) : Except String Unit :=
  need (positive = true →
    0 < value.phase_call_id ∧ 0 < value.thread_epoch ∧ 0 < value.native_thread_id)
    "positive Update identity"

/-- An entry, as it may be written. -/
def checkEntry (value : Entry) (admitted : Bool) : Except String Unit := do
  checkId value.invocation admitted
  checkId value.router admitted
  checkBinding value.update admitted
  need (admitted = true → value.actual_target = TARGET ∧ value.caller_lr = CALLER)
    "exact observed body/caller"

/-- A call, as it may be written. -/
def checkChild (index : Nat) (c : Child) : Except String Unit :=
  if c.state = .kAbsent then need (c = {}) "absent child is zeroed"
  else do
    need (CHILD_LRS[index]? = some c.caller_lr ∧ c.indirect = decide (index = 0))
      "exact selected child route"
    if index = 0 then
      need (c.requested_target.setWidth 64 = c.indirect_ctr &&& U32)
        "indirect requested target low32"
    else
      need (c.indirect_ctr = 0 ∧ DIRECT_TARGETS[index]? = some c.requested_target)
        "direct instruction target never CTR"

/-- A frame, as it may be written. -/
def checkFrame (value : Frame) : Except String Unit := do
  checkEntry value.entry true
  checkId value.parent false
  need (value.returned_children ≤ 3) "bounded integer"
  need (value.children.length = 3) "exact three child slots"
  value.children.zipIdx.forM fun slot => checkChild slot.2 slot.1

/-- The snapshot that an event asks for, from the one before; `f` is the snapshot it comes
with. -/
def wanted (top : Frame) (kind : EventKind) (f : Frame) : Except String Frame :=
  let child := top.returned_children
  match kind with
  | .kEntry => return top
  | .kBranch => do
    need (top.stage = .kEntered) "branch observed once"
    return { top with
      stage := .kBranched
      branch_r11 := f.branch_r11
      branch_observed := true
      branch_nonzero := f.branch_r11 &&& U32 ≠ (0 : BitVec 64) }
  | .kChildPre => do
    need ((top.stage = .kBranched ∨ top.stage = .kChildReturned) ∧ top.branch_observed = true ∧
      top.branch_nonzero = true ∧ child < 3) "ordered child pre after nonzero branch"
    need ((f.children.getD child {}).state = .kActive) "selected child active"
    return { top with
      children := top.children.set child (f.children.getD child {})
      stage := .kChildActive }
  | .kChildReturn => do
    need (top.stage = .kChildActive ∧ child < 3 ∧ (top.children.getD child {}).state = .kActive)
      "matching active child end"
    return { top with
      children := top.children.set child { top.children.getD child {} with state := .kReturned }
      stage := .kChildReturned
      returned_children := child + 1 }
  | .kChildException => do
    need (top.stage = .kChildActive ∧ child < 3 ∧ (top.children.getD child {}).state = .kActive)
      "matching active child end"
    return { top with
      children := top.children.set child { top.children.getD child {} with state := .kException }
      stage := .kChildException }
  | .kNormalExit => do
    need (top.branch_observed = true ∧
      ((top.branch_nonzero = true ∧ top.stage = .kChildReturned ∧ child = 3) ∨
        (top.branch_nonzero = false ∧ top.stage = .kBranched)))
      "normal exit requires exact selected route completed"
    return top
  | .kExceptionalExit => return top

def EventKind.isExit : EventKind → Bool
  | .kNormalExit | .kExceptionalExit => true
  | _ => false

/-- The frame that an entry opens. -/
def Frame.fresh (f : Frame) (parent : InvocationId) : Frame :=
  { f with
    parent := parent, stage := .kEntered, branch_r11 := 0, branch_observed := false,
    branch_nonzero := false, returned_children := 0, children := replicate 3 {} }

/-- A lane, as far as its events are compared with it. -/
structure Lane where
  thread_epoch : BitVec 64
  native_thread_id : BitVec 32
  router_thread_epoch : BitVec 64

/-- What the replay keeps of the entries. -/
structure Kept where
  (last_id last_router : BitVec 64 := 0)
  entries : Nat := 0
  router_ids : List InvocationId := []
  phase_epoch : Option (BitVec 64) := none

/-- A journal is `healthy` when it counts no dropped entry and no error. -/
def format (lane : Lane) (healthy : Bool) : Format Kept Frame EventKind InvocationId String where
  common kept f := do
    checkFrame f
    need (f.entry.invocation.thread_epoch = lane.thread_epoch ∧
      f.entry.router.thread_epoch = lane.router_thread_epoch)
      "exact independent detail/router lane epochs"
    need (f.entry.update.native_thread_id = lane.native_thread_id) "entry binding native lane"
    let phase_epoch := kept.phase_epoch.getD f.entry.update.thread_epoch
    need (f.entry.update.thread_epoch = phase_epoch) "one phase thread lifetime per detail lane"
    return { kept with phase_epoch := some phase_epoch }
  isEntry kind := kind = .kEntry
  isExit kind := kind.isExit
  enter kept stack f := do
    need (kept.last_id < f.entry.invocation.serial ∧ kept.last_router < f.entry.router.serial ∧
      f.entry.router ∉ kept.router_ids ∧ stack < 8)
      "monotonic IDs, once per router, bounded nesting"
    need (healthy = true → f.entry.invocation.serial.toNat = kept.last_id.toNat + 1)
      "healthy native detail allocation serials"
    return { kept with
      last_id := f.entry.invocation.serial
      last_router := f.entry.router.serial
      entries := kept.entries + 1
      router_ids := f.entry.router :: kept.router_ids }
  idOf f := f.entry.invocation
  absent := {}
  fresh := Frame.fresh
  wanted := wanted
  notFresh := "exact initialized frame"
  notTop := "LIFO exact detail identity"
  notExact := "full scalar transition snapshot exact"

/-- The pending snapshots, from the innermost one, of a lane that is accepted. -/
def replay (lane : Lane) (healthy : Bool) (events : List EventRow) :
    Except String (List Frame) := do
  let r ← (format lane healthy).replay {} events
  need (lane.router_thread_epoch ≠ 0 ↔ r.admission.entries ≠ 0)
    "router lane epoch bound only by successful first entry"
  return r.stack

/-! ### Snapshots of the recorder -/

/-- What the check of a slot says of a child that is not absent. -/
def Child.Selected (c : Child) (index : Nat) : Prop :=
  kChildReturnLr[index]? = some c.caller_lr ∧ c.indirect = decide (index = 0) ∧
    (index ≠ 0 → c.indirect_ctr = 0) ∧
    c.requested_target = if index = 0 then c.indirect_ctr.setWidth 32 else kDirectTarget.getD index 0

theorem checkChild_absent (index : Nat) : checkChild index {} = .ok () := rfl

theorem checkChild_iff {index : Nat} {c : Child} (hindex : index < 3) (hc : c.state ≠ .kAbsent) :
    checkChild index c = .ok () ↔ c.Selected index := by
  have htarget : DIRECT_TARGETS[index]? = some c.requested_target ↔
      c.requested_target = kDirectTarget.getD index 0 := by
    have hlist : DIRECT_TARGETS = kDirectTarget := rfl
    rw [hlist, getD_eq_getElem?_getD, getElem?_eq_getElem (by exact hindex)]
    simp only [Option.some.injEq, Option.getD_some]
    exact eq_comm
  have hlow := low_eq (by omega : 32 ≤ 64) c.requested_target c.indirect_ctr
  unfold checkChild Child.Selected
  rw [if_neg hc, check_ok, need_ok]
  by_cases hzero : index = 0
  · rw [if_pos hzero, need_ok, if_pos hzero]
    rw [show U32 = BitVec.ofNat 64 (2 ^ 32 - 1) from rfl, hlow]
    constructor
    · rintro ⟨⟨h1, h2⟩, h3⟩
      exact ⟨h1, h2, fun h => absurd hzero h, h3⟩
    · rintro ⟨h1, h2, -, h3⟩
      exact ⟨⟨h1, h2⟩, h3⟩
  · rw [if_neg hzero, need_ok, if_neg hzero, htarget]
    constructor
    · rintro ⟨⟨h1, h2⟩, h3, h4⟩
      exact ⟨h1, h2, fun _ => h3, h4⟩
    · rintro ⟨h1, h2, h3, h4⟩
      exact ⟨⟨h1, h2⟩, h3 hzero, h4⟩

variable {value : Frame}

theorem checkFrame_iff : checkFrame value = .ok () ↔
    checkEntry value.entry true = .ok () ∧ value.returned_children ≤ 3 ∧ value.children.length = 3 ∧
      ∀ index c, value.children[index]? = some c → checkChild index c = .ok () := by
  have hparent : checkId value.parent false = .ok () := need_ok.mpr fun h => by cases h
  unfold checkFrame
  rw [check_ok, check_ok, check_ok, check_ok, need_ok, need_ok, slots_ok]
  exact ⟨fun h => ⟨h.1, h.2.2⟩, fun h => ⟨h.1, hparent, h.2⟩⟩

/-- A slot of a frame that was checked, filled anew. -/
theorem checkFrame_set (h : checkFrame value = .ok ()) {f : Frame} {index : Nat} {c : Child}
    (hentry : f.entry = value.entry) (hreturned : f.returned_children ≤ 3)
    (hchildren : f.children = value.children.set index c) (hc : checkChild index c = .ok ()) :
    checkFrame f = .ok () := by
  obtain ⟨h1, -, h3, h4⟩ := checkFrame_iff.mp h
  refine checkFrame_iff.mpr ⟨by rw [hentry]; exact h1, hreturned, ?_, ?_⟩
  · rw [hchildren, length_set]
    exact h3
  · rw [hchildren]
    exact slots_set h4 hc

theorem slots_length (h : checkFrame value = .ok ()) : value.children.length = 3 :=
  (checkFrame_iff.mp h).2.2.1

theorem slot_selected (h : checkFrame value = .ok ()) {index : Nat} (hindex : index < 3)
    (hc : (value.children.getD index {}).state ≠ .kAbsent) :
    (value.children.getD index {}).Selected index := by
  obtain ⟨-, -, hlength, hslots⟩ := checkFrame_iff.mp h
  have hplace : index < value.children.length := by omega
  exact (checkChild_iff hindex hc).mp (hslots index _ (slot_eq hplace {}))

/-! ### Recorder and replay side by side -/

/-- What holds of every open frame of a lane. -/
structure Frame.Shown (lane : Lane) (pe : BitVec 64) (f : Frame) : Prop where
  check : checkFrame f = .ok ()
  own : f.entry.invocation.thread_epoch = lane.thread_epoch
  router : f.entry.router.thread_epoch = lane.router_thread_epoch
  native : f.entry.update.native_thread_id = lane.native_thread_id
  phase : f.entry.update.thread_epoch = pe

/-- What the replay knows of the entries, of which the first binds the router epoch. -/
structure Admission.Known (lane : Lane) (pe bound : BitVec 64) (a : Admission) (kept : Kept) :
    Prop where
  epoch : a.epoch = lane.thread_epoch
  serial : kept.last_id = a.last_serial
  router_serial : kept.last_router = a.last_router_serial
  routers : ∀ id ∈ kept.router_ids, id.serial ≤ kept.last_router
  phase : kept.phase_epoch = none ∨ kept.phase_epoch = some pe
  router : a.router_epoch = if kept.entries = 0 then bound else lane.router_thread_epoch

section Simulation
variable {lane : Lane} {pe bound : BitVec 64} {healthy : Bool} {m : Model} {r r' : State Kept Frame}
  {f : Frame} {event : EventRow} {kept kept' : Kept} {row : Frame}

theorem common_ok : (format lane healthy).common kept row = .ok kept' ↔
    checkFrame row = .ok () ∧ (row.entry.invocation.thread_epoch = lane.thread_epoch ∧
      row.entry.router.thread_epoch = lane.router_thread_epoch) ∧
      row.entry.update.native_thread_id = lane.native_thread_id ∧
      row.entry.update.thread_epoch = kept.phase_epoch.getD row.entry.update.thread_epoch ∧
      { kept with phase_epoch := some (kept.phase_epoch.getD row.entry.update.thread_epoch) } =
        kept' := by
  show (checkFrame row >>= fun _ => need _ _ >>= fun _ => need _ _ >>= fun _ => need _ _ >>=
    fun _ => pure _) = _ ↔ _
  rw [check_ok, check_ok, check_ok, check_ok, need_ok, need_ok, need_ok, pure_ok]

theorem enter_ok {stack : Nat} : (format lane healthy).enter kept stack row = .ok kept' ↔
    (kept.last_id < row.entry.invocation.serial ∧ kept.last_router < row.entry.router.serial ∧
      row.entry.router ∉ kept.router_ids ∧ stack < 8) ∧
      (healthy = true → row.entry.invocation.serial.toNat = kept.last_id.toNat + 1) ∧
      { kept with
        last_id := row.entry.invocation.serial
        last_router := row.entry.router.serial
        entries := kept.entries + 1
        router_ids := row.entry.router :: kept.router_ids } = kept' := by
  show (need _ _ >>= fun _ => need _ _ >>= fun _ => pure _) = _ ↔ _
  rw [check_ok, check_ok, need_ok, need_ok, pure_ok]

theorem consumer_common (lane : Lane) (pe bound : BitVec 64) :
    Common (format lane false) id (Frame.Shown lane pe) (Admission.Known lane pe bound) := by
  intro a kept f h hf
  have hphase : kept.phase_epoch.getD f.entry.update.thread_epoch = pe := by
    rcases h.phase with hnone | hsome
    · rw [hnone]
      exact hf.phase
    · rw [hsome]
      rfl
  refine ⟨{ kept with phase_epoch := some pe },
    common_ok.mpr ⟨hf.check, ⟨hf.own, hf.router⟩, hf.native, ?_, ?_⟩,
    ⟨h.epoch, h.serial, h.router_serial, h.routers, Or.inr rfl, h.router⟩⟩
  · exact hf.phase.trans hphase.symm
  · show { kept with phase_epoch := some (kept.phase_epoch.getD f.entry.update.thread_epoch) } = _
    rw [hphase]

/-- The decoder follows the model. -/
abbrev ConsumerRel (lane : Lane) (pe bound : BitVec 64) : Model → State Kept Frame → Prop :=
  Rel id (Frame.Shown lane pe) (Admission.Known lane pe bound) 8 16384

/-- One event, as the decoder accepts it. -/
abbrev ConsumerStep (lane : Lane) (pe : BitVec 64) : Frame → Option Frame → Event → Prop :=
  Step (format lane false) id (Frame.Shown lane pe)

theorem Room_ok {capacity : Nat} {u : Unit} :
    m.Room capacity = .ok u ↔ m.events.length < capacity := Recorder.room_ok

/-! Each call on the innermost frame, as the replay sees it. -/

theorem Frame.Shown.amended {f' : Frame} (hf : f.Shown lane pe) (hentry : f'.entry = f.entry)
    (hcheck : checkFrame f' = .ok ()) : f'.Shown lane pe :=
  ⟨hcheck, by rw [hentry]; exact hf.own, by rw [hentry]; exact hf.router,
    by rw [hentry]; exact hf.native, by rw [hentry]; exact hf.phase⟩

/-- A frame that a call changed and left open. -/
theorem stays {f' : Frame} {kind : EventKind} (hf : f.Shown lane pe) (hkind : kind ≠ .kEntry)
    (hstays : kind.isExit = false) (hentry : f'.entry = f.entry)
    (hcheck : checkFrame f' = .ok ()) (hwanted : wanted f kind f' = .ok f') :
    ConsumerStep lane pe f (changed f' kind).1 (changed f' kind).2 where
  ends := by
    show some f' = if kind.isExit then none else some f'
    rw [hstays]
    rfl
  kind := decide_eq_false hkind
  id := congrArg Entry.invocation hentry.symm
  ok := hf.amended hentry hcheck
  wanted := hwanted

theorem low32_ne_zero (r11 : BitVec 64) :
    decide (r11.setWidth 32 ≠ (0 : BitVec 32)) = decide (r11 &&& U32 ≠ (0 : BitVec 64)) := by
  have hlow := low_eq (by omega : 32 ≤ 64) (0 : BitVec 32) r11
  apply decide_eq_decide.mpr
  rw [not_iff_not]
  constructor
  · intro h
    exact (hlow.mpr h.symm).symm
  · intro h
    exact (hlow.mp h.symm).symm

theorem branch_step (hf : f.Shown lane pe) (hstage : f.stage = .kEntered) (r11 : BitVec 64) :
    let f' := { f with
      branch_r11 := r11, branch_observed := true,
      branch_nonzero := decide (r11.setWidth 32 ≠ (0 : BitVec 32)), stage := .kBranched }
    ConsumerStep lane pe f (changed f' .kBranch).1 (changed f' .kBranch).2 := by
  refine stays hf (by decide) rfl rfl (checkFrame_iff.mpr (checkFrame_iff.mp hf.check)) ?_
  rw [wanted, need_pure_ok]
  refine ⟨hstage, ?_⟩
  rw [low32_ne_zero]

/-- The child that a call fills in. -/
def selected (child : Nat) (caller_lr r3 f1_bits indirect_ctr : BitVec 64) : Child :=
  ⟨caller_lr, r3, f1_bits, indirect_ctr,
    if child = 0 then indirect_ctr.setWidth 32 else kDirectTarget.getD child 0, .kActive, child = 0⟩

theorem childPre_step (hf : f.Shown lane pe)
    (hstage : f.stage = .kBranched ∨ f.stage = .kChildReturned) (hobserved : f.branch_observed = true)
    (hnonzero : f.branch_nonzero = true) (hchild : f.returned_children < 3)
    {caller_lr indirect_ctr : BitVec 64}
    (hcaller : kChildReturnLr[f.returned_children]? = some caller_lr)
    (hdirect : f.returned_children ≠ 0 → indirect_ctr = 0) (r3 f1_bits : BitVec 64) :
    let f' := { f with
      children := f.children.set f.returned_children
        (selected f.returned_children caller_lr r3 f1_bits indirect_ctr)
      stage := .kChildActive }
    ConsumerStep lane pe f (changed f' .kChildPre).1 (changed f' .kChildPre).2 := by
  have hc : checkChild f.returned_children
      (selected f.returned_children caller_lr r3 f1_bits indirect_ctr) = .ok () :=
    (checkChild_iff hchild (by simp [selected])).mpr ⟨hcaller, rfl, hdirect, rfl⟩
  refine stays hf (by decide) rfl rfl
    (checkFrame_set hf.check rfl (Nat.le_of_lt hchild) rfl hc) ?_
  rw [wanted, check_ok, check_ok, need_ok, need_ok, pure_ok,
    slot_set (by rw [slots_length hf.check]; exact hchild)]
  exact ⟨⟨hstage, hobserved, hnonzero, hchild⟩, rfl, rfl⟩

theorem childEnd_step (hf : f.Shown lane pe) (hstage : f.stage = .kChildActive)
    (hchild : f.returned_children < 3)
    (hactive : (f.children.getD f.returned_children {}).state = .kActive) (normal : Bool) :
    let f' := { f with
      children := f.children.set f.returned_children { f.children.getD f.returned_children {} with
        state := if normal then .kReturned else .kException }
      stage := if normal then .kChildReturned else .kChildException
      returned_children := if normal then f.returned_children + 1 else f.returned_children }
    let kind := if normal then EventKind.kChildReturn else .kChildException
    ConsumerStep lane pe f (changed f' kind).1 (changed f' kind).2 := by
  have hselected := slot_selected hf.check hchild (by rw [hactive]; decide)
  have hc : ∀ state, state ≠ .kAbsent → checkChild f.returned_children
      { f.children.getD f.returned_children {} with state := state } = .ok () :=
    fun state hstate => (checkChild_iff hchild hstate).mpr hselected
  cases normal with
  | true =>
    refine stays hf (by decide) rfl rfl
      (checkFrame_set hf.check rfl hchild rfl (hc .kReturned (by decide))) ?_
    show wanted f .kChildReturn _ = _
    rw [wanted, need_pure_ok]
    exact ⟨⟨hstage, hchild, hactive⟩, rfl⟩
  | false =>
    refine stays hf (by decide) rfl rfl
      (checkFrame_set hf.check rfl (Nat.le_of_lt hchild) rfl (hc .kException (by decide))) ?_
    show wanted f .kChildException _ = _
    rw [wanted, need_pure_ok]
    exact ⟨⟨hstage, hchild, hactive⟩, rfl⟩

theorem exit_step (hf : f.Shown lane pe) {normal : Bool}
    (hnormal : normal = true → f.branch_observed = true ∧
      if f.branch_nonzero then f.stage = .kChildReturned ∧ f.returned_children = 3
      else f.stage = .kBranched) :
    let kind := if normal then EventKind.kNormalExit else .kExceptionalExit
    ConsumerStep lane pe f (closed f kind).1 (closed f kind).2 := by
  cases normal with
  | true =>
    refine ⟨rfl, rfl, rfl, hf, ?_⟩
    show wanted f .kNormalExit f = .ok f
    rw [wanted, need_pure_ok]
    obtain ⟨hobserved, hroute⟩ := hnormal rfl
    refine ⟨⟨hobserved, ?_⟩, rfl⟩
    cases hnonzero : f.branch_nonzero with
    | true =>
      rw [hnonzero] at hroute
      exact Or.inl ⟨rfl, hroute⟩
    | false =>
      rw [hnonzero] at hroute
      exact Or.inr ⟨rfl, hroute⟩
  | false => exact ⟨rfl, rfl, rfl, hf, rfl⟩

/-! Entries. -/

/-- The innermost body, which is the parent of the next. -/
def Model.parent (m : Model) : InvocationId :=
  match m.stack with
  | [] => {}
  | top :: _ => top.entry.invocation

/-- The frame that an entry opens. -/
def Model.frame (m : Model) (entry : Entry) : Frame := { entry := entry, parent := m.parent }

/-- What an entry leaves to compare the next with. -/
def Admission.after (a : Admission) (entry : Entry) : Admission :=
  { a with
    router_epoch := if a.router_epoch = 0 then entry.router.thread_epoch else a.router_epoch
    last_serial := entry.invocation.serial
    last_router_serial := entry.router.serial }

/-- The model after an entry. -/
def Model.entered (m : Model) (entry : Entry) : Model :=
  m.opened (m.admission.after entry) (m.frame entry) ⟨.kEntry, m.frame entry⟩

/-- What the fields of an entry are checked for. -/
structure Admission.Admits (a : Admission) (entry : Entry) : Prop where
  epoch : entry.invocation.thread_epoch = a.epoch
  positive : entry.invocation.serial ≠ 0
  serial : a.last_serial < entry.invocation.serial
  router_epoch : entry.router.thread_epoch ≠ 0
  bound : a.router_epoch ≠ 0 → entry.router.thread_epoch = a.router_epoch
  router_positive : entry.router.serial ≠ 0
  router_serial : a.last_router_serial < entry.router.serial
  target : entry.actual_target = kTarget
  caller : entry.caller_lr = kCaller
  update : entry.update.bound ∨ entry.update.unbound

variable {capacity depth : Nat}

theorem Enter_body (entry : Entry) :
    ∃ body, m.Enter capacity depth entry = m.attempt body ∧ ∀ m', body = .ok m' ↔
      (m.admission.Admits entry ∧ m.stack.length ≠ depth ∧ m.events.length < capacity) ∧
        m.entered entry = m' := by
  refine ⟨_, rfl, fun m' => ?_⟩
  rw [check_ok, check_ok, check_ok, need_ok, need_ok, Recorder.room_ok, pure_ok]
  constructor
  · rintro ⟨⟨h1, h2, h3, h4, h5, h6, h7, h8, h9, h10⟩, hdepth, hroom, heq⟩
    exact ⟨⟨⟨h1, h2, h3, h4, h5, h6, h7, h8, h9, h10⟩, hdepth, hroom⟩, heq⟩
  · rintro ⟨⟨⟨h1, h2, h3, h4, h5, h6, h7, h8, h9, h10⟩, hdepth, hroom⟩, heq⟩
    exact ⟨⟨h1, h2, h3, h4, h5, h6, h7, h8, h9, h10⟩, hdepth, hroom, heq⟩

theorem Enter_cases {entry : Entry} (h : (m.Enter capacity depth entry).1.fault = none) :
    m.frozen = true ∧ (m.Enter capacity depth entry).1 = m ∨
      (m.admission.Admits entry ∧ m.stack.length ≠ depth ∧ m.events.length < capacity) ∧
        (m.Enter capacity depth entry).1 = m.entered entry := by
  obtain ⟨body, hEnter, hbody⟩ := @Enter_body m capacity depth entry
  rw [hEnter] at h ⊢
  rcases Recorder.attempt_cases h with hfrozen | ⟨-, hok⟩
  · exact Or.inl hfrozen
  · obtain ⟨hconds, heq⟩ := (hbody _).mp hok
    exact Or.inr ⟨hconds, heq.symm⟩

theorem Enter_ok {entry : Entry} (hw : m.writable = true) (h : m.admission.Admits entry)
    (hdepth : m.stack.length ≠ depth) (hroom : m.events.length < capacity) :
    m.Enter capacity depth entry = (m.entered entry, true) := by
  obtain ⟨body, hEnter, hbody⟩ := @Enter_body m capacity depth entry
  rw [hEnter]
  exact Recorder.attempt_ok hw ((hbody _).mpr ⟨⟨h, hdepth, hroom⟩, rfl⟩)

/-- The event's update binding is there, and it is of the epoch and the lane's native thread. -/
def Bound (lane : Lane) (pe : BitVec 64) (event : EventRow) : Prop :=
  event.frame.entry.update.bound ∧ event.frame.entry.update.thread_epoch = pe ∧
    event.frame.entry.update.native_thread_id = lane.native_thread_id

instance (lane : Lane) (pe : BitVec 64) (event : EventRow) : Decidable (Bound lane pe event) :=
  inferInstanceAs (Decidable (_ ∧ _))

theorem checkEntry_iff {entry : Entry} : checkEntry entry true = .ok () ↔
    entry.invocation.thread_epoch ≠ 0 ∧ entry.invocation.serial ≠ 0 ∧
      entry.router.thread_epoch ≠ 0 ∧ entry.router.serial ≠ 0 ∧ entry.update.bound ∧
      entry.actual_target = TARGET ∧ entry.caller_lr = CALLER := by
  unfold checkEntry checkId checkBinding UpdateBinding.bound
  rw [check_ok, check_ok, check_ok]
  simp only [need_ok, pos_iff, forall_const]
  tauto

theorem checkFrame_new {entry : Entry} {parent : InvocationId}
    (h : checkEntry entry true = .ok ()) : checkFrame { entry := entry, parent := parent } = .ok () := by
  refine checkFrame_iff.mpr ⟨h, Nat.zero_le _, rfl, ?_⟩
  intro index c hc
  obtain rfl : c = {} := by
    have hmem := mem_of_getElem? hc
    exact (mem_replicate.mp hmem).2
  exact checkChild_absent index

theorem parent_eq (h : ConsumerRel lane pe bound m r) :
    (format lane false).parent r.stack = m.parent := by
  unfold Model.parent
  rw [h.stack]
  cases m.stack <;> rfl

/-- An entry that the recorder admits, as the replay sees it. -/
theorem opening (h : ConsumerRel lane pe bound m r) {entry : Entry}
    (hserial : m.admission.last_serial < entry.invocation.serial)
    (hrouter : m.admission.last_router_serial < entry.router.serial)
    (hepoch : (m.admission.after entry).router_epoch = lane.router_thread_epoch)
    (hdepth : m.stack.length < 8) (hshown : (m.frame entry).Shown lane pe) :
    ∃ kept, Opening (format lane false) id (Frame.Shown lane pe)
      (Admission.Known lane pe bound) r (m.admission.after entry) ⟨.kEntry, m.frame entry⟩ kept := by
  obtain ⟨kept, hcommon, hknown⟩ := consumer_common lane pe bound _ _ _ h.admission hshown
  have hfresh : entry.router ∉ kept.router_ids := by
    intro hmem
    have hle := hknown.routers _ hmem
    rw [hknown.router_serial] at hle
    exact absurd hrouter (BitVec.not_lt.mpr hle)
  refine ⟨_, rfl, ⟨kept, hcommon, enter_ok.mpr ⟨⟨?_, ?_, hfresh, ?_⟩,
    fun hhealthy => (by cases hhealthy), rfl⟩⟩, ?_, hshown, ?_⟩
  · rw [hknown.serial]
    exact hserial
  · rw [hknown.router_serial]
    exact hrouter
  · rw [h.stack, length_map]
    exact hdepth
  · rw [parent_eq h]
    rfl
  · refine ⟨hknown.epoch, rfl, rfl, ?_, hknown.phase, hepoch⟩
    intro id hid
    rcases mem_cons.mp hid with rfl | hold
    · exact BitVec.le_refl _
    · refine BitVec.le_trans (hknown.routers id hold) ?_
      rw [hknown.router_serial]
      exact BitVec.le_of_lt hrouter

/-- What is asked of the recorder: its router epoch is not bound, or that of the lane. -/
def Admission.Good (lane : Lane) (a : Admission) : Prop :=
  a.router_epoch = lane.router_thread_epoch ∨ a.router_epoch = 0

/-- An entry binds the router epoch for good. -/
theorem Admission.Admits.bound_eq {a : Admission} {entry : Entry} (h : a.Admits entry)
    (hgood : (a.after entry).Good lane) :
    entry.router.thread_epoch = lane.router_thread_epoch ∧
      (a.after entry).router_epoch = lane.router_thread_epoch := by
  have hafter : (a.after entry).router_epoch = entry.router.thread_epoch := by
    show (if a.router_epoch = 0 then _ else _) = _
    split
    · rfl
    · rename_i hbound
      exact (h.bound hbound).symm
  rcases hgood with heq | hzero
  · exact ⟨hafter.symm.trans heq, heq⟩
  · exact absurd (hafter.symm.trans hzero) h.router_epoch

theorem Enter_emits (hlane : lane.thread_epoch ≠ 0) {entry : Entry}
    (hsound : (m.Enter 16384 8 entry).1.fault = none)
    (hgood : (m.Enter 16384 8 entry).1.admission.Good lane) :
    Emits (logOf id) (format lane false).event (Bound lane pe) (ConsumerRel lane pe bound) m
      (m.Enter 16384 8 entry).1 := by
  rcases Enter_cases hsound with ⟨-, hsame⟩ | ⟨⟨hadmits, hdepth, hroom⟩, heq⟩
  · left
    rw [hsame]
    exact ⟨rfl, fun r h => h⟩
  · right
    refine ⟨⟨.kEntry, m.frame entry⟩, ?_, ?_⟩
    · rw [heq]
      simp [logOf, Model.entered, Recorder.opened, Snapshot.map]
    · rintro ⟨hbound, hphase, hnative⟩ r h
      rw [heq] at hgood ⊢
      obtain ⟨hrouter, hafter⟩ := hadmits.bound_eq hgood
      have hown : entry.invocation.thread_epoch = lane.thread_epoch :=
        hadmits.epoch.trans h.admission.epoch
      have hcheck : checkEntry entry true = .ok () := checkEntry_iff.mpr
        ⟨hown ▸ hlane, hadmits.positive, hadmits.router_epoch, hadmits.router_positive, hbound,
          hadmits.target, hadmits.caller⟩
      have hshown : (m.frame entry).Shown lane pe :=
        ⟨checkFrame_new hcheck, hown, hrouter, hnative, hphase⟩
      have hdepth' : m.stack.length < 8 := lt_of_le_of_ne h.depth hdepth
      obtain ⟨kept, ho⟩ := opening h hadmits.serial hadmits.router_serial hafter hdepth' hshown
      have hopens := h.opens hdepth' hroom ho
      exact ⟨_, hopens.1, hopens.2⟩

/-- One call. -/
def Model.step (m : Model) (call : Call) : Model := (m.call 16384 8 call).1

theorem step_sound (m : Model) (call : Call) (h : (m.step call).fault = none) :
    m.fault = none ∧ ((m.step call).admission.Good lane → m.admission.Good lane) := by
  have htop : ∀ {id body}, (m.Top id body).1.fault = none →
      m.fault = none ∧ ((m.Top id body).1.admission.Good lane → m.admission.Good lane) := by
    intro id body hsound
    refine ⟨Recorder.attempt_sticky hsound, fun hgood => ?_⟩
    rwa [Model.Top, Recorder.onTop_admission hsound] at hgood
  cases call with
  | Enter entry =>
    refine ⟨Recorder.attempt_sticky h, fun hgood => ?_⟩
    replace hgood : (m.Enter 16384 8 entry).1.admission.Good lane := hgood
    rcases Enter_cases h with ⟨-, hsame⟩ | ⟨-, heq⟩
    · rwa [hsame] at hgood
    · rw [heq] at hgood
      by_cases hzero : m.admission.router_epoch = 0
      · exact Or.inr hzero
      · have hkept : (m.admission.after entry).router_epoch = m.admission.router_epoch :=
          if_neg hzero
        rcases hgood with hsame | hnone
        · exact Or.inl (hkept.symm.trans hsame)
        · exact Or.inr (hkept.symm.trans hnone)
  | Freeze => exact ⟨h, fun hgood => hgood⟩
  | _ => exact htop h

/-- **Every call that leaves no fault** is followed by the replay. -/
theorem consumer_follows (hlane : lane.thread_epoch ≠ 0) (pe bound : BitVec 64) :
    Follows Model.step (logOf id) (fun m => m.fault = none ∧ m.admission.Good lane)
      (format lane false).event (Bound lane pe) (ConsumerRel lane pe bound) where
  sticky := by
    rintro m call ⟨hsound, hgood⟩
    obtain ⟨hbefore, hback⟩ := @step_sound lane m call hsound
    exact ⟨hbefore, hback hgood⟩
  emits := by
    rintro m call ⟨hsound, hgood⟩
    have hcommon := consumer_common lane pe bound
    cases call with
    | Enter entry => exact Enter_emits hlane hsound hgood
    | Branch id r11 =>
      refine onTop_emits hcommon _ hsound fun f left e hf hbody => ?_
      simp only [Room_ok, check_ok, need_ok, pure_ok] at hbody
      obtain ⟨hstage, hroom, heq⟩ := hbody
      cases heq
      exact ⟨hroom, branch_step hf hstage r11⟩
    | ChildPre id child caller_lr r3 f1_bits indirect_ctr =>
      refine onTop_emits hcommon _ hsound fun f left e hf hbody => ?_
      simp only [Room_ok, check_ok, need_ok, pure_ok] at hbody
      obtain ⟨⟨hobserved, hnonzero, hlt, rfl, hstage, hcaller, hdirect⟩, hroom, heq⟩ := hbody
      cases heq
      exact ⟨hroom, childPre_step hf hstage hobserved hnonzero hlt hcaller hdirect r3 f1_bits⟩
    | ChildReturn id child =>
      refine onTop_emits hcommon _ hsound fun f left e hf hbody => ?_
      simp only [Room_ok, check_ok, need_ok, pure_ok] at hbody
      obtain ⟨⟨hstage, hlt, rfl, hactive⟩, hroom, heq⟩ := hbody
      cases heq
      exact ⟨hroom, childEnd_step hf hstage hlt hactive true⟩
    | ChildException id child =>
      refine onTop_emits hcommon _ hsound fun f left e hf hbody => ?_
      simp only [Room_ok, check_ok, need_ok, pure_ok] at hbody
      obtain ⟨⟨hstage, hlt, rfl, hactive⟩, hroom, heq⟩ := hbody
      cases heq
      exact ⟨hroom, childEnd_step hf hstage hlt hactive false⟩
    | Exit id normal =>
      refine onTop_emits hcommon _ hsound fun f left e hf hbody => ?_
      simp only [Room_ok, check_ok, need_ok, pure_ok] at hbody
      obtain ⟨hnormal, hroom, heq⟩ := hbody
      cases heq
      exact ⟨hroom, exit_step hf hnormal⟩
    | Freeze =>
      left
      exact ⟨rfl, fun r h => h.frozen⟩

/-- A child that passes its check is the one that its own operands select. -/
theorem selected_eq {c : Child} {index : Nat} (h : c.Selected index) (hactive : c.state = .kActive) :
    selected index c.caller_lr c.r3 c.f1_bits c.indirect_ctr = c := by
  obtain ⟨-, hindirect, -, htarget⟩ := h
  cases c
  dsimp only at hindirect htarget hactive
  subst hindirect htarget hactive
  rfl

/-- The call that an accepted event comes from. -/
theorem reply_call (h : ConsumerRel lane pe bound m r) (hw : m.writable = true)
    (hroom : m.events.length < 16384) (hentry : event.kind ≠ .kEntry)
    (haccept : (format lane false).event r event = .ok r') :
    ∃ call, Replies (logOf id) (fun m => m.writable = true) (ConsumerRel lane pe bound) m
      (m.step call) event r' := by
  obtain ⟨kept, top, rows, hcheck, hrows, -, hwanted, -⟩ :=
    (Format.event_call (decide_eq_false hentry)).mp haccept
  obtain ⟨f, rest, hstack, rfl, hf⟩ := h.innermost hrows
  replace hcheck := (common_ok.mp hcheck).1
  have hcommon := consumer_common lane pe bound
  have hreplies : ∀ {body : Frame → Except Fault (Option Frame × Event)} {left : Option Frame}
      {e : Event}, body f = .ok (left, e) → ConsumerStep lane pe f left e →
      e = event → Replies (logOf id) (fun m => m.writable = true)
        (ConsumerRel lane pe bound) m (m.Top f.entry.invocation body).1 event r' :=
    fun hbody hs hrow => h.replies hcommon hw hroom hstack (by simp) hbody hs hrow haccept
  obtain ⟨kind, row⟩ := event
  dsimp only at hcheck
  replace hwanted : wanted f kind row = .ok row := hwanted
  cases kind with
  | kEntry => exact absurd rfl hentry
  | kBranch =>
    rw [wanted, need_pure_ok] at hwanted
    obtain ⟨hstage, hrow⟩ := hwanted
    rw [← low32_ne_zero] at hrow
    refine ⟨.Branch f.entry.invocation row.branch_r11, hreplies ?_
      (branch_step hf hstage row.branch_r11) (congrArg (Snapshot.mk EventKind.kBranch) hrow)⟩
    simp only [Room_ok, check_ok, need_ok, pure_ok]
    exact ⟨hstage, hroom, trivial⟩
  | kChildPre =>
    rw [wanted, check_ok, check_ok, need_ok, need_ok, pure_ok] at hwanted
    obtain ⟨⟨hstage, hobserved, hnonzero, hlt⟩, hactive, hrow⟩ := hwanted
    have hselected := slot_selected hcheck hlt (by rw [hactive]; decide)
    generalize row.children.getD f.returned_children {} = c at hactive hrow hselected
    have hcaller := hselected.1
    have hdirect := hselected.2.2.1
    rw [← selected_eq hselected hactive] at hrow
    refine ⟨.ChildPre f.entry.invocation f.returned_children c.caller_lr c.r3 c.f1_bits
      c.indirect_ctr, hreplies ?_
      (childPre_step hf hstage hobserved hnonzero hlt hcaller hdirect c.r3 c.f1_bits)
      (congrArg (Snapshot.mk EventKind.kChildPre) hrow)⟩
    simp only [Room_ok, check_ok, need_ok, pure_ok]
    exact ⟨⟨hobserved, hnonzero, hlt, trivial, hstage, hcaller, hdirect⟩, hroom, rfl⟩
  | kChildReturn =>
    rw [wanted, need_pure_ok] at hwanted
    obtain ⟨⟨hstage, hlt, hactive⟩, hrow⟩ := hwanted
    refine ⟨.ChildReturn f.entry.invocation f.returned_children, hreplies ?_
      (childEnd_step hf hstage hlt hactive true)
      (congrArg (Snapshot.mk EventKind.kChildReturn) hrow)⟩
    simp only [Room_ok, check_ok, need_ok, pure_ok]
    exact ⟨⟨hstage, hlt, trivial, hactive⟩, hroom, trivial⟩
  | kChildException =>
    rw [wanted, need_pure_ok] at hwanted
    obtain ⟨⟨hstage, hlt, hactive⟩, hrow⟩ := hwanted
    refine ⟨.ChildException f.entry.invocation f.returned_children, hreplies ?_
      (childEnd_step hf hstage hlt hactive false)
      (congrArg (Snapshot.mk EventKind.kChildException) hrow)⟩
    simp only [Room_ok, check_ok, need_ok, pure_ok]
    exact ⟨⟨hstage, hlt, trivial, hactive⟩, hroom, trivial⟩
  | kNormalExit =>
    rw [wanted, need_pure_ok] at hwanted
    obtain ⟨⟨hobserved, hroute⟩, hrow⟩ := hwanted
    have hnormal : true = true → f.branch_observed = true ∧
        if f.branch_nonzero then f.stage = .kChildReturned ∧ f.returned_children = 3
        else f.stage = .kBranched := by
      intro _
      refine ⟨hobserved, ?_⟩
      rcases hroute with ⟨hnonzero, hdone⟩ | ⟨hzero, hdone⟩
      · rw [hnonzero]
        exact hdone
      · rw [hzero]
        exact hdone
    refine ⟨.Exit f.entry.invocation true, hreplies ?_ (exit_step hf hnormal)
      (congrArg (Snapshot.mk EventKind.kNormalExit) hrow)⟩
    rw [check_ok, check_ok, need_ok, Room_ok, pure_ok]
    exact ⟨hnormal, hroom, rfl⟩
  | kExceptionalExit =>
    rw [wanted, pure_ok] at hwanted
    have hnormal : false = true → f.branch_observed = true ∧
        if f.branch_nonzero then f.stage = .kChildReturned ∧ f.returned_children = 3
        else f.stage = .kBranched := fun hfalse => by cases hfalse
    refine ⟨.Exit f.entry.invocation false, hreplies ?_ (exit_step hf hnormal)
      (congrArg (Snapshot.mk EventKind.kExceptionalExit) hwanted)⟩
    rw [check_ok, check_ok, need_ok, Room_ok, pure_ok]
    exact ⟨hnormal, hroom, rfl⟩

theorem reply_entry (hbound : bound = 0 ∨ bound = lane.router_thread_epoch)
    (h : ConsumerRel lane pe bound m r) (hw : m.writable = true) (hroom : m.events.length < 16384)
    (hentry : event.kind = .kEntry) (hphase : event.frame.entry.update.thread_epoch = pe)
    (haccept : (format lane false).event r event = .ok r') :
    ∃ call, Replies (logOf id) (fun m => m.writable = true) (ConsumerRel lane pe bound) m
      (m.step call) event r' := by
  obtain ⟨kept, kept', hcommon, henter, hfresh, rfl⟩ :=
    (Format.event_entry (decide_eq_true hentry)).mp haccept
  obtain ⟨kind, row⟩ := event
  dsimp only at hcommon henter hfresh hentry hphase
  subst hentry
  obtain ⟨hcheck, ⟨hown, hrouter⟩, hnative, -, hkept⟩ := common_ok.mp hcommon
  obtain ⟨⟨hserial, hrouters, -, hdepth⟩, -, -⟩ := enter_ok.mp henter
  subst hkept
  rw [h.admission.serial] at hserial
  rw [h.admission.router_serial] at hrouters
  rw [h.stack, length_map] at hdepth
  have hrow : m.frame row.entry = row := by
    rw [parent_eq h] at hfresh
    rw [hfresh]
    rfl
  obtain ⟨-, h2, h3, h4, h5, h6, h7⟩ := checkEntry_iff.mp (checkFrame_iff.mp hcheck).1
  have hopen : m.admission.router_epoch = 0 ∨
      m.admission.router_epoch = lane.router_thread_epoch := by
    have := h.admission.router
    split at this
    · rw [this]
      exact hbound
    · exact Or.inr this
  have hadmits : m.admission.Admits row.entry :=
    ⟨hown.trans h.admission.epoch.symm, h2, hserial, h3, fun hne => by
      rcases hopen with hzero | heq
      · exact absurd hzero hne
      · exact hrouter.trans heq.symm, h4, hrouters, h6, h7, Or.inl h5⟩
  have hafter : (m.admission.after row.entry).router_epoch = lane.router_thread_epoch := by
    show (if m.admission.router_epoch = 0 then _ else _) = _
    split
    · exact hrouter
    · rename_i hne
      rcases hopen with hzero | heq
      · exact absurd hzero hne
      · exact heq
  have hshown : (m.frame row.entry).Shown lane pe :=
    ⟨by rw [hrow]; exact hcheck, hown, hrouter, hnative, hphase⟩
  obtain ⟨kept'', ho⟩ := opening h hserial hrouters hafter hdepth hshown
  obtain ⟨haccept', hrel⟩ := h.opens hdepth hroom ho
  rw [show (m.frame row.entry) = row from hrow] at haccept' hrel
  refine ⟨.Enter row.entry, ?_⟩
  have heq : m.step (.Enter row.entry) = m.entered row.entry :=
    congrArg Prod.fst (Enter_ok hw hadmits (by omega) hroom)
  rw [heq]
  refine ⟨hw, ?_, ?_⟩
  · simp [logOf, Model.entered, Recorder.opened, Snapshot.map, hrow]
  · have hsame := Except.ok.inj (haccept'.symm.trans haccept)
    rw [hsame] at hrel
    unfold Model.entered
    rw [hrow]
    exact hrel

/-- **Every event that the replay accepts** is the success of a call. -/
theorem consumer_answers (pe : BitVec 64) (hbound : bound = 0 ∨ bound = lane.router_thread_epoch) :
    Answers Model.step (logOf id) (fun m => m.writable = true) 16384 (format lane false).event
      (Bound lane pe) (ConsumerRel lane pe bound) where
  answers := by
    intro m r event r' h hw hroom hevent haccept
    have hroom : m.events.length < 16384 := by simpa [logOf] using hroom
    by_cases hentry : event.kind = .kEntry
    · exact reply_entry hbound h hw hroom hentry hevent.2.1 haccept
    · exact reply_call h hw hroom hentry haccept

end Simulation

/-! ### The language -/

theorem consumer_numbers (lane : Lane) :
    Numbers (format lane false) (fun f => f.entry.invocation.serial.toNat)
      (fun kept => kept.last_id.toNat) where
  common := by
    intro kept f kept' h
    obtain ⟨-, -, -, -, rfl⟩ := common_ok.mp h
    rfl
  enter := by
    intro kept stack f kept' h
    obtain ⟨-, -, rfl⟩ := enter_ok.mp h
    rfl

theorem consumer_numbering (lane : Lane) :
    Numbering (format lane false) (format lane true)
      (fun f => f.entry.invocation.serial.toNat) (fun kept => kept.last_id.toNat) where
  same := rfl
  enter := by
    intro kept stack f kept'
    rw [enter_ok, enter_ok]
    simp only [forall_const, Bool.false_eq_true, false_implies, true_and]
    tauto

/-- Entries are counted, and a log that is accepted begins with one. -/
theorem replay_entries {lane : Lane} {r : State Kept Frame} (log : List EventRow)
    (h : (format lane false).replay {} log = .ok r) : r.admission.entries = 0 ↔ log = [] := by
  refine Format.count_eq_zero (fun kept => kept.entries) rfl ?_ ?_ log h
  · intro kept f kept' hcommon
    obtain ⟨-, -, -, -, rfl⟩ := common_ok.mp hcommon
    rfl
  · intro kept stack f kept' henter
    obtain ⟨-, -, rfl⟩ := enter_ok.mp henter
    exact Nat.succ_ne_zero _

/-- The serials of the entries of a log. -/
def entrySerials (log : List EventRow) : List Nat :=
  (log.filter fun event => event.kind = .kEntry).map fun event =>
    event.frame.entry.invocation.serial.toNat

/-- **Recorder and replay have one language**, as far as the log fits.  Among the logs whose
entries are bound to one update thread and the native thread of the lane, a lane is accepted,
with the pending snapshots it ends with, where the log and these snapshots are those of some
calls without a fault that end with the router epoch of the lane, which is bound if and only if
there is an event; in a healthy lane, of calls whose serials leave none out.  The recorder may
start with its router epoch not bound, or with that of the lane. -/
theorem consumer_language {lane : Lane} (hlane : lane.thread_epoch ≠ 0) {bound : BitVec 64}
    (hbound : bound = 0 ∨ bound = lane.router_thread_epoch) (pe : BitVec 64) (healthy : Bool)
    {log : List EventRow} (hlog : ∀ event ∈ log, Bound lane pe event) (pending : List Frame) :
    log.length ≤ 16384 ∧ replay lane healthy log = .ok pending ↔
      (∃ calls : List Call, (run 16384 8 lane.thread_epoch bound calls).fault = none ∧
        (run 16384 8 lane.thread_epoch bound calls).events = log ∧
        (run 16384 8 lane.thread_epoch bound calls).stack = pending ∧
        (run 16384 8 lane.thread_epoch bound calls).admission.router_epoch =
          lane.router_thread_epoch) ∧
      (lane.router_thread_epoch = 0 ↔ log = []) ∧
      (healthy = true → Consecutive (entrySerials log)) := by
  have hnew : Model.new lane.thread_epoch bound =
      { admission := { epoch := lane.thread_epoch, router_epoch := bound } } := by
    unfold Model.new
    rw [if_neg hlane]
  have hknown : Admission.Known lane pe bound
      { epoch := lane.thread_epoch, router_epoch := bound } {} :=
    ⟨rfl, rfl, rfl, fun id hid => (by cases hid), Or.inl rfl, rfl⟩
  have hgood : ∀ a kept, Admission.Known lane pe bound a kept → a.Good lane ∧
      a.router_epoch = if kept.entries = 0 then bound else lane.router_thread_epoch := by
    intro a kept h
    refine ⟨?_, h.router⟩
    have hrouter := h.router
    split at hrouter
    · rcases hbound with hzero | heq
      · exact Or.inr (hrouter.trans hzero)
      · exact Or.inl (hrouter.trans heq)
    · exact Or.inl hrouter
  have hends : ∀ r, (format lane false).replay {} log = .ok r →
      (lane.router_thread_epoch = 0 ↔ log = []) →
      (if r.admission.entries = 0 then bound else lane.router_thread_epoch) =
        lane.router_thread_epoch := by
    intro r hreplay hempty
    split
    · rename_i hzero
      have hnone := hempty.mpr ((replay_entries log hreplay).mp hzero)
      rcases hbound with hunbound | heq
      · rw [hunbound, hnone]
      · exact heq
    · rfl
  have hreplay : replay lane healthy log = .ok pending ↔
      ∃ r, (format lane healthy).replay {} log = .ok r ∧
        (lane.router_thread_epoch ≠ 0 ↔ r.admission.entries ≠ 0) ∧ r.stack = pending := by
    unfold replay
    simp only [bind_ok, need_ok, pure_ok]
    constructor
    · rintro ⟨r, haccept, _, hepoch, hend⟩
      exact ⟨r, haccept, hepoch, hend⟩
    · rintro ⟨r, haccept, hepoch, hend⟩
      exact ⟨r, haccept, (), hepoch, hend⟩
  have hlanguage := lane_iff Admission.router_epoch
    (fun kept => if kept.entries = 0 then bound else lane.router_thread_epoch)
    (fun kept => lane.router_thread_epoch ≠ 0 ↔ kept.entries ≠ 0)
    (lane.router_thread_epoch = 0 ↔ log = []) (consumer_follows hlane pe bound)
    (consumer_answers pe hbound) hgood (fun _ => Or.inl) hknown hlog
    (fun r haccept => not_iff_not.trans (iff_congr Iff.rfl (replay_entries log haccept))) hends
    (consumer_numbering lane) (consumer_numbers lane) rfl healthy pending
  rw [← hnew] at hlanguage
  have hid : ∀ events : List Event, events.map (Snapshot.map id) = events := fun events =>
    map_id events
  simp only [hid, map_id] at hlanguage
  rw [hreplay]
  exact hlanguage

/-- A body whose first child is another body, which an exception ends after its branch. -/
def nestedCalls : List Call :=
  [.Enter ⟨⟨1, 1⟩, ⟨5, 3⟩, ⟨7, 8, 9⟩, kTarget, kCaller, 0x10, 0x20⟩, .Branch ⟨1, 1⟩ 0x700000001,
    .ChildPre ⟨1, 1⟩ 0 0x822C78C0 0x11 0x21 0x1f00000031,
    .Enter ⟨⟨1, 2⟩, ⟨5, 4⟩, ⟨7, 8, 9⟩, kTarget, kCaller, 0x12, 0x22⟩, .Branch ⟨1, 2⟩ 0x100000000,
    .Exit ⟨1, 2⟩ false, .ChildReturn ⟨1, 1⟩ 0, .ChildPre ⟨1, 1⟩ 1 0x822C78CC 0x13 0x23 0, .Freeze]

theorem consumer_language_nested :
    replay ⟨1, 9, 5⟩ true (run 16384 8 1 0 nestedCalls).events =
      .ok (run 16384 8 1 0 nestedCalls).stack :=
  ((@consumer_language ⟨1, 9, 5⟩ (by decide) 0 (Or.inl rfl) 8 true _ (by decide) _).mpr
    ⟨⟨nestedCalls, by decide, rfl, rfl, by decide⟩, by decide, fun _ => by decide⟩).2

/-- The bodies of a lane, each of which an exception ends before anything else happens. -/
def unfinished (n : Nat) : Frame :=
  { entry := ⟨⟨1, BitVec.ofNat 64 (n + 1)⟩, ⟨5, BitVec.ofNat 64 (n + 1)⟩, ⟨7, 8, 9⟩, kTarget, kCaller,
      0, 0⟩ }

/-- What the replay keeps of the first of them. -/
def unfinishedKept (n : Nat) (phase_epoch : Option (BitVec 64)) : Kept where
  last_id := BitVec.ofNat 64 n
  last_router := BitVec.ofNat 64 n
  entries := n
  router_ids := (List.range n).reverse.map fun i => ⟨5, BitVec.ofNat 64 (i + 1)⟩
  phase_epoch := phase_epoch

theorem bound_unfinished : (⟨7, 8, 9⟩ : UpdateBinding).bound := by
  decide

theorem checkFrame_unfinished {n : Nat} (hn : n < 8193) : checkFrame (unfinished n) = .ok () := by
  have hpositive : BitVec.ofNat 64 (n + 1) ≠ 0 := by
    intro h
    have hnat := congrArg BitVec.toNat h
    rw [BitVec.toNat_ofNat, Nat.mod_eq_of_lt (by omega)] at hnat
    exact Nat.succ_ne_zero n hnat
  exact checkFrame_new (checkEntry_iff.mpr ⟨show (1 : BitVec 64) ≠ 0 by decide, hpositive,
    show (5 : BitVec 64) ≠ 0 by decide, hpositive, bound_unfinished, rfl, rfl⟩)

theorem replay_unfinished : (format ⟨1, 9, 5⟩ false).replay (unfinishedKept 0 none)
    (pairs .kEntry .kExceptionalExit unfinished 8193) =
      .ok ⟨[], unfinishedKept 8193 (some 8)⟩ := by
  refine Format.replay_pairs (b := fun n => unfinishedKept n (if n = 0 then none else some 8))
    (c := fun n => unfinishedKept (n + 1) (some 8)) ?_ ?_ 8193 le_rfl
  · intro n hn
    have hlt := RouterDispatch.lt_succ hn
    refine (Format.event_entry rfl).mpr ⟨unfinishedKept n (some 8), _,
      common_ok.mpr ⟨checkFrame_unfinished hn, ⟨rfl, rfl⟩, rfl, ?_, ?_⟩,
      enter_ok.mpr ⟨⟨hlt, hlt, ?_, Nat.zero_lt_succ 7⟩, fun h => (by cases h), ?_⟩, rfl, rfl⟩
    · cases n <;> rfl
    · cases n <;> rfl
    · intro hmem
      obtain ⟨i, hi, heq⟩ := mem_map.mp hmem
      have hi : i < n := by simpa using hi
      have hserial := congrArg (fun id : InvocationId => id.serial.toNat) heq
      have hnat : (BitVec.ofNat 64 (i + 1)).toNat = (BitVec.ofNat 64 (n + 1)).toNat := hserial
      rw [BitVec.toNat_ofNat, BitVec.toNat_ofNat, Nat.mod_eq_of_lt (by omega),
        Nat.mod_eq_of_lt (by omega)] at hnat
      omega
    · unfold unfinishedKept
      rw [range_succ, reverse_append]
      rfl
  · intro n hn
    exact (Format.event_call rfl).mpr ⟨_, _, _,
      common_ok.mpr ⟨checkFrame_unfinished hn, ⟨rfl, rfl⟩, rfl, rfl, rfl⟩, rfl, rfl, rfl, rfl⟩

theorem unfinished_bound :
    ∀ event ∈ pairs .kEntry .kExceptionalExit unfinished 8193,
      Bound ⟨1, 9, 5⟩ 8 event := by
  intro event hevent
  obtain ⟨i, -, heq⟩ := mem_pairs hevent
  rw [Bound, heq]
  exact ⟨bound_unfinished, rfl, rfl⟩

/-- No run records as many. -/
theorem unfinished_unrecorded {calls : List Call} (hsound : (run 16384 8 1 0 calls).fault = none)
    (hrouter : (run 16384 8 1 0 calls).admission.router_epoch = 5) :
    (run 16384 8 1 0 calls).events ≠
      pairs .kEntry .kExceptionalExit unfinished 8193 := by
  intro hlog
  obtain ⟨r, -, hrel⟩ := (@consumer_follows ⟨1, 9, 5⟩ (by decide) 8 0).run
    (rel_new (show Admission.Known ⟨1, 9, 5⟩ 8 0 { epoch := 1 } {} from
      ⟨rfl, rfl, rfl, fun id hid => (by cases hid), Or.inl rfl, rfl⟩)) rfl calls
    ⟨hsound, Or.inl hrouter⟩ (by
      intro event hevent
      have hmem : event ∈ (run 16384 8 1 0 calls).events.map (Snapshot.map id) := hevent
      rw [show (run 16384 8 1 0 calls).events.map (Snapshot.map id) = _ from map_id _, hlog] at hmem
      exact unfinished_bound event hmem)
  have hlength := congrArg List.length hlog
  rw [length_pairs] at hlength
  have hfits : (run 16384 8 1 0 calls).events.length ≤ 16384 := hrel.fits
  omega

/-- The replay itself has no bound on the log, and in a healthy journal it asks for serials that
leave none out, which the recorder does not. -/
theorem consumer_language_unbounded :
    (¬ ∀ (log : List EventRow) (pending : List Frame), (∀ event ∈ log, Bound ⟨1, 9, 5⟩ 8 event) →
      (replay ⟨1, 9, 5⟩ false log = .ok pending ↔
        ∃ calls : List Call, (run 16384 8 1 0 calls).fault = none ∧
          (run 16384 8 1 0 calls).events = log ∧ (run 16384 8 1 0 calls).stack = pending ∧
          (run 16384 8 1 0 calls).admission.router_epoch = 5)) ∧
    ¬ ∀ (log : List EventRow) (pending : List Frame), (∀ event ∈ log, Bound ⟨1, 9, 5⟩ 8 event) →
      log.length ≤ 16384 →
      (replay ⟨1, 9, 5⟩ true log = .ok pending ↔
        ∃ calls : List Call, (run 16384 8 1 0 calls).fault = none ∧
          (run 16384 8 1 0 calls).events = log ∧ (run 16384 8 1 0 calls).stack = pending ∧
          (run 16384 8 1 0 calls).admission.router_epoch = 5) := by
  refine ⟨fun h => ?_, fun h => ?_⟩
  · have haccept : replay ⟨1, 9, 5⟩ false
        (pairs .kEntry .kExceptionalExit unfinished 8193) = .ok [] := by
      unfold replay
      rw [show (format ⟨1, 9, 5⟩ false).replay {} _ = _ from replay_unfinished]
      rfl
    obtain ⟨calls, hsound, hlog, -, hrouter⟩ := (h _ _ unfinished_bound).mp haccept
    exact unfinished_unrecorded hsound hrouter hlog
  · have hrun := (h [⟨.kEntry, unfinished 1⟩] [unfinished 1] (by decide) (by decide)).mpr
      ⟨[.Enter (unfinished 1).entry], by decide, by decide, by decide, by decide⟩
    have hrefused : replay ⟨1, 9, 5⟩ true [⟨.kEntry, unfinished 1⟩] ≠ .ok [unfinished 1] := by
      decide
    exact hrefused hrun

end Mcla.ConsumerDetail

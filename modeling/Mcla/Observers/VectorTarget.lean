import Mcla.Library.CompactReplay
import Mcla.Observers.WorkEmission

/-! # The vector-target recorder

The recorder follows the body that a vector emission calls: it loads a vector, calls four
targets, stores a flag, calls one or two more, loads and stores a counter, and calls a last
target when the counter is large enough.  An entry is admitted with the whole emission it was
called by.
-/
namespace Mcla.VectorTarget
open NestedRecorder
open CompactReplay (Outcome onTop_outcome)
open RouterDispatch (InvocationId)
open WorkEmission (UINT16_MAX UINT32_MAX AllZero)

/-- A vector register. -/
abbrev Lanes := Vector (BitVec 32) 4

/-- Four words or lanes. -/
abbrev quad {α : Type} (a b c d : α) : Vector α 4 := #v[a, b, c, d]

def kTarget : BitVec 32 := 0x8259F300
def kCaller : BitVec 64 := 0x825886F4

/-- The sites that the target calls from. -/
inductive Site where
  | kDirectE790 | kSlot48 | kSlot28 | kDirectD1E8 | kSlot100 | kSlot104 | kSlot192
  deriving DecidableEq

/-- Where each site calls from. -/
def Caller : Site → BitVec 64
  | .kDirectE790 => 0x8259F334
  | .kSlot48 => 0x8259F34C
  | .kSlot28 => 0x8259F364
  | .kDirectD1E8 => 0x8259F36C
  | .kSlot100 => 0x8259F474
  | .kSlot104 => 0x8259F48C
  | .kSlot192 => 0x8259F4B4

/-- The operands of the emission, as an entry saves them. -/
structure Saved where
  fields : Vector (BitVec 64) 10 := Vector.replicate 10 0
  vector : Lanes := Vector.replicate 4 0
  deriving DecidableEq

/-! The operands that the emission has: the first five. -/

/-- The operands, by the names of their registers. -/
abbrev Saved.lr (p : Saved) : BitVec 64 := p.fields[0]
abbrev Saved.index (p : Saved) : BitVec 64 := p.fields[1]
abbrev Saved.r3 (p : Saved) : BitVec 64 := p.fields[2]
abbrev Saved.ctr (p : Saved) : BitVec 64 := p.fields[4]

/-- What the target is entered with. -/
structure Entry where
  invocation : InvocationId := {}
  work_entry : WorkEmission.Entry := {}
  vector_pre : Saved := {}
  (parent_event_index actual_target : BitVec 32 := 0)
  (caller_lr r3 : BitVec 64 := 0)
  v1 : Lanes := Vector.replicate 4 0
  deriving DecidableEq

/-- The kinds of events. -/
inductive EventKind where
  | kEntry | kInitialV126 | kCallPre | kCallReturn | kCallException | kFlagStore | kGate100
  | kCounterLoad | kCounterStore | kNormalExit | kExceptionalExit
  deriving DecidableEq

/-- The operands that an event keeps. -/
structure Payload where
  fields : Vector (BitVec 64) 4 := Vector.replicate 4 0
  vector : Lanes := Vector.replicate 4 0
  deriving DecidableEq

/-! The operands that a call has. -/

variable (p : Payload)

/-- The operands, by the names of their registers. -/
abbrev Payload.lr : BitVec 64 := p.fields[0]
abbrev Payload.r3 : BitVec 64 := p.fields[1]
abbrev Payload.ctr : BitVec 64 := p.fields[2]
abbrev Payload.unused : BitVec 64 := p.fields[3]

/-- The site is that of a call; other events have the first one. -/
structure Event where
  invocation : InvocationId := {}
  entry_index : Nat := 0
  kind : EventKind := .kEntry
  site : Site := .kDirectE790
  payload : Payload := {}
  deriving DecidableEq

/-- How far a target has come. -/
inductive Stage where
  | kEntered | kDirectE790 | kSlot48 | kSlot28 | kDirectD1E8 | kFlagStore | kGate100 | kSlot100
  | kSlot104 | kCounterLoad | kCounterStore | kSlot192 | kComplete | kCallActive
  | kCallException
  deriving DecidableEq

/-- Why the model stops. -/
inductive Fault where
  | kIdentity | kTransition | kEntryCapacity | kEventCapacity | kDepth
  deriving DecidableEq

/-- A target under way. -/
structure Frame where
  entry_index : Nat := 0
  parent : InvocationId := {}
  stage : Stage := .kEntered
  active : Site := .kDirectE790
  counter_loaded : BitVec 64 := 0

/-- What an entry is compared with, and the entries so far; a work epoch of zero is not bound
yet. -/
structure Admission where
  epoch : BitVec 64
  (work_epoch last_serial last_work_serial : BitVec 64 := 0)
  entries : List Entry := []

/-! ### The recorder -/

/-- The model of one lane. -/
abbrev Model := Recorder Admission Frame Event Fault

/-- The stage that a site is called in. -/
def Ready : Site → Stage
  | .kDirectE790 => .kDirectE790
  | .kSlot48 => .kSlot48
  | .kSlot28 => .kSlot28
  | .kDirectD1E8 => .kDirectD1E8
  | .kSlot100 => .kSlot100
  | .kSlot104 => .kSlot104
  | .kSlot192 => .kSlot192

/-- The stage that its return leads to. -/
def After : Site → Stage
  | .kDirectE790 => .kSlot48
  | .kSlot48 => .kSlot28
  | .kSlot28 => .kDirectD1E8
  | .kDirectD1E8 => .kFlagStore
  | .kSlot100 => .kSlot104
  | .kSlot104 => .kCounterLoad
  | .kSlot192 => .kComplete

/-- The sites at which the vector is the one of the entry. -/
def Restored (site : Site) : Prop :=
  site = .kDirectE790 ∨ site = .kSlot48 ∨ site = .kSlot28 ∨ site = .kSlot104

instance (site : Site) : Decidable (Restored site) := inferInstanceAs (Decidable (_ ∨ _))

/-- The stage after a counter is stored: its low word decides on the last call. -/
def counted (incremented_r11 : BitVec 64) : Stage :=
  let low := incremented_r11.setWidth 32
  if 32 < low ∧ low < 0x80000000 then .kSlot192 else .kComplete

namespace Model

/-- The model of a fresh lane. -/
def new (epoch work_epoch : BitVec 64) : Model where
  admission := { epoch := epoch, work_epoch := work_epoch }
  fault := if epoch = 0 then some .kIdentity else none

/-- Whether an older recorder, made for that entry alone, admits it. -/
def parentCheck (w : WorkEmission.Entry) : Bool :=
  ((WorkEmission.Model.new w.invocation.thread_epoch 0).Enter 1 1 1 w).2

section Calls
variable (entries events depth : Nat) (m : Model)

/-- The entry that a frame belongs to. -/
def current (f : Frame) : Entry := m.admission.entries.getD f.entry_index {}

/-- The target is entered. -/
def Enter (e : Entry) : Model × Bool :=
  m.attempt do
    let w := e.work_entry
    let p := e.vector_pre
    need (parentCheck w = true ∧ e.invocation.thread_epoch = m.admission.epoch ∧
      e.invocation.serial ≠ 0 ∧ m.admission.last_serial < e.invocation.serial ∧
      (m.admission.work_epoch ≠ 0 → w.invocation.thread_epoch = m.admission.work_epoch) ∧
      e.actual_target = kTarget ∧ e.caller_lr = kCaller ∧ p.lr = kCaller ∧
      p.ctr.setWidth 32 = kTarget ∧ p.index < UINT16_MAX ∧
      AllZero (p.fields.toList.drop 5) ∧ e.r3 = p.r3 ∧ e.v1 = p.vector ∧
      e.parent_event_index ≠ 0 ∧ e.parent_event_index < 65536 ∧
      m.admission.last_work_serial ≤ w.invocation.serial) .kIdentity
    need (∀ old ∈ m.admission.entries.getLast?, old.parent_event_index < e.parent_event_index ∧
      (w.invocation.serial = m.admission.last_work_serial →
        w = old.work_entry ∧ p.index < old.vector_pre.index)) .kIdentity
    need (m.stack.length ≠ depth) .kDepth
    need (m.admission.entries.length ≠ entries) .kEntryCapacity
    m.room events .kEventCapacity
    let frame : Frame :=
      { entry_index := m.admission.entries.length
        parent := match m.stack with
          | [] => {}
          | top :: _ => (m.current top).invocation }
    return m.opened { m.admission with
      work_epoch := w.invocation.thread_epoch
      last_serial := e.invocation.serial
      last_work_serial := w.invocation.serial
      entries := m.admission.entries ++ [e] } frame
        ⟨e.invocation, m.admission.entries.length, .kEntry, .kDirectE790, {}⟩

variable (id : InvocationId)

/-- A call on the innermost frame. -/
def Top (body : Frame → Except Fault (Option Frame × Event)) : Model × Bool :=
  m.onTop (fun f => (m.current f).invocation = id) .kIdentity body

def Room : Except Fault Unit := m.room events .kEventCapacity

/-- The event of a frame, as it was before the call. -/
def Emit (f : Frame) (kind : EventKind) (site : Site) (p : Payload) : Event :=
  ⟨(m.current f).invocation, f.entry_index, kind, site, p⟩

/-- A call at a stage that changes the innermost frame, if its operands pass. -/
def At (s : Stage) (check : Frame → Entry → Bool) (next : Frame → Frame) (kind : EventKind)
    (site : Site) (p : Payload) : Model × Bool :=
  m.Top id fun f => do
    need (f.stage = s) .kTransition
    need (check f (m.current f) = true) .kTransition
    m.Room events
    return (some (next f), m.Emit f kind site p)

/-- The first quad, at an aligned address of the object. -/
def InitialV126 (address : BitVec 32) (lanes : Lanes) : Model × Bool :=
  m.At events id .kEntered (fun _ e => address = (e.r3.setWidth 32 + 400) &&& ~~~(15 : BitVec 32))
    (fun f => { f with stage := .kDirectE790 })
    .kInitialV126 .kDirectE790 ⟨quad (address.setWidth 64) 0 0 0, lanes⟩

/-- A call of the body, with the saved operands. -/
def CallPre (site : Site) (lr r3 ctr : BitVec 64) (v1 : Lanes) : Model × Bool :=
  m.At events id (Ready site)
    (fun _ e => Caller site ≠ 0 ∧ lr = Caller site ∧ r3 = e.r3 ∧ (Restored site → v1 = e.v1))
    (fun f => { f with active := site, stage := .kCallActive })
    .kCallPre site ⟨quad lr r3 ctr 0, v1⟩

/-- The call is over. -/
def EndCall (s : Site) (exception : Bool) : Model × Bool :=
  m.At events id .kCallActive (fun f _ => f.active = s)
    (fun f => { f with stage := if exception then .kCallException else After s })
    (if exception then .kCallException else .kCallReturn) s {}

def CallReturn (site : Site) : Model × Bool := m.EndCall events id site false

def CallException (site : Site) : Model × Bool := m.EndCall events id site true

/-- The flag is stored. -/
def FlagStore (address : BitVec 32) (raw_r3 : BitVec 64) : Model × Bool :=
  m.At events id .kFlagStore (fun _ e => address = e.r3.setWidth 32 + 657 ∧ raw_r3 ≤ 1)
    (fun f => { f with stage := .kGate100 })
    .kFlagStore .kDirectE790 { fields := quad (address.setWidth 64) raw_r3 0 0 }

/-- The gate picks the next slot. -/
def Gate100 (raw_r10 : BitVec 64) : Model × Bool :=
  m.At events id .kGate100 (fun _ _ => raw_r10 = 0 ∨ raw_r10 = 16)
    (fun f => { f with stage := if raw_r10 ≠ 0 then .kSlot104 else .kSlot100 })
    .kGate100 .kDirectE790 { fields := quad raw_r10 0 0 0 }

/-- The counter is loaded. -/
def CounterLoad (address : BitVec 32) (loaded_u32 : BitVec 64) : Model × Bool :=
  m.At events id .kCounterLoad
    (fun _ e => address = e.r3.setWidth 32 + 664 ∧ loaded_u32 ≤ UINT32_MAX)
    (fun f => { f with counter_loaded := loaded_u32, stage := .kCounterStore })
    .kCounterLoad .kDirectE790 { fields := quad (address.setWidth 64) loaded_u32 0 0 }

/-- The counter is stored, one higher. -/
def CounterStore (address : BitVec 32) (loaded_u32 incremented_r11 : BitVec 64) : Model × Bool :=
  m.At events id .kCounterStore
    (fun f e => address = e.r3.setWidth 32 + 664 ∧ loaded_u32 ≤ UINT32_MAX ∧
      loaded_u32 = f.counter_loaded ∧ incremented_r11 = loaded_u32 + 1)
    (fun f => { f with stage := counted incremented_r11 })
    .kCounterStore .kDirectE790
    { fields := quad (address.setWidth 64) loaded_u32 incremented_r11 0 }

/-- The target ends. -/
def Exit (normal : Bool) : Model × Bool :=
  m.Top id fun f => do
    need (normal = true → f.stage = .kComplete) .kTransition
    m.Room events
    return (none, m.Emit f (if normal then .kNormalExit else .kExceptionalExit) .kDirectE790 {})

def Freeze : Model := { m with frozen := true }

end Calls
end Model

/-- The calls of the model. -/
inductive Call where
  | Enter (e : Entry)
  | InitialV126 (id : InvocationId) (address : BitVec 32) (lanes : Lanes)
  | CallPre (id : InvocationId) (site : Site) (lr r3 ctr : BitVec 64) (v1 : Lanes)
  | CallReturn (id : InvocationId) (site : Site)
  | CallException (id : InvocationId) (site : Site)
  | FlagStore (id : InvocationId) (address : BitVec 32) (raw_r3 : BitVec 64)
  | Gate100 (id : InvocationId) (raw_r10 : BitVec 64)
  | CounterLoad (id : InvocationId) (address : BitVec 32) (loaded_u32 : BitVec 64)
  | CounterStore (id : InvocationId) (address : BitVec 32) (loaded_u32 incremented_r11 : BitVec 64)
  | Exit (id : InvocationId) (normal : Bool)
  | Freeze
  deriving DecidableEq

/-- The model after a call, and whether the call succeeded; `Freeze` has no answer. -/
def Model.call (entries events depth : Nat) (m : Model) : Call → Model × Bool
  | .Enter e => m.Enter entries events depth e
  | .InitialV126 id address lanes => m.InitialV126 events id address lanes
  | .CallPre id site lr r3 ctr v1 => m.CallPre events id site lr r3 ctr v1
  | .CallReturn id site => m.CallReturn events id site
  | .CallException id site => m.CallException events id site
  | .FlagStore id address raw_r3 => m.FlagStore events id address raw_r3
  | .Gate100 id raw_r10 => m.Gate100 events id raw_r10
  | .CounterLoad id address loaded_u32 => m.CounterLoad events id address loaded_u32
  | .CounterStore id address loaded_u32 incremented_r11 =>
    m.CounterStore events id address loaded_u32 incremented_r11
  | .Exit id normal => m.Exit events id normal
  | .Freeze => (m.Freeze, true)

/-- The model after some calls. -/
def run (entries events depth : Nat) (epoch work_epoch : BitVec 64) (calls : List Call) : Model :=
  calls.foldl (fun m call => (m.call entries events depth call).1) (Model.new epoch work_epoch)

/-! ### What a call does -/

/-- What a call does to the innermost frame, and the event it leaves. -/
inductive Moves (e : Entry) (f : Frame) : EventKind → Site → Payload → Option Frame → Prop where
  | initialV126 (hstage : f.stage = .kEntered) (lanes : Lanes) :
    Moves e f .kInitialV126 .kDirectE790
      ⟨quad (((e.r3.setWidth 32 + 400) &&& ~~~(15 : BitVec 32)).setWidth 64) 0 0 0, lanes⟩
      (some { f with stage := .kDirectE790 })
  | callPre (site : Site) (hstage : f.stage = Ready site) (ctr : BitVec 64) {v1 : Lanes}
      (hv1 : Restored site → v1 = e.v1) :
    Moves e f .kCallPre site ⟨quad (Caller site) e.r3 ctr 0, v1⟩
      (some { f with active := site, stage := .kCallActive })
  | callReturn (hstage : f.stage = .kCallActive) :
    Moves e f .kCallReturn f.active {} (some { f with stage := After f.active })
  | callException (hstage : f.stage = .kCallActive) :
    Moves e f .kCallException f.active {} (some { f with stage := .kCallException })
  | flagStore (hstage : f.stage = .kFlagStore) {raw_r3 : BitVec 64} (hflag : raw_r3 ≤ 1) :
    Moves e f .kFlagStore .kDirectE790
      { fields := quad ((e.r3.setWidth 32 + 657 : BitVec 32).setWidth 64) raw_r3 0 0 }
      (some { f with stage := .kGate100 })
  | gate100 (hstage : f.stage = .kGate100) {raw_r10 : BitVec 64}
      (hgate : raw_r10 = 0 ∨ raw_r10 = 16) :
    Moves e f .kGate100 .kDirectE790 { fields := quad raw_r10 0 0 0 }
      (some { f with stage := if raw_r10 ≠ 0 then .kSlot104 else .kSlot100 })
  | counterLoad (hstage : f.stage = .kCounterLoad) {loaded_u32 : BitVec 64}
      (hloaded : loaded_u32 ≤ UINT32_MAX) :
    Moves e f .kCounterLoad .kDirectE790
      { fields := quad ((e.r3.setWidth 32 + 664 : BitVec 32).setWidth 64) loaded_u32 0 0 }
      (some { f with counter_loaded := loaded_u32, stage := .kCounterStore })
  | counterStore (hstage : f.stage = .kCounterStore) (hloaded : f.counter_loaded ≤ UINT32_MAX) :
    Moves e f .kCounterStore .kDirectE790
      { fields := quad ((e.r3.setWidth 32 + 664 : BitVec 32).setWidth 64) f.counter_loaded
          (f.counter_loaded + 1) 0 }
      (some { f with stage := counted (f.counter_loaded + 1) })
  | normalExit (hstage : f.stage = .kComplete) :
    Moves e f .kNormalExit .kDirectE790 {} none
  | exceptionalExit : Moves e f .kExceptionalExit .kDirectE790 {} none

/-- A move of a frame of the model, as an event. -/
def Changes (m : Model) (f : Frame) (left : Option Frame) (event : Event) : Prop :=
  ∃ kind site p, Moves (m.current f) f kind site p left ∧ event = m.Emit f kind site p

/-- What an entry leaves to compare the next with. -/
def Admission.after (a : Admission) (e : Entry) : Admission :=
  { a with
    work_epoch := e.work_entry.invocation.thread_epoch
    last_serial := e.invocation.serial
    last_work_serial := e.work_entry.invocation.serial
    entries := a.entries ++ [e] }

/-- What an entry saves of the emission it was reached by. -/
structure Entry.Called (e : Entry) : Prop where
  target : e.actual_target = kTarget
  caller : e.caller_lr = kCaller
  saved_caller : e.vector_pre.lr = kCaller
  saved_target : e.vector_pre.ctr.setWidth 32 = kTarget
  index : e.vector_pre.index < UINT16_MAX
  unused : AllZero (e.vector_pre.fields.toList.drop 5)
  r3 : e.r3 = e.vector_pre.r3
  v1 : e.v1 = e.vector_pre.vector
  event_index : e.parent_event_index ≠ 0
  event_bound : e.parent_event_index < 65536

/-- What the entry is compared with, when there is one before it. -/
def Entry.Next (old e : Entry) (last_work_serial : BitVec 64) : Prop :=
  old.parent_event_index < e.parent_event_index ∧
    (e.work_entry.invocation.serial = last_work_serial →
      e.work_entry = old.work_entry ∧ e.vector_pre.index < old.vector_pre.index)

/-- What the fields of an entry are checked for. -/
structure Admission.Admits (a : Admission) (e : Entry) : Prop where
  checked : Model.parentCheck e.work_entry = true
  epoch : e.invocation.thread_epoch = a.epoch
  positive : e.invocation.serial ≠ 0
  serial : a.last_serial < e.invocation.serial
  work_epoch : a.work_epoch ≠ 0 → e.work_entry.invocation.thread_epoch = a.work_epoch
  work_serial : a.last_work_serial ≤ e.work_entry.invocation.serial
  called : e.Called
  next : ∀ old ∈ a.entries.getLast?, old.Next e a.last_work_serial

/-- The frame that an entry opens. -/
def Model.frame (m : Model) : Frame :=
  { entry_index := m.admission.entries.length
    parent := match m.stack with
      | [] => {}
      | top :: _ => (m.current top).invocation }

/-- An entry that the model admits, with room for it. -/
def Opens (entries depth : Nat) (m : Model) (a : Admission) (f : Frame) (event : Event) : Prop :=
  ∃ e, m.admission.Admits e ∧ m.stack.length ≠ depth ∧ m.admission.entries.length ≠ entries ∧
    a = m.admission.after e ∧ f = m.frame ∧
    event = ⟨e.invocation, m.admission.entries.length, .kEntry, .kDirectE790, {}⟩

section Outcomes
variable {entries events depth : Nat} {m : Model}

theorem Enter_body (e : Entry) :
    ∃ body, m.Enter entries events depth e = m.attempt body ∧ ∀ m', body = .ok m' ↔
      (m.admission.Admits e ∧ m.stack.length ≠ depth ∧ m.admission.entries.length ≠ entries ∧
        m.events.length < events) ∧
        m.opened (m.admission.after e) m.frame
          ⟨e.invocation, m.admission.entries.length, .kEntry, .kDirectE790, {}⟩ = m' := by
  refine ⟨_, rfl, fun m' => ?_⟩
  rw [check_ok, check_ok, check_ok, check_ok, check_ok,
    need_ok, need_ok, need_ok, need_ok, Recorder.room_ok, pure_ok]
  constructor
  · rintro ⟨⟨h1, h2, h3, h4, h5, h6, h7, h8, h9, h10, h11, h12, h13, h14, h15, h16⟩, hnext, hdepth,
      hentries, hroom, heq⟩
    exact ⟨⟨⟨h1, h2, h3, h4, h5, h16, ⟨h6, h7, h8, h9, h10, h11, h12, h13, h14, h15⟩, hnext⟩,
      hdepth, hentries, hroom⟩, heq⟩
  · rintro ⟨⟨h, hdepth, hentries, hroom⟩, heq⟩
    have c := h.called
    exact ⟨⟨h.checked, h.epoch, h.positive, h.serial, h.work_epoch, c.target, c.caller,
      c.saved_caller, c.saved_target, c.index, c.unused, c.r3, c.v1, c.event_index, c.event_bound,
      h.work_serial⟩, h.next, hdepth, hentries, hroom, heq⟩

theorem Enter_ok {e : Entry} (hw : m.writable = true) (h : m.admission.Admits e)
    (hdepth : m.stack.length ≠ depth) (hentries : m.admission.entries.length ≠ entries)
    (hroom : m.events.length < events) :
    m.Enter entries events depth e = (m.opened (m.admission.after e) m.frame
      ⟨e.invocation, m.admission.entries.length, .kEntry, .kDirectE790, {}⟩, true) := by
  obtain ⟨body, heq, hbody⟩ := @Enter_body entries events depth m e
  rw [heq]
  exact Recorder.attempt_ok hw ((hbody _).mpr ⟨⟨h, hdepth, hentries, hroom⟩, rfl⟩)

theorem Enter_true {e : Entry} (h : (m.Enter entries events depth e).2 = true) :
    m.writable = true ∧ m.admission.Admits e := by
  obtain ⟨body, heq, hbody⟩ := @Enter_body entries events depth m e
  rw [heq] at h
  obtain ⟨hw, m', hok⟩ := Recorder.attempt_true h
  exact ⟨hw, ((hbody m').mp hok).1.1⟩

theorem enter_outcome (e : Entry) :
    Outcome (Opens entries depth) Changes events m (m.Enter entries events depth e).1
      (m.Enter entries events depth e).2 := by
  obtain ⟨body, heq, hbody⟩ := @Enter_body entries events depth m e
  rw [heq]
  refine Recorder.attempt_rec (P := Outcome (Opens entries depth) Changes events m) .refused
    .faults fun hw m' hok => ?_
  obtain ⟨⟨hadmits, hdepth, hentries, hroom⟩, rfl⟩ := (hbody m').mp hok
  exact .opens hw hroom ⟨e, hadmits, hdepth, hentries, rfl, rfl, rfl⟩

variable {kind : EventKind} {rest : List Frame}

theorem at_outcome {id : InvocationId} {s : Stage} {check : Frame → Entry → Bool}
    {next : Frame → Frame} {site : Site} {p : Payload}
    (hmoves : ∀ f, f.stage = s → check f (m.current f) = true →
      Moves (m.current f) f kind site p (some (next f))) :
    Outcome (Opens entries depth) Changes events m (m.At events id s check next kind site p).1
      (m.At events id s check next kind site p).2 := by
  refine onTop_outcome fun f left event _ hbody => ?_
  simp only [Model.Room, Recorder.room_ok, check_ok, need_ok, pure_ok] at hbody
  obtain ⟨hstage, hcheck, hroom, heq⟩ := hbody
  cases heq
  exact ⟨hroom, _, _, _, hmoves f hstage hcheck, rfl⟩

theorem exit_outcome (id : InvocationId) (normal : Bool) :
    Outcome (Opens entries depth) Changes events m (m.Exit events id normal).1
      (m.Exit events id normal).2 := by
  refine onTop_outcome fun f left event _ hbody => ?_
  simp only [Model.Room, Recorder.room_ok, check_ok, need_ok, pure_ok] at hbody
  obtain ⟨hnormal, hroom, heq⟩ := hbody
  cases heq
  cases normal with
  | true => exact ⟨hroom, _, _, _, .normalExit (hnormal rfl), rfl⟩
  | false => exact ⟨hroom, _, _, _, .exceptionalExit, rfl⟩

/-- **Every call** other than `Freeze` has one of these outcomes. -/
theorem call_outcome (call : Call) (hcall : call ≠ .Freeze) :
    Outcome (Opens entries depth) Changes events m (m.call entries events depth call).1
      (m.call entries events depth call).2 := by
  cases call with
  | Enter e => exact enter_outcome e
  | InitialV126 id address lanes =>
    unfold Model.call Model.InitialV126
    refine at_outcome fun f hs hc => ?_
    obtain rfl := of_decide_eq_true hc
    exact .initialV126 hs lanes
  | CallPre id site lr r3 ctr v1 =>
    unfold Model.call Model.CallPre
    refine at_outcome fun f hs hc => ?_
    obtain ⟨-, rfl, rfl, hv1⟩ := of_decide_eq_true hc
    exact .callPre site hs ctr hv1
  | CallReturn id site =>
    unfold Model.call Model.CallReturn Model.EndCall
    refine at_outcome fun f hs hc => ?_
    obtain rfl := of_decide_eq_true hc
    exact .callReturn hs
  | CallException id site =>
    unfold Model.call Model.CallException Model.EndCall
    refine at_outcome fun f hs hc => ?_
    obtain rfl := of_decide_eq_true hc
    exact .callException hs
  | FlagStore id address raw_r3 =>
    unfold Model.call Model.FlagStore
    refine at_outcome fun f hs hc => ?_
    obtain ⟨rfl, hflag⟩ := of_decide_eq_true hc
    exact .flagStore hs hflag
  | Gate100 id raw_r10 =>
    unfold Model.call Model.Gate100
    exact at_outcome fun f hs hc => .gate100 hs (of_decide_eq_true hc)
  | CounterLoad id address loaded_u32 =>
    unfold Model.call Model.CounterLoad
    refine at_outcome fun f hs hc => ?_
    obtain ⟨rfl, hloaded⟩ := of_decide_eq_true hc
    exact .counterLoad hs hloaded
  | CounterStore id address loaded_u32 incremented_r11 =>
    unfold Model.call Model.CounterStore
    refine at_outcome fun f hs hc => ?_
    obtain ⟨rfl, hloaded, rfl, rfl⟩ := of_decide_eq_true hc
    exact .counterStore hs hloaded
  | Exit id normal => exact exit_outcome id normal
  | Freeze => exact absurd rfl hcall

/-- A call on the innermost frame that passes. -/
theorem at_ok {f : Frame} {s : Stage} {check : Frame → Entry → Bool} {next : Frame → Frame}
    {site : Site} {p : Payload} (hw : m.writable = true) (hroom : m.events.length < events)
    (hstack : m.stack = f :: rest) (hstage : f.stage = s) (hcheck : check f (m.current f) = true) :
    m.At events (m.current f).invocation s check next kind site p =
      ({ m with
        stack := (some (next f)).toList ++ rest
        events := m.events ++ [m.Emit f kind site p] }, true) := by
  refine Recorder.onTop_ok hw hstack (decide_eq_true rfl) ?_
  simp only [Model.Room, Recorder.room_ok, check_ok, need_ok, pure_ok]
  exact ⟨hstage, hcheck, hroom, trivial⟩

theorem exit_ok {f : Frame} {normal : Bool} (hw : m.writable = true)
    (hroom : m.events.length < events) (hstack : m.stack = f :: rest)
    (hnormal : normal = true → f.stage = .kComplete) :
    m.Exit events (m.current f).invocation normal = ({ m with
      stack := (none : Option Frame).toList ++ rest
      events := m.events ++
        [m.Emit f (if normal then .kNormalExit else .kExceptionalExit) .kDirectE790 {}] }, true) := by
  refine Recorder.onTop_ok hw hstack (decide_eq_true rfl) ?_
  simp only [Model.Room, Recorder.room_ok, check_ok, need_ok, pure_ok]
  exact ⟨hnormal, hroom, trivial⟩

theorem caller_ne_zero (site : Site) : Caller site ≠ 0 := by
  cases site <;> decide

/-- **Every move** of the innermost frame is that of a call. -/
theorem moves_call {f : Frame} {left : Option Frame} {site : Site} {p : Payload}
    (hw : m.writable = true) (hroom : m.events.length < events) (hstack : m.stack = f :: rest)
    (h : Moves (m.current f) f kind site p left) :
    ∃ call, (m.call entries events depth call).1 =
      { m with stack := left.toList ++ rest, events := m.events ++ [m.Emit f kind site p] } := by
  have hat : ∀ {s : Stage} {check : Frame → Entry → Bool} {next : Frame → Frame}
      {kind : EventKind} {site : Site} {p : Payload}, f.stage = s →
      check f (m.current f) = true →
      (m.At events (m.current f).invocation s check next kind site p).1 = { m with
        stack := (some (next f)).toList ++ rest
        events := m.events ++ [m.Emit f kind site p] } :=
    fun hstage hcheck => congrArg Prod.fst (at_ok hw hroom hstack hstage hcheck)
  cases h with
  | initialV126 hstage lanes =>
    refine ⟨.InitialV126 (m.current f).invocation
      (((m.current f).r3.setWidth 32 + 400) &&& ~~~(15 : BitVec 32)) lanes, ?_⟩
    unfold Model.call Model.InitialV126
    rw [hat hstage]
    exact decide_eq_true rfl
  | @callPre site hstage ctr v1 hv1 =>
    refine ⟨.CallPre (m.current f).invocation site (Caller site) (m.current f).r3 ctr v1, ?_⟩
    unfold Model.call Model.CallPre
    rw [hat hstage]
    exact decide_eq_true ⟨caller_ne_zero site, rfl, rfl, hv1⟩
  | callReturn hstage =>
    refine ⟨.CallReturn (m.current f).invocation f.active, ?_⟩
    unfold Model.call Model.CallReturn Model.EndCall
    rw [hat hstage]
    · rfl
    · exact decide_eq_true rfl
  | callException hstage =>
    refine ⟨.CallException (m.current f).invocation f.active, ?_⟩
    show (m.At events (m.current f).invocation .kCallActive (fun g _ => g.active = f.active)
      (fun g => { g with stage := .kCallException }) .kCallException f.active {}).1 = _
    exact hat hstage (decide_eq_true rfl)
  | @flagStore hstage raw_r3 hflag =>
    refine ⟨.FlagStore (m.current f).invocation ((m.current f).r3.setWidth 32 + 657) raw_r3, ?_⟩
    unfold Model.call Model.FlagStore
    rw [hat hstage]
    exact decide_eq_true ⟨rfl, hflag⟩
  | @gate100 hstage raw_r10 hgate =>
    refine ⟨.Gate100 (m.current f).invocation raw_r10, ?_⟩
    unfold Model.call Model.Gate100
    rw [hat hstage]
    exact decide_eq_true hgate
  | @counterLoad hstage loaded_u32 hloaded =>
    refine ⟨.CounterLoad (m.current f).invocation ((m.current f).r3.setWidth 32 + 664) loaded_u32,
      ?_⟩
    unfold Model.call Model.CounterLoad
    rw [hat hstage]
    exact decide_eq_true ⟨rfl, hloaded⟩
  | counterStore hstage hloaded =>
    refine ⟨.CounterStore (m.current f).invocation ((m.current f).r3.setWidth 32 + 664)
      f.counter_loaded (f.counter_loaded + 1), ?_⟩
    unfold Model.call Model.CounterStore
    rw [hat hstage]
    exact decide_eq_true ⟨rfl, hloaded, rfl, rfl⟩
  | normalExit hstage =>
    exact ⟨.Exit (m.current f).invocation true,
      congrArg Prod.fst (exit_ok hw hroom hstack fun _ => hstage)⟩
  | exceptionalExit =>
    exact ⟨.Exit (m.current f).invocation false,
      congrArg Prod.fst (exit_ok hw hroom hstack fun h => (by cases h))⟩

end Outcomes

end Mcla.VectorTarget

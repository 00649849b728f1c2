import Mcla.Observers.VectorTarget

/-! # The vector-store recorder

The recorder follows the body that one call of a vector target selects: it loads three vectors,
computes one and scales it, stores what it computed and passes what it scaled to its tail.  An
entry is admitted with the whole body that called it.
-/
namespace Mcla.VectorStore
open NestedRecorder
open CompactReplay (Outcome onTop_outcome)
open RouterDispatch (InvocationId)
open VectorTarget (Lanes Payload quad)

def kTarget : BitVec 32 := 0x8259E768
def kTail : BitVec 32 := 0x8259D030
def kCaller : BitVec 64 := 0x8259F364

/-- What the store is entered with. -/
structure Entry where
  invocation : InvocationId := {}
  target_entry : VectorTarget.Entry := {}
  slot28_pre : Payload := {}
  (parent_event_index actual_target : BitVec 32 := 0)
  (caller_lr r3 : BitVec 64 := 0)
  v1 : Lanes := Vector.replicate 4 0
  deriving DecidableEq

/-- The kinds of events. -/
inductive EventKind where
  | kEntry | kOldLoaded | kRateLoaded | kComputed | kAuxLoaded | kScaled | kStored | kTailPre
  | kTailReturn | kTailException | kNormalExit | kExceptionalExit
  deriving DecidableEq

/-- How far a store has come. -/
inductive Stage where
  | kEntered | kOldLoaded | kRateLoaded | kComputed | kAuxLoaded | kScaled | kStored
  | kTailActive | kTailReturned | kTailException
  deriving DecidableEq

/-- Why the model stops. -/
inductive Fault where
  | kIdentity | kTransition | kEntryCapacity | kEventCapacity | kDepth
  deriving DecidableEq

/-- An event, with its payload. -/
structure Event where
  invocation : InvocationId := {}
  entry_index : Nat := 0
  kind : EventKind := .kEntry
  payload : Payload := {}
  deriving DecidableEq

/-- A store under way. -/
structure Frame where
  entry_index : Nat := 0
  parent : InvocationId := {}
  stage : Stage := .kEntered
  (computed scaled : Lanes := Vector.replicate 4 0)

/-- What an entry is compared with, and the entries so far; a target epoch of zero is not bound
yet. -/
structure Admission where
  epoch : BitVec 64
  (target_epoch last_serial last_target_serial : BitVec 64 := 0)
  entries : List Entry := []

/-! ### The recorder -/

/-- The model of one lane. -/
abbrev Model := Recorder Admission Frame Event Fault

/-- The aligned address at an offset of the object. -/
def Address (e : Entry) (offset : BitVec 32) : BitVec 32 :=
  (e.r3.setWidth 32 + offset) &&& ~~~(15 : BitVec 32)

namespace Model

def new (epoch target_epoch : BitVec 64) : Model where
  admission := { epoch := epoch, target_epoch := target_epoch }
  fault := if epoch = 0 then some .kIdentity else none

/-- Whether an older recorder, made for that entry alone, admits it. -/
def parentCheck (p : VectorTarget.Entry) : Bool :=
  ((VectorTarget.Model.new p.invocation.thread_epoch 0).Enter 1 1 1 p).2

section Calls
variable (entries events depth : Nat) (m : Model)

/-- The entry that a frame belongs to. -/
def current (f : Frame) : Entry := m.admission.entries.getD f.entry_index {}

/-- The store is entered. -/
def Enter (e : Entry) : Model × Bool :=
  m.attempt do
    let p := e.target_entry
    let c := e.slot28_pre
    need (parentCheck p = true ∧ e.invocation.thread_epoch = m.admission.epoch ∧
      e.invocation.serial ≠ 0 ∧ m.admission.last_serial < e.invocation.serial ∧
      (m.admission.target_epoch ≠ 0 → p.invocation.thread_epoch = m.admission.target_epoch) ∧
      m.admission.last_target_serial < p.invocation.serial ∧
      e.parent_event_index ≠ 0 ∧ e.parent_event_index < 65536 ∧
      (∀ old ∈ m.admission.entries.getLast?, old.parent_event_index < e.parent_event_index) ∧
      e.actual_target = kTarget ∧ e.caller_lr = kCaller ∧ e.r3 = p.r3 ∧ e.v1 = p.v1 ∧
      c.lr = kCaller ∧ c.r3 = p.r3 ∧ c.ctr.setWidth 32 = kTarget ∧
      c.unused = 0 ∧ c.vector = p.v1) .kIdentity
    need (m.stack.length ≠ depth) .kDepth
    need (m.admission.entries.length ≠ entries) .kEntryCapacity
    m.room events .kEventCapacity
    let frame : Frame :=
      { entry_index := m.admission.entries.length
        parent := match m.stack with
          | [] => {}
          | top :: _ => (m.current top).invocation }
    return m.opened { m.admission with
      target_epoch := p.invocation.thread_epoch
      last_serial := e.invocation.serial
      last_target_serial := p.invocation.serial
      entries := m.admission.entries ++ [e] } frame
        ⟨e.invocation, m.admission.entries.length, .kEntry, {}⟩

variable (id : InvocationId)

/-- A call on the innermost frame. -/
def Top (body : Frame → Except Fault (Option Frame × Event)) : Model × Bool :=
  m.onTop (fun f => (m.current f).invocation = id) .kIdentity body

def Room : Except Fault Unit := m.room events .kEventCapacity

/-- The event of a frame, as it was before the call. -/
def Emit (f : Frame) (kind : EventKind) (p : Payload) : Event :=
  ⟨(m.current f).invocation, f.entry_index, kind, p⟩

/-- A call at a stage that changes the innermost frame, if its operands pass. -/
def At (s : Stage) (check : Frame → Entry → Bool) (next : Frame → Frame) (kind : EventKind)
    (p : Payload) : Model × Bool :=
  m.Top id fun f => do
    need (f.stage = s) .kTransition
    need (check f (m.current f) = true) .kTransition
    m.Room events
    return (some (next f), m.Emit f kind p)

/-- A quad is loaded from an offset of the object. -/
def Loaded (before after : Stage) (kind : EventKind) (offset ea : BitVec 32) (v : Lanes) :
    Model × Bool :=
  m.At events id before (fun _ e => ea = Address e offset) (fun f => { f with stage := after })
    kind ⟨quad (ea.setWidth 64) 0 0 0, v⟩

/-- The old value is loaded. -/
def OldLoaded (ea : BitVec 32) (v : Lanes) : Model × Bool :=
  m.Loaded events id .kEntered .kOldLoaded .kOldLoaded 256 ea v

/-- The rate is loaded. -/
def RateLoaded (ea : BitVec 32) (v : Lanes) : Model × Bool :=
  m.Loaded events id .kOldLoaded .kRateLoaded .kRateLoaded 272 ea v

/-- The new value is computed. -/
def Computed (v : Lanes) : Model × Bool :=
  m.At events id .kRateLoaded (fun _ _ => true)
    (fun f => { f with computed := v, stage := .kComputed }) .kComputed { vector := v }

/-- The auxiliary quad is loaded. -/
def AuxLoaded (ea : BitVec 32) (v : Lanes) : Model × Bool :=
  m.Loaded events id .kComputed .kAuxLoaded .kAuxLoaded 288 ea v

/-- The scaled value is computed. -/
def Scaled (v : Lanes) : Model × Bool :=
  m.At events id .kAuxLoaded (fun _ _ => true)
    (fun f => { f with scaled := v, stage := .kScaled }) .kScaled { vector := v }

/-- The new value is stored where the old one was. -/
def Stored (ea : BitVec 32) (v : Lanes) : Model × Bool :=
  m.At events id .kScaled (fun f e => ea = Address e 256 ∧ v = f.computed)
    (fun f => { f with stage := .kStored }) .kStored ⟨quad (ea.setWidth 64) 0 0 0, v⟩

/-- The tail is called with the scaled value. -/
def TailPre (lr r3 : BitVec 64) (v : Lanes) : Model × Bool :=
  m.At events id .kStored (fun f e => lr = kCaller ∧ r3 = e.r3 ∧ v = f.scaled)
    (fun f => { f with stage := .kTailActive }) .kTailPre ⟨quad lr r3 (kTail.setWidth 64) 0, v⟩

/-- The tail is over. -/
def TailReturn (exception : Bool) : Model × Bool :=
  m.At events id .kTailActive (fun _ _ => true)
    (fun f => { f with stage := if exception then .kTailException else .kTailReturned })
    (if exception then .kTailException else .kTailReturn) {}

/-- The body ends. -/
def Exit (normal : Bool) : Model × Bool :=
  m.Top id fun f => do
    need (normal = true → f.stage = .kTailReturned) .kTransition
    m.Room events
    return (none, m.Emit f (if normal then .kNormalExit else .kExceptionalExit) {})

def Freeze : Model := { m with frozen := true }

end Calls
end Model

/-- The calls of the model. -/
inductive Call where
  | Enter (e : Entry)
  | OldLoaded (id : InvocationId) (ea : BitVec 32) (v : Lanes)
  | RateLoaded (id : InvocationId) (ea : BitVec 32) (v : Lanes)
  | Computed (id : InvocationId) (v : Lanes)
  | AuxLoaded (id : InvocationId) (ea : BitVec 32) (v : Lanes)
  | Scaled (id : InvocationId) (v : Lanes)
  | Stored (id : InvocationId) (ea : BitVec 32) (v : Lanes)
  | TailPre (id : InvocationId) (lr r3 : BitVec 64) (v : Lanes)
  | TailReturn (id : InvocationId) (exception : Bool)
  | Exit (id : InvocationId) (normal : Bool)
  | Freeze
  deriving DecidableEq

/-- The model after a call, and whether the call succeeded; `Freeze` has no answer. -/
def Model.call (entries events depth : Nat) (m : Model) : Call → Model × Bool
  | .Enter e => m.Enter entries events depth e
  | .OldLoaded id ea v => m.OldLoaded events id ea v
  | .RateLoaded id ea v => m.RateLoaded events id ea v
  | .Computed id v => m.Computed events id v
  | .AuxLoaded id ea v => m.AuxLoaded events id ea v
  | .Scaled id v => m.Scaled events id v
  | .Stored id ea v => m.Stored events id ea v
  | .TailPre id lr r3 v => m.TailPre events id lr r3 v
  | .TailReturn id exception => m.TailReturn events id exception
  | .Exit id normal => m.Exit events id normal
  | .Freeze => (m.Freeze, true)

/-- The model after some calls. -/
def run (entries events depth : Nat) (epoch target_epoch : BitVec 64) (calls : List Call) : Model :=
  calls.foldl (fun m call => (m.call entries events depth call).1) (Model.new epoch target_epoch)

/-! ### What a call does -/

/-- What a call does to the innermost frame, and the event it leaves. -/
inductive Moves (e : Entry) (f : Frame) : EventKind → Payload → Option Frame → Prop where
  | oldLoaded (hstage : f.stage = .kEntered) (v : Lanes) :
    Moves e f .kOldLoaded ⟨quad ((Address e 256).setWidth 64) 0 0 0, v⟩
      (some { f with stage := .kOldLoaded })
  | rateLoaded (hstage : f.stage = .kOldLoaded) (v : Lanes) :
    Moves e f .kRateLoaded ⟨quad ((Address e 272).setWidth 64) 0 0 0, v⟩
      (some { f with stage := .kRateLoaded })
  | computed (hstage : f.stage = .kRateLoaded) (v : Lanes) :
    Moves e f .kComputed { vector := v } (some { f with computed := v, stage := .kComputed })
  | auxLoaded (hstage : f.stage = .kComputed) (v : Lanes) :
    Moves e f .kAuxLoaded ⟨quad ((Address e 288).setWidth 64) 0 0 0, v⟩
      (some { f with stage := .kAuxLoaded })
  | scaled (hstage : f.stage = .kAuxLoaded) (v : Lanes) :
    Moves e f .kScaled { vector := v } (some { f with scaled := v, stage := .kScaled })
  | stored (hstage : f.stage = .kScaled) :
    Moves e f .kStored ⟨quad ((Address e 256).setWidth 64) 0 0 0, f.computed⟩
      (some { f with stage := .kStored })
  | tailPre (hstage : f.stage = .kStored) :
    Moves e f .kTailPre ⟨quad kCaller e.r3 (kTail.setWidth 64) 0, f.scaled⟩
      (some { f with stage := .kTailActive })
  | tailReturn (hstage : f.stage = .kTailActive) :
    Moves e f .kTailReturn {} (some { f with stage := .kTailReturned })
  | tailException (hstage : f.stage = .kTailActive) :
    Moves e f .kTailException {} (some { f with stage := .kTailException })
  | normalExit (hstage : f.stage = .kTailReturned) : Moves e f .kNormalExit {} none
  | exceptionalExit : Moves e f .kExceptionalExit {} none

/-- A move of a frame of the model, as an event. -/
def Changes (m : Model) (f : Frame) (left : Option Frame) (event : Event) : Prop :=
  ∃ kind p, Moves (m.current f) f kind p left ∧ event = m.Emit f kind p

/-- What an entry leaves to compare the next with. -/
def Admission.after (a : Admission) (e : Entry) : Admission :=
  { a with
    target_epoch := e.target_entry.invocation.thread_epoch
    last_serial := e.invocation.serial
    last_target_serial := e.target_entry.invocation.serial
    entries := a.entries ++ [e] }

/-- What an entry saves of the call it was reached by. -/
structure Entry.Called (e : Entry) : Prop where
  event_index : e.parent_event_index ≠ 0
  event_bound : e.parent_event_index < 65536
  target : e.actual_target = kTarget
  caller : e.caller_lr = kCaller
  r3 : e.r3 = e.target_entry.r3
  v1 : e.v1 = e.target_entry.v1
  saved_caller : e.slot28_pre.lr = kCaller
  saved_r3 : e.slot28_pre.r3 = e.target_entry.r3
  saved_target : e.slot28_pre.ctr.setWidth 32 = kTarget
  unused : e.slot28_pre.unused = 0
  saved_v1 : e.slot28_pre.vector = e.target_entry.v1

/-- What the fields of an entry are checked for. -/
structure Admission.Admits (a : Admission) (e : Entry) : Prop where
  checked : Model.parentCheck e.target_entry = true
  epoch : e.invocation.thread_epoch = a.epoch
  positive : e.invocation.serial ≠ 0
  serial : a.last_serial < e.invocation.serial
  target_epoch : a.target_epoch ≠ 0 → e.target_entry.invocation.thread_epoch = a.target_epoch
  target_serial : a.last_target_serial < e.target_entry.invocation.serial
  next : ∀ old ∈ a.entries.getLast?, old.parent_event_index < e.parent_event_index
  called : e.Called

/-- The frame that an entry opens. -/
def Model.frame (m : Model) : Frame :=
  { entry_index := m.admission.entries.length
    parent := match m.stack with
      | [] => {}
      | top :: _ => (m.current top).invocation }

/-- An entry that the model admits, with room for it. -/
def Opens (entries depth : Nat) (m : Model) (a : Admission) (f : Frame) (event : Event) : Prop :=
  ∃ e, m.admission.Admits e ∧ m.stack.length ≠ depth ∧ m.admission.entries.length ≠ entries ∧
    a = m.admission.after e ∧ f = m.frame ∧
    event = ⟨e.invocation, m.admission.entries.length, .kEntry, {}⟩

section Outcomes
variable {entries events depth : Nat} {m : Model}

theorem Enter_body (e : Entry) :
    ∃ body, m.Enter entries events depth e = m.attempt body ∧ ∀ m', body = .ok m' ↔
      (m.admission.Admits e ∧ m.stack.length ≠ depth ∧ m.admission.entries.length ≠ entries ∧
        m.events.length < events) ∧
        m.opened (m.admission.after e) m.frame
          ⟨e.invocation, m.admission.entries.length, .kEntry, {}⟩ = m' := by
  refine ⟨_, rfl, fun m' => ?_⟩
  rw [check_ok, check_ok, check_ok, check_ok, need_ok, need_ok, need_ok, Recorder.room_ok, pure_ok]
  constructor
  · rintro ⟨⟨h1, h2, h3, h4, h5, h6, h7, h8, h9, h10, h11, h12, h13, h14, h15, h16, h17, h18⟩,
      hdepth, hentries, hroom, heq⟩
    exact ⟨⟨⟨h1, h2, h3, h4, h5, h6, h9, ⟨h7, h8, h10, h11, h12, h13, h14, h15, h16, h17, h18⟩⟩,
      hdepth, hentries, hroom⟩, heq⟩
  · rintro ⟨⟨h, hdepth, hentries, hroom⟩, heq⟩
    have c := h.called
    exact ⟨⟨h.checked, h.epoch, h.positive, h.serial, h.target_epoch, h.target_serial,
      c.event_index, c.event_bound, h.next, c.target, c.caller, c.r3, c.v1, c.saved_caller,
      c.saved_r3, c.saved_target, c.unused, c.saved_v1⟩, hdepth, hentries, hroom, heq⟩

theorem Enter_ok {e : Entry} (hw : m.writable = true) (h : m.admission.Admits e)
    (hdepth : m.stack.length ≠ depth) (hentries : m.admission.entries.length ≠ entries)
    (hroom : m.events.length < events) :
    m.Enter entries events depth e = (m.opened (m.admission.after e) m.frame
      ⟨e.invocation, m.admission.entries.length, .kEntry, {}⟩, true) := by
  obtain ⟨body, heq, hbody⟩ := @Enter_body entries events depth m e
  rw [heq]
  exact Recorder.attempt_ok hw ((hbody _).mpr ⟨⟨h, hdepth, hentries, hroom⟩, rfl⟩)

theorem enter_outcome (e : Entry) :
    Outcome (Opens entries depth) Changes events m (m.Enter entries events depth e).1
      (m.Enter entries events depth e).2 := by
  obtain ⟨body, heq, hbody⟩ := @Enter_body entries events depth m e
  rw [heq]
  refine Recorder.attempt_rec (P := Outcome (Opens entries depth) Changes events m) .refused
    .faults fun hw m' hok => ?_
  obtain ⟨⟨hadmits, hdepth, hentries, hroom⟩, rfl⟩ := (hbody m').mp hok
  exact .opens hw hroom ⟨e, hadmits, hdepth, hentries, rfl, rfl, rfl⟩

variable {kind : EventKind} {rest : List Frame}

theorem at_outcome {id : InvocationId} {s : Stage} {check : Frame → Entry → Bool}
    {next : Frame → Frame} {p : Payload} (hmoves : ∀ f, f.stage = s → check f (m.current f) = true →
      Moves (m.current f) f kind p (some (next f))) :
    Outcome (Opens entries depth) Changes events m (m.At events id s check next kind p).1
      (m.At events id s check next kind p).2 := by
  refine onTop_outcome fun f left event _ hbody => ?_
  simp only [Model.Room, Recorder.room_ok, check_ok, need_ok, pure_ok] at hbody
  obtain ⟨hstage, hcheck, hroom, heq⟩ := hbody
  cases heq
  exact ⟨hroom, _, _, hmoves f hstage hcheck, rfl⟩

theorem exit_outcome (id : InvocationId) (normal : Bool) :
    Outcome (Opens entries depth) Changes events m (m.Exit events id normal).1
      (m.Exit events id normal).2 := by
  refine onTop_outcome fun f left event _ hbody => ?_
  simp only [Model.Room, Recorder.room_ok, check_ok, need_ok, pure_ok] at hbody
  obtain ⟨hnormal, hroom, heq⟩ := hbody
  cases heq
  cases normal with
  | true => exact ⟨hroom, _, _, .normalExit (hnormal rfl), rfl⟩
  | false => exact ⟨hroom, _, _, .exceptionalExit, rfl⟩

/-- **Every call** other than `Freeze` has one of these outcomes. -/
theorem call_outcome (call : Call) (hcall : call ≠ .Freeze) :
    Outcome (Opens entries depth) Changes events m (m.call entries events depth call).1
      (m.call entries events depth call).2 := by
  cases call with
  | Enter e => exact enter_outcome e
  | OldLoaded id ea v =>
    unfold Model.call Model.OldLoaded Model.Loaded
    refine at_outcome fun f hs hc => ?_
    obtain rfl := of_decide_eq_true hc
    exact .oldLoaded hs v
  | RateLoaded id ea v =>
    unfold Model.call Model.RateLoaded Model.Loaded
    refine at_outcome fun f hs hc => ?_
    obtain rfl := of_decide_eq_true hc
    exact .rateLoaded hs v
  | Computed id v =>
    unfold Model.call Model.Computed
    exact at_outcome fun f hs _ => .computed hs v
  | AuxLoaded id ea v =>
    unfold Model.call Model.AuxLoaded Model.Loaded
    refine at_outcome fun f hs hc => ?_
    obtain rfl := of_decide_eq_true hc
    exact .auxLoaded hs v
  | Scaled id v =>
    unfold Model.call Model.Scaled
    exact at_outcome fun f hs _ => .scaled hs v
  | Stored id ea v =>
    unfold Model.call Model.Stored
    refine at_outcome fun f hs hc => ?_
    obtain ⟨rfl, rfl⟩ := of_decide_eq_true hc
    exact .stored hs
  | TailPre id lr r3 v =>
    unfold Model.call Model.TailPre
    refine at_outcome fun f hs hc => ?_
    obtain ⟨rfl, rfl, rfl⟩ := of_decide_eq_true hc
    exact .tailPre hs
  | TailReturn id exception =>
    unfold Model.call Model.TailReturn
    refine at_outcome fun f hs _ => ?_
    cases exception with
    | false => exact .tailReturn hs
    | true => exact .tailException hs
  | Exit id normal => exact exit_outcome id normal
  | Freeze => exact absurd rfl hcall

/-- A call on the innermost frame that passes. -/
theorem at_ok {f : Frame} {s : Stage} {check : Frame → Entry → Bool} {next : Frame → Frame}
    {p : Payload} (hw : m.writable = true) (hroom : m.events.length < events)
    (hstack : m.stack = f :: rest) (hstage : f.stage = s) (hcheck : check f (m.current f) = true) :
    m.At events (m.current f).invocation s check next kind p =
      ({ m with
        stack := (some (next f)).toList ++ rest
        events := m.events ++ [m.Emit f kind p] }, true) := by
  refine Recorder.onTop_ok hw hstack (decide_eq_true rfl) ?_
  simp only [Model.Room, Recorder.room_ok, check_ok, need_ok, pure_ok]
  exact ⟨hstage, hcheck, hroom, trivial⟩

theorem exit_ok {f : Frame} {normal : Bool} (hw : m.writable = true)
    (hroom : m.events.length < events) (hstack : m.stack = f :: rest)
    (hnormal : normal = true → f.stage = .kTailReturned) :
    m.Exit events (m.current f).invocation normal = ({ m with
      stack := (none : Option Frame).toList ++ rest
      events := m.events ++ [m.Emit f (if normal then .kNormalExit else .kExceptionalExit) {}] },
      true) := by
  refine Recorder.onTop_ok hw hstack (decide_eq_true rfl) ?_
  simp only [Model.Room, Recorder.room_ok, check_ok, need_ok, pure_ok]
  exact ⟨hnormal, hroom, trivial⟩

/-- **Every move** of the innermost frame is that of a call. -/
theorem moves_call {f : Frame} {left : Option Frame} {p : Payload} (hw : m.writable = true)
    (hroom : m.events.length < events) (hstack : m.stack = f :: rest)
    (h : Moves (m.current f) f kind p left) :
    ∃ call, (m.call entries events depth call).1 =
      { m with stack := left.toList ++ rest, events := m.events ++ [m.Emit f kind p] } := by
  have hat : ∀ {s : Stage} {check : Frame → Entry → Bool} {next : Frame → Frame}
      {kind : EventKind} {p : Payload}, f.stage = s → check f (m.current f) = true →
      (m.At events (m.current f).invocation s check next kind p).1 = { m with
        stack := (some (next f)).toList ++ rest
        events := m.events ++ [m.Emit f kind p] } :=
    fun hstage hcheck => congrArg Prod.fst (at_ok hw hroom hstack hstage hcheck)
  cases h with
  | oldLoaded hstage v =>
    refine ⟨.OldLoaded (m.current f).invocation (Address (m.current f) 256) v, ?_⟩
    unfold Model.call Model.OldLoaded Model.Loaded
    rw [hat hstage]
    exact decide_eq_true rfl
  | rateLoaded hstage v =>
    refine ⟨.RateLoaded (m.current f).invocation (Address (m.current f) 272) v, ?_⟩
    unfold Model.call Model.RateLoaded Model.Loaded
    rw [hat hstage]
    exact decide_eq_true rfl
  | computed hstage v =>
    refine ⟨.Computed (m.current f).invocation v, ?_⟩
    unfold Model.call Model.Computed
    rw [hat hstage rfl]
  | auxLoaded hstage v =>
    refine ⟨.AuxLoaded (m.current f).invocation (Address (m.current f) 288) v, ?_⟩
    unfold Model.call Model.AuxLoaded Model.Loaded
    rw [hat hstage]
    exact decide_eq_true rfl
  | scaled hstage v =>
    refine ⟨.Scaled (m.current f).invocation v, ?_⟩
    unfold Model.call Model.Scaled
    rw [hat hstage rfl]
  | stored hstage =>
    refine ⟨.Stored (m.current f).invocation (Address (m.current f) 256) f.computed, ?_⟩
    unfold Model.call Model.Stored
    rw [hat hstage]
    exact decide_eq_true ⟨rfl, rfl⟩
  | tailPre hstage =>
    refine ⟨.TailPre (m.current f).invocation kCaller (m.current f).r3 f.scaled, ?_⟩
    unfold Model.call Model.TailPre
    rw [hat hstage]
    exact decide_eq_true ⟨rfl, rfl, rfl⟩
  | tailReturn hstage =>
    refine ⟨.TailReturn (m.current f).invocation false, ?_⟩
    unfold Model.call Model.TailReturn
    rw [hat hstage rfl]
    rfl
  | tailException hstage =>
    refine ⟨.TailReturn (m.current f).invocation true, ?_⟩
    unfold Model.call Model.TailReturn
    rw [hat hstage rfl]
    rfl
  | normalExit hstage =>
    exact ⟨.Exit (m.current f).invocation true,
      congrArg Prod.fst (exit_ok hw hroom hstack fun _ => hstage)⟩
  | exceptionalExit =>
    exact ⟨.Exit (m.current f).invocation false,
      congrArg Prod.fst (exit_ok hw hroom hstack fun h => (by cases h))⟩

end Outcomes

end Mcla.VectorStore

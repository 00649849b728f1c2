import Mcla.Observers.VectorStore
import Mcla.Observers.VectorTargetReplay

/-! # Reading a vector-store journal back

The decoder tells the order of the events by their numbers: the first seven move a frame from
one stage to the next.  It keeps the vectors that were computed and scaled, and the recorder
keeps them too.

What the journal says of clocks, of accessors and bindings and of the lexical parent is not
modelled, nor are the other lanes.
-/
namespace Mcla.VectorStore
open NestedRecorder
open CompactReplay BitVec
open RouterDispatch (InvocationId)
open ConsumerDetail (checkId)
open WorkEmission (AllZero)
open VectorTarget (Lanes Payload quad low align low_setWidth low_add align_eq toNat_eq_zero_extend
  fields_eq)

/-! ### The decoder -/

def TARGET : Nat := 0x8259E768
def TAIL : Nat := 0x8259D030
def CALLER : Nat := 0x8259F364

/-- The target that an entry says it comes from. -/
def checkSavedParent (e : Entry) : Except String Unit := do
  VectorTarget.checkEntry e.target_entry true
  let p := e.slot28_pre
  need (p.lr.toNat = CALLER ∧ p.r3 = e.target_entry.r3 ∧
    low p.ctr.toNat = TARGET ∧ p.unused = 0 ∧ p.vector = e.target_entry.v1 ∧
    0 < e.parent_event_index.toNat ∧ e.parent_event_index.toNat < 65536)
    "exact saved selected Slot28 call"

/-- An entry, as it may be written. -/
def checkEntry (e : Entry) (admitted : Bool) : Except String Unit := do
  checkId e.invocation admitted
  VectorTarget.checkEntry e.target_entry admitted
  if admitted then
    checkSavedParent e
    need (e.actual_target.toNat = TARGET ∧ e.caller_lr.toNat = CALLER ∧
      e.r3 = e.target_entry.r3 ∧ e.v1 = e.target_entry.v1)
      "actual store body matches selected parent operands"

/-- A frame of the replay, with the number of its stage. -/
structure FrameRow where
  entry_index : Nat := 0
  model_parent : InvocationId := {}
  stage : Nat := 0
  (computed scaled : Lanes := Vector.replicate 4 0)
  deriving DecidableEq

/-- How many fields the event with that number uses. -/
def used (k : Nat) : Nat := if k ∈ [1, 2, 4, 6] then 1 else if k = 7 then 3 else 0

/-- The offset of the vector that the event with that number loads or stores. -/
def offset : Nat → Option Nat
  | 1 => some 256
  | 2 => some 272
  | 4 => some 288
  | 6 => some 256
  | _ => none

/-- What an event asks of the frame and makes of it. -/
def transition (f : FrameRow) (k : Nat) (a : Nat → Nat) (v : Lanes) (entry : Entry) :
    Except String FrameRow :=
  if 1 ≤ k ∧ k ≤ 7 then do
    need (f.stage = k - 1) "exact original load compute store tail order"
    need (∀ n ∈ offset k, a 0 = align (low (entry.r3.toNat + n)))
      "original aligned effective address"
    let f := if k = 3 then { f with computed := v } else f
    let f := if k = 5 then { f with scaled := v } else f
    need (k = 6 → v = f.computed) "successful store uses observed computed register"
    need (k = 7 → (a 0 = CALLER ∧ a 1 = entry.r3.toNat ∧ a 2 = TAIL) ∧ v = f.scaled)
      "original tail arguments"
    return { f with stage := k }
  else if k = 8 ∨ k = 9 then do
    need (f.stage = 7) "tail return or exception requires active tail"
    return { f with stage := k }
  else if k = 10 then do
    need (f.stage = 8) "normal return requires complete body and tail"
    return f
  else if k = 11 then return f
  else .error "entry replayed separately"

/-- `_step`: the frame after an event. -/
def step (f : FrameRow) (ev : Event) (entry : Entry) : Except String FrameRow := do
  let k := ev.kind.ctorIdx
  let a := ev.payload.fields.toList
  need (AllZero (a.drop (used k)) ∧
    (1 ≤ k ∧ k ≤ 7 ∨ ev.payload.vector = Vector.replicate 4 0)) "unused payload is zero"
  transition f k (fun i => (a.getD i 0).toNat) ev.payload.vector entry

def Event.isExit (ev : Event) : Bool := ev.kind.ctorIdx = 10 || ev.kind.ctorIdx = 11

/-- A lane, as far as its entries are compared with it. -/
structure Lane where
  thread_epoch : BitVec 64
  native_thread_id : BitVec 32
  parent_target_thread_epoch : BitVec 64

/-- What the replay keeps of the entries. -/
structure Kept where
  (last_serial last_target last_event : Nat := 0)

/-- The native thread of the update that an entry belongs to. -/
def Entry.native (e : Entry) : BitVec 32 := e.target_entry.native

/-- A journal is `healthy` when it counts no dropped entry and no error. -/
def format (lane : Lane) (healthy : Bool) :
    Format Entry InvocationId Event Kept FrameRow String where
  idOf e := e.invocation
  eventId ev := ev.invocation
  indexOf ev := ev.entry_index
  isEntry ev := ev.kind.ctorIdx = 0
  isExit ev := ev.isExit
  absent := {}
  common e := do
    checkId e.invocation true
    checkId e.target_entry.invocation true
    need (e.invocation.thread_epoch = lane.thread_epoch ∧
      e.target_entry.invocation.thread_epoch = lane.parent_target_thread_epoch)
      "exact event index and stable target lifetime"
    need (lane.native_thread_id = e.native) "stored exact native lane and lexical context"
  plain ev := need (ev.payload = {}) "entry has no sampled payload"
  enter kept e := do
    let own := e.invocation.serial.toNat
    let outer := e.target_entry.invocation.serial.toNat
    need (kept.last_serial < own ∧ kept.last_target < outer ∧
      kept.last_event < e.parent_event_index.toNat)
      "strict own IDs, parent target IDs and parent event order"
    need (healthy = true → own = kept.last_serial + 1) "healthy allocation ordinal"
    return {
      last_serial := own
      last_target := outer
      last_event := e.parent_event_index.toNat }
  fresh index parent := { entry_index := index, model_parent := parent }
  place f := f.entry_index
  step f ev entry := step f ev entry
  nesting := 8
  notThere := "event entry exists"
  notSame := "exact event index and stable target lifetime"
  notNext := "ordered admitted entry"
  notTop := "exact LIFO and immutable lexical flag"

/-- The pending frames, from the innermost one, of a lane that is accepted. -/
def replay (lane : Lane) (healthy : Bool) (entries : List Entry) (events : List Event) :
    Except String (List FrameRow) := do
  entries.forM fun e => checkEntry e true
  let r ← (format lane healthy).replay entries {} events
  need (r.entered = entries.length) "all entries admitted once and exact pending replay"
  need (lane.parent_target_thread_epoch ≠ 0 ↔ r.entered ≠ 0) "target epoch bound by first entry"
  return r.stack

/-! ### Frames -/

/-- A frame, as the journal writes it. -/
def Frame.row (f : Frame) : FrameRow where
  entry_index := f.entry_index
  model_parent := f.parent
  stage := f.stage.ctorIdx
  computed := f.computed
  scaled := f.scaled

theorem stage_eq {s t : Stage} : s.ctorIdx = t.ctorIdx ↔ s = t := by
  constructor
  · intro h
    rw [← Stage.ofNat_ctorIdx s, h, Stage.ofNat_ctorIdx]
  · exact congrArg _

theorem address_eq {a : BitVec 64} {e : Entry} {n : Nat} :
    a.toNat = align (low (e.r3.toNat + n)) ↔ a = (Address e (BitVec.ofNat 32 n)).setWidth 64 := by
  have hlow : low (e.r3.toNat + n) = low (low e.r3.toNat + n) := by
    rw [VectorTarget.low_eq_mod, VectorTarget.low_eq_mod, VectorTarget.low_eq_mod, Nat.mod_add_mod]
  rw [hlow, low_setWidth, low_add, align_eq]
  exact toNat_eq_zero_extend

theorem step_ok {f g : FrameRow} {id : InvocationId} {index : Nat} {kind : EventKind}
    {x0 x1 x2 x3 : BitVec 64} {v : Lanes} {entry : Entry} (k : Nat) (hk : kind.ctorIdx = k) :
    step f ⟨id, index, kind, ⟨quad x0 x1 x2 x3, v⟩⟩ entry = .ok g ↔
      (AllZero ([x0, x1, x2, x3].drop (used k)) ∧ (1 ≤ k ∧ k ≤ 7 ∨ v = Vector.replicate 4 0)) ∧
      transition f k (fun i => ([x0, x1, x2, x3].getD i 0).toNat) v entry = .ok g := by
  subst hk
  unfold step
  rw [check_ok, need_ok]
  rfl

/-! The fields that an event does not use. -/

section Unused
variable {x0 x1 x2 x3 : BitVec 64}

theorem unused_all (h : AllZero ([x0, x1, x2, x3].drop 0)) : x0 = 0 ∧ x1 = 0 ∧ x2 = 0 ∧ x3 = 0 := by
  simpa [AllZero] using h

theorem unused_last (h : AllZero ([x0, x1, x2, x3].drop 1)) : x1 = 0 ∧ x2 = 0 ∧ x3 = 0 := by
  simpa [AllZero] using h

end Unused

/-- The first seven events. -/
theorem transition_ordered {f g : FrameRow} {k : Nat} {a : Nat → Nat} {v : Lanes} {entry : Entry}
    (hk : 1 ≤ k ∧ k ≤ 7) : transition f k a v entry = .ok g ↔
      f.stage = k - 1 ∧ (∀ n ∈ offset k, a 0 = align (low (entry.r3.toNat + n))) ∧
      (k = 6 → v = f.computed) ∧
      (k = 7 → (a 0 = CALLER ∧ a 1 = entry.r3.toNat ∧ a 2 = TAIL) ∧ v = f.scaled) ∧
      { f with
        stage := k
        computed := if k = 3 then v else f.computed
        scaled := if k = 5 then v else f.scaled } = g := by
  unfold transition
  rw [if_pos hk, check_ok, check_ok, need_ok, need_ok]
  dsimp only
  rw [check_ok, check_ok, need_ok, need_ok, pure_ok]
  by_cases h3 : k = 3
  · simp [h3]
  · by_cases h5 : k = 5
    · simp [h5]
    · simp [h3, h5]

/-- **A move of the recorder** is a step of the replay. -/
theorem moves_step {e : Entry} {f : Frame} {kind : EventKind} {p : Payload} {left : Option Frame}
    (h : Moves e f kind p left) (id : InvocationId) (index : Nat) :
    step f.row ⟨id, index, kind, p⟩ e = .ok (left.getD f).row := by
  cases h with
  | oldLoaded hstage v =>
    refine (step_ok 1 rfl).mpr ⟨⟨by simp [used, AllZero], by simp⟩, (transition_ordered (by simp)).mpr ?_⟩
    refine ⟨stage_eq.mpr hstage, fun n hn => ?_, by simp, by simp, rfl⟩
    obtain rfl : 256 = n := Option.some.inj hn
    exact address_eq.mpr rfl
  | rateLoaded hstage v =>
    refine (step_ok 2 rfl).mpr ⟨⟨by simp [used, AllZero], by simp⟩, (transition_ordered (by simp)).mpr ?_⟩
    refine ⟨stage_eq.mpr hstage, fun n hn => ?_, by simp, by simp, rfl⟩
    obtain rfl : 272 = n := Option.some.inj hn
    exact address_eq.mpr rfl
  | computed hstage v =>
    refine (step_ok 3 rfl).mpr ⟨⟨by simp [used, AllZero], by simp⟩, (transition_ordered (by simp)).mpr ?_⟩
    exact ⟨stage_eq.mpr hstage, fun n hn => (by cases hn), by simp, by simp, rfl⟩
  | auxLoaded hstage v =>
    refine (step_ok 4 rfl).mpr ⟨⟨by simp [used, AllZero], by simp⟩, (transition_ordered (by simp)).mpr ?_⟩
    refine ⟨stage_eq.mpr hstage, fun n hn => ?_, by simp, by simp, rfl⟩
    obtain rfl : 288 = n := Option.some.inj hn
    exact address_eq.mpr rfl
  | scaled hstage v =>
    refine (step_ok 5 rfl).mpr ⟨⟨by simp [used, AllZero], by simp⟩, (transition_ordered (by simp)).mpr ?_⟩
    exact ⟨stage_eq.mpr hstage, fun n hn => (by cases hn), by simp, by simp, rfl⟩
  | stored hstage =>
    refine (step_ok 6 rfl).mpr ⟨⟨by simp [used, AllZero], by simp⟩, (transition_ordered (by simp)).mpr ?_⟩
    refine ⟨stage_eq.mpr hstage, fun n hn => ?_, fun _ => rfl, by simp, rfl⟩
    obtain rfl : 256 = n := Option.some.inj hn
    exact address_eq.mpr rfl
  | tailPre hstage =>
    refine (step_ok 7 rfl).mpr ⟨⟨by simp [used, AllZero], by simp⟩, (transition_ordered (by simp)).mpr ?_⟩
    exact ⟨stage_eq.mpr hstage, fun n hn => (by cases hn), by simp, fun _ => ⟨⟨rfl, rfl, rfl⟩, rfl⟩,
      rfl⟩
  | tailReturn hstage =>
    refine (step_ok 8 rfl).mpr ⟨⟨by simp [used, AllZero], Or.inr rfl⟩, ?_⟩
    exact check_ok.mpr ⟨need_ok.mpr (stage_eq.mpr hstage), rfl⟩
  | tailException hstage =>
    refine (step_ok 9 rfl).mpr ⟨⟨by simp [used, AllZero], Or.inr rfl⟩, ?_⟩
    exact check_ok.mpr ⟨need_ok.mpr (stage_eq.mpr hstage), rfl⟩
  | normalExit hstage =>
    refine (step_ok 10 rfl).mpr ⟨⟨by simp [used, AllZero], Or.inr rfl⟩, ?_⟩
    exact check_ok.mpr ⟨need_ok.mpr (stage_eq.mpr hstage), rfl⟩
  | exceptionalExit => exact (step_ok 11 rfl).mpr ⟨⟨by simp [used, AllZero], Or.inr rfl⟩, rfl⟩

/-- **A step of the replay** is a move of the recorder. -/
theorem step_moves {e : Entry} {f : Frame} {ev : Event} {g : FrameRow}
    (h : step f.row ev e = .ok g) : ∃ left, Moves e f ev.kind ev.payload left := by
  obtain ⟨id, index, kind, fields, v⟩ := ev
  obtain ⟨x0, x1, x2, x3, rfl⟩ := fields_eq fields
  obtain ⟨⟨hunused, hlanes⟩, htransition⟩ := (step_ok _ rfl).mp h
  have hfront : 1 ≤ kind.ctorIdx ∧ kind.ctorIdx ≤ 7 → f.stage.ctorIdx = kind.ctorIdx - 1 ∧
      (∀ n ∈ offset kind.ctorIdx, x0 = (Address e (BitVec.ofNat 32 n)).setWidth 64) ∧
      (kind.ctorIdx = 6 → v = f.computed) ∧
      (kind.ctorIdx = 7 →
        (x0.toNat = CALLER ∧ x1.toNat = e.r3.toNat ∧ x2.toNat = TAIL) ∧ v = f.scaled) := by
    intro hk
    obtain ⟨hstage, haddress, hcomputed, htail, -⟩ := (transition_ordered hk).mp htransition
    exact ⟨hstage, fun n hn => address_eq.mp (haddress n hn), hcomputed, htail⟩
  cases kind with
  | kEntry => cases htransition
  | kOldLoaded =>
    obtain ⟨hstage, haddress, -, -⟩ := hfront (by decide)
    obtain rfl := haddress 256 rfl
    obtain ⟨rfl, rfl, rfl⟩ : x1 = 0 ∧ x2 = 0 ∧ x3 = 0 := unused_last hunused
    exact ⟨_, .oldLoaded (stage_eq.mp hstage) v⟩
  | kRateLoaded =>
    obtain ⟨hstage, haddress, -, -⟩ := hfront (by decide)
    obtain rfl := haddress 272 rfl
    obtain ⟨rfl, rfl, rfl⟩ : x1 = 0 ∧ x2 = 0 ∧ x3 = 0 := unused_last hunused
    exact ⟨_, .rateLoaded (stage_eq.mp hstage) v⟩
  | kComputed =>
    obtain ⟨hstage, -, -, -⟩ := hfront (by decide)
    obtain ⟨rfl, rfl, rfl, rfl⟩ : x0 = 0 ∧ x1 = 0 ∧ x2 = 0 ∧ x3 = 0 := unused_all hunused
    exact ⟨_, .computed (stage_eq.mp hstage) v⟩
  | kAuxLoaded =>
    obtain ⟨hstage, haddress, -, -⟩ := hfront (by decide)
    obtain rfl := haddress 288 rfl
    obtain ⟨rfl, rfl, rfl⟩ : x1 = 0 ∧ x2 = 0 ∧ x3 = 0 := unused_last hunused
    exact ⟨_, .auxLoaded (stage_eq.mp hstage) v⟩
  | kScaled =>
    obtain ⟨hstage, -, -, -⟩ := hfront (by decide)
    obtain ⟨rfl, rfl, rfl, rfl⟩ : x0 = 0 ∧ x1 = 0 ∧ x2 = 0 ∧ x3 = 0 := unused_all hunused
    exact ⟨_, .scaled (stage_eq.mp hstage) v⟩
  | kStored =>
    obtain ⟨hstage, haddress, hcomputed, -⟩ := hfront (by decide)
    obtain rfl := haddress 256 rfl
    obtain ⟨rfl, rfl, rfl⟩ : x1 = 0 ∧ x2 = 0 ∧ x3 = 0 := unused_last hunused
    obtain rfl := hcomputed rfl
    exact ⟨_, .stored (stage_eq.mp hstage)⟩
  | kTailPre =>
    obtain ⟨hstage, -, -, htail⟩ := hfront (by decide)
    obtain ⟨⟨hcaller, hr3, htarget⟩, rfl⟩ := htail rfl
    obtain rfl : x0 = kCaller := eq_of_toNat_eq hcaller
    obtain rfl : x1 = e.r3 := eq_of_toNat_eq hr3
    obtain rfl : x2 = kTail.setWidth 64 := eq_of_toNat_eq htarget
    obtain rfl : x3 = 0 := hunused x3 List.mem_cons_self
    exact ⟨_, .tailPre (stage_eq.mp hstage)⟩
  | kTailReturn =>
    obtain ⟨hstage, -⟩ := check_ok.mp htransition
    obtain ⟨rfl, rfl, rfl, rfl⟩ : x0 = 0 ∧ x1 = 0 ∧ x2 = 0 ∧ x3 = 0 := unused_all hunused
    obtain rfl : v = Vector.replicate 4 0 := hlanes.resolve_left (by decide)
    exact ⟨_, .tailReturn (stage_eq.mp (need_ok.mp hstage))⟩
  | kTailException =>
    obtain ⟨hstage, -⟩ := check_ok.mp htransition
    obtain ⟨rfl, rfl, rfl, rfl⟩ : x0 = 0 ∧ x1 = 0 ∧ x2 = 0 ∧ x3 = 0 := unused_all hunused
    obtain rfl : v = Vector.replicate 4 0 := hlanes.resolve_left (by decide)
    exact ⟨_, .tailException (stage_eq.mp (need_ok.mp hstage))⟩
  | kNormalExit =>
    obtain ⟨hstage, -⟩ := check_ok.mp htransition
    obtain ⟨rfl, rfl, rfl, rfl⟩ : x0 = 0 ∧ x1 = 0 ∧ x2 = 0 ∧ x3 = 0 := unused_all hunused
    obtain rfl : v = Vector.replicate 4 0 := hlanes.resolve_left (by decide)
    exact ⟨_, .normalExit (stage_eq.mp (need_ok.mp hstage))⟩
  | kExceptionalExit =>
    obtain ⟨rfl, rfl, rfl, rfl⟩ : x0 = 0 ∧ x1 = 0 ∧ x2 = 0 ∧ x3 = 0 := unused_all hunused
    obtain rfl : v = Vector.replicate 4 0 := hlanes.resolve_left (by decide)
    exact ⟨_, .exceptionalExit⟩

/-! ### Entries -/

/-- The update that an entry belongs to. -/
def Entry.update (e : Entry) : RouterDispatch.UpdateBinding :=
  e.target_entry.work_entry.virtual_entry.parent_entry.update

/-- **The older recorder** admits an entry of its own where its decoder accepts it, if the update
is bound. -/
theorem parentCheck_iff {p : VectorTarget.Entry} : VectorTarget.checkEntry p true = .ok () ↔
    Model.parentCheck p = true ∧ p.work_entry.virtual_entry.parent_entry.update.bound := by
  rw [VectorTarget.checkEntry_iff, VectorTarget.parentCheck_iff]
  constructor
  · rintro ⟨⟨hepoch, hserial⟩, ⟨hwork, hupdate⟩, hcalled⟩
    have hnew : VectorTarget.Model.new p.invocation.thread_epoch 0 =
        { admission := { epoch := p.invocation.thread_epoch } } := by
      unfold VectorTarget.Model.new
      rw [if_neg hepoch]
    have hadmits : VectorTarget.Admission.Admits { epoch := p.invocation.thread_epoch } p :=
      ⟨hwork, rfl, hserial, RouterDispatch.pos_iff.mpr hserial, fun h => absurd rfl h,
        le_def.mpr (Nat.zero_le _), hcalled, fun old hold => (by cases hold)⟩
    have hok : VectorTarget.Model.Enter 1 1 1
        { admission := { epoch := p.invocation.thread_epoch } } p = (_, true) :=
      VectorTarget.Enter_ok rfl hadmits Nat.zero_ne_one Nat.zero_ne_one Nat.zero_lt_one
    refine ⟨?_, hupdate⟩
    unfold Model.parentCheck
    rw [hnew, hok]
  · rintro ⟨hcheck, hupdate⟩
    obtain ⟨hw, hadmits⟩ := VectorTarget.Enter_true hcheck
    refine ⟨⟨fun hzero => ?_, hadmits.positive⟩, ⟨hadmits.checked, hupdate⟩, hadmits.called⟩
    -- a recorder whose epoch is zero begins with a fault
    have hfault := (Recorder.writable_iff.mp hw).2
    unfold VectorTarget.Model.new at hfault
    rw [if_pos hzero] at hfault
    cases hfault

theorem checkEntry_iff {e : Entry} : checkEntry e true = .ok () ↔
    (e.invocation.thread_epoch ≠ 0 ∧ e.invocation.serial ≠ 0) ∧
      VectorTarget.checkEntry e.target_entry true = .ok () ∧ e.Called := by
  have heq : ∀ {w : Nat} {x y : BitVec w}, x.toNat = y.toNat ↔ x = y := toNat_inj
  have hzero : 0 < e.parent_event_index.toNat ↔ e.parent_event_index ≠ 0 := RouterDispatch.pos_iff
  unfold checkEntry checkSavedParent
  rw [check_ok, check_ok, if_pos rfl, check_ok, check_ok, need_ok,
    need_ok, WorkEmission.checkId_iff, low_setWidth, show TARGET = kTarget.toNat from rfl,
    show CALLER = kCaller.toNat from rfl, heq, heq, heq, heq, hzero]
  constructor
  · rintro ⟨hown, htarget, ⟨-, h1, h2, h3, h4, h5, h6, h7⟩, h8, h9, h10, h11⟩
    exact ⟨hown, htarget, h6, h7, h8, h9, h10, h11, h1, h2, h3, h4, h5⟩
  · rintro ⟨hown, htarget, h⟩
    exact ⟨hown, htarget, ⟨htarget, h.saved_caller, h.saved_r3, h.saved_target, h.unused, h.saved_v1,
      h.event_index, h.event_bound⟩, h.target, h.caller, h.r3, h.v1⟩

/-- What the older recorder admits has an identity. -/
theorem target_positive {p : VectorTarget.Entry} (h : Model.parentCheck p = true) :
    p.invocation.thread_epoch ≠ 0 ∧ p.invocation.serial ≠ 0 := by
  obtain ⟨hw, hadmits⟩ := VectorTarget.Enter_true h
  refine ⟨fun hzero => ?_, hadmits.positive⟩
  have hfault := (Recorder.writable_iff.mp hw).2
  unfold VectorTarget.Model.new at hfault
  rw [if_pos hzero] at hfault
  cases hfault

/-- What the replay knows of the entries. -/
structure Admission.Known (lane : Lane) (a : Admission) (kept : Kept) : Prop where
  epoch : a.epoch = lane.thread_epoch
  serial : kept.last_serial = a.last_serial.toNat
  target : kept.last_target = a.last_target_serial.toNat
  event : kept.last_event = (a.entries.getLast?.map (·.parent_event_index.toNat)).getD 0
  target_epoch : a.target_epoch = if kept.last_event = 0 then 0 else lane.parent_target_thread_epoch

/-- What is asked of the recorder: its target epoch is not bound, or that of the lane. -/
def Admission.Good (lane : Lane) (a : Admission) : Prop :=
  a.target_epoch = lane.parent_target_thread_epoch ∨ a.target_epoch = 0

section Simulation
variable {lane : Lane} {entries : List Entry} {m m' : Model} {r : State Kept FrameRow}
  {kept kept' : Kept} {e : Entry}

theorem common_ok : (format lane false).common e = .ok () ↔
    ((e.invocation.thread_epoch ≠ 0 ∧ e.invocation.serial ≠ 0) ∧
      e.target_entry.invocation.thread_epoch ≠ 0 ∧ e.target_entry.invocation.serial ≠ 0) ∧
      (e.invocation.thread_epoch = lane.thread_epoch ∧
        e.target_entry.invocation.thread_epoch = lane.parent_target_thread_epoch) ∧
      lane.native_thread_id = e.native := by
  show (checkId _ true >>= fun _ => checkId _ true >>= fun _ => need _ _ >>= fun _ => need _ _) =
    _ ↔ _
  rw [check_ok, check_ok, check_ok, need_ok, need_ok,
    WorkEmission.checkId_iff, WorkEmission.checkId_iff]
  tauto

theorem enter_ok {healthy : Bool} : (format lane healthy).enter kept e = .ok kept' ↔
    (kept.last_serial < e.invocation.serial.toNat ∧
      kept.last_target < e.target_entry.invocation.serial.toNat ∧
      kept.last_event < e.parent_event_index.toNat) ∧
      (healthy = true → e.invocation.serial.toNat = kept.last_serial + 1) ∧
      { last_serial := e.invocation.serial.toNat
        last_target := e.target_entry.invocation.serial.toNat
        last_event := e.parent_event_index.toNat } = kept' := by
  show (need _ _ >>= fun _ => need _ _ >>= fun _ => pure _) = _ ↔ _
  rw [check_ok, check_ok, need_ok, need_ok, pure_ok]

/-- The decoder follows the model. -/
abbrev StoreRel (lane : Lane) (entries : List Entry) : Model → State Kept FrameRow → Prop :=
  Rel (format lane false) entries Admission.entries Frame.row (fun _ _ => True)
    (Admission.Known lane) 8 65536

/-- The entry of an open frame is the one that its events name. -/
theorem current_eq {f : Frame} (h : m.admission.entries[f.entry_index]? = some e) :
    m.current f = e := by
  unfold Model.current
  rw [List.getD_eq_getElem?_getD, h]
  rfl

theorem moves_kind {f : Frame} {left : Option Frame} {kind : EventKind} {p : Payload}
    (h : Moves e f kind p left) :
    kind.ctorIdx ≠ 0 ∧ left.isNone = (kind.ctorIdx = 10 || kind.ctorIdx = 11) ∧
      ∀ f', left = some f' → f'.entry_index = f.entry_index := by
  cases h with
  | normalExit => exact ⟨by decide, rfl, fun f' hf' => (by cases hf')⟩
  | exceptionalExit => exact ⟨by decide, rfl, fun f' hf' => (by cases hf')⟩
  | _ =>
    refine ⟨by decide, rfl, fun f' hf' => ?_⟩
    cases hf'
    rfl

/-- A change of the innermost frame, as the replay sees it. -/
theorem changes_step {f : Frame} {left : Option Frame} {event : Event}
    (hown : m.admission.entries[f.entry_index]? = some e) (h : Changes m f left event) :
    Step (format lane false) Frame.row (fun _ => True) e f left event := by
  obtain ⟨kind, p, hmoves, rfl⟩ := h
  rw [current_eq hown] at hmoves
  obtain ⟨hentry, hends, hleft⟩ := moves_kind hmoves
  refine ⟨decide_eq_false hentry, hends, congrArg Entry.invocation (current_eq hown), rfl,
    (left.getD f).row, moves_step hmoves _ _, fun f' hf' => ?_⟩
  subst hf'
  exact ⟨rfl, hleft f' rfl, trivial⟩

theorem plain_entry (id : InvocationId) (index : Nat) :
    (format lane false).plain ⟨id, index, .kEntry, {}⟩ = .ok () := by
  show need (({} : Payload) = {}) "entry has no sampled payload" = .ok ()
  exact need_ok.mpr rfl

/-- The comparison with the entry before is the same on both sides. -/
theorem next_iff {a : Admission} (hknown : a.Known lane kept) :
    kept.last_event < e.parent_event_index.toNat ↔ (a.entries = [] → e.parent_event_index ≠ 0) ∧
      ∀ old ∈ a.entries.getLast?, old.parent_event_index < e.parent_event_index := by
  rw [hknown.event]
  cases hlast : a.entries.getLast? with
  | none =>
    have hnil : a.entries = [] := List.getLast?_eq_none_iff.mp hlast
    have hzero : 0 < e.parent_event_index.toNat ↔ e.parent_event_index ≠ 0 := RouterDispatch.pos_iff
    simp [hnil, hzero]
  | some old =>
    have hne : a.entries ≠ [] := by
      intro hnil
      rw [hnil] at hlast
      cases hlast
    simp only [Option.mem_def, Option.some.injEq, forall_eq', Option.map_some, Option.getD_some,
      hne, false_implies, true_and]
    rfl

/-- An entry that the recorder admits, as the replay sees it. -/
theorem opening (h : StoreRel lane entries m r) (hlane : lane.thread_epoch ≠ 0)
    (hnative : ∀ e ∈ entries, e.native = lane.native_thread_id) (hadmits : m.admission.Admits e)
    (hthere : entries[r.entered]? = some e)
    (htarget : e.target_entry.invocation.thread_epoch = lane.parent_target_thread_epoch) :
    Opening (format lane false) entries Admission.entries Frame.row (fun _ => True)
      (Admission.Known lane) m.admission.entries r (m.admission.after e) m.frame
      ⟨e.invocation, m.admission.entries.length, .kEntry, {}⟩ e
      { last_serial := e.invocation.serial.toNat
        last_target := e.target_entry.invocation.serial.toNat
        last_event := e.parent_event_index.toNat } := by
  have hknown := h.admission
  have hlength := h.length_entries
  have hserial : r.kept.last_serial < e.invocation.serial.toNat := by
    rw [hknown.serial]
    exact hadmits.serial
  have htargets : r.kept.last_target < e.target_entry.invocation.serial.toNat := by
    rw [hknown.target]
    exact hadmits.target_serial
  have hevent := (next_iff hknown).mpr ⟨fun _ => hadmits.called.event_index, hadmits.next⟩
  have hown : e.invocation.thread_epoch = lane.thread_epoch := hadmits.epoch.trans hknown.epoch
  have hevents : e.parent_event_index.toNat ≠ 0 :=
    fun hzero => hadmits.called.event_index (eq_of_toNat_eq hzero)
  refine ⟨rfl, hthere, rfl, hlength, rfl, common_ok.mpr ⟨⟨⟨?_, hadmits.positive⟩,
    target_positive hadmits.checked⟩, ⟨hown, htarget⟩,
    (hnative e (List.mem_of_getElem? hthere)).symm⟩, plain_entry _ _,
    enter_ok.mpr ⟨⟨hserial, htargets, hevent⟩, fun hfalse => (by cases hfalse), rfl⟩, ?_,
    hlength, trivial, ?_⟩
  · rw [hown]
    exact hlane
  · show m.frame.row = { entry_index := r.entered, model_parent := _ }
    rw [h.parent_eq fun f entry hown => congrArg Entry.invocation (current_eq hown), ← hlength]
    unfold Model.frame
    cases m.stack with
    | nil => rfl
    | cons top rest => rfl
  · have hlast : (m.admission.after e).entries.getLast? = some e := List.getLast?_concat
    refine ⟨hknown.epoch, rfl, rfl, ?_, ?_⟩
    · rw [hlast]
      rfl
    · rw [if_neg hevents]
      exact htarget

/-- One call. -/
def Model.step (m : Model) (call : Call) : Model := (m.call 4096 65536 8 call).1

/-- What is asked of a model holds of it before the call as well. -/
theorem outcome_before {ok : Bool} (ho : Outcome (Opens 4096 8) Changes 65536 m m' ok)
    (hsound : m'.fault = none) (hentries : m'.admission.entries <+: entries)
    (hgood : m'.admission.Good lane) :
    m.fault = none ∧ m.admission.entries <+: entries ∧ m.admission.Good lane := by
  cases ho with
  | refused => exact ⟨hsound, hentries, hgood⟩
  | faults => cases hsound
  | changes hw => exact ⟨(Recorder.writable_iff.mp hw).2, hentries, hgood⟩
  | opens hw hroom hopens =>
    obtain ⟨e, hadmits, -, -, rfl, -, -⟩ := hopens
    refine ⟨(Recorder.writable_iff.mp hw).2, (List.prefix_append _ _).trans hentries, ?_⟩
    by_cases hzero : m.admission.target_epoch = 0
    · exact Or.inr hzero
    · rcases hgood with heq | hunbound
      · exact Or.inl ((hadmits.target_epoch hzero).symm.trans heq)
      · exact absurd hunbound (target_positive hadmits.checked).1

/-- **Every call that leaves no fault** is followed by the replay. -/
theorem store_follows (hlane : lane.thread_epoch ≠ 0)
    (hnative : ∀ e ∈ entries, e.native = lane.native_thread_id) :
    Follows Model.step Recorder.events
      (fun m => m.fault = none ∧ m.admission.entries <+: entries ∧ m.admission.Good lane)
      ((format lane false).event entries) (fun _ => True) (StoreRel lane entries) where
  sticky := by
    rintro m call ⟨hsound, hentries, hgood⟩
    by_cases hcall : call = .Freeze
    · subst hcall
      exact ⟨hsound, hentries, hgood⟩
    · exact outcome_before (call_outcome call hcall) hsound hentries hgood
  emits := by
    rintro m call ⟨hsound, hentries, hgood⟩
    by_cases hcall : call = .Freeze
    · subst hcall
      exact Or.inl ⟨rfl, fun r h => h.frozen⟩
    · refine (call_outcome call hcall).emits hsound (fun _ _ h => h) le_rfl ?_ ?_
      · rintro r a f event h hopened ⟨e, hadmits, hdepth, -, rfl, rfl, rfl⟩
        have hafter : (m.step call).admission = m.admission.after e :=
          congrArg Recorder.admission hopened
        rw [hafter] at hentries hgood
        have htarget : e.target_entry.invocation.thread_epoch = lane.parent_target_thread_epoch :=
          hgood.resolve_right (target_positive hadmits.checked).1
        exact ⟨lt_of_le_of_ne h.depth hdepth, e, _,
          opening h hlane hnative hadmits (h.next_entry hentries) htarget⟩
      · intro f left event e _ _ hown hchanges
        exact changes_step hown hchanges

/-- The call that an accepted event comes from. -/
theorem store_answers (hentries : entries.length ≤ 4096)
    (hchecked : ∀ e ∈ entries, checkEntry e true = .ok ()) (hlane : lane.thread_epoch ≠ 0)
    (hnative : ∀ e ∈ entries, e.native = lane.native_thread_id) :
    Answers Model.step Recorder.events (fun m => m.writable = true) 65536
      ((format lane false).event entries) (fun _ => True) (StoreRel lane entries) := by
  refine answers_of (fun _ _ h => h) le_rfl le_rfl ?_ ?_
  · intro (m : Model) r event kept e h hw hroom hdepth hkind hthere hindex hid hcommon hplain henter
    have hknown := h.admission
    have hlength := h.length_entries
    obtain ⟨hlt, -⟩ := List.getElem?_eq_some_iff.mp hthere
    obtain ⟨⟨⟨-, hserial⟩, -⟩, ⟨hown, htarget⟩, -⟩ := common_ok.mp hcommon
    obtain ⟨⟨hrises, htargets, hevent⟩, -, rfl⟩ := enter_ok.mp henter
    obtain ⟨-, hentry, hcalled⟩ := checkEntry_iff.mp (hchecked e (List.mem_of_getElem? hthere))
    have hadmits : m.admission.Admits e := by
      refine ⟨(parentCheck_iff.mp hentry).1, hown.trans hknown.epoch.symm, hserial, ?_, fun hne => ?_,
        ?_, ((next_iff hknown).mp hevent).2, hcalled⟩
      · rw [hknown.serial] at hrises
        exact hrises
      · rw [htarget]
        have hepoch := hknown.target_epoch
        split at hepoch
        · exact absurd hepoch hne
        · exact hepoch.symm
      · rw [hknown.target] at htargets
        exact htargets
    obtain ⟨id, index, kind, p⟩ := event
    obtain rfl : kind = .kEntry := by
      have hzero : kind.ctorIdx = EventKind.ctorIdx .kEntry := of_decide_eq_true hkind
      rw [← EventKind.ofNat_ctorIdx kind, hzero, EventKind.ofNat_ctorIdx]
    obtain rfl : id = e.invocation := hid
    obtain rfl : index = r.entered := hindex
    replace hplain : need (p = {}) _ = .ok () := hplain
    obtain rfl := need_ok.mp hplain
    refine ⟨.Enter e, m.admission.after e, m.frame, ?_, ?_⟩
    · have henters : m.Enter 4096 65536 8 e = _ :=
        Enter_ok hw hadmits (Nat.ne_of_lt hdepth) (by rw [hlength]; omega) hroom
      rw [hlength] at henters
      exact congrArg Prod.fst henters
    · rw [← hlength]
      exact opening h hlane hnative hadmits hthere htarget
  · intro (m : Model) event f rest e next hw hroom hstack _ hown hkind hid hindex hstep
    obtain ⟨left, hmoves⟩ := step_moves hstep
    have hcurrent := current_eq hown
    rw [← hcurrent] at hmoves
    obtain ⟨call, hcall⟩ := moves_call hw hroom hstack hmoves
    obtain ⟨id, index, kind, p⟩ := event
    have hemit : m.Emit f kind p = ⟨id, index, kind, p⟩ := by
      unfold Model.Emit
      rw [hcurrent, show id = e.invocation from hid, show index = f.entry_index from hindex]
    dsimp only at hcall
    rw [hemit] at hcall
    exact ⟨call, left, hcall, changes_step hown ⟨kind, p, hmoves, hemit.symm⟩⟩

end Simulation

/-! ### The language -/

/-- What the entries of a run passed. -/
structure Model.Sound (own : BitVec 64) (m : Model) : Prop where
  epoch : m.admission.epoch = own
  admitted : ∀ e ∈ m.admission.entries, (e.invocation.thread_epoch = own ∧
    e.invocation.serial ≠ 0) ∧ Model.parentCheck e.target_entry = true ∧ e.Called

theorem sound_outcome {own : BitVec 64} {m m' : Model} {ok : Bool} (h : m.Sound own)
    (ho : Outcome (Opens 4096 8) Changes 65536 m m' ok) : m'.Sound own := by
  cases ho with
  | refused => exact h
  | faults => exact ⟨h.epoch, h.admitted⟩
  | changes => exact ⟨h.epoch, h.admitted⟩
  | opens hw hroom hopens =>
    obtain ⟨e, hadmits, -, -, rfl, -, -⟩ := hopens
    refine ⟨h.epoch, fun e' he' => ?_⟩
    rcases List.mem_append.mp he' with hold | hnew
    · exact h.admitted e' hold
    · obtain rfl := List.mem_singleton.mp hnew
      exact ⟨⟨hadmits.epoch.trans h.epoch, hadmits.positive⟩, hadmits.checked, hadmits.called⟩

theorem sound_run (own target_epoch : BitVec 64) (calls : List Call) :
    (run 4096 65536 8 own target_epoch calls).Sound own := by
  unfold run
  induction calls using List.reverseRecOn with
  | nil => exact ⟨rfl, fun e he => (by cases he)⟩
  | append_singleton calls call ih =>
    rw [List.foldl_append]
    simp only [List.foldl_cons, List.foldl_nil]
    by_cases hcall : call = .Freeze
    · subst hcall
      exact ⟨ih.epoch, ih.admitted⟩
    · exact sound_outcome ih (call_outcome call hcall)

theorem store_numbers (lane : Lane) :
    Numbers (format lane false) (fun e => e.invocation.serial.toNat)
      (fun kept => kept.last_serial) := by
  intro kept e kept' h
  obtain ⟨-, -, rfl⟩ := enter_ok.mp h
  rfl

theorem store_numbering (lane : Lane) :
    Numbering (format lane false) (format lane true)
      (fun e => e.invocation.serial.toNat) (fun kept => kept.last_serial) where
  same := rfl
  enter := by
    intro kept e kept'
    rw [enter_ok, enter_ok]
    simp only [forall_const, Bool.false_eq_true, false_implies, true_and]
    tauto

/-- The serials of the entries, in the order of the table. -/
def entrySerials (entries : List Entry) : List Nat := entries.map fun e => e.invocation.serial.toNat

/-- The target epoch of a recorder that kept that. -/
def Kept.targetEpoch (lane : Lane) (kept : Kept) : BitVec 64 :=
  if kept.last_event = 0 then 0 else lane.parent_target_thread_epoch

/-- The entries of a lane that is accepted have its target epoch, so that it is bound. -/
theorem targetEpoch_eq {lane : Lane} {entries : List Entry} {log : List Event}
    {r : State Kept FrameRow} (h : (format lane false).replay entries {} log = .ok r)
    (hwhole : r.entered = entries.length) :
    r.kept.targetEpoch lane = lane.parent_target_thread_epoch ↔
      (lane.parent_target_thread_epoch ≠ 0 ↔ r.entered ≠ 0) := by
  refine Format.bound_iff (fun kept : Kept => kept.last_event = 0) rfl ?_ ?_ log h hwhole
  · intro kept e kept' henter
    obtain ⟨⟨-, -, hlt⟩, -, rfl⟩ := enter_ok.mp henter
    exact Nat.ne_of_gt (Nat.zero_lt_of_lt hlt)
  · intro e hcommon
    obtain ⟨⟨-, hpositive, -⟩, ⟨-, htarget⟩, -⟩ := common_ok.mp hcommon
    rw [← htarget]
    exact hpositive

/-- **Recorder and replay have one language.**  Among the tables of entries whose updates are bound
and the logs that are in range, a lane is accepted, with the pending frames it ends with and the
vectors they remember, where table, log and frames are those of some calls without a fault that end
with the target epoch of the lane, the updates are those of its native thread, and, in a healthy
journal, the serials leave none out. -/
theorem store_language {lane : Lane} (hlane : lane.thread_epoch ≠ 0) (healthy : Bool)
    {entries : List Entry} (hentries : entries.length ≤ 4096)
    (hbound : ∀ e ∈ entries, e.update.bound) {log : List Event} (hlog : log.length ≤ 65536)
    (pending : List FrameRow) :
    replay lane healthy entries log = .ok pending ↔
      (∃ calls : List Call, (run 4096 65536 8 lane.thread_epoch 0 calls).fault = none ∧
        (run 4096 65536 8 lane.thread_epoch 0 calls).admission.entries = entries ∧
        (run 4096 65536 8 lane.thread_epoch 0 calls).events = log ∧
        (run 4096 65536 8 lane.thread_epoch 0 calls).stack.map Frame.row = pending ∧
        (run 4096 65536 8 lane.thread_epoch 0 calls).admission.target_epoch =
          lane.parent_target_thread_epoch) ∧
      (∀ e ∈ entries, e.native = lane.native_thread_id) ∧
      (healthy = true → Consecutive (entrySerials entries)) := by
  have hnew : Model.new lane.thread_epoch 0 = { admission := { epoch := lane.thread_epoch } } := by
    unfold Model.new
    rw [if_neg hlane]
  have hknown : Admission.Known lane { epoch := lane.thread_epoch } {} := ⟨rfl, rfl, rfl, rfl, rfl⟩
  have hgood : ∀ a kept, Admission.Known lane a kept →
      a.Good lane ∧ a.target_epoch = kept.targetEpoch lane := by
    intro a kept h
    refine ⟨?_, h.target_epoch⟩
    have hepoch := h.target_epoch
    split at hepoch
    · exact Or.inr hepoch
    · exact Or.inl hepoch
  have hreplay : replay lane healthy entries log = .ok pending ↔
      (∀ e ∈ entries, checkEntry e true = .ok ()) ∧
      ∃ r, (format lane healthy).replay entries {} log = .ok r ∧ r.entered = entries.length ∧
        (lane.parent_target_thread_epoch ≠ 0 ↔ r.entered ≠ 0) ∧ r.stack = pending := by
    unfold replay
    rw [check_ok, forM_ok, bind_ok]
    simp only [check_ok, need_ok, pure_ok]
  have hchecked : ∀ calls, ∀ e ∈ (run 4096 65536 8 lane.thread_epoch 0 calls).admission.entries,
      e ∈ entries → checkEntry e true = .ok () := by
    intro calls e he hmem
    obtain ⟨⟨hown, hpositive⟩, hparent, hcalled⟩ :=
      (sound_run lane.thread_epoch 0 calls).admitted e he
    refine checkEntry_iff.mpr ⟨⟨?_, hpositive⟩, parentCheck_iff.mpr ⟨hparent, hbound e hmem⟩,
      hcalled⟩
    rw [hown]
    exact hlane
  rw [hreplay]
  unfold run at hchecked ⊢
  rw [hnew] at hchecked ⊢
  exact lane_iff Admission.target_epoch (Kept.targetEpoch lane) (store_follows hlane)
    (fun hall hnative => store_answers hentries hall hlane hnative) hgood (fun _ => Or.inl) rfl
    hknown (fun _ hcommon => (common_ok.mp hcommon).2.2.symm) hchecked
    (fun _ => targetEpoch_eq) (store_numbering lane) (store_numbers lane) rfl healthy hlog pending

/-- The entry of a body that the call of a vector target with that serial selects. -/
def entryOf (serial target_serial : BitVec 64) (parent_event_index : BitVec 32) : Entry where
  invocation := ⟨1, serial⟩
  target_entry := { VectorTarget.entryOf 1 5 20 with invocation := ⟨1, target_serial⟩ }
  slot28_pre := ⟨quad 0x8259F364 0xfffffff8 0x18259E768 0, quad 1 2 3 4⟩
  parent_event_index := parent_event_index
  actual_target := 0x8259E768
  caller_lr := 0x8259F364
  r3 := 0xfffffff8
  v1 := quad 1 2 3 4

/-- A body that is in its tail, with another in it that has stored nothing; the addresses wrap. -/
def nestedCalls : List Call :=
  [.Enter (entryOf 1 3 20), .OldLoaded ⟨1, 1⟩ 0xf0 (quad 5 6 7 8),
    .RateLoaded ⟨1, 1⟩ 0x100 (quad 9 9 9 9), .Computed ⟨1, 1⟩ (quad 10 11 12 13),
    .AuxLoaded ⟨1, 1⟩ 0x110 (quad 2 2 2 2), .Scaled ⟨1, 1⟩ (quad 20 22 24 26),
    .Stored ⟨1, 1⟩ 0xf0 (quad 10 11 12 13),
    .TailPre ⟨1, 1⟩ 0x8259F364 0xfffffff8 (quad 20 22 24 26), .Enter (entryOf 2 4 21),
    .OldLoaded ⟨1, 2⟩ 0xf0 (quad 10 11 12 13)]

theorem store_language_nested :
    replay ⟨1, 9, 1⟩ true (run 4096 65536 8 1 0 nestedCalls).admission.entries
      (run 4096 65536 8 1 0 nestedCalls).events =
        .ok ((run 4096 65536 8 1 0 nestedCalls).stack.map Frame.row) := by
  refine (@store_language ⟨1, 9, 1⟩ (by decide) true _ (by decide) (by decide) _
    (by decide) _).mpr ?_
  -- the lane is given, so its epochs are numbers
  dsimp only
  exact ⟨⟨nestedCalls, by decide, rfl, rfl, rfl, by decide⟩, by decide, fun _ => by decide⟩

/-- In a healthy journal the replay asks for serials that leave none out, and of every entry for
the lane's native thread; the recorder asks for neither. -/
theorem store_language_healthy :
    (¬ ∀ (healthy : Bool) (entries : List Entry) (log : List Event)
      (pending : List FrameRow), entries.length ≤ 4096 → (∀ e ∈ entries, e.update.bound) →
      log.length ≤ 65536 →
      (replay ⟨1, 9, 1⟩ healthy entries log = .ok pending ↔ ∃ calls : List Call,
        (run 4096 65536 8 1 0 calls).fault = none ∧
        (run 4096 65536 8 1 0 calls).admission.entries = entries ∧
        (run 4096 65536 8 1 0 calls).events = log ∧
        (run 4096 65536 8 1 0 calls).stack.map Frame.row = pending ∧
        (run 4096 65536 8 1 0 calls).admission.target_epoch = 1)) ∧
    ¬ ∀ (native : BitVec 32) (entries : List Entry) (log : List Event)
      (pending : List FrameRow), entries.length ≤ 4096 → (∀ e ∈ entries, e.update.bound) →
      log.length ≤ 65536 →
      (replay ⟨1, native, 1⟩ false entries log = .ok pending ↔ ∃ calls : List Call,
        (run 4096 65536 8 1 0 calls).fault = none ∧
        (run 4096 65536 8 1 0 calls).admission.entries = entries ∧
        (run 4096 65536 8 1 0 calls).events = log ∧
        (run 4096 65536 8 1 0 calls).stack.map Frame.row = pending ∧
        (run 4096 65536 8 1 0 calls).admission.target_epoch = 1) := by
  refine ⟨fun h => ?_, fun h => ?_⟩
  · have hrun := (h true [entryOf 2 3 20] [⟨⟨1, 2⟩, 0, .kEntry, {}⟩] [{}] (by decide)
      (by decide) (by decide)).mpr
        ⟨[.Enter (entryOf 2 3 20)], by decide, by decide, by decide, by decide, by decide⟩
    have hrefused : replay ⟨1, 9, 1⟩ true [entryOf 2 3 20]
        [⟨⟨1, 2⟩, 0, .kEntry, {}⟩] ≠ .ok [{}] := by decide
    exact hrefused hrun
  · have hrun := (h 10 [entryOf 1 3 20] [⟨⟨1, 1⟩, 0, .kEntry, {}⟩] [{}] (by decide)
      (by decide) (by decide)).mpr
        ⟨[.Enter (entryOf 1 3 20)], by decide, by decide, by decide, by decide, by decide⟩
    have hrefused : replay ⟨1, 10, 1⟩ false [entryOf 1 3 20]
        [⟨⟨1, 1⟩, 0, .kEntry, {}⟩] ≠ .ok [{}] := by decide
    exact hrefused hrun

end Mcla.VectorStore

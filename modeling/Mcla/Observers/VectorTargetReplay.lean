import Mcla.Observers.VectorTarget
import Mcla.Observers.WorkReplay

/-! # Reading a vector-target journal back

The decoder has the stages, the sites and the kinds of events as numbers, and computes addresses
and counters with integers that do not wrap; the recorder has enumerations and words.  A lane is
accepted where the two give the same.

What the journal says of clocks, of accessors and bindings and of the lexical parent is not
modelled, nor are the other lanes.
-/
namespace Mcla.VectorTarget
open NestedRecorder
open CompactReplay BitVec
open RouterDispatch (InvocationId)
open ConsumerDetail (checkId)
open WorkEmission (UINT16_MAX UINT32_MAX AllZero)

/-! ### The decoder -/

/-- `n & U32`. -/
def low (n : Nat) : Nat := n &&& 0xffffffff

/-- `n & ~15`, of a number that is not negative. -/
def align (n : Nat) : Nat := n - n % 16

def TARGET : Nat := 0x8259F300
def CALLER : Nat := 0x825886F4

def CALLERS : List Nat :=
  [0x8259F334, 0x8259F34C, 0x8259F364, 0x8259F36C, 0x8259F474, 0x8259F48C, 0x8259F4B4]

def READY : List Nat := [1, 2, 3, 4, 7, 8, 11]
def AFTER : List Nat := [2, 3, 4, 5, 8, 9, 12]

/-- An entry, as it may be written. -/
def checkEntry (e : Entry) (admitted : Bool) : Except String Unit := do
  checkId e.invocation admitted
  WorkEmission.checkEntry e.work_entry admitted
  let p := e.vector_pre
  need (admitted = true → e.actual_target.toNat = TARGET ∧ e.caller_lr.toNat = CALLER ∧
    p.lr.toNat = CALLER ∧ low p.ctr.toNat = TARGET ∧ p.index.toNat < 65535 ∧
    AllZero (p.fields.toList.drop 5) ∧ e.r3 = p.r3 ∧ e.v1 = p.vector ∧
    0 < e.parent_event_index.toNat ∧ e.parent_event_index.toNat < 65536)
    "actual body and exact saved vector operands"

/-- A frame of the replay, with the numbers of its stage and of its active site. -/
structure FrameRow where
  entry_index : Nat := 0
  model_parent : InvocationId := {}
  (stage active counter_loaded : Nat := 0)
  deriving DecidableEq

/-- How many fields a kind of event uses. -/
def used : EventKind → Nat
  | .kInitialV126 => 1
  | .kCallPre => 3
  | .kFlagStore => 2
  | .kGate100 => 1
  | .kCounterLoad => 2
  | .kCounterStore => 3
  | _ => 0

/-- What an event asks of the frame and makes of it. -/
def transition (f : FrameRow) (k : EventKind) (site : Nat) (a : Nat → Nat) (v : Lanes)
    (entry : Entry) : Except String FrameRow := do
  let address := low entry.r3.toNat
  match k with
  | .kInitialV126 =>
    need (f.stage = 0 ∧ a 0 = align (low (address + 400))) "initial original vector load address"
    return { f with stage := 1 }
  | .kCallPre =>
    need (f.stage = READY.getD site 0 ∧ a 0 = CALLERS.getD site 0 ∧ a 1 = entry.r3.toNat)
      "exact original call order and arguments"
    need (site ∈ [0, 1, 2, 5] → v = entry.v1) "original restored V1 lanes"
    return { f with active := site, stage := 13 }
  | .kCallReturn =>
    need (f.stage = 13 ∧ f.active = site) "return or exception requires same active call"
    return { f with stage := AFTER.getD site 0 }
  | .kCallException =>
    need (f.stage = 13 ∧ f.active = site) "return or exception requires same active call"
    return { f with stage := 14 }
  | .kFlagStore =>
    need (f.stage = 5 ∧ a 0 = low (address + 657) ∧ a 1 ≤ 1) "original flag store"
    return { f with stage := 6 }
  | .kGate100 =>
    need (f.stage = 6 ∧ (a 0 = 0 ∨ a 0 = 16)) "exact masked slot100 gate"
    return { f with stage := if a 0 ≠ 0 then 8 else 7 }
  | .kCounterLoad =>
    need (f.stage = 9 ∧ a 0 = low (address + 664) ∧ a 1 ≤ 0xffffffff) "original u32 counter load"
    return { f with counter_loaded := a 1, stage := 10 }
  | .kCounterStore =>
    need (f.stage = 10 ∧ a 0 = low (address + 664) ∧ a 1 = f.counter_loaded ∧ a 2 = a 1 + 1)
      "original wide increment and low32 store"
    return { f with stage := if 32 < low (a 2) ∧ low (a 2) < 2 ^ 31 then 11 else 12 }
  | .kNormalExit =>
    need (f.stage = 12) "normal return requires complete body"
    return f
  | .kExceptionalExit => return f
  | .kEntry => .error "entry replayed separately"

/-- `_step`: the frame after an event. -/
def step (f : FrameRow) (ev : Event) (entry : Entry) : Except String FrameRow := do
  let a := ev.payload.fields.toList
  need (AllZero (a.drop (used ev.kind)) ∧
    (ev.kind = .kInitialV126 ∨ ev.kind = .kCallPre ∨ ev.payload.vector = Vector.replicate 4 0))
    "unused payload is zero"
  need (ev.kind = .kCallPre ∨ ev.kind = .kCallReturn ∨ ev.kind = .kCallException ∨
    ev.site.ctorIdx = 0) "site only meaningful for call events"
  transition f ev.kind ev.site.ctorIdx (fun i => (a.getD i 0).toNat) ev.payload.vector entry

def Event.isExit (ev : Event) : Bool := ev.kind = .kNormalExit || ev.kind = .kExceptionalExit

/-- A lane, as far as its entries are compared with it. -/
structure Lane where
  thread_epoch : BitVec 64
  native_thread_id : BitVec 32
  parent_work_thread_epoch : BitVec 64

/-- What the replay keeps of the entries: the last serials and the last entry itself. -/
structure Kept where
  (last_serial last_work last_event : Nat := 0)
  previous : Option Entry := none

/-- The native thread of the update that an entry belongs to. -/
def Entry.native (e : Entry) : BitVec 32 :=
  e.work_entry.virtual_entry.parent_entry.update.native_thread_id

/-- A journal is `healthy` when it counts no dropped entry and no error. -/
def format (lane : Lane) (healthy : Bool) :
    Format Entry InvocationId Event Kept FrameRow String where
  idOf e := e.invocation
  eventId ev := ev.invocation
  indexOf ev := ev.entry_index
  isEntry ev := ev.kind = .kEntry
  isExit ev := ev.isExit
  absent := {}
  common e := do
    checkId e.invocation true
    checkId e.work_entry.invocation true
    need (e.invocation.thread_epoch = lane.thread_epoch ∧
      e.work_entry.invocation.thread_epoch = lane.parent_work_thread_epoch)
      "exact event index and stable work lifetime"
    need (lane.native_thread_id = e.native) "stored exact native lane and lexical context"
  plain ev := need (ev.payload = {} ∧ ev.site.ctorIdx = 0) "entry has no sampled payload"
  enter kept e := do
    let own := e.invocation.serial.toNat
    let wid := e.work_entry.invocation.serial.toNat
    need (kept.last_serial < own ∧ kept.last_work ≤ wid ∧
      kept.last_event < e.parent_event_index.toNat) "strict own IDs and parent event order"
    need (∀ previous ∈ kept.previous, wid = kept.last_work →
      e.work_entry = previous.work_entry ∧
        e.vector_pre.index.toNat < previous.vector_pre.index.toNat)
      "same work entry and strictly decreasing selected ordinal"
    need (healthy = true → own = kept.last_serial + 1) "healthy allocation ordinal"
    return {
      last_serial := own
      last_work := wid
      last_event := e.parent_event_index.toNat
      previous := some e }
  fresh index parent := { entry_index := index, model_parent := parent }
  place f := f.entry_index
  step f ev entry := step f ev entry
  nesting := 8
  notThere := "event entry exists"
  notSame := "exact event index and stable work lifetime"
  notNext := "ordered admitted entry"
  notTop := "exact LIFO and immutable lexical flag"

/-- The pending frames, from the innermost one, of a lane that is accepted. -/
def replay (lane : Lane) (healthy : Bool) (entries : List Entry) (events : List Event) :
    Except String (List FrameRow) := do
  entries.forM fun e => checkEntry e true
  let r ← (format lane healthy).replay entries {} events
  need (r.entered = entries.length) "all entries admitted once and exact pending replay"
  need (lane.parent_work_thread_epoch ≠ 0 ↔ r.entered ≠ 0) "work epoch bound by first entry"
  return r.stack

/-! ### Words and numbers -/

theorem low_eq_mod (n : Nat) : low n = n % 2 ^ 32 := Nat.and_two_pow_sub_one_eq_mod n 32

theorem low_setWidth (r : BitVec 64) : low r.toNat = (r.setWidth 32).toNat := by
  rw [low_eq_mod, toNat_setWidth]

theorem low_add (x : BitVec 32) (n : Nat) : low (x.toNat + n) = (x + BitVec.ofNat 32 n).toNat := by
  rw [low_eq_mod, toNat_add, toNat_ofNat, Nat.add_mod_mod]

theorem align_eq (x : BitVec 32) : align x.toNat = (x &&& ~~~(15 : BitVec 32)).toNat := by
  have hshift : x &&& ~~~(15 : BitVec 32) = (x >>> 4) <<< 4 := by
    refine eq_of_getLsbD_eq fun i hi => ?_
    have hbit : (15 : BitVec 32).getLsbD i = decide (i < 4) := by
      show (BitVec.ofNat 32 (2 ^ 4 - 1)).getLsbD i = _
      rw [getLsbD_ofNat, Nat.testBit_two_pow_sub_one, decide_eq_true hi, Bool.true_and]
    rw [getLsbD_and, getLsbD_not, hbit, getLsbD_shiftLeft,
      getLsbD_ushiftRight]
    by_cases h4 : i < 4
    · simp [h4]
    · have hsum : 4 + (i - 4) = i := by omega
      simp [h4, hsum, hi]
  have hlt := x.isLt
  rw [hshift, toNat_shiftLeft, toNat_ushiftRight, Nat.shiftRight_eq_div_pow,
    Nat.shiftLeft_eq]
  unfold align
  omega

theorem toNat_eq_zero_extend {a : BitVec 64} {x : BitVec 32} :
    a.toNat = x.toNat ↔ a = x.setWidth 64 := by
  have hlt := x.isLt
  have hx : (x.setWidth 64).toNat = x.toNat := by
    rw [toNat_setWidth]
    omega
  rw [← hx]
  exact ⟨eq_of_toNat_eq, congrArg BitVec.toNat⟩

/-- The address of the vector that is loaded first. -/
theorem initial_address {a r : BitVec 64} : a.toNat = align (low (low r.toNat + 400)) ↔
    a = ((r.setWidth 32 + 400) &&& ~~~(15 : BitVec 32)).setWidth 64 := by
  rw [low_setWidth, low_add, align_eq]
  exact toNat_eq_zero_extend

/-- The address of a field of the object. -/
theorem field_address {a r : BitVec 64} {n : Nat} : a.toNat = low (low r.toNat + n) ↔
    a = (r.setWidth 32 + BitVec.ofNat 32 n).setWidth 64 := by
  rw [low_setWidth, low_add]
  exact toNat_eq_zero_extend

/-! ### Frames -/

/-- A frame, as the journal writes it. -/
def Frame.row (f : Frame) : FrameRow where
  entry_index := f.entry_index
  model_parent := f.parent
  stage := f.stage.ctorIdx
  active := f.active.ctorIdx
  counter_loaded := f.counter_loaded.toNat

theorem stage_eq {s t : Stage} : s.ctorIdx = t.ctorIdx ↔ s = t := by
  constructor
  · intro h
    rw [← Stage.ofNat_ctorIdx s, h, Stage.ofNat_ctorIdx]
  · exact congrArg _

theorem site_eq {s t : Site} : s.ctorIdx = t.ctorIdx ↔ s = t := by
  constructor
  · intro h
    rw [← Site.ofNat_ctorIdx s, h, Site.ofNat_ctorIdx]
  · exact congrArg _

/-- Events other than calls have the first site. -/
theorem first_site {site : Site} (h : site.ctorIdx = 0) : site = .kDirectE790 := site_eq.mp h

theorem ready_eq (site : Site) : READY.getD site.ctorIdx 0 = (Ready site).ctorIdx := by
  cases site <;> rfl

theorem after_eq (site : Site) : AFTER.getD site.ctorIdx 0 = (After site).ctorIdx := by
  cases site <;> rfl

theorem callers_eq (site : Site) : CALLERS.getD site.ctorIdx 0 = (Caller site).toNat := by
  cases site <;> rfl

theorem restored_iff (site : Site) : site.ctorIdx ∈ [0, 1, 2, 5] ↔ Restored site := by
  cases site <;> decide

theorem counted_eq (x : BitVec 64) :
    (if 32 < low x.toNat ∧ low x.toNat < 2 ^ 31 then 11 else 12) = (counted x).ctorIdx := by
  rw [low_setWidth]
  unfold counted
  by_cases h : 32 < x.setWidth 32 ∧ x.setWidth 32 < 0x80000000
  · rw [if_pos h, if_pos ⟨h.1, h.2⟩]
    rfl
  · rw [if_neg h, if_neg fun h' => h ⟨h'.1, h'.2⟩]
    rfl

theorem step_ok {f g : FrameRow} {id : InvocationId} {index : Nat} {kind : EventKind} {site : Site}
    {x0 x1 x2 x3 : BitVec 64} {v : Lanes} {entry : Entry} :
    step f ⟨id, index, kind, site, ⟨quad x0 x1 x2 x3, v⟩⟩ entry = .ok g ↔
      (AllZero ([x0, x1, x2, x3].drop (used kind)) ∧
        (kind = .kInitialV126 ∨ kind = .kCallPre ∨ v = Vector.replicate 4 0)) ∧
      (kind = .kCallPre ∨ kind = .kCallReturn ∨ kind = .kCallException ∨ site.ctorIdx = 0) ∧
      transition f kind site.ctorIdx (fun i => ([x0, x1, x2, x3].getD i 0).toNat) v entry = .ok g := by
  unfold step
  rw [check_ok, check_ok, need_ok, need_ok]
  rfl

/-- **A move of the recorder** is a step of the replay. -/
theorem moves_step {e : Entry} {f : Frame} {kind : EventKind} {site : Site} {p : Payload}
    {left : Option Frame} (h : Moves e f kind site p left) (id : InvocationId) (index : Nat) :
    step f.row ⟨id, index, kind, site, p⟩ e = .ok (left.getD f).row := by
  cases h with
  | initialV126 hstage lanes =>
    refine step_ok.mpr ⟨⟨by simp [used, AllZero], Or.inl rfl⟩, Or.inr (Or.inr (Or.inr rfl)), ?_⟩
    rw [transition, need_pure_ok]
    exact ⟨⟨stage_eq.mpr hstage, initial_address.mpr rfl⟩, rfl⟩
  | callPre site hstage ctr hv1 =>
    refine step_ok.mpr ⟨⟨by simp [used, AllZero], by simp⟩, by simp, ?_⟩
    rw [transition, check_ok, check_ok, need_ok, need_ok, pure_ok]
    refine ⟨⟨?_, (callers_eq site).symm, rfl⟩, fun h => hv1 ((restored_iff site).mp h), rfl⟩
    rw [ready_eq]
    exact stage_eq.mpr hstage
  | callReturn hstage =>
    refine step_ok.mpr ⟨⟨by simp [used, AllZero], by simp⟩, by simp, ?_⟩
    rw [transition, need_pure_ok, after_eq]
    exact ⟨⟨stage_eq.mpr hstage, rfl⟩, rfl⟩
  | callException hstage =>
    refine step_ok.mpr ⟨⟨by simp [used, AllZero], by simp⟩, by simp, ?_⟩
    rw [transition, need_pure_ok]
    exact ⟨⟨stage_eq.mpr hstage, rfl⟩, rfl⟩
  | flagStore hstage hflag =>
    refine step_ok.mpr ⟨⟨by simp [used, AllZero], by simp⟩, Or.inr (Or.inr (Or.inr rfl)), ?_⟩
    rw [transition, need_pure_ok]
    exact ⟨⟨stage_eq.mpr hstage, field_address.mpr rfl, hflag⟩, rfl⟩
  | @gate100 hstage raw_r10 hgate =>
    refine step_ok.mpr ⟨⟨by simp [used, AllZero], by simp⟩, Or.inr (Or.inr (Or.inr rfl)), ?_⟩
    rw [transition, need_pure_ok]
    rcases hgate with rfl | rfl
    · exact ⟨⟨stage_eq.mpr hstage, Or.inl rfl⟩, rfl⟩
    · exact ⟨⟨stage_eq.mpr hstage, Or.inr rfl⟩, rfl⟩
  | counterLoad hstage hloaded =>
    refine step_ok.mpr ⟨⟨by simp [used, AllZero], by simp⟩, Or.inr (Or.inr (Or.inr rfl)), ?_⟩
    rw [transition, need_pure_ok]
    exact ⟨⟨stage_eq.mpr hstage, field_address.mpr rfl, hloaded⟩, rfl⟩
  | counterStore hstage hloaded =>
    refine step_ok.mpr ⟨⟨by simp [used, AllZero], by simp⟩, Or.inr (Or.inr (Or.inr rfl)), ?_⟩
    have hnext : (f.counter_loaded + 1).toNat = f.counter_loaded.toNat + 1 := by
      have hlt : f.counter_loaded.toNat ≤ 0xffffffff := hloaded
      exact WorkEmission.toNat_succ hlt (by norm_num)
    rw [transition, need_pure_ok]
    exact ⟨⟨stage_eq.mpr hstage, field_address.mpr rfl, rfl, hnext⟩,
      congrArg (fun stage => { f.row with stage := stage }) (counted_eq (f.counter_loaded + 1))⟩
  | normalExit hstage =>
    refine step_ok.mpr ⟨⟨by simp [used, AllZero], by simp⟩, Or.inr (Or.inr (Or.inr rfl)), ?_⟩
    rw [transition, need_pure_ok]
    exact ⟨stage_eq.mpr hstage, rfl⟩
  | exceptionalExit => exact step_ok.mpr ⟨⟨by simp [used, AllZero], by simp⟩, Or.inr (Or.inr (Or.inr rfl)), rfl⟩

/-- An operand that is zero is not sampled. -/
theorem fields_eq (fields : Vector (BitVec 64) 4) : ∃ x0 x1 x2 x3, fields = quad x0 x1 x2 x3 := by
  obtain ⟨⟨words⟩, hsize⟩ := fields
  obtain ⟨x0, rest, rfl⟩ := List.exists_cons_of_length_eq_add_one hsize
  obtain ⟨x1, x2, x3, rfl⟩ := List.length_eq_three.mp (Nat.succ.inj hsize)
  exact ⟨x0, x1, x2, x3, rfl⟩

/-- **A step of the replay** is a move of the recorder. -/
theorem step_moves {e : Entry} {f : Frame} {ev : Event} {g : FrameRow}
    (hcounter : f.counter_loaded ≤ UINT32_MAX) (h : step f.row ev e = .ok g) :
    ∃ left, Moves e f ev.kind ev.site ev.payload left := by
  obtain ⟨id, index, kind, site, fields, v⟩ := ev
  obtain ⟨x0, x1, x2, x3, rfl⟩ := fields_eq fields
  obtain ⟨⟨hunused, hlanes⟩, hsite, htransition⟩ := step_ok.mp h
  cases kind with
  | kEntry => cases htransition
  | kInitialV126 =>
    rw [transition, check_ok, need_ok] at htransition
    obtain ⟨⟨hstage, haddress⟩, -⟩ := htransition
    obtain rfl : x0 = _ := initial_address.mp haddress
    obtain ⟨rfl, rfl, rfl⟩ : x1 = 0 ∧ x2 = 0 ∧ x3 = 0 := by simpa [used, AllZero] using hunused
    obtain rfl : site = .kDirectE790 := first_site (by simpa using hsite)
    exact ⟨_, .initialV126 (stage_eq.mp hstage) v⟩
  | kCallPre =>
    rw [transition, check_ok, check_ok, need_ok, need_ok] at htransition
    obtain ⟨⟨hstage, hcaller, hr3⟩, hv1, -⟩ := htransition
    rw [ready_eq] at hstage
    obtain rfl : x0 = Caller site := eq_of_toNat_eq (hcaller.trans (callers_eq site))
    obtain rfl : x1 = e.r3 := eq_of_toNat_eq hr3
    obtain rfl : x3 = 0 := by simpa [used, AllZero] using hunused
    exact ⟨_, .callPre site (stage_eq.mp hstage) x2 fun h => hv1 ((restored_iff site).mpr h)⟩
  | kCallReturn =>
    rw [transition, check_ok, need_ok] at htransition
    obtain ⟨⟨hstage, hactive⟩, -⟩ := htransition
    obtain ⟨rfl, rfl, rfl, rfl⟩ : x0 = 0 ∧ x1 = 0 ∧ x2 = 0 ∧ x3 = 0 := by
      simpa [used, AllZero] using hunused
    obtain rfl : v = Vector.replicate 4 0 := by simpa using hlanes
    obtain rfl : f.active = site := site_eq.mp hactive
    exact ⟨_, .callReturn (stage_eq.mp hstage)⟩
  | kCallException =>
    rw [transition, check_ok, need_ok] at htransition
    obtain ⟨⟨hstage, hactive⟩, -⟩ := htransition
    obtain ⟨rfl, rfl, rfl, rfl⟩ : x0 = 0 ∧ x1 = 0 ∧ x2 = 0 ∧ x3 = 0 := by
      simpa [used, AllZero] using hunused
    obtain rfl : v = Vector.replicate 4 0 := by simpa using hlanes
    obtain rfl : f.active = site := site_eq.mp hactive
    exact ⟨_, .callException (stage_eq.mp hstage)⟩
  | kFlagStore =>
    rw [transition, check_ok, need_ok] at htransition
    obtain ⟨⟨hstage, haddress, hflag⟩, -⟩ := htransition
    obtain rfl : x0 = _ := field_address.mp haddress
    obtain ⟨rfl, rfl⟩ : x2 = 0 ∧ x3 = 0 := by simpa [used, AllZero] using hunused
    obtain rfl : v = Vector.replicate 4 0 := by simpa using hlanes
    obtain rfl : site = .kDirectE790 := first_site (by simpa using hsite)
    exact ⟨_, .flagStore (stage_eq.mp hstage) hflag⟩
  | kGate100 =>
    rw [transition, check_ok, need_ok] at htransition
    obtain ⟨⟨hstage, hgate⟩, -⟩ := htransition
    have hgate' : x0 = 0 ∨ x0 = 16 := hgate.imp eq_of_toNat_eq eq_of_toNat_eq
    obtain ⟨rfl, rfl, rfl⟩ : x1 = 0 ∧ x2 = 0 ∧ x3 = 0 := by simpa [used, AllZero] using hunused
    obtain rfl : v = Vector.replicate 4 0 := by simpa using hlanes
    obtain rfl : site = .kDirectE790 := first_site (by simpa using hsite)
    exact ⟨_, .gate100 (stage_eq.mp hstage) hgate'⟩
  | kCounterLoad =>
    rw [transition, check_ok, need_ok] at htransition
    obtain ⟨⟨hstage, haddress, hloaded⟩, -⟩ := htransition
    obtain rfl : x0 = _ := field_address.mp haddress
    obtain ⟨rfl, rfl⟩ : x2 = 0 ∧ x3 = 0 := by simpa [used, AllZero] using hunused
    obtain rfl : v = Vector.replicate 4 0 := by simpa using hlanes
    obtain rfl : site = .kDirectE790 := first_site (by simpa using hsite)
    exact ⟨_, .counterLoad (stage_eq.mp hstage) hloaded⟩
  | kCounterStore =>
    rw [transition, check_ok, need_ok] at htransition
    obtain ⟨⟨hstage, haddress, hloaded, hnext⟩, -⟩ := htransition
    obtain rfl : x0 = _ := field_address.mp haddress
    obtain rfl : x1 = f.counter_loaded := eq_of_toNat_eq hloaded
    obtain rfl : x2 = f.counter_loaded + 1 := by
      have hlt : f.counter_loaded.toNat ≤ 0xffffffff := hcounter
      refine eq_of_toNat_eq (hnext.trans ?_)
      exact (WorkEmission.toNat_succ hlt (by norm_num)).symm
    obtain rfl : x3 = 0 := by simpa [used, AllZero] using hunused
    obtain rfl : v = Vector.replicate 4 0 := by simpa using hlanes
    obtain rfl : site = .kDirectE790 := first_site (by simpa using hsite)
    exact ⟨_, .counterStore (stage_eq.mp hstage) hcounter⟩
  | kNormalExit =>
    rw [transition, check_ok, need_ok] at htransition
    obtain ⟨hstage, -⟩ := htransition
    obtain ⟨rfl, rfl, rfl, rfl⟩ : x0 = 0 ∧ x1 = 0 ∧ x2 = 0 ∧ x3 = 0 := by
      simpa [used, AllZero] using hunused
    obtain rfl : v = Vector.replicate 4 0 := by simpa using hlanes
    obtain rfl : site = .kDirectE790 := first_site (by simpa using hsite)
    exact ⟨_, .normalExit (stage_eq.mp hstage)⟩
  | kExceptionalExit =>
    obtain ⟨rfl, rfl, rfl, rfl⟩ : x0 = 0 ∧ x1 = 0 ∧ x2 = 0 ∧ x3 = 0 := by
      simpa [used, AllZero] using hunused
    obtain rfl : v = Vector.replicate 4 0 := by simpa using hlanes
    obtain rfl : site = .kDirectE790 := first_site (by simpa using hsite)
    exact ⟨_, .exceptionalExit⟩

/-! ### Entries -/

/-- **The older recorder** admits an entry of its own where its decoder accepts it, if the update
is bound. -/
theorem parentCheck_iff {w : WorkEmission.Entry} : WorkEmission.checkEntry w true = .ok () ↔
    Model.parentCheck w = true ∧ w.virtual_entry.parent_entry.update.bound := by
  constructor
  · intro h
    obtain ⟨hown, hvirtual, hcalled⟩ := WorkEmission.checkEntry_iff.mp h
    obtain ⟨hepoch, hserial⟩ := WorkEmission.checkId_iff.mp hown
    obtain ⟨h1, h2, hparent, hcall⟩ := VirtualDetail.checkEntry_iff.mp hvirtual
    obtain ⟨h3, h4, h5, h6, hupdate, htarget, hcaller⟩ := ConsumerDetail.checkEntry_iff.mp hparent
    have hnew : WorkEmission.Model.new w.invocation.thread_epoch 0 =
        { admission := { epoch := w.invocation.thread_epoch } } := by
      unfold WorkEmission.Model.new
      rw [if_neg hepoch]
    have hadmits : WorkEmission.Admission.Admits { epoch := w.invocation.thread_epoch } w :=
      ⟨rfl, hserial, RouterDispatch.pos_iff.mpr hserial, h1, fun h => absurd rfl h, h2,
        RouterDispatch.pos_iff.mpr h2, h3, fun h => absurd rfl h, h4,
        RouterDispatch.pos_iff.mpr h4, h5, fun h => absurd rfl h, h6,
        RouterDispatch.pos_iff.mpr h6, Or.inr hupdate, htarget, hcaller, hcall, hcalled⟩
    have hok : WorkEmission.Model.Enter 1 1 1
        { admission := { epoch := w.invocation.thread_epoch } } w = (_, true) :=
      WorkEmission.Enter_ok rfl hadmits Nat.zero_ne_one Nat.zero_ne_one Nat.zero_lt_one
    refine ⟨?_, hupdate⟩
    unfold Model.parentCheck
    rw [hnew, hok]
  · rintro ⟨hcheck, hupdate⟩
    obtain ⟨hw, hadmits⟩ := WorkEmission.Enter_true hcheck
    refine WorkEmission.checkEntry_admitted hadmits (fun hzero => ?_) hupdate
    -- a recorder whose epoch is zero begins with a fault
    have hfault := (Recorder.writable_iff.mp hw).2
    unfold WorkEmission.Model.new at hfault hzero
    rw [if_pos hzero] at hfault
    cases hfault

theorem checkEntry_iff {e : Entry} : checkEntry e true = .ok () ↔
    (e.invocation.thread_epoch ≠ 0 ∧ e.invocation.serial ≠ 0) ∧
      WorkEmission.checkEntry e.work_entry true = .ok () ∧ e.Called := by
  have heq : ∀ {w : Nat} {x y : BitVec w}, x.toNat = y.toNat ↔ x = y := toNat_inj
  have hzero : 0 < e.parent_event_index.toNat ↔ e.parent_event_index ≠ 0 :=
    (RouterDispatch.pos_iff (x := e.parent_event_index))
  unfold checkEntry
  rw [check_ok, check_ok, need_ok, WorkEmission.checkId_iff, low_setWidth,
    show TARGET = kTarget.toNat from rfl, show CALLER = kCaller.toNat from rfl, heq, heq, heq, heq,
    hzero]
  constructor
  · rintro ⟨hown, hwork, h⟩
    obtain ⟨h1, h2, h3, h4, h5, h6, h7, h8, h9, h10⟩ := h rfl
    exact ⟨hown, hwork, h1, h2, h3, h4, h5, h6, h7, h8, h9, h10⟩
  · rintro ⟨hown, hwork, h⟩
    exact ⟨hown, hwork, fun _ => ⟨h.target, h.caller, h.saved_caller, h.saved_target, h.index,
      h.unused, h.r3, h.v1, h.event_index, h.event_bound⟩⟩

/-- What the replay knows of the entries. -/
structure Admission.Known (lane : Lane) (a : Admission) (kept : Kept) : Prop where
  epoch : a.epoch = lane.thread_epoch
  serial : kept.last_serial = a.last_serial.toNat
  work : kept.last_work = a.last_work_serial.toNat
  event : kept.last_event = (a.entries.getLast?.map (·.parent_event_index.toNat)).getD 0
  previous : kept.previous = a.entries.getLast?
  work_epoch : a.work_epoch = if kept.previous = none then 0 else lane.parent_work_thread_epoch

/-- What is asked of the recorder: its work epoch is not bound, or that of the lane. -/
def Admission.Good (lane : Lane) (a : Admission) : Prop :=
  a.work_epoch = lane.parent_work_thread_epoch ∨ a.work_epoch = 0

section Simulation
variable {lane : Lane} {entries : List Entry} {m m' : Model} {r : State Kept FrameRow}
  {kept kept' : Kept} {e : Entry}

theorem common_ok : (format lane false).common e = .ok () ↔
    ((e.invocation.thread_epoch ≠ 0 ∧ e.invocation.serial ≠ 0) ∧
      e.work_entry.invocation.thread_epoch ≠ 0 ∧ e.work_entry.invocation.serial ≠ 0) ∧
      (e.invocation.thread_epoch = lane.thread_epoch ∧
        e.work_entry.invocation.thread_epoch = lane.parent_work_thread_epoch) ∧
      lane.native_thread_id = e.native := by
  show (checkId _ true >>= fun _ => checkId _ true >>= fun _ => need _ _ >>= fun _ => need _ _) =
    _ ↔ _
  rw [check_ok, check_ok, check_ok, need_ok, need_ok,
    WorkEmission.checkId_iff, WorkEmission.checkId_iff]
  tauto

theorem enter_ok {healthy : Bool} : (format lane healthy).enter kept e = .ok kept' ↔
    (kept.last_serial < e.invocation.serial.toNat ∧
      kept.last_work ≤ e.work_entry.invocation.serial.toNat ∧
      kept.last_event < e.parent_event_index.toNat) ∧
      (∀ previous ∈ kept.previous, e.work_entry.invocation.serial.toNat = kept.last_work →
        e.work_entry = previous.work_entry ∧
          e.vector_pre.index.toNat < previous.vector_pre.index.toNat) ∧
      (healthy = true → e.invocation.serial.toNat = kept.last_serial + 1) ∧
      { last_serial := e.invocation.serial.toNat
        last_work := e.work_entry.invocation.serial.toNat
        last_event := e.parent_event_index.toNat
        previous := some e } = kept' := by
  show (need _ _ >>= fun _ => need _ _ >>= fun _ => need _ _ >>= fun _ => pure _) = _ ↔ _
  rw [check_ok, check_ok, check_ok, need_ok, need_ok, need_ok, pure_ok]

/-- The decoder follows the model. -/
abbrev TargetRel (lane : Lane) (entries : List Entry) : Model → State Kept FrameRow → Prop :=
  Rel (format lane false) entries Admission.entries Frame.row
    (fun _ f => f.counter_loaded ≤ UINT32_MAX) (Admission.Known lane) 8 65536

/-- The entry of an open frame is the one that its events name. -/
theorem current_eq {f : Frame} (h : m.admission.entries[f.entry_index]? = some e) :
    m.current f = e := by
  unfold Model.current
  rw [List.getD_eq_getElem?_getD, h]
  rfl

theorem moves_kind {f : Frame} {left : Option Frame} {kind : EventKind} {site : Site}
    {p : Payload} (h : Moves e f kind site p left) (hcounter : f.counter_loaded ≤ UINT32_MAX) :
    kind ≠ .kEntry ∧ left.isNone = (kind = .kNormalExit || kind = .kExceptionalExit) ∧
      ∀ f', left = some f' → f'.entry_index = f.entry_index ∧ f'.counter_loaded ≤ UINT32_MAX := by
  cases h with
  | counterLoad hstage hloaded =>
    refine ⟨by decide, rfl, fun f' hf' => ?_⟩
    cases hf'
    exact ⟨rfl, hloaded⟩
  | normalExit => exact ⟨by decide, rfl, fun f' hf' => (by cases hf')⟩
  | exceptionalExit => exact ⟨by decide, rfl, fun f' hf' => (by cases hf')⟩
  | _ =>
    refine ⟨by decide, rfl, fun f' hf' => ?_⟩
    cases hf'
    exact ⟨rfl, hcounter⟩

/-- A change of the innermost frame, as the replay sees it. -/
theorem changes_step {f : Frame} {left : Option Frame} {event : Event}
    (hcounter : f.counter_loaded ≤ UINT32_MAX)
    (hown : m.admission.entries[f.entry_index]? = some e) (h : Changes m f left event) :
    Step (format lane false) Frame.row (fun f => f.counter_loaded ≤ UINT32_MAX) e f left event := by
  obtain ⟨kind, site, p, hmoves, rfl⟩ := h
  rw [current_eq hown] at hmoves
  obtain ⟨hentry, hends, hleft⟩ := moves_kind hmoves hcounter
  refine ⟨decide_eq_false hentry, hends, congrArg Entry.invocation (current_eq hown), rfl,
    (left.getD f).row, moves_step hmoves _ _, fun f' hf' => ?_⟩
  subst hf'
  obtain ⟨hindex, hbound⟩ := hleft f' rfl
  exact ⟨rfl, hindex, hbound⟩

theorem plain_entry (id : InvocationId) (index : Nat) :
    (format lane false).plain ⟨id, index, .kEntry, .kDirectE790, {}⟩ = .ok () := by
  show need (({} : Payload) = {} ∧ Site.ctorIdx .kDirectE790 = 0) "entry has no sampled payload" =
    .ok ()
  exact need_ok.mpr ⟨rfl, rfl⟩

/-- The comparison with the entry before is the same on both sides. -/
theorem next_iff {a : Admission} (hknown : a.Known lane kept) :
    ((kept.last_event < e.parent_event_index.toNat) ∧
      ∀ previous ∈ kept.previous, e.work_entry.invocation.serial.toNat = kept.last_work →
        e.work_entry = previous.work_entry ∧
          e.vector_pre.index.toNat < previous.vector_pre.index.toNat) ↔
      (a.entries = [] → e.parent_event_index ≠ 0) ∧
        ∀ old ∈ a.entries.getLast?, old.Next e a.last_work_serial := by
  rw [hknown.event, hknown.previous, hknown.work, toNat_inj]
  cases hlast : a.entries.getLast? with
  | none =>
    have hnil : a.entries = [] := List.getLast?_eq_none_iff.mp hlast
    have hzero : 0 < e.parent_event_index.toNat ↔ e.parent_event_index ≠ 0 := RouterDispatch.pos_iff
    simp [hnil, hzero]
  | some old =>
    have hne : a.entries ≠ [] := by
      intro hnil
      rw [hnil] at hlast
      cases hlast
    simp only [Option.mem_def, Option.some.injEq, forall_eq', Option.map_some, Option.getD_some,
      hne, false_implies, true_and]
    rfl

/-- An entry that the recorder admits, as the replay sees it. -/
theorem opening (h : TargetRel lane entries m r) (hlane : lane.thread_epoch ≠ 0)
    (hnative : ∀ e ∈ entries, e.native = lane.native_thread_id) (hadmits : m.admission.Admits e)
    (hthere : entries[r.entered]? = some e)
    (hwork : e.work_entry.invocation.thread_epoch = lane.parent_work_thread_epoch)
    (hpositive : e.work_entry.invocation.thread_epoch ≠ 0 ∧ e.work_entry.invocation.serial ≠ 0) :
    Opening (format lane false) entries Admission.entries Frame.row
      (fun f => f.counter_loaded ≤ UINT32_MAX) (Admission.Known lane) m.admission.entries r
      (m.admission.after e) m.frame
      ⟨e.invocation, m.admission.entries.length, .kEntry, .kDirectE790, {}⟩ e
      { last_serial := e.invocation.serial.toNat
        last_work := e.work_entry.invocation.serial.toNat
        last_event := e.parent_event_index.toNat
        previous := some e } := by
  have hknown := h.admission
  have hlength := h.length_entries
  have hserial : r.kept.last_serial < e.invocation.serial.toNat := by
    rw [hknown.serial]
    exact hadmits.serial
  have hworks : r.kept.last_work ≤ e.work_entry.invocation.serial.toNat := by
    rw [hknown.work]
    exact hadmits.work_serial
  obtain ⟨hevent, hnext⟩ :=
    (next_iff hknown).mpr ⟨fun _ => hadmits.called.event_index, hadmits.next⟩
  have hown : e.invocation.thread_epoch = lane.thread_epoch := hadmits.epoch.trans hknown.epoch
  refine ⟨rfl, hthere, rfl, hlength, rfl, common_ok.mpr ⟨⟨⟨?_, hadmits.positive⟩, hpositive⟩,
    ⟨hown, hwork⟩, (hnative e (List.mem_of_getElem? hthere)).symm⟩, plain_entry _ _,
    enter_ok.mpr ⟨⟨hserial, hworks, hevent⟩, hnext, fun hfalse => (by cases hfalse), rfl⟩, ?_,
    hlength, ?_, ?_⟩
  · rw [hown]
    exact hlane
  · show m.frame.row = { entry_index := r.entered, model_parent := _ }
    rw [h.parent_eq fun f entry hown => congrArg Entry.invocation (current_eq hown), ← hlength]
    unfold Model.frame
    cases m.stack with
    | nil => rfl
    | cons top rest => rfl
  · exact le_def.mpr (Nat.zero_le _)
  · have hlast : (m.admission.after e).entries.getLast? = some e := List.getLast?_concat
    refine ⟨hknown.epoch, rfl, rfl, ?_, hlast.symm, hwork⟩
    rw [hlast]
    rfl

/-- What the older recorder admits has an identity. -/
theorem work_positive (h : Model.parentCheck e.work_entry = true) :
    e.work_entry.invocation.thread_epoch ≠ 0 ∧ e.work_entry.invocation.serial ≠ 0 := by
  obtain ⟨hw, hadmits⟩ := WorkEmission.Enter_true h
  refine ⟨fun hzero => ?_, hadmits.positive⟩
  have hfault := (Recorder.writable_iff.mp hw).2
  unfold WorkEmission.Model.new at hfault
  rw [if_pos hzero] at hfault
  cases hfault

/-- One call. -/
def Model.step (m : Model) (call : Call) : Model := (m.call 4096 65536 8 call).1

/-- What is asked of a model holds of it before the call as well. -/
theorem outcome_before {ok : Bool} (ho : Outcome (Opens 4096 8) Changes 65536 m m' ok)
    (hsound : m'.fault = none) (hentries : m'.admission.entries <+: entries)
    (hgood : m'.admission.Good lane) :
    m.fault = none ∧ m.admission.entries <+: entries ∧ m.admission.Good lane := by
  cases ho with
  | refused => exact ⟨hsound, hentries, hgood⟩
  | faults => cases hsound
  | changes hw => exact ⟨(Recorder.writable_iff.mp hw).2, hentries, hgood⟩
  | opens hw hroom hopens =>
    obtain ⟨e, hadmits, -, -, rfl, -, -⟩ := hopens
    refine ⟨(Recorder.writable_iff.mp hw).2, (List.prefix_append _ _).trans hentries, ?_⟩
    by_cases hzero : m.admission.work_epoch = 0
    · exact Or.inr hzero
    · rcases hgood with heq | hunbound
      · exact Or.inl ((hadmits.work_epoch hzero).symm.trans heq)
      · exact absurd hunbound (work_positive hadmits.checked).1

/-- **Every call that leaves no fault** is followed by the replay. -/
theorem target_follows (hlane : lane.thread_epoch ≠ 0)
    (hnative : ∀ e ∈ entries, e.native = lane.native_thread_id) :
    Follows Model.step Recorder.events
      (fun m => m.fault = none ∧ m.admission.entries <+: entries ∧ m.admission.Good lane)
      ((format lane false).event entries) (fun _ => True) (TargetRel lane entries) where
  sticky := by
    rintro m call ⟨hsound, hentries, hgood⟩
    by_cases hcall : call = .Freeze
    · subst hcall
      exact ⟨hsound, hentries, hgood⟩
    · exact outcome_before (call_outcome call hcall) hsound hentries hgood
  emits := by
    rintro m call ⟨hsound, hentries, hgood⟩
    by_cases hcall : call = .Freeze
    · subst hcall
      exact Or.inl ⟨rfl, fun r h => h.frozen⟩
    · refine (call_outcome call hcall).emits hsound (fun _ _ h => h) le_rfl ?_ ?_
      · rintro r a f event h hopened ⟨e, hadmits, hdepth, -, rfl, rfl, rfl⟩
        have hafter : (m.step call).admission = m.admission.after e :=
          congrArg Recorder.admission hopened
        rw [hafter] at hentries hgood
        have hthere : entries[r.entered]? = some e := h.next_entry hentries
        have hpositive := work_positive hadmits.checked
        have hwork : e.work_entry.invocation.thread_epoch = lane.parent_work_thread_epoch :=
          hgood.resolve_right hpositive.1
        exact ⟨lt_of_le_of_ne h.depth hdepth, e, _,
          opening h hlane hnative hadmits hthere hwork hpositive⟩
      · intro f left event e hcounter _ hown hchanges
        exact changes_step hcounter hown hchanges

/-- The call that an accepted event comes from. -/
theorem target_answers (hentries : entries.length ≤ 4096)
    (hchecked : ∀ e ∈ entries, checkEntry e true = .ok ()) (hlane : lane.thread_epoch ≠ 0)
    (hnative : ∀ e ∈ entries, e.native = lane.native_thread_id) :
    Answers Model.step Recorder.events (fun m => m.writable = true) 65536
      ((format lane false).event entries) (fun _ => True) (TargetRel lane entries) := by
  refine answers_of (fun _ _ h => h) le_rfl le_rfl ?_ ?_
  · intro (m : Model) r event kept e h hw hroom hdepth hkind hthere hindex hid hcommon hplain henter
    have hknown := h.admission
    have hlength := h.length_entries
    obtain ⟨hlt, -⟩ := List.getElem?_eq_some_iff.mp hthere
    obtain ⟨⟨⟨-, hserial⟩, hpositive⟩, ⟨hown, hwork⟩, -⟩ := common_ok.mp hcommon
    obtain ⟨⟨hrises, hworks, hevent⟩, hnext, -, rfl⟩ := enter_ok.mp henter
    obtain ⟨-, hentry, hcalled⟩ := checkEntry_iff.mp (hchecked e (List.mem_of_getElem? hthere))
    have hadmits : m.admission.Admits e := by
      refine ⟨(parentCheck_iff.mp hentry).1, hown.trans hknown.epoch.symm, hserial, ?_, fun hne => ?_,
        ?_, hcalled, ((next_iff hknown).mp ⟨hevent, hnext⟩).2⟩
      · rw [hknown.serial] at hrises
        exact hrises
      · rw [hwork]
        have hepoch := hknown.work_epoch
        split at hepoch
        · exact absurd hepoch hne
        · exact hepoch.symm
      · rw [hknown.work] at hworks
        exact hworks
    obtain ⟨id, index, kind, site, p⟩ := event
    obtain rfl : kind = .kEntry := of_decide_eq_true hkind
    obtain rfl : id = e.invocation := hid
    obtain rfl : index = r.entered := hindex
    replace hplain : need (p = {} ∧ site.ctorIdx = 0) _ = .ok () := hplain
    obtain ⟨rfl, hsite⟩ := need_ok.mp hplain
    obtain rfl := first_site hsite
    refine ⟨.Enter e, m.admission.after e, m.frame, ?_, ?_⟩
    · have henters : m.Enter 4096 65536 8 e = _ :=
        Enter_ok hw hadmits (Nat.ne_of_lt hdepth) (by rw [hlength]; omega) hroom
      rw [hlength] at henters
      exact congrArg Prod.fst henters
    · rw [← hlength]
      exact opening h hlane hnative hadmits hthere hwork hpositive
  · intro (m : Model) event f rest e next hw hroom hstack hcounter hown hkind hid hindex hstep
    obtain ⟨left, hmoves⟩ := step_moves hcounter hstep
    have hcurrent := current_eq hown
    rw [← hcurrent] at hmoves
    obtain ⟨call, hcall⟩ := moves_call hw hroom hstack hmoves
    obtain ⟨id, index, kind, site, p⟩ := event
    have hemit : m.Emit f kind site p = ⟨id, index, kind, site, p⟩ := by
      unfold Model.Emit
      rw [hcurrent, show id = e.invocation from hid, show index = f.entry_index from hindex]
    dsimp only at hcall
    rw [hemit] at hcall
    exact ⟨call, left, hcall, changes_step hcounter hown ⟨kind, site, p, hmoves, hemit.symm⟩⟩

end Simulation

/-! ### The language -/

/-- What the entries of a run passed. -/
structure Model.Sound (own : BitVec 64) (m : Model) : Prop where
  epoch : m.admission.epoch = own
  admitted : ∀ e ∈ m.admission.entries, (e.invocation.thread_epoch = own ∧
    e.invocation.serial ≠ 0) ∧ Model.parentCheck e.work_entry = true ∧ e.Called

theorem sound_outcome {own : BitVec 64} {m m' : Model} {ok : Bool} (h : m.Sound own)
    (ho : Outcome (Opens 4096 8) Changes 65536 m m' ok) : m'.Sound own := by
  cases ho with
  | refused => exact h
  | faults => exact ⟨h.epoch, h.admitted⟩
  | changes => exact ⟨h.epoch, h.admitted⟩
  | opens hw hroom hopens =>
    obtain ⟨e, hadmits, -, -, rfl, -, -⟩ := hopens
    refine ⟨h.epoch, fun e' he' => ?_⟩
    rcases List.mem_append.mp he' with hold | hnew
    · exact h.admitted e' hold
    · obtain rfl := List.mem_singleton.mp hnew
      exact ⟨⟨hadmits.epoch.trans h.epoch, hadmits.positive⟩, hadmits.checked, hadmits.called⟩

theorem sound_run (own work_epoch : BitVec 64) (calls : List Call) :
    (run 4096 65536 8 own work_epoch calls).Sound own := by
  unfold run
  induction calls using List.reverseRecOn with
  | nil => exact ⟨rfl, fun e he => (by cases he)⟩
  | append_singleton calls call ih =>
    rw [List.foldl_append]
    simp only [List.foldl_cons, List.foldl_nil]
    by_cases hcall : call = .Freeze
    · subst hcall
      exact ⟨ih.epoch, ih.admitted⟩
    · exact sound_outcome ih (call_outcome call hcall)

theorem target_numbers (lane : Lane) :
    Numbers (format lane false) (fun e => e.invocation.serial.toNat)
      (fun kept => kept.last_serial) := by
  intro kept e kept' h
  obtain ⟨-, -, -, rfl⟩ := enter_ok.mp h
  rfl

theorem target_numbering (lane : Lane) :
    Numbering (format lane false) (format lane true)
      (fun e => e.invocation.serial.toNat) (fun kept => kept.last_serial) where
  same := rfl
  enter := by
    intro kept e kept'
    rw [enter_ok, enter_ok]
    simp only [forall_const, Bool.false_eq_true, false_implies, true_and]
    tauto

/-- The serials of the entries, in the order of the table. -/
def entrySerials (entries : List Entry) : List Nat := entries.map fun e => e.invocation.serial.toNat

/-- The work epoch of a recorder that kept that. -/
def Kept.workEpoch (lane : Lane) (kept : Kept) : BitVec 64 :=
  if kept.previous = none then 0 else lane.parent_work_thread_epoch

/-- The entries of a lane that is accepted have its work epoch, so that it is bound. -/
theorem workEpoch_eq {lane : Lane} {entries : List Entry} {log : List Event}
    {r : State Kept FrameRow} (h : (format lane false).replay entries {} log = .ok r)
    (hwhole : r.entered = entries.length) :
    r.kept.workEpoch lane = lane.parent_work_thread_epoch ↔
      (lane.parent_work_thread_epoch ≠ 0 ↔ r.entered ≠ 0) := by
  refine Format.bound_iff (fun kept : Kept => kept.previous = none) rfl ?_ ?_ log h hwhole
  · intro kept e kept' henter
    obtain ⟨-, -, -, rfl⟩ := enter_ok.mp henter
    exact Option.some_ne_none e
  · intro e hcommon
    obtain ⟨⟨-, hpositive, -⟩, ⟨-, hwork⟩, -⟩ := common_ok.mp hcommon
    rw [← hwork]
    exact hpositive

/-- **Recorder and replay have one language.**  Among the tables of entries whose updates are bound
and the logs that are in range, a lane is accepted, with the pending frames it ends with, where
table, log and frames are those of some calls without a fault that end with the work epoch of the
lane, the updates are those of its native thread, and, in a healthy journal, the serials leave none
out. -/
theorem target_language {lane : Lane} (hlane : lane.thread_epoch ≠ 0) (healthy : Bool)
    {entries : List Entry} (hentries : entries.length ≤ 4096)
    (hbound : ∀ e ∈ entries, e.work_entry.virtual_entry.parent_entry.update.bound)
    {log : List Event} (hlog : log.length ≤ 65536) (pending : List FrameRow) :
    replay lane healthy entries log = .ok pending ↔
      (∃ calls : List Call, (run 4096 65536 8 lane.thread_epoch 0 calls).fault = none ∧
        (run 4096 65536 8 lane.thread_epoch 0 calls).admission.entries = entries ∧
        (run 4096 65536 8 lane.thread_epoch 0 calls).events = log ∧
        (run 4096 65536 8 lane.thread_epoch 0 calls).stack.map Frame.row = pending ∧
        (run 4096 65536 8 lane.thread_epoch 0 calls).admission.work_epoch =
          lane.parent_work_thread_epoch) ∧
      (∀ e ∈ entries, e.native = lane.native_thread_id) ∧
      (healthy = true → Consecutive (entrySerials entries)) := by
  have hnew : Model.new lane.thread_epoch 0 = { admission := { epoch := lane.thread_epoch } } := by
    unfold Model.new
    rw [if_neg hlane]
  have hknown : Admission.Known lane { epoch := lane.thread_epoch } {} :=
    ⟨rfl, rfl, rfl, rfl, rfl, rfl⟩
  have hgood : ∀ a kept, Admission.Known lane a kept →
      a.Good lane ∧ a.work_epoch = kept.workEpoch lane := by
    intro a kept h
    refine ⟨?_, h.work_epoch⟩
    have hepoch := h.work_epoch
    split at hepoch
    · exact Or.inr hepoch
    · exact Or.inl hepoch
  have hreplay : replay lane healthy entries log = .ok pending ↔
      (∀ e ∈ entries, checkEntry e true = .ok ()) ∧
      ∃ r, (format lane healthy).replay entries {} log = .ok r ∧ r.entered = entries.length ∧
        (lane.parent_work_thread_epoch ≠ 0 ↔ r.entered ≠ 0) ∧ r.stack = pending := by
    unfold replay
    rw [check_ok, forM_ok, bind_ok]
    simp only [check_ok, need_ok, pure_ok]
  have hchecked : ∀ calls, ∀ e ∈ (run 4096 65536 8 lane.thread_epoch 0 calls).admission.entries,
      e ∈ entries → checkEntry e true = .ok () := by
    intro calls e he hmem
    obtain ⟨⟨hown, hpositive⟩, hparent, hcalled⟩ :=
      (sound_run lane.thread_epoch 0 calls).admitted e he
    refine checkEntry_iff.mpr ⟨⟨?_, hpositive⟩, parentCheck_iff.mpr ⟨hparent, hbound e hmem⟩,
      hcalled⟩
    rw [hown]
    exact hlane
  rw [hreplay]
  unfold run at hchecked ⊢
  rw [hnew] at hchecked ⊢
  exact lane_iff Admission.work_epoch (Kept.workEpoch lane) (target_follows hlane)
    (fun hall hnative => target_answers hentries hall hlane hnative) hgood (fun _ => Or.inl) rfl
    hknown (fun _ hcommon => (common_ok.mp hcommon).2.2.symm) hchecked
    (fun _ => workEpoch_eq) (target_numbering lane) (target_numbers lane) rfl healthy hlog pending

/-- The entry of a body that the item with that index is sent to. -/
def entryOf (serial index : BitVec 64) (parent_event_index : BitVec 32) : Entry where
  invocation := ⟨1, serial⟩
  work_entry := WorkEmission.entryOf 1 1 1 1 0x20
  vector_pre := ⟨#v[0x825886F4, index, 0xfffffff8, 0x30, 0x18259F300, 0, 0, 0, 0, 0], quad 1 2 3 4⟩
  parent_event_index := parent_event_index
  actual_target := 0x8259F300
  caller_lr := 0x825886F4
  r3 := 0xfffffff8
  v1 := quad 1 2 3 4

/-- A body that reaches its last call, with another in its first; the addresses wrap. -/
def nestedCalls : List Call :=
  [.Enter (entryOf 1 5 20), .InitialV126 ⟨1, 1⟩ 0x180 (quad 5 6 7 8),
    .CallPre ⟨1, 1⟩ .kDirectE790 0x8259F334 0xfffffff8 0 (quad 1 2 3 4), .Enter (entryOf 2 4 21),
    .Exit ⟨1, 2⟩ false, .CallReturn ⟨1, 1⟩ .kDirectE790,
    .CallPre ⟨1, 1⟩ .kSlot48 0x8259F34C 0xfffffff8 9 (quad 1 2 3 4), .CallReturn ⟨1, 1⟩ .kSlot48,
    .CallPre ⟨1, 1⟩ .kSlot28 0x8259F364 0xfffffff8 9 (quad 1 2 3 4), .CallReturn ⟨1, 1⟩ .kSlot28,
    .CallPre ⟨1, 1⟩ .kDirectD1E8 0x8259F36C 0xfffffff8 9 (quad 0 0 0 0),
    .CallReturn ⟨1, 1⟩ .kDirectD1E8, .FlagStore ⟨1, 1⟩ 0x289 1, .Gate100 ⟨1, 1⟩ 16,
    .CallPre ⟨1, 1⟩ .kSlot104 0x8259F48C 0xfffffff8 9 (quad 1 2 3 4), .CallReturn ⟨1, 1⟩ .kSlot104,
    .CounterLoad ⟨1, 1⟩ 0x290 32, .CounterStore ⟨1, 1⟩ 0x290 32 33,
    .CallPre ⟨1, 1⟩ .kSlot192 0x8259F4B4 0xfffffff8 9 (quad 0 0 0 0)]

theorem target_language_nested :
    replay ⟨1, 9, 1⟩ true (run 4096 65536 8 1 0 nestedCalls).admission.entries
      (run 4096 65536 8 1 0 nestedCalls).events =
        .ok ((run 4096 65536 8 1 0 nestedCalls).stack.map Frame.row) := by
  refine (@target_language ⟨1, 9, 1⟩ (by decide) true _ (by decide +kernel) (by decide +kernel) _
    (by decide +kernel) _).mpr ?_
  -- the lane is given, so its epochs are numbers
  dsimp only
  exact ⟨⟨nestedCalls, by decide +kernel, rfl, rfl, rfl, by decide +kernel⟩, by decide +kernel,
    fun _ => by decide +kernel⟩

/-- In a healthy journal the replay asks for serials that leave none out, and of every entry for
the lane's native thread; the recorder asks for neither. -/
theorem target_language_healthy :
    (¬ ∀ (healthy : Bool) (entries : List Entry) (log : List Event)
      (pending : List FrameRow), entries.length ≤ 4096 →
      (∀ e ∈ entries, e.work_entry.virtual_entry.parent_entry.update.bound) →
      log.length ≤ 65536 →
      (replay ⟨1, 9, 1⟩ healthy entries log = .ok pending ↔ ∃ calls : List Call,
        (run 4096 65536 8 1 0 calls).fault = none ∧
        (run 4096 65536 8 1 0 calls).admission.entries = entries ∧
        (run 4096 65536 8 1 0 calls).events = log ∧
        (run 4096 65536 8 1 0 calls).stack.map Frame.row = pending ∧
        (run 4096 65536 8 1 0 calls).admission.work_epoch = 1)) ∧
    ¬ ∀ (native : BitVec 32) (entries : List Entry) (log : List Event)
      (pending : List FrameRow), entries.length ≤ 4096 →
      (∀ e ∈ entries, e.work_entry.virtual_entry.parent_entry.update.bound) →
      log.length ≤ 65536 →
      (replay ⟨1, native, 1⟩ false entries log = .ok pending ↔ ∃ calls : List Call,
        (run 4096 65536 8 1 0 calls).fault = none ∧
        (run 4096 65536 8 1 0 calls).admission.entries = entries ∧
        (run 4096 65536 8 1 0 calls).events = log ∧
        (run 4096 65536 8 1 0 calls).stack.map Frame.row = pending ∧
        (run 4096 65536 8 1 0 calls).admission.work_epoch = 1) := by
  refine ⟨fun h => ?_, fun h => ?_⟩
  · have hrun := (h true [entryOf 2 5 20] [⟨⟨1, 2⟩, 0, .kEntry, .kDirectE790, {}⟩] [{}]
      (by decide) (by decide) (by decide)).mpr
        ⟨[.Enter (entryOf 2 5 20)], by decide, by decide, by decide, by decide, by decide⟩
    have hrefused : replay ⟨1, 9, 1⟩ true [entryOf 2 5 20]
        [⟨⟨1, 2⟩, 0, .kEntry, .kDirectE790, {}⟩] ≠ .ok [{}] := by decide
    exact hrefused hrun
  · have hrun := (h 10 [entryOf 1 5 20] [⟨⟨1, 1⟩, 0, .kEntry, .kDirectE790, {}⟩] [{}]
      (by decide) (by decide) (by decide)).mpr
        ⟨[.Enter (entryOf 1 5 20)], by decide, by decide, by decide, by decide, by decide⟩
    have hrefused : replay ⟨1, 10, 1⟩ false [entryOf 1 5 20]
        [⟨⟨1, 1⟩, 0, .kEntry, .kDirectE790, {}⟩] ≠ .ok [{}] := by decide
    exact hrefused hrun

end Mcla.VectorTarget

import Mathlib

/-! # Pad activity

`PadActivityFilter` of `mcla_cursor_autohide`: a table of 64 slots keeps the baseline of each axis
that has reported, so that an axis counts as activity when it moves away from it.  A new axis takes
the slot under a cursor that goes round, also when that slot is in use and others are free.

`answers_of_free` compares a run with a map that forgets nothing.
-/
namespace Mcla.PadActivity
open List

/-! ### The filter -/

/-- The activity that an event counts as. -/
inductive Activity where
  | kNone | kPad | kMouse
deriving DecidableEq

/-- The source of an axis. -/
inductive PadAxisSource where
  | kGamepad | kJoystick
deriving DecidableEq

def kAxisActivityDelta : Int := 4096
def kCapacity : Nat := 64

/-- What an axis is known by. -/
structure AxisId where
  source : PadAxisSource
  device : UInt32
  axis : UInt8
deriving DecidableEq

/-- One axis, with its baseline. -/
structure Entry where
  used : Bool := false
  id : AxisId := ⟨.kGamepad, 0, 0⟩
  baseline : Int16 := 0

/-- The table of axes, of fixed size. -/
structure PadActivityFilter where
  entries : List Entry
  next_slot : Nat
  length_eq : entries.length = kCapacity
  next_lt : next_slot < kCapacity

/-- A filter with no axis. -/
def PadActivityFilter.new : PadActivityFilter where
  entries := replicate kCapacity {}
  next_slot := 0
  length_eq := length_replicate
  next_lt := by decide

/-- The test of `Find`. -/
def Entry.is (entry : Entry) (id : AxisId) : Bool := entry.used && entry.id = id

/-- The axis has moved away from its baseline. -/
def moved (value baseline : Int16) : Bool := kAxisActivityDelta ≤ |value.toInt - baseline.toInt|

namespace PadActivityFilter

/-- `Find`: the first slot of an axis. -/
def find (f : PadActivityFilter) (id : AxisId) : Option Nat := f.entries.findIdx? (·.is id)

/-- `entries_[i] = entry` -/
def setEntry (f : PadActivityFilter) (i : Nat) (entry : Entry) : PadActivityFilter :=
  { f with entries := f.entries.set i entry, length_eq := by rw [length_set, f.length_eq] }

/-- The cursor goes on. -/
def advance (f : PadActivityFilter) : PadActivityFilter :=
  { f with
    next_slot := (f.next_slot + 1) % kCapacity
    next_lt := Nat.mod_lt _ (by decide) }

def entry (f : PadActivityFilter) (i : Nat) : Entry := f.entries.getD i {}

/-- An axis event. -/
def onAxis (f : PadActivityFilter) (id : AxisId) (value : Int16) : Activity × PadActivityFilter :=
  match f.find id with
  | none => (.kNone, (f.setEntry f.next_slot ⟨true, id, value⟩).advance)
  | some i =>
    if moved value (f.entry i).baseline then
      (.kPad, f.setEntry i { f.entry i with baseline := value })
    else (.kNone, f)

/-- The axes of the device are forgotten. -/
def onDeviceRemoved (f : PadActivityFilter) (device : UInt32) : PadActivityFilter :=
  { f with
    entries := f.entries.map fun entry =>
      if entry.used && entry.id.device = device then {} else entry
    length_eq := by rw [length_map, f.length_eq] }

end PadActivityFilter

/-! ### A map that forgets nothing -/

/-- The baseline of each axis that has one. -/
abbrev Baselines := AxisId → Option Int16

/-- An axis event, with no bound on the axes. -/
def Baselines.onAxis (m : Baselines) (id : AxisId) (value : Int16) : Activity × Baselines :=
  match m id with
  | none => (.kNone, Function.update m id (some value))
  | some baseline =>
    if moved value baseline then (.kPad, Function.update m id (some value)) else (.kNone, m)

/-! ### Runs -/

/-- The calls of a filter. -/
inductive Call where
  | axis (id : AxisId) (value : Int16)
  | removed (device : UInt32)

/-- One call. -/
def PadActivityFilter.step (f : PadActivityFilter) : Call → PadActivityFilter
  | .axis id value => (f.onAxis id value).2
  | .removed device => f.onDeviceRemoved device

/-- The answers of the calls of `OnAxis`. -/
def PadActivityFilter.answers (f : PadActivityFilter) : List Call → List Activity
  | [] => []
  | .axis id value :: calls => (f.onAxis id value).1 :: (f.step (.axis id value)).answers calls
  | .removed device :: calls => (f.step (.removed device)).answers calls

/-- The answers to a sequence of calls. -/
def Baselines.answers (m : Baselines) : List Call → List Activity
  | [] => []
  | .axis id value :: calls =>
      (m.onAxis id value).1 :: Baselines.answers (m.onAxis id value).2 calls
  | .removed _ :: calls => Baselines.answers m calls

/-- The call reports an axis of the device. -/
def Call.reports (device : UInt32) : Call → Bool
  | .axis id _ => id.device = device
  | .removed _ => false

/-- No axis of a device reports after the device is removed. -/
def NoReuse : List Call → Prop
  | [] => True
  | .axis _ _ :: calls => NoReuse calls
  | .removed device :: calls => (∀ call ∈ calls, call.reports device = false) ∧ NoReuse calls

/-- The axes that have reported, of the devices that are not removed. -/
def live (axes : List AxisId) : Call → List AxisId
  | .axis id _ => if axes.contains id then axes else id :: axes
  | .removed device => axes.filter (·.device ≠ device)

/-- At no time are there more of them than slots. -/
def WithinCapacity (axes : List AxisId) : List Call → Prop
  | [] => True
  | call :: calls => (live axes call).length ≤ kCapacity ∧ WithinCapacity (live axes call) calls

/-- An axis that is new finds the slot under the cursor free. -/
def FreeSlot (f : PadActivityFilter) : Call → Prop
  | .axis id _ => f.find id = none → (f.entry f.next_slot).used = false
  | .removed _ => True

/-- So does each new axis of a run. -/
def FreeSlots (f : PadActivityFilter) : List Call → Prop
  | [] => True
  | call :: calls => FreeSlot f call ∧ FreeSlots (f.step call) calls

instance NoReuse.decide : ∀ calls, Decidable (NoReuse calls)
  | [] => inferInstanceAs (Decidable True)
  | .axis _ _ :: calls => NoReuse.decide calls
  | .removed _ :: calls => @instDecidableAnd _ _ (List.decidableBAll _ calls) (NoReuse.decide calls)

instance WithinCapacity.decide : ∀ axes calls, Decidable (WithinCapacity axes calls)
  | _, [] => inferInstanceAs (Decidable True)
  | axes, call :: calls =>
    @instDecidableAnd _ _ (Nat.decLe _ _) (WithinCapacity.decide (live axes call) calls)

instance FreeSlot.decide (f : PadActivityFilter) : ∀ call, Decidable (FreeSlot f call)
  | .axis id _ => inferInstanceAs
    (Decidable (f.find id = none → (f.entry f.next_slot).used = false))
  | .removed _ => inferInstanceAs (Decidable True)

instance FreeSlots.decide : ∀ f calls, Decidable (FreeSlots f calls)
  | _, [] => inferInstanceAs (Decidable True)
  | f, call :: calls =>
    @instDecidableAnd _ _ (FreeSlot.decide f call) (FreeSlots.decide (f.step call) calls)

/-! ### The table is the map -/

section Table
variable {f : PadActivityFilter} {m : Baselines} {id other : AxisId}

/-- The baseline of an axis in the table. -/
def PadActivityFilter.baseline (f : PadActivityFilter) (id : AxisId) : Option Int16 :=
  (f.entries.find? (·.is id)).map (·.baseline)

theorem is_iff {entry : Entry} : entry.is id = true ↔ entry.used = true ∧ entry.id = id := by
  simp [Entry.is]

theorem find?_set_of_not {p : Entry → Bool} {l : List Entry} {i : Nat} {entry : Entry}
    (hold : p (l.getD i {}) = false) (hnew : p entry = false) :
    (l.set i entry).find? p = l.find? p := by
  induction l generalizing i with
  | nil => rfl
  | cons e l ih =>
    cases i with
    | zero =>
      rw [getD_cons_zero] at hold
      rw [set_cons_zero, find?_cons_of_neg (by simp [hnew]), find?_cons_of_neg (by simp [hold])]
    | succ i =>
      rw [getD_cons_succ] at hold
      rw [set_cons_succ, find?_cons, find?_cons, ih hold]

theorem find?_set_of_first {p : Entry → Bool} {l : List Entry} {i : Nat} {entry : Entry}
    (hbefore : ∀ j < i, p (l.getD j {}) = false) (hlt : i < l.length) (hnew : p entry = true) :
    (l.set i entry).find? p = some entry := by
  induction l generalizing i with
  | nil => exact absurd hlt (Nat.not_lt_zero i)
  | cons e l ih =>
    cases i with
    | zero => exact find?_cons_of_pos hnew
    | succ i =>
      have hfirst : p e = false := hbefore 0 (Nat.succ_pos i)
      rw [set_cons_succ, find?_cons_of_neg (by simp [hfirst])]
      exact ih (fun j hj => hbefore (j + 1) (Nat.succ_lt_succ hj)) (Nat.lt_of_succ_lt_succ hlt)

namespace PadActivityFilter

theorem baseline_eq : f.baseline id = (f.find id).map fun i => (f.entry i).baseline := by
  rw [baseline, find, find?_eq_bind_findIdx?_getElem?]
  cases hfind : f.entries.findIdx? (·.is id) with
  | none => rfl
  | some i =>
    obtain ⟨hlt, -⟩ := findIdx?_eq_some_iff_getElem.mp hfind
    rw [Option.bind_some, Option.map_some, entry, getD_eq_getElem _ _ hlt,
      getElem?_eq_getElem hlt, Option.map_some]

theorem not_is_of_find_eq_none (h : f.find id = none) (i : Nat) : (f.entry i).is id = false := by
  by_cases hlt : i < f.entries.length
  · rw [entry, getD_eq_getElem _ _ hlt]
    exact findIdx?_eq_none_iff.mp h _ (getElem_mem hlt)
  · rw [entry, getD_eq_default _ _ (Nat.le_of_not_lt hlt)]
    rfl

/-- The slot `Find` gives is the axis's, and the first that is. -/
theorem find_eq_some {i : Nat} (h : f.find id = some i) :
    i < f.entries.length ∧ (f.entry i).is id = true ∧ ∀ j < i, (f.entry j).is id = false := by
  obtain ⟨hlt, his, hbefore⟩ := findIdx?_eq_some_iff_getElem.mp h
  refine ⟨hlt, ?_, fun j hj => ?_⟩
  · rw [entry, getD_eq_getElem _ _ hlt]
    exact his
  · rw [entry, getD_eq_getElem _ _ (Nat.lt_trans hj hlt)]
    exact Bool.eq_false_iff.mpr (hbefore j hj)

theorem baseline_setEntry_of_ne {i : Nat} {entry : Entry} (hold : (f.entry i).is other = false)
    (hnew : entry.is other = false) : (f.setEntry i entry).baseline other = f.baseline other :=
  congrArg (Option.map _) (find?_set_of_not hold hnew)

theorem baseline_setEntry_self {i : Nat} {entry : Entry} (hlt : i < f.entries.length)
    (hbefore : ∀ j < i, (f.entry j).is id = false) (hnew : entry.is id = true) :
    (f.setEntry i entry).baseline id = some entry.baseline :=
  congrArg (Option.map _) (find?_set_of_first hbefore hlt hnew)

/-- A removal keeps the axes of the other devices. -/
theorem baseline_onDeviceRemoved {device : UInt32} (h : id.device ≠ device) :
    (f.onDeviceRemoved device).baseline id = f.baseline id := by
  rw [baseline, baseline, onDeviceRemoved]
  dsimp only
  induction f.entries with
  | nil => rfl
  | cons entry entries ih =>
    by_cases hgone : (entry.used && decide (entry.id.device = device)) = true
    · -- the slot is emptied, and it was not the axis's
      have hnot : entry.is id = false := by
        rw [Bool.and_eq_true, decide_eq_true_iff] at hgone
        rw [Bool.eq_false_iff]
        exact fun his => h ((is_iff.mp his).2 ▸ hgone.2)
      have hempty : Entry.is {} id = false := rfl
      rw [map_cons, if_pos hgone, find?_cons_of_neg (by simp [hempty]),
        find?_cons_of_neg (by simp [hnot])]
      exact ih
    · rw [map_cons, if_neg hgone, find?_cons, find?_cons]
      cases entry.is id with
      | true => rfl
      | false => exact ih

end PadActivityFilter

/-- On an axis that the table and the map have alike they answer alike, and they have alike what
they had alike before. -/
theorem onAxis_agree {value : Int16} (hfree : FreeSlot f (.axis id value))
    (hid : f.baseline id = m id) :
    (f.onAxis id value).1 = (m.onAxis id value).1 ∧ ∀ other, f.baseline other = m other →
      (f.onAxis id value).2.baseline other = (m.onAxis id value).2 other := by
  have hbase : f.baseline id = (f.find id).map fun i => (f.entry i).baseline :=
    PadActivityFilter.baseline_eq
  rcases hfind : f.find id with _ | i
  · -- a new axis: the slot it takes was nobody's
    rw [hfind, Option.map_none] at hbase
    have hm : m id = none := hid.symm.trans hbase
    have hunused : (f.entry f.next_slot).used = false := hfree hfind
    simp only [PadActivityFilter.onAxis, hfind, Baselines.onAxis, hm, true_and]
    intro other hother
    change (f.setEntry f.next_slot ⟨true, id, value⟩).baseline other = _
    by_cases heq : other = id
    · subst heq
      rw [Function.update_self]
      exact PadActivityFilter.baseline_setEntry_self (f.next_lt.trans_eq f.length_eq.symm)
        (fun j _ => PadActivityFilter.not_is_of_find_eq_none hfind j) (is_iff.mpr ⟨rfl, rfl⟩)
    · rw [Function.update_of_ne heq, ← hother]
      refine PadActivityFilter.baseline_setEntry_of_ne ?_ ?_
      · rw [Entry.is, hunused, Bool.false_and]
      · exact Bool.eq_false_iff.mpr fun his => heq (is_iff.mp his).2.symm
  · rw [hfind, Option.map_some] at hbase
    have hm : m id = some (f.entry i).baseline := hid.symm.trans hbase
    obtain ⟨hlt, his, hbefore⟩ := PadActivityFilter.find_eq_some hfind
    simp only [PadActivityFilter.onAxis, hfind, Baselines.onAxis, hm]
    by_cases hmoved : moved value (f.entry i).baseline = true
    · rw [if_pos hmoved, if_pos hmoved]
      refine ⟨rfl, fun other hother => ?_⟩
      dsimp only
      by_cases heq : other = id
      · subst heq
        rw [Function.update_self]
        exact PadActivityFilter.baseline_setEntry_self hlt hbefore (is_iff.mpr (is_iff.mp his))
      · have hnot : (f.entry i).is other = false :=
          Bool.eq_false_iff.mpr fun h =>
            heq ((is_iff.mp h).2.symm.trans (is_iff.mp his).2)
        rw [Function.update_of_ne heq, ← hother]
        exact PadActivityFilter.baseline_setEntry_of_ne hnot hnot
    · rw [if_neg hmoved, if_neg hmoved]
      exact ⟨rfl, fun _ hother => hother⟩

/-- The run, for a table and a map that have alike the axes that report in it. -/
theorem answers_agree {calls : List Call} (hreuse : NoReuse calls) (hfree : FreeSlots f calls)
    (hagree : ∀ id value, .axis id value ∈ calls → f.baseline id = m id) :
    f.answers calls = m.answers calls := by
  induction calls generalizing f m with
  | nil => rfl
  | cons call calls ih =>
    have hrest : ∀ id value, .axis id value ∈ calls → f.baseline id = m id :=
      fun id value hmem => hagree id value (mem_cons_of_mem _ hmem)
    cases call with
    | axis id value =>
      obtain ⟨hanswer, hkept⟩ := onAxis_agree hfree.1 (hagree id value mem_cons_self)
      have hrun := ih hreuse hfree.2 fun other v hmem => hkept other (hrest other v hmem)
      exact congrArg₂ List.cons hanswer hrun
    | removed device =>
      refine ih hreuse.2 hfree.2 fun id value hmem => ?_
      have hdevice : id.device ≠ device := of_decide_eq_false (hreuse.1 _ hmem)
      exact (PadActivityFilter.baseline_onDeviceRemoved hdevice).trans
        (hrest id value hmem)

end Table

/-- **While each new axis finds the slot under the cursor free, the table answers as a map that
forgets nothing.** -/
theorem answers_of_free {calls : List Call} (hreuse : NoReuse calls)
    (hfree : FreeSlots .new calls) :
    PadActivityFilter.new.answers calls = Baselines.answers (fun _ => none) calls := by
  refine answers_agree hreuse hfree fun id _ _ => ?_
  rfl


theorem answers_of_free_two :
    PadActivityFilter.new.answers
        [.axis ⟨.kGamepad, 3, 0⟩ 0, .removed 3, .axis ⟨.kJoystick, 4, 1⟩ (-100),
          .axis ⟨.kJoystick, 4, 1⟩ 4000] =
      Baselines.answers (fun _ => none)
        [.axis ⟨.kGamepad, 3, 0⟩ 0, .removed 3, .axis ⟨.kJoystick, 4, 1⟩ (-100),
          .axis ⟨.kJoystick, 4, 1⟩ 4000] :=
  answers_of_free (by decide) (by decide)

/-- 64 devices of one axis; one goes, one comes, and the axis of the first moves. -/
def fullTable : List Call :=
  (List.range kCapacity).map (fun i => .axis ⟨.kGamepad, .ofNat i, 0⟩ 0) ++
    [.removed 5, .axis ⟨.kGamepad, 64, 0⟩ 0, .axis ⟨.kGamepad, 0, 0⟩ 30000]

set_option maxRecDepth 20000 in
/-- The new axis takes the slot of the first, while the slot of the device that went is free. -/
theorem fullTable_forgets : NoReuse fullTable ∧ WithinCapacity [] fullTable ∧
    PadActivityFilter.new.answers fullTable ≠ Baselines.answers (fun _ => none) fullTable := by
  decide

end Mcla.PadActivity

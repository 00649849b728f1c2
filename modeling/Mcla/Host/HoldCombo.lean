import Mcla.Library.Episodes

/-! # Two buttons held

`HoldComboTrigger` of `mcla_diagnostic_trigger`: both buttons of one pad, held for some time,
trigger once.  Eight slots keep the pads that have a button down; a press on another pad, while no
slot is free, is not seen.
-/
namespace Mcla.HoldCombo
open Episodes (run Episode exists_episode)
open List

/-- The buttons of the combination. -/
inductive Button where
  | kStart | kBack
deriving DecidableEq

/-- The slot of one device. -/
structure Pad where
  used : Bool := false
  device : UInt32 := 0
  (start back : Bool := false)

def kPads : Nat := 8

/-- The slots, and the hold under way. -/
structure HoldComboTrigger where
  hold_ms : UInt32 := 1000
  pads : List Pad := replicate kPads {}
  (armed fired : Bool := false)
  owner : UInt32 := 0
  deadline_ms : UInt64 := 0

/-- The slot is the device's. -/
def Pad.is (pad : Pad) (device : UInt32) : Bool := pad.used && pad.device = device

/-- A button goes down or up. -/
def Pad.press (pad : Pad) (button : Button) (down : Bool) : Pad :=
  match button with
  | .kStart => { pad with start := down }
  | .kBack => { pad with back := down }

namespace HoldComboTrigger

/-- `Find`: the place of the device's slot, which is created if there is room. -/
def find (t : HoldComboTrigger) (device : UInt32) (create : Bool) : Option Nat :=
  (t.pads.findIdx? (·.is device)).or
    (if create then t.pads.findIdx? (fun pad => !pad.used) else none)

/-- The slot at a place, as `Find` gives it. -/
def padAt (t : HoldComboTrigger) (i : Nat) (device : UInt32) : Pad :=
  if (t.pads.getD i {}).is device then t.pads.getD i {} else ⟨true, device, false, false⟩

/-- `OnButton`: whether the combo is armed by it, and the trigger after it. -/
def onButton (t : HoldComboTrigger) (device : UInt32) (button : Button) (down : Bool)
    (now_ms : UInt64) : Bool × HoldComboTrigger :=
  match t.find device down with
  | none => (false, t)
  | some i =>
    let pad := (t.padAt i device).press button down
    if down = false then
      (false, { t with
        armed := t.armed && t.owner != device
        fired := t.fired && t.owner != device
        pads := t.pads.set i (if !pad.start && !pad.back then {} else pad) })
    else if pad.start && pad.back && !t.armed && !t.fired then
      (true, { t with
        pads := t.pads.set i pad
        armed := true
        owner := device
        deadline_ms := now_ms + t.hold_ms.toUInt64 })
    else (false, { t with pads := t.pads.set i pad })

/-- `Poll` -/
def poll (t : HoldComboTrigger) (now_ms : UInt64) : Bool × HoldComboTrigger :=
  if t.armed = false ∨ now_ms < t.deadline_ms then (false, t)
  else (true, { t with armed := false, fired := true })

/-- `OnDeviceRemoved` -/
def onDeviceRemoved (t : HoldComboTrigger) (device : UInt32) : HoldComboTrigger :=
  { t with
    pads := t.pads.map fun pad => if pad.is device then {} else pad
    armed := t.armed && t.owner != device
    fired := t.fired && t.owner != device }

end HoldComboTrigger

/-! ### Runs -/

/-- The calls of a trigger. -/
inductive Call where
  | button (device : UInt32) (button : Button) (down : Bool) (now_ms : UInt64)
  | poll (now_ms : UInt64)
  | removed (device : UInt32)

/-- One call. -/
def HoldComboTrigger.step (t : HoldComboTrigger) : Call → HoldComboTrigger
  | .button device button down now_ms => (t.onButton device button down now_ms).2
  | .poll now_ms => (t.poll now_ms).2
  | .removed device => t.onDeviceRemoved device

/-- A poll fires. -/
def Fires (t : HoldComboTrigger) (c : Call) : Prop :=
  ∃ now_ms, c = .poll now_ms ∧ (t.poll now_ms).1 = true

/-- What a call says about a button of a device. -/
def Call.reports (device : UInt32) (button : Button) : Call → Option Bool
  | .button d b down _ => if d = device ∧ b = button then some down else none
  | .poll _ => none
  | .removed d => if d = device then some false else none

/-- The button is down after the calls. -/
def isDown (device : UInt32) (button : Button) (calls : List Call) : Bool :=
  calls.foldl (fun down c => (c.reports device button).getD down) false

/-- The device has a button down. -/
def Holds (device : UInt32) (calls : List Call) : Prop :=
  isDown device .kStart calls = true ∨ isDown device .kBack calls = true

/-- A release of the device's, or its removal. -/
def Call.releases (device : UInt32) (c : Call) : Bool :=
  c.reports device .kStart == some false || c.reports device .kBack == some false

/-! ### Slots -/

/-- Whether the button is down. -/
def Pad.flag (pad : Pad) : Button → Bool
  | .kStart => pad.start
  | .kBack => pad.back

/-- The device has a slot that shows the button down. -/
def Has (pads : List Pad) (device : UInt32) (button : Button) : Prop :=
  ∃ pad ∈ pads, pad.is device = true ∧ pad.flag button = true

/-- No two slots are one device's. -/
def Unique (pads : List Pad) : Prop :=
  ∀ (i j : Nat) (a b : Pad), pads[i]? = some a → pads[j]? = some b → a.used = true → b.used = true →
    a.device = b.device → i = j

/-- A place where a device's slot stands, or may stand. -/
structure Place (pads : List Pad) (device : UInt32) (i : Nat) : Prop where
  lt : i < pads.length
  own : (pads.getD i {}).used = true → (pads.getD i {}).device = device
  others : ∀ j pad, j ≠ i → pads[j]? = some pad → pad.is device = false

section Slots
variable {pads : List Pad} {device other : UInt32} {button b : Button} {i : Nat} {pad q : Pad}

theorem is_iff : pad.is device = true ↔ pad.used = true ∧ pad.device = device := by
  rw [Pad.is, Bool.and_eq_true, decide_eq_true_iff]

theorem press_flag (pad : Pad) (button b : Button) (down : Bool) :
    (pad.press button down).flag b = if b = button then down else pad.flag b := by
  cases button <;> cases b <;> rfl

theorem press_is (pad : Pad) (button : Button) (down : Bool) :
    (pad.press button down).is device = pad.is device := by
  cases button <;> rfl

theorem mem_set (hlt : i < pads.length) :
    pad ∈ pads.set i q ↔ pad = q ∨ ∃ j, j ≠ i ∧ pads[j]? = some pad := by
  rw [mem_iff_getElem?]
  constructor
  · rintro ⟨j, hj⟩
    rw [getElem?_set] at hj
    by_cases hij : i = j
    · rw [if_pos hij, if_pos hlt] at hj
      exact .inl (Option.some.inj hj).symm
    · rw [if_neg hij] at hj
      exact .inr ⟨j, Ne.symm hij, hj⟩
  · rintro (rfl | ⟨j, hij, hj⟩)
    · exact ⟨i, by rw [getElem?_set_self hlt]⟩
    · exact ⟨j, by rw [getElem?_set_ne (Ne.symm hij)]; exact hj⟩

/-- The device's own slot is the one at its place. -/
theorem Place.has_iff (h : Place pads device i) :
    Has pads device button ↔
      (pads.getD i {}).is device = true ∧ (pads.getD i {}).flag button = true := by
  have hget : pads[i]? = some (pads.getD i {}) := by
    rw [getElem?_eq_getElem h.lt, getD_eq_getElem _ _ h.lt]
  constructor
  · rintro ⟨pad, hmem, his, hflag⟩
    obtain ⟨j, hj⟩ := mem_iff_getElem?.mp hmem
    by_cases hij : j = i
    · subst hij
      rw [hget] at hj
      cases hj
      exact ⟨his, hflag⟩
    · have hnot := h.others j pad hij hj
      rw [his] at hnot
      cases hnot
  · exact fun hall => ⟨_, mem_of_getElem? hget, hall⟩

theorem Place.has_set (h : Place pads device i) :
    Has (pads.set i q) device b ↔ q.is device = true ∧ q.flag b = true := by
  constructor
  · rintro ⟨pad, hmem, his, hflag⟩
    rcases (mem_set h.lt).mp hmem with rfl | ⟨j, hij, hj⟩
    · exact ⟨his, hflag⟩
    · have hnot := h.others j pad hij hj
      rw [his] at hnot
      cases hnot
  · exact fun hall => ⟨q, (mem_set h.lt).mpr (.inl rfl), hall⟩

/-- The other devices keep their slots. -/
theorem Place.has_set_other (h : Place pads device i) (hne : other ≠ device)
    (hq : q.is other = false) : Has (pads.set i q) other b ↔ Has pads other b := by
  have hget : pads[i]? = some (pads.getD i {}) := by
    rw [getElem?_eq_getElem h.lt, getD_eq_getElem _ _ h.lt]
  constructor
  · rintro ⟨pad, hmem, his, hflag⟩
    rcases (mem_set h.lt).mp hmem with rfl | ⟨j, -, hj⟩
    · rw [his] at hq
      cases hq
    · exact ⟨pad, mem_of_getElem? hj, his, hflag⟩
  · rintro ⟨pad, hmem, his, hflag⟩
    obtain ⟨j, hj⟩ := mem_iff_getElem?.mp hmem
    refine ⟨pad, (mem_set h.lt).mpr (.inr ⟨j, ?_, hj⟩), his, hflag⟩
    rintro rfl
    rw [hget] at hj
    cases hj
    obtain ⟨hused, hdevice⟩ := is_iff.mp his
    exact hne (hdevice.symm.trans (h.own hused))

theorem Unique.set (hunique : Unique pads) (h : Place pads device i)
    (hq : q.used = true → q.device = device) : Unique (pads.set i q) := by
  have hnew (j : Nat) (a : Pad) (hj : (pads.set i q)[j]? = some a) :
      j = i ∧ a = q ∨ j ≠ i ∧ pads[j]? = some a := by
    rw [getElem?_set] at hj
    by_cases hij : i = j
    · rw [if_pos hij, if_pos h.lt] at hj
      exact .inl ⟨hij.symm, (Option.some.inj hj).symm⟩
    · rw [if_neg hij] at hj
      exact .inr ⟨Ne.symm hij, hj⟩
  intro j k a b hj hk hja hkb hsame
  rcases hnew j a hj with ⟨rfl, rfl⟩ | ⟨hji, hj'⟩
  · rcases hnew k b hk with ⟨rfl, rfl⟩ | ⟨hki, hk'⟩
    · rfl
    · have hnot := h.others k b hki hk'
      rw [is_iff.mpr ⟨hkb, hsame.symm.trans (hq hja)⟩] at hnot
      cases hnot
  · rcases hnew k b hk with ⟨rfl, rfl⟩ | ⟨hki, hk'⟩
    · have hnot := h.others j a hji hj'
      rw [is_iff.mpr ⟨hja, hsame.trans (hq hkb)⟩] at hnot
      cases hnot
    · exact hunique j k a b hj' hk' hja hkb hsame

end Slots

/-! ### The invariant -/

namespace HoldComboTrigger
variable {t : HoldComboTrigger} {device : UInt32} {i : Nat}

/-- What every call keeps. -/
structure Sound (t : HoldComboTrigger) : Prop where
  length : t.pads.length = kPads
  unique : Unique t.pads
  used : ∀ pad ∈ t.pads, pad.used = true ↔ pad.start = true ∨ pad.back = true
  owner : t.armed = true ∨ t.fired = true → ∀ button, Has t.pads t.owner button

theorem find_place (hunique : Unique t.pads) {create : Bool} (h : t.find device create = some i) :
    Place t.pads device i := by
  rw [find, Option.or_eq_some_iff] at h
  rcases h with hown | ⟨hnone, hfree⟩
  · obtain ⟨hlt, his, -⟩ := findIdx?_eq_some_iff_getElem.mp hown
    obtain ⟨hused, hdevice⟩ := is_iff.mp his
    have hget : t.pads.getD i {} = t.pads[i] := getD_eq_getElem _ _ hlt
    refine ⟨hlt, fun _ => by rw [hget, hdevice], ?_⟩
    intro j pad hij hj
    rw [← Bool.not_eq_true, is_iff]
    rintro ⟨hused', hdevice'⟩
    exact hij (hunique j i pad _ hj (getElem?_eq_getElem hlt) hused' hused
      (hdevice'.trans hdevice.symm))
  · cases create with
    | false => cases hfree
    | true =>
      rw [if_pos rfl] at hfree
      obtain ⟨hlt, hunused, -⟩ := findIdx?_eq_some_iff_getElem.mp hfree
      have hget : t.pads.getD i {} = t.pads[i] := getD_eq_getElem _ _ hlt
      refine ⟨hlt, ?_, ?_⟩
      · intro hused
        rw [hget] at hused
        rw [hused] at hunused
        cases hunused
      · intro j pad _ hj
        exact findIdx?_eq_none_iff.mp hnone pad (mem_of_getElem? hj)

theorem find_none {create : Bool} (h : t.find device create = none) :
    (∀ pad ∈ t.pads, pad.is device = false) ∧
      (create = true → ∀ pad ∈ t.pads, pad.used = true) := by
  rw [find, Option.or_eq_none_iff] at h
  refine ⟨findIdx?_eq_none_iff.mp h.1, ?_⟩
  rintro rfl pad hmem
  have hall := h.2
  rw [if_pos rfl] at hall
  have hused := findIdx?_eq_none_iff.mp hall pad hmem
  rwa [Bool.not_eq_false'] at hused

/-- The slot that `Find` gives is the device's, and shows what the device's slot showed. -/
theorem padAt_spec (h : Place t.pads device i) :
    (t.padAt i device).is device = true ∧
      ∀ button, (t.padAt i device).flag button = true ↔ Has t.pads device button := by
  unfold padAt
  by_cases his : (t.pads.getD i {}).is device = true
  · rw [if_pos his]
    refine ⟨his, fun button => ?_⟩
    rw [h.has_iff, and_iff_right his]
  · rw [if_neg his]
    refine ⟨is_iff.mpr ⟨rfl, rfl⟩, fun button => ?_⟩
    rw [h.has_iff, iff_false_right (fun hall => his hall.1)]
    cases button <;> exact Bool.false_ne_true

/-- The slot after a press or a release. -/
def slotAfter (t : HoldComboTrigger) (i : Nat) (device : UInt32) (button : Button) (down : Bool) :
    Pad :=
  let pad := (t.padAt i device).press button down
  if down = false ∧ pad.start = false ∧ pad.back = false then {} else pad

theorem slotAfter_spec (h : Place t.pads device i) (button : Button) (down : Bool) :
    let q := t.slotAfter i device button down
    (q.used = true → q.device = device) ∧ (q.used = true ↔ q.start = true ∨ q.back = true) ∧
      ∀ b, (q.is device = true ∧ q.flag b = true) ↔
        if b = button then down = true else Has t.pads device b := by
  intro q
  obtain ⟨his, hflags⟩ := padAt_spec h
  have hpressed : ((t.padAt i device).press button down).is device = true := by
    rw [press_is]
    exact his
  have hflag (b : Button) : ((t.padAt i device).press button down).flag b = true ↔
      if b = button then down = true else Has t.pads device b := by
    rw [press_flag]
    by_cases hb : b = button
    · rw [if_pos hb, if_pos hb]
    · rw [if_neg hb, if_neg hb]
      exact hflags b
  by_cases hempty : down = false ∧ ((t.padAt i device).press button down).start = false ∧
      ((t.padAt i device).press button down).back = false
  · have hq : q = {} := if_pos hempty
    rw [hq]
    refine ⟨fun hused => absurd hused Bool.false_ne_true,
      ⟨fun hused => absurd hused Bool.false_ne_true, ?_⟩, fun b => ?_⟩
    · rintro (hstart | hback)
      · cases hstart
      · cases hback
    · rw [← hflag b]
      constructor
      · rintro ⟨hnone, -⟩
        cases hnone
      · intro hset
        cases b with
        | kStart =>
          rw [Pad.flag, hempty.2.1] at hset
          cases hset
        | kBack =>
          rw [Pad.flag, hempty.2.2] at hset
          cases hset
  · -- the slot keeps the device, since a button of it is down
    have hq : q = (t.padAt i device).press button down := if_neg hempty
    rw [hq]
    obtain ⟨hused, hdevice⟩ := is_iff.mp hpressed
    refine ⟨fun _ => hdevice, ⟨fun _ => ?_, fun _ => hused⟩, fun b => ?_⟩
    · by_cases hdown : down = true
      · have hset := (hflag button).mpr (by rw [if_pos rfl]; exact hdown)
        cases button with
        | kStart => exact .inl hset
        | kBack => exact .inr hset
      · rw [Bool.not_eq_true] at hdown
        by_contra hnone
        rw [not_or, Bool.not_eq_true, Bool.not_eq_true] at hnone
        exact hempty ⟨hdown, hnone⟩
    · rw [and_iff_right hpressed, hflag b]

end HoldComboTrigger

/-! ### Calls -/

theorem releases_button (d o : UInt32) (button : Button) (down : Bool) (now_ms : UInt64) :
    (Call.button d button down now_ms).releases o = (decide (d = o) && !down) := by
  unfold Call.releases Call.reports
  by_cases hd : d = o
  · cases button <;> cases down <;> simp [hd]
  · simp [hd]

theorem releases_removed (d o : UInt32) : (Call.removed d).releases o = decide (d = o) := by
  unfold Call.releases Call.reports
  by_cases hd : d = o
  · simp [hd]
  · simp [hd]

theorem isDown_snoc (device : UInt32) (button : Button) (calls : List Call) (c : Call) :
    isDown device button (calls ++ [c]) =
      (c.reports device button).getD (isDown device button calls) := by
  rw [isDown, foldl_append]
  rfl

/-- A call that releases nothing of the device's leaves its buttons down. -/
theorem isDown_of_not_releases {device : UInt32} {button : Button} {calls : List Call} {c : Call}
    (h : isDown device button calls = true) (hc : c.releases device = false) :
    isDown device button (calls ++ [c]) = true := by
  rw [isDown_snoc]
  rw [Call.releases, Bool.or_eq_false_iff, beq_eq_false_iff_ne, beq_eq_false_iff_ne] at hc
  have hreport : c.reports device button ≠ some false := by
    cases button with
    | kStart => exact hc.1
    | kBack => exact hc.2
  cases hcase : c.reports device button with
  | none => exact h
  | some down =>
    cases down with
    | false => exact absurd hcase hreport
    | true => rfl

namespace HoldComboTrigger
variable {t : HoldComboTrigger} {device : UInt32} {i : Nat} {c : Call}

/-- What `OnButton` does with a slot. -/
inductive Presses (t : HoldComboTrigger) (device : UInt32) (button : Button) (down : Bool)
    (now_ms : UInt64) (i : Nat) : Prop where
  | release (hdown : down = false) (hbutton : t.onButton device button down now_ms =
      (false, { t with
        armed := t.armed && t.owner != device
        fired := t.fired && t.owner != device
        pads := t.pads.set i (t.slotAfter i device button down) }))
  | arms (hdown : down = true) (hfree : t.armed = false ∧ t.fired = false)
      (hboth : ∀ b, (t.slotAfter i device button down).flag b = true)
      (hbutton : t.onButton device button down now_ms =
        (true, { t with
          pads := t.pads.set i (t.slotAfter i device button down)
          armed := true
          owner := device
          deadline_ms := now_ms + t.hold_ms.toUInt64 }))
  | press (hdown : down = true) (hbutton : t.onButton device button down now_ms =
      (false, { t with pads := t.pads.set i (t.slotAfter i device button down) }))

theorem presses (h : t.find device down = some i) (button : Button) (now_ms : UInt64) :
    t.Presses device button down now_ms i := by
  cases down with
  | false =>
    have hslot : t.slotAfter i device button false =
        if !((t.padAt i device).press button false).start &&
          !((t.padAt i device).press button false).back then {}
        else (t.padAt i device).press button false := by
      rw [slotAfter]
      by_cases hempty : ((t.padAt i device).press button false).start = false ∧
          ((t.padAt i device).press button false).back = false
      · rw [if_pos ⟨rfl, hempty⟩, hempty.1, hempty.2]
        rfl
      · rw [if_neg (fun hall => hempty hall.2), if_neg]
        intro hboth
        rw [Bool.and_eq_true, Bool.not_eq_true', Bool.not_eq_true'] at hboth
        exact hempty hboth
    refine .release rfl ?_
    rw [onButton, h, hslot]
    rfl
  | true =>
    have hslot : t.slotAfter i device button true = (t.padAt i device).press button true := by
      rw [slotAfter, if_neg (fun hall => absurd hall.1 (by decide))]
    by_cases hguard : (((t.padAt i device).press button true).start &&
        ((t.padAt i device).press button true).back && !t.armed && !t.fired) = true
    · have hbutton : t.onButton device button true now_ms =
          (true, { t with
            pads := t.pads.set i ((t.padAt i device).press button true)
            armed := true
            owner := device
            deadline_ms := now_ms + t.hold_ms.toUInt64 }) := by
        rw [onButton, h]
        dsimp only
        rw [if_neg (by decide), if_pos hguard]
      simp only [Bool.and_eq_true, Bool.not_eq_true'] at hguard
      refine .arms rfl ⟨hguard.1.2, hguard.2⟩ ?_ (by rw [hbutton, hslot])
      intro b
      rw [hslot]
      cases b with
      | kStart => exact hguard.1.1.1
      | kBack => exact hguard.1.1.2
    · refine .press rfl ?_
      rw [onButton, h, hslot]
      dsimp only
      rw [if_neg (by decide), if_neg hguard]

variable {button : Button}

theorem onButton_none {down : Bool} (h : t.find device down = none) (now_ms : UInt64) :
    t.onButton device button down now_ms = (false, t) := by
  rw [onButton, h]

/-! ### What a call changes in the slots -/

/-- A press that finds a slot. -/
def seen (t : HoldComboTrigger) : Call → Prop
  | .button device _ true _ => t.find device true ≠ none
  | _ => True

theorem pads_of_presses {down : Bool} {now_ms : UInt64} (h : t.Presses device button down now_ms i)
    :
    (t.onButton device button down now_ms).2.pads =
      t.pads.set i (t.slotAfter i device button down) := by
  cases h with
  | release _ hbutton => rw [hbutton]
  | arms _ _ _ hbutton => rw [hbutton]
  | press _ hbutton => rw [hbutton]

theorem has_removed {pads : List Pad} {d o : UInt32} {b : Button} :
    Has (pads.map fun pad => if pad.is d then {} else pad) o b ↔ d ≠ o ∧ Has pads o b := by
  constructor
  · rintro ⟨pad, hmem, his, hflag⟩
    obtain ⟨old, hold, rfl⟩ := mem_map.mp hmem
    by_cases hd : old.is d = true
    · rw [if_pos hd] at his
      cases his
    · rw [if_neg hd] at his hflag
      refine ⟨?_, old, hold, his, hflag⟩
      rintro rfl
      exact hd his
  · rintro ⟨hne, pad, hmem, his, hflag⟩
    refine ⟨pad, mem_map.mpr ⟨pad, hmem, if_neg ?_⟩, his, hflag⟩
    intro hd
    exact hne ((is_iff.mp hd).2.symm.trans (is_iff.mp his).2)

/-- A slot shows a button down where a call says so, or says nothing of it. -/
theorem has_step (hs : t.Sound) (c : Call) (d : UInt32) (b : Button) :
    Has (t.step c).pads d b ↔
      c.reports d b = none ∧ Has t.pads d b ∨ c.reports d b = some true ∧ t.seen c := by
  cases c with
  | poll now_ms =>
    have hpads : (t.step (.poll now_ms)).pads = t.pads := by
      rw [step, poll]
      split <;> rfl
    rw [hpads]
    constructor
    · exact fun h => .inl ⟨rfl, h⟩
    · rintro (⟨-, h⟩ | ⟨h, -⟩)
      · exact h
      · cases h
  | removed device =>
    have hpads : (t.step (.removed device)).pads =
        t.pads.map fun pad => if pad.is device then {} else pad := rfl
    rw [hpads, has_removed]
    by_cases hd : device = d
    · have hreport : (Call.removed device).reports d b = some false := if_pos hd
      rw [hreport]
      constructor
      · exact fun h => absurd hd h.1
      · rintro (⟨h, -⟩ | ⟨h, -⟩)
        · cases h
        · cases h
    · have hreport : (Call.removed device).reports d b = none := if_neg hd
      rw [hreport]
      constructor
      · exact fun h => .inl ⟨rfl, h.2⟩
      · rintro (⟨-, h⟩ | ⟨h, -⟩)
        · exact ⟨hd, h⟩
        · cases h
  | button device button down now_ms =>
    have hreport : (Call.button device button down now_ms).reports d b =
        if device = d ∧ button = b then some down else none := rfl
    cases hfind : t.find device down with
    | none =>
      -- nothing is seen, and a release is of a button that no slot shows
      have hstep : t.step (.button device button down now_ms) = t := by
        rw [step, onButton_none hfind]
      have hnot : ∀ b, ¬Has t.pads device b := by
        rintro b ⟨pad, hmem, his, -⟩
        rw [(find_none hfind).1 pad hmem] at his
        cases his
      rw [hstep, hreport]
      by_cases hown : device = d ∧ button = b
      · rw [if_pos hown]
        obtain ⟨rfl, rfl⟩ := hown
        constructor
        · exact fun h => absurd h (hnot _)
        · rintro (⟨h, -⟩ | ⟨h, hseen⟩)
          · cases h
          · cases h
            exact absurd hfind hseen
      · rw [if_neg hown]
        constructor
        · exact fun h => .inl ⟨rfl, h⟩
        · rintro (⟨-, h⟩ | ⟨h, -⟩)
          · exact h
          · cases h
    | some i =>
      have hplace := find_place hs.unique hfind
      obtain ⟨hdevice, -, hflags⟩ := slotAfter_spec hplace button down
      have hseen : t.seen (.button device button down now_ms) := by
        cases down with
        | false => trivial
        | true =>
          intro hnone
          rw [hfind] at hnone
          cases hnone
      have hpads : (t.step (.button device button down now_ms)).pads =
          t.pads.set i (t.slotAfter i device button down) :=
        pads_of_presses (presses hfind button now_ms)
      rw [hpads, hreport]
      by_cases hd : device = d
      · subst hd
        rw [hplace.has_set, hflags b]
        by_cases hb : b = button
        · rw [if_pos hb, if_pos ⟨rfl, hb.symm⟩]
          constructor
          · exact fun h => .inr ⟨congrArg some h, hseen⟩
          · rintro (⟨h, -⟩ | ⟨h, -⟩)
            · cases h
            · exact Option.some.inj h
        · rw [if_neg hb, if_neg (fun hall => hb hall.2.symm)]
          constructor
          · exact fun h => .inl ⟨rfl, h⟩
          · rintro (⟨-, h⟩ | ⟨h, -⟩)
            · exact h
            · cases h
      · have hother : (t.slotAfter i device button down).is d = false := by
          rw [← Bool.not_eq_true, is_iff]
          rintro ⟨hused, hsame⟩
          exact hd ((hdevice hused).symm.trans hsame)
        rw [hplace.has_set_other (Ne.symm hd) hother, if_neg (fun hall => hd hall.1)]
        constructor
        · exact fun h => .inl ⟨rfl, h⟩
        · rintro (⟨-, h⟩ | ⟨h, -⟩)
          · exact h
          · cases h

/-! ### Arming and firing -/

/-- The call arms the combo. -/
def Arms (t : HoldComboTrigger) (c : Call) : Prop :=
  ∃ device button now_ms, c = .button device button true now_ms ∧
    (t.onButton device button true now_ms).1 = true

/-- A combo that is armed or has fired stays its owner's until the owner lets go. -/
theorem kept_step (hs : t.Sound) (h : (t.step c).armed = true ∨ (t.step c).fired = true)
    (hnot : ¬t.Arms c) : (t.armed = true ∨ t.fired = true) ∧ (t.step c).owner = t.owner ∧
      ((t.step c).armed = true → t.armed = true ∧ (t.step c).deadline_ms = t.deadline_ms) ∧
      c.releases t.owner = false := by
  cases c with
  | poll now_ms =>
    rw [step, poll] at h ⊢
    by_cases hguard : t.armed = false ∨ now_ms < t.deadline_ms
    · rw [if_pos hguard] at h ⊢
      exact ⟨h, rfl, fun harmed => ⟨harmed, rfl⟩, rfl⟩
    · rw [if_neg hguard]
      rw [not_or, Bool.not_eq_false] at hguard
      exact ⟨.inl hguard.1, rfl, fun harmed => absurd harmed Bool.false_ne_true, rfl⟩
  | removed device =>
    have hstep : (t.step (.removed device)).armed = (t.armed && t.owner != device) ∧
      (t.step (.removed device)).fired = (t.fired && t.owner != device) := ⟨rfl, rfl⟩
    rw [hstep.1, hstep.2, Bool.and_eq_true, Bool.and_eq_true, bne_iff_ne] at h
    rw [hstep.1, Bool.and_eq_true, releases_removed, decide_eq_false_iff_not]
    refine ⟨h.imp And.left And.left, rfl, fun harmed => ⟨harmed.1, rfl⟩, ?_⟩
    rcases h with h | h
    · exact Ne.symm h.2
    · exact Ne.symm h.2
  | button device button down now_ms =>
    rw [releases_button]
    cases hfind : t.find device down with
    | none =>
      have hstep : t.step (.button device button down now_ms) = t := by
        rw [step, onButton_none hfind]
      rw [hstep] at h ⊢
      refine ⟨h, rfl, fun harmed => ⟨harmed, rfl⟩, ?_⟩
      -- the owner has a slot
      obtain ⟨pad, hmem, his, -⟩ := hs.owner h .kStart
      have hne : device ≠ t.owner := by
        rintro rfl
        rw [(find_none hfind).1 pad hmem] at his
        cases his
      rw [decide_eq_false hne, Bool.false_and]
    | some i =>
      cases presses hfind button now_ms with
      | release hdown hbutton =>
        rw [step, hbutton] at h ⊢
        simp only [Bool.and_eq_true, bne_iff_ne] at h ⊢
        refine ⟨h.imp And.left And.left, trivial, fun harmed => ⟨harmed.1, trivial⟩, ?_⟩
        -- what is still armed or fired has another owner
        have hne : t.owner ≠ device := h.elim And.right And.right
        rw [decide_eq_false (Ne.symm hne), Bool.false_and]
      -- a press that arms is excluded; a press that does not changes no owner
      | arms hdown _ _ hbutton =>
        subst hdown
        exact absurd ⟨device, button, now_ms, rfl, by rw [hbutton]⟩ hnot
      | press hdown hbutton =>
        rw [step, hbutton] at h ⊢
        rw [hdown, Bool.not_true, Bool.and_false]
        exact ⟨h, rfl, fun harmed => ⟨harmed, rfl⟩, rfl⟩

/-- What arming leaves. -/
theorem arms_step {device : UInt32} {now_ms : UInt64}
    (h : (t.onButton device button true now_ms).1 = true) :
    let t' := t.step (.button device button true now_ms)
    t'.armed = true ∧ t'.fired = false ∧ t'.owner = device ∧
      t'.deadline_ms = now_ms + t.hold_ms.toUInt64 ∧ (t.armed = false ∧ t.fired = false) ∧
      ∃ i, t.find device true = some i ∧ ∀ b, (t.slotAfter i device button true).flag b = true := by
  intro t'
  cases hfind : t.find device true with
  | none =>
    rw [onButton_none hfind] at h
    cases h
  | some i =>
    cases presses hfind button now_ms with
    | release hdown => cases hdown
    | press _ hbutton =>
      rw [hbutton] at h
      cases h
    | arms _ hfree hboth hbutton =>
      have ht' : t' = (t.onButton device button true now_ms).2 := rfl
      rw [ht', hbutton]
      exact ⟨rfl, hfree.2, rfl, rfl, hfree, i, rfl, hboth⟩

theorem hold_step (t : HoldComboTrigger) (c : Call) : (t.step c).hold_ms = t.hold_ms := by
  cases c with
  | poll now_ms =>
    rw [step, poll]
    split <;> rfl
  | removed device => rfl
  | button device button down now_ms =>
    cases hfind : t.find device down with
    | none => rw [step, onButton_none hfind]
    | some i =>
      cases presses hfind button now_ms with
      | release _ hbutton => rw [step, hbutton]
      | arms _ _ _ hbutton => rw [step, hbutton]
      | press _ hbutton => rw [step, hbutton]

/-- After the combo has fired, only its owner changes that. -/
theorem fired_step (hfired : t.fired = true ∧ t.armed = false) (hc : c.releases t.owner = false) :
    ((t.step c).fired = true ∧ (t.step c).armed = false) ∧ (t.step c).owner = t.owner := by
  cases c with
  | poll now_ms =>
    rw [step, poll, if_pos (.inl hfired.2)]
    exact ⟨hfired, rfl⟩
  | removed device =>
    rw [releases_removed, decide_eq_false_iff_not] at hc
    have hstep : (t.step (.removed device)).armed = (t.armed && t.owner != device) ∧
      (t.step (.removed device)).fired = (t.fired && t.owner != device) := ⟨rfl, rfl⟩
    rw [hstep.1, hstep.2, hfired.1, hfired.2, bne_iff_ne.mpr (Ne.symm hc)]
    exact ⟨⟨rfl, rfl⟩, rfl⟩
  | button device button down now_ms =>
    cases hfind : t.find device down with
    | none =>
      rw [step, onButton_none hfind]
      exact ⟨hfired, rfl⟩
    | some i =>
      cases presses hfind button now_ms with
      | release hdown hbutton =>
        have hne : t.owner ≠ device := by
          rintro rfl
          rw [releases_button, hdown] at hc
          simp at hc
        rw [step, hbutton]
        simp [hfired.1, hfired.2, hne]
      -- nothing is armed before the owner lets go
      | arms _ hfree =>
        rw [hfired.1] at hfree
        cases hfree.2
      | press _ hbutton =>
        rw [step, hbutton]
        exact ⟨hfired, rfl⟩

theorem Sound.step (hs : t.Sound) (c : Call) : (t.step c).Sound := by
  have howner : (t.step c).armed = true ∨ (t.step c).fired = true →
      ∀ b, Has (t.step c).pads (t.step c).owner b := by
    intro h b
    rw [has_step hs]
    by_cases harms : t.Arms c
    · obtain ⟨device, button, now_ms, rfl, hanswer⟩ := harms
      obtain ⟨-, -, howner, -, -, i, hfind, hboth⟩ := arms_step hanswer
      have hplace := find_place hs.unique hfind
      have hflags := (slotAfter_spec hplace button true).2.2 b
      have hseen : t.seen (.button device button true now_ms) := fun hnone => by
        rw [hfind] at hnone
        cases hnone
      have hreport : (Call.button device button true now_ms).reports device b =
          if device = device ∧ button = b then some true else none := rfl
      rw [howner, hreport]
      by_cases hb : button = b
      · rw [if_pos ⟨rfl, hb⟩]
        exact .inr ⟨rfl, hseen⟩
      · rw [if_neg (fun hall => hb hall.2)]
        rw [if_neg (Ne.symm hb)] at hflags
        refine .inl ⟨rfl, hflags.mp ⟨?_, hboth b⟩⟩
        have hused : (t.slotAfter i device button true).used = true :=
          (slotAfter_spec hplace button true).2.1.mpr (.inl (hboth .kStart))
        exact is_iff.mpr ⟨hused, (slotAfter_spec hplace button true).1 hused⟩
    · obtain ⟨hbefore, hsame, -, hkept⟩ := kept_step hs h harms
      have hhas := hs.owner hbefore b
      rw [hsame]
      rw [Call.releases, Bool.or_eq_false_iff, beq_eq_false_iff_ne, beq_eq_false_iff_ne] at hkept
      cases hreport : c.reports t.owner b with
      | none => exact .inl ⟨rfl, hhas⟩
      | some down =>
        cases down with
        | true =>
          refine .inr ⟨rfl, ?_⟩
          -- the owner's press finds the owner's slot
          cases c with
          | poll => trivial
          | removed => trivial
          | button device button down now_ms =>
            cases down with
            | false => trivial
            | true =>
              intro hnone
              obtain ⟨pad, hmem, his, -⟩ := hhas
              by_cases hd : device = t.owner
              · rw [hd] at hnone
                rw [(find_none hnone).1 pad hmem] at his
                cases his
              · have hnosay : (Call.button device button true now_ms).reports t.owner b = none :=
                  if_neg fun hall => hd hall.1
                rw [hnosay] at hreport
                cases hreport
        | false =>
          cases b with
          | kStart => exact absurd hreport hkept.1
          | kBack => exact absurd hreport hkept.2
  cases c with
  | poll now_ms =>
    have hpads : (t.step (.poll now_ms)).pads = t.pads := by
      rw [HoldComboTrigger.step, poll]
      split <;> rfl
    exact ⟨by rw [hpads]; exact hs.length, by rw [hpads]; exact hs.unique,
      by rw [hpads]; exact hs.used, howner⟩
  | removed device =>
    refine ⟨(length_map _).trans hs.length, ?_, ?_, howner⟩
    · intro i j a b hi hj ha hb hsame
      have hkept (k : Nat) (a : Pad)
          (hk : (t.pads.map fun pad => if pad.is device then {} else pad)[k]? = some a)
          (hused : a.used = true) : t.pads[k]? = some a := by
        rw [getElem?_map, Option.map_eq_some_iff] at hk
        obtain ⟨old, hold, rfl⟩ := hk
        by_cases hd : old.is device = true
        · rw [if_pos hd] at hused
          cases hused
        · rw [if_neg hd]
          exact hold
      exact hs.unique i j a b (hkept i a hi ha) (hkept j b hj hb) ha hb hsame
    · intro pad hmem
      obtain ⟨old, hold, rfl⟩ := mem_map.mp hmem
      by_cases hd : old.is device = true
      · rw [if_pos hd]
        simp
      · rw [if_neg hd]
        exact hs.used old hold
  | button device button down now_ms =>
    cases hfind : t.find device down with
    | none =>
      have hstep : t.step (.button device button down now_ms) = t := by
        rw [HoldComboTrigger.step, onButton_none hfind]
      rw [hstep]
      exact hs
    | some i =>
      have hplace := find_place hs.unique hfind
      obtain ⟨hdevice, hused, -⟩ := slotAfter_spec hplace button down
      have hpads : (t.step (.button device button down now_ms)).pads =
          t.pads.set i (t.slotAfter i device button down) :=
        pads_of_presses (presses hfind button now_ms)
      refine ⟨?_, ?_, ?_, howner⟩
      · rw [hpads, length_set]
        exact hs.length
      · rw [hpads]
        exact hs.unique.set hplace hdevice
      · intro pad hmem
        rw [hpads, mem_set hplace.lt] at hmem
        rcases hmem with rfl | ⟨j, -, hj⟩
        · exact hused
        · exact hs.used pad (mem_of_getElem? hj)

end HoldComboTrigger

/-! ### Runs -/

section Runs
variable {hold_ms : UInt32} {calls : List Call} {t : HoldComboTrigger}

/-- A trigger that calls have reached. -/
abbrev reach (hold_ms : UInt32) (calls : List Call) : HoldComboTrigger :=
  run HoldComboTrigger.step { hold_ms } calls

theorem reach_snoc (calls : List Call) (c : Call) :
    reach hold_ms (calls ++ [c]) = (reach hold_ms calls).step c := by
  rw [reach, Episodes.run_append]
  rfl

theorem sound_new (hold_ms : UInt32) : ({ hold_ms } : HoldComboTrigger).Sound where
  length := length_replicate
  unique := by
    intro i j a b hi _ ha
    rw [eq_of_mem_replicate (mem_of_getElem? hi)] at ha
    cases ha
  used := by
    intro pad hmem
    rw [eq_of_mem_replicate hmem]
    simp
  owner := by
    rintro (h | h)
    · cases h
    · cases h

theorem sound_reach (calls : List Call) : (reach hold_ms calls).Sound :=
  Episodes.run_induction (sound_new hold_ms) (fun _ c hs => hs.step c) calls

theorem hold_reach (calls : List Call) : (reach hold_ms calls).hold_ms = hold_ms := by
  induction calls using reverseRecOn with
  | nil => rfl
  | append_singleton calls c ih => rw [reach_snoc, HoldComboTrigger.hold_step, ih]

variable {device : UInt32}

/-- What a slot shows is so. -/
theorem down_of_has (calls : List Call) {b : Button} (h : Has (reach hold_ms calls).pads device b) :
    isDown device b calls = true := by
  induction calls using reverseRecOn with
  | nil =>
    obtain ⟨pad, hmem, his, -⟩ := h
    rw [eq_of_mem_replicate hmem] at his
    cases his
  | append_singleton calls c ih =>
    rw [isDown_snoc]
    rw [reach_snoc, HoldComboTrigger.has_step (sound_reach calls)] at h
    rcases h with ⟨hreport, hhas⟩ | ⟨hreport, -⟩
    · rw [hreport]
      exact ih hhas
    · rw [hreport]
      rfl

/-- At most eight devices have a button down. -/
def AtMostEight (calls : List Call) : Prop :=
  ∃ devices : List UInt32, devices.length ≤ kPads ∧ ∀ device, Holds device calls → device ∈ devices

theorem holds_of_slot (calls : List Call) {pad : Pad} (hmem : pad ∈ (reach hold_ms calls).pads)
    (hused : pad.used = true) : Holds pad.device calls := by
  rcases ((sound_reach calls).used pad hmem).mp hused with hstart | hback
  · exact .inl (down_of_has calls ⟨pad, hmem, is_iff.mpr ⟨hused, rfl⟩, hstart⟩)
  · exact .inr (down_of_has calls ⟨pad, hmem, is_iff.mpr ⟨hused, rfl⟩, hback⟩)

theorem holds_snoc_of_says {c : Call} (h : Holds device calls)
    (hreport : ∀ b, c.reports device b = none) : Holds device (calls ++ [c]) := by
  rcases h with h | h
  · exact .inl (by rw [isDown_snoc, hreport]; exact h)
  · exact .inr (by rw [isDown_snoc, hreport]; exact h)

/-- A press is seen while there is room: eight slots in use are eight devices, and the one that
presses would be the ninth. -/
theorem seen_of_room {c : Call} (h : AtMostEight (calls ++ [c])) :
    (reach hold_ms calls).seen c := by
  cases c with
  | poll => trivial
  | removed => trivial
  | button device button down now_ms =>
    cases down with
    | false => trivial
    | true =>
      intro hnone
      obtain ⟨hother, hfull⟩ := HoldComboTrigger.find_none hnone
      obtain ⟨devices, hlength, hall⟩ := h
      have hs : (reach hold_ms calls).Sound := sound_reach calls
      have hne (pad : Pad) (hmem : pad ∈ (reach hold_ms calls).pads) : pad.device ≠ device := by
        intro hsame
        have hnot := hother pad hmem
        rw [is_iff.mpr ⟨hfull rfl pad hmem, hsame⟩] at hnot
        cases hnot
      have hnodup : (device :: (reach hold_ms calls).pads.map (·.device)).Nodup := by
        rw [nodup_cons]
        constructor
        · intro hmem
          obtain ⟨pad, hpad, hsame⟩ := mem_map.mp hmem
          exact hne pad hpad hsame
        · rw [List.Nodup, pairwise_map, pairwise_iff_getElem]
          intro i j hi hj hlt hsame
          have := hs.unique i j _ _ (getElem?_eq_getElem hi) (getElem?_eq_getElem hj)
            (hfull rfl _ (getElem_mem hi)) (hfull rfl _ (getElem_mem hj)) hsame
          omega
      have hsubset : (device :: (reach hold_ms calls).pads.map (·.device)) ⊆ devices := by
        intro d hd
        apply hall
        rcases mem_cons.mp hd with rfl | hd
        · have hdown : isDown d button
              (calls ++ [.button d button true now_ms]) = true := by
            rw [isDown_snoc]
            have hreport : (Call.button d button true now_ms).reports d button = some true :=
              if_pos ⟨rfl, rfl⟩
            rw [hreport]
            rfl
          cases button with
          | kStart => exact .inl hdown
          | kBack => exact .inr hdown
        · obtain ⟨pad, hpad, rfl⟩ := mem_map.mp hd
          refine holds_snoc_of_says (holds_of_slot calls hpad (hfull rfl pad hpad)) fun b => ?_
          exact if_neg fun hsame => hne pad hpad hsame.1.symm
      have hle := (subperm_of_subset hnodup hsubset).length_le
      rw [length_cons, length_map, hs.length] at hle
      omega

/-- While there is room, the slots show all that is down. -/
theorem has_of_down (hroom : ∀ front back, calls = front ++ back → AtMostEight front) {b : Button}
    (h : isDown device b calls = true) : Has (reach hold_ms calls).pads device b := by
  induction calls using reverseRecOn with
  | nil => cases h
  | append_singleton calls c ih =>
    rw [reach_snoc, HoldComboTrigger.has_step (sound_reach calls)]
    have hseen : (reach hold_ms calls).seen c :=
      seen_of_room (hroom (calls ++ [c]) [] (append_nil _).symm)
    rw [isDown_snoc] at h
    cases hreport : c.reports device b with
    | none =>
      rw [hreport] at h
      refine .inl ⟨rfl, ih (fun front back heq => hroom front (back ++ [c]) ?_) h⟩
      rw [heq, append_assoc]
    | some down =>
      rw [hreport] at h
      exact .inr ⟨congrArg some h, hseen⟩

/-! ### Episodes of an armed combo -/

/-- A hold is under way. -/
def Armed (t : HoldComboTrigger) : Prop := t.armed = true

/-- The history of an armed combo: since it was armed, its owner has let nothing go. -/
structure History (hold_ms : UInt32) (device : UInt32) (now_ms : UInt64) (after : List Call)
    (t : HoldComboTrigger) : Prop where
  sound : t.Sound
  owner : t.owner = device
  deadline : t.deadline_ms = now_ms + hold_ms.toUInt64
  kept : ∀ c ∈ after, c.releases device = false

theorem armed_history (calls : List Call) (h : Armed (reach hold_ms calls)) :
    ∃ before device button now_ms after,
      calls = before ++ .button device button true now_ms :: after ∧
      Episode HoldComboTrigger.step { hold_ms } HoldComboTrigger.Arms Armed before
        (.button device button true now_ms) after ∧
      History hold_ms device now_ms after (reach hold_ms calls) := by
  have hstart : ¬Armed { hold_ms } := Bool.false_ne_true
  obtain ⟨before, first, after, rfl, hepisode⟩ := exists_episode hstart
    (fun calls c harms => by
      obtain ⟨device, button, now_ms, rfl, hanswer⟩ := harms
      exact (HoldComboTrigger.arms_step hanswer).1)
    (fun calls c hnext hnot =>
      ((HoldComboTrigger.kept_step (sound_reach calls) (.inl hnext) hnot).2.2.1 hnext).1) calls h
  obtain ⟨device, button, now_ms, rfl, hanswer⟩ := id hepisode.begun
  refine ⟨before, device, button, now_ms, after, rfl, hepisode, hepisode.induction ?_ ?_⟩
  · obtain ⟨-, -, howner, hdeadline, -⟩ := HoldComboTrigger.arms_step hanswer
    refine ⟨(sound_reach before).step _, howner, ?_, forall_mem_nil _⟩
    have hhold : (run HoldComboTrigger.step { hold_ms } before).hold_ms = hold_ms :=
      hold_reach before
    rw [hdeadline, hhold]
  · intro l c s hhistory hlasts hnot hnext
    obtain ⟨-, hsame, hdeadline, hkept⟩ :=
      HoldComboTrigger.kept_step hhistory.sound (.inl hnext) hnot
    refine ⟨hhistory.sound.step c, hsame.trans hhistory.owner,
      (hdeadline hnext).2.trans hhistory.deadline, ?_⟩
    intro c' hmem
    rcases mem_append.mp hmem with hmem | hmem
    · exact hhistory.kept c' hmem
    · rw [mem_singleton.mp hmem, ← hhistory.owner]
      exact hkept

/-- Both buttons have been down ever since. -/
theorem down_since {before after : List Call} {button : Button} {now_ms : UInt64}
    (harms : (reach hold_ms before).Arms (.button device button true now_ms))
    (hkept : ∀ c ∈ after, c.releases device = false) (b : Button) :
    ∀ l r, after = l ++ r →
      isDown device b (before ++ .button device button true now_ms :: l) = true := by
  intro l
  induction l using reverseRecOn with
  | nil =>
    intro r _
    obtain ⟨device', button', now_ms', heq, hanswer⟩ := id harms
    cases heq
    obtain ⟨harmed, -, howner, -⟩ := HoldComboTrigger.arms_step hanswer
    have hhas := ((sound_reach before).step _).owner (.inl harmed) b
    rw [howner, ← reach_snoc] at hhas
    exact down_of_has _ hhas
  | append_singleton l c ih =>
    intro r heq
    rw [← cons_append, ← append_assoc]
    apply isDown_of_not_releases (ih (c :: r) (by rw [heq, append_assoc]; rfl))
    apply hkept
    rw [heq]
    exact mem_append_left _ (mem_append_right _ (mem_singleton_self c))

/-- A combo that has fired is not armed again before its owner lets go. -/
theorem fired_kept (hfired : t.fired = true ∧ t.armed = false) (more : List Call)
    (hmore : ∀ c ∈ more, c.releases t.owner = false) :
    (run HoldComboTrigger.step t more).armed = false := by
  induction more generalizing t with
  | nil => exact hfired.2
  | cons c more ih =>
    obtain ⟨hc, hrest⟩ := forall_mem_cons.mp hmore
    obtain ⟨hkeeps, howner⟩ := HoldComboTrigger.fired_step hfired hc
    refine ih hkeeps ?_
    rw [howner]
    exact hrest

/-- The trigger fires for a hold that was long enough, once; slots are of what is down. -/
theorem combo_held (hold_ms : UInt32) (calls : List Call) :
    (∀ now_ms, Fires (reach hold_ms calls) (.poll now_ms) →
      (∃ before device button armed_ms after,
        calls = before ++ .button device button true armed_ms :: after ∧
        Episode HoldComboTrigger.step { hold_ms } HoldComboTrigger.Arms Armed before
          (.button device button true armed_ms) after ∧
        (∀ b l r, after = l ++ r →
          isDown device b (before ++ .button device button true armed_ms :: l) = true) ∧
        (armed_ms.toNat + hold_ms.toNat < 2 ^ 64 → armed_ms.toNat + hold_ms.toNat ≤ now_ms.toNat)) ∧
      ∀ more, (∀ c ∈ more, c.releases (reach hold_ms calls).owner = false) →
        ∀ c, ¬Fires (reach hold_ms (calls ++ .poll now_ms :: more)) c) ∧
    Unique (reach hold_ms calls).pads ∧
    (∀ pad ∈ (reach hold_ms calls).pads, pad.used = true → Holds pad.device calls) ∧
    ((∀ front back, calls = front ++ back → AtMostEight front) → ∀ device, Holds device calls →
      ∃ pad ∈ (reach hold_ms calls).pads, pad.used = true ∧ pad.device = device) := by
  have hs : (reach hold_ms calls).Sound := sound_reach calls
  refine ⟨?_, hs.unique, fun pad hmem hused => holds_of_slot calls hmem hused, ?_⟩
  · rintro now_ms ⟨now_ms', heq, hfires⟩
    cases heq
    have hguard : ¬((reach hold_ms calls).armed = false ∨
        now_ms < (reach hold_ms calls).deadline_ms) := by
      intro hguard
      rw [HoldComboTrigger.poll, if_pos hguard] at hfires
      cases hfires
    obtain ⟨harmed, hlate⟩ := not_or.mp hguard
    rw [Bool.not_eq_false] at harmed
    constructor
    · obtain ⟨before, device, button, armed_ms, after, heq, hepisode, hhistory⟩ :=
        armed_history calls harmed
      refine ⟨before, device, button, armed_ms, after, heq, hepisode,
        fun b => down_since hepisode.begun hhistory.kept b, fun hfit => ?_⟩
      rw [UInt64.not_lt, hhistory.deadline, UInt64.le_iff_toNat_le, UInt64.toNat_add,
        UInt32.toNat_toUInt64, Nat.mod_eq_of_lt hfit] at hlate
      exact hlate
    · intro more hmore c hagain
      have hpolled : (reach hold_ms calls).step (.poll now_ms) =
          { reach hold_ms calls with armed := false, fired := true } := by
        rw [HoldComboTrigger.step, HoldComboTrigger.poll, if_neg hguard]
      have hkept : (run HoldComboTrigger.step ((reach hold_ms calls).step (.poll now_ms))
          more).armed = false := by
        rw [hpolled]
        exact fired_kept ⟨rfl, rfl⟩ more hmore
      obtain ⟨later_ms, rfl, hfires'⟩ := hagain
      rw [reach, Episodes.run_append, Episodes.run_cons] at hfires'
      rw [HoldComboTrigger.poll, if_pos (.inl hkept)] at hfires'
      cases hfires'
  · intro hroom device hdown
    have hhas : ∃ b, Has (reach hold_ms calls).pads device b := by
      rcases hdown with hdown | hdown
      · exact ⟨.kStart, has_of_down hroom hdown⟩
      · exact ⟨.kBack, has_of_down hroom hdown⟩
    obtain ⟨b, pad, hmem, his, -⟩ := hhas
    exact ⟨pad, hmem, is_iff.mp his⟩

/-- Nine devices with a button down: the ninth has no slot.  And a deadline that leaves the word:
the combo fires when its time has not come. -/
theorem ninth_device_and_late_clock :
    let ninth := (List.range 9).map fun d => Call.button d.toUInt32 .kStart true 0
    let late : List Call := [.button 0 .kStart true 0, .button 0 .kBack true 18446744073709551615]
    isDown 8 .kStart ninth = true ∧ (∀ pad ∈ (reach 1000 ninth).pads, pad.is 8 = false) ∧
      ((reach 1000 late).poll 18446744073709551615).1 = true := by
  decide

end Runs

end Mcla.HoldCombo

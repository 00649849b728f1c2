import Mcla.Library.RingTail

/-! # The latest device

`ActiveDeviceTracker` of `mcla_diagnostic_trigger`: which input device the host saw last, and the
last sixteen changes.  `history` is the list of all of them.
-/
namespace Mcla.ActiveDevice
open RingTail
open List

/-- The source of an input event. -/
inductive InputSource where
  | kJoystick | kGamepad
deriving DecidableEq

/-- A change of the latest device: from which, -1 for none, and to which. -/
structure ActiveTransition where
  timestamp_ms : UInt64 := 0
  from_device : Int := -1
  to_device : UInt32 := 0
  source : InputSource := .kJoystick

def kCapacity : Nat := 16

/-- The ring of transitions and the latest device. -/
structure ActiveDeviceTracker where
  ring : RingTail.Ring ActiveTransition := ⟨replicate kCapacity {}, 0, 0⟩
  total : UInt64 := 0
  has_latest : Bool := false
  latest : UInt32 := 0
  latest_source : InputSource := .kJoystick
  latest_timestamp_ms : UInt64 := 0

/-- What the host sees of a device. -/
structure Activity where
  device : UInt32
  source : InputSource
  timestamp_ms : UInt64

namespace ActiveDeviceTracker

/-- `OnActivity`: whether the latest device changed, and the tracker after it. -/
def onActivity (t : ActiveDeviceTracker) (a : Activity) : Bool × ActiveDeviceTracker :=
  if t.has_latest = true ∧ t.latest = a.device then
    (false, { t with latest_timestamp_ms := a.timestamp_ms })
  else
    (true,
      { ring := t.ring.push
          ⟨a.timestamp_ms, if t.has_latest then t.latest.toNat else -1, a.device, a.source⟩
        total := t.total + 1
        has_latest := true
        latest := a.device
        latest_source := a.source
        latest_timestamp_ms := a.timestamp_ms })

/-- `Transitions` -/
def transitions (t : ActiveDeviceTracker) : List ActiveTransition := t.ring.contents {}

/-- After some activities. -/
def after (activities : List Activity) : ActiveDeviceTracker :=
  activities.foldl (fun t a => (t.onActivity a).2) {}

end ActiveDeviceTracker

/-! ### The full history -/

/-- The transition of an activity, after a device or none. -/
def change (latest : Option UInt32) (a : Activity) : ActiveTransition where
  timestamp_ms := a.timestamp_ms
  from_device := latest.elim (-1) fun device => device.toNat
  to_device := a.device
  source := a.source

/-- All transitions of some activities, the oldest first. -/
def historyFrom (latest : Option UInt32) : List Activity → List ActiveTransition
  | [] => []
  | a :: activities =>
    if latest = some a.device then historyFrom latest activities
    else change latest a :: historyFrom (some a.device) activities

/-- All transitions, the latest last. -/
def history (activities : List Activity) : List ActiveTransition := historyFrom none activities

/-- One transition follows another. -/
def Follows (a b : ActiveTransition) : Prop := b.from_device = a.to_device.toNat

/-- Each transition comes from the device that the one before went to. -/
theorem historyFrom_chain (latest : Option UInt32) (activities : List Activity) :
    (∀ t ∈ (historyFrom latest activities).head?,
      t.from_device = latest.elim (-1) fun device => (device.toNat : Int)) ∧
    (historyFrom latest activities).IsChain Follows := by
  induction activities generalizing latest with
  | nil => exact ⟨fun t ht => absurd ht (Option.not_mem_none t), .nil⟩
  | cons a activities ih =>
    rw [historyFrom]
    by_cases hsame : latest = some a.device
    · rw [if_pos hsame]
      exact ih latest
    · rw [if_neg hsame]
      obtain ⟨hhead, hchain⟩ := ih (some a.device)
      refine ⟨?_, ?_⟩
      · intro t ht
        cases ht
        rfl
      · rw [isChain_cons]
        exact ⟨fun t ht => hhead t ht, hchain⟩

/-! ### The ring is the tail of the history -/

namespace ActiveDeviceTracker

/-- The tracker after a history. -/
structure Tracks (t : ActiveDeviceTracker) (history : List ActiveTransition) : Prop where
  holds : Holds t.ring history
  capacity : t.ring.cells.length = kCapacity
  total : t.total = UInt64.ofNat history.length

/-- The latest device, if there is one. -/
def latest? (t : ActiveDeviceTracker) : Option UInt32 := if t.has_latest then some t.latest else none

theorem tracks_new : Tracks {} [] where
  holds := holds_nil (by decide) rfl rfl
  capacity := rfl
  total := rfl

theorem latest?_eq_some {t : ActiveDeviceTracker} {device : UInt32} :
    t.latest? = some device ↔ t.has_latest = true ∧ t.latest = device := by
  unfold latest?
  by_cases h : t.has_latest = true
  · rw [if_pos h, Option.some.injEq, and_iff_right h]
  · rw [if_neg h]
    exact ⟨fun hnone => absurd hnone (Option.some_ne_none device).symm, fun hall => absurd hall.1 h⟩

theorem Tracks.foldl {t : ActiveDeviceTracker} {before : List ActiveTransition}
    (h : Tracks t before) (activities : List Activity) :
    Tracks (activities.foldl (fun t a => (t.onActivity a).2) t)
      (before ++ historyFrom t.latest? activities) := by
  induction activities generalizing t before with
  | nil =>
    rw [historyFrom, append_nil]
    exact h
  | cons a activities ih =>
    rw [foldl_cons, historyFrom]
    by_cases hsame : t.has_latest = true ∧ t.latest = a.device
    · -- the same device: only its time is new
      rw [if_pos (latest?_eq_some.mpr hsame), onActivity, if_pos hsame]
      have hkept : Tracks { t with latest_timestamp_ms := a.timestamp_ms } before :=
        ⟨h.holds, h.capacity, h.total⟩
      exact ih hkept
    · rw [if_neg (mt latest?_eq_some.mp hsame), onActivity, if_neg hsame]
      have hfrom : (if t.has_latest then (t.latest.toNat : Int) else -1) =
          t.latest?.elim (-1) fun device => (device.toNat : Int) := by
        unfold latest?
        split <;> rfl
      have hpushed := h.holds.push (change t.latest? a)
      rw [append_cons]
      refine ih ⟨?_, ?_, ?_⟩
      · rw [hfrom]
        exact hpushed
      · exact length_set.trans h.capacity
      · rw [length_append, h.total]
        exact (UInt64.ofNat_add _ _).symm

end ActiveDeviceTracker

/-- `Transitions` gives the last sixteen transitions of the history, and they follow one another. -/
theorem transitions_eq_tail (activities : List Activity) :
    (ActiveDeviceTracker.after activities).transitions =
        (history activities).drop ((history activities).length -
          min (history activities).length 16) ∧
      (ActiveDeviceTracker.after activities).total = UInt64.ofNat (history activities).length ∧
      (∀ t ∈ (history activities).head?, t.from_device = -1) ∧
      (history activities).IsChain Follows ∧
      (ActiveDeviceTracker.after activities).transitions.IsChain Follows := by
  have htracks := ActiveDeviceTracker.tracks_new.foldl activities
  have hcontents := contents_of_holds htracks.holds {}
  have hchain := historyFrom_chain none activities
  rw [htracks.capacity] at hcontents
  refine ⟨hcontents, htracks.total, hchain.1, hchain.2, ?_⟩
  rw [ActiveDeviceTracker.transitions, ActiveDeviceTracker.after, hcontents]
  exact hchain.2.drop _

end Mcla.ActiveDevice

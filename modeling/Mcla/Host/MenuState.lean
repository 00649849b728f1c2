import Mcla.Library.Episodes

/-! # The cap of the menus

`Controller` of `mcla_menu_state`, with the hook and the shutdown that apply it: while the game is
paused the host raises a threshold, which is the user's setting too, to its forced value, and puts
it back at the resume or at shutdown.  What the user wrote in between is told from the forced value
by the value alone, and so is lost where it is that value: `threshold_restored_iff`.
-/
namespace Mcla.MenuState
open Episodes (run Episode exists_episode)
open List

def kForcedLow : Int32 := 100000
def kMaxLoggedTransitions : Nat := 200

/-- What a decision reads. -/
structure Inputs where
  (guest_vblank_hz current_low : Int32 := 0)

/-- What a call asks of the host. -/
structure Decision where
  (transition log : Bool := false)
  write_low : Option Int32 := none

/-- The state of the controller. -/
structure Controller where
  (paused forcing wrote stopped : Bool := false)
  saved_low : Int32 := 0
  logged : Nat := 0

namespace Controller

/-- Whether a decision has to read its inputs. -/
def needsInputs (c : Controller) (paused : Bool) : Bool := !c.stopped && paused != c.paused

/-- `Release` -/
def release (c : Controller) (current_low : Int32) : Option Int32 × Controller :=
  (if c.forcing = true ∧ c.wrote = true ∧ current_low = kForcedLow then some c.saved_low else none,
    { c with forcing := false, wrote := false })

/-- The pause state that is recorded, with its line in the log. -/
def edge (c : Controller) (paused : Bool) : Controller where
  paused := paused
  forcing := c.forcing
  wrote := c.wrote
  stopped := c.stopped
  saved_low := c.saved_low
  logged := if c.logged < kMaxLoggedTransitions then c.logged + 1 else c.logged

/-- `Observe` -/
def observe (c : Controller) (paused : Bool) (inputs : Inputs) : Decision × Controller :=
  if c.needsInputs paused = false then ({}, c)
  else
    let log : Bool := c.logged < kMaxLoggedTransitions
    if paused then
      if inputs.guest_vblank_hz ≤ 0 ∨ inputs.current_low ≤ 0 then
        ({ transition := true, log }, c.edge paused)
      else
        ({ transition := true
           log
           write_low := if inputs.current_low ≠ kForcedLow then some kForcedLow else none },
          { c.edge paused with
            forcing := true
            saved_low := inputs.current_low
            wrote := decide (inputs.current_low ≠ kForcedLow) })
    else
      ({ transition := true, log, write_low := ((c.edge paused).release inputs.current_low).1 },
        ((c.edge paused).release inputs.current_low).2)

/-- `Shutdown` -/
def shutdown (c : Controller) (current_low : Int32) : Option Int32 × Controller :=
  if c.stopped then (none, c) else ({ c with stopped := true } : Controller).release current_low

end Controller

/-! ### The host -/

/-- The controller, and the threshold that it shares with the user. -/
structure Host where
  controller : Controller
  low : Int32

/-- What may happen to the threshold. -/
inductive Call where
  | observe (paused : Bool) (guest_vblank_hz : Int32)
  | user (low : Int32)
  | shutdown

namespace Host

/-- What the hook or `ShutdownMenuStateCap` writes, and the controller after it. -/
def decision (h : Host) : Call → Option Int32 × Controller
  | .observe paused guest_vblank_hz =>
    ((h.controller.observe paused { guest_vblank_hz, current_low := h.low }).1.write_low,
      (h.controller.observe paused { guest_vblank_hz, current_low := h.low }).2)
  | .user _ => (none, h.controller)
  | .shutdown => h.controller.shutdown (if h.controller.forcing then h.low else 0)

/-- What the user writes, or what `WriteLow` does. -/
def step (h : Host) (call : Call) : Host where
  controller := (h.decision call).2
  low := match call with
    | .user low => low
    | _ => (h.decision call).1.getD h.low

end Host

/-- The value that the user wrote last, if any. -/
def lastWrite : List Call → Option Int32
  | [] => none
  | .user low :: calls => some ((lastWrite calls).getD low)
  | _ :: calls => lastWrite calls

/-- The call begins to force. -/
def Begins (h : Host) (call : Call) : Prop :=
  ∃ guest_vblank_hz, call = .observe true guest_vblank_hz ∧
    h.controller.needsInputs true = true ∧ 0 < guest_vblank_hz ∧ 0 < h.low

/-- The controller forces the threshold. -/
def Forcing (h : Host) : Prop := h.controller.forcing = true

/-! ### What a call does -/

theorem lastWrite_append (calls more : List Call) :
    lastWrite (calls ++ more) = (lastWrite more).or (lastWrite calls) := by
  induction calls with
  | nil => exact (Option.or_none).symm
  | cons first calls ih =>
    cases first with
    | user low =>
      rw [cons_append, lastWrite, ih, lastWrite]
      cases lastWrite more <;> rfl
    | observe | shutdown => exact ih

namespace Host
variable {h : Host} {call : Call}

/-- A controller that forces has not stopped, and the game was paused when it was seen last. -/
structure Sound (h : Host) : Prop where
  paused : Forcing h → h.controller.paused = true ∧ h.controller.stopped = false
  wrote : Forcing h → (h.controller.wrote = true ↔ h.controller.saved_low ≠ kForcedLow)

/-- What a call can do: nothing, a write of the user's, begin to force, or release. -/
inductive Does (h : Host) (call : Call) : Prop where
  | quiet (hcall : lastWrite [call] = none) (hbegins : ¬Begins h call)
      (hlow : (h.step call).low = h.low)
      (hforcing : (h.step call).controller.forcing = h.controller.forcing)
      (hsame : Forcing h → h.step call = h)
  | writes (low : Int32) (hcall : call = .user low)
  | begins (hcall : Begins h call) (hlow : (h.step call).low = kForcedLow)
      (hforcing : Forcing (h.step call))
      (hpaused : (h.step call).controller.paused = true ∧ (h.step call).controller.stopped = false)
      (hwrote : (h.step call).controller.wrote = decide (h.low ≠ kForcedLow))
      (hsaved : (h.step call).controller.saved_low = h.low)
  | releases (hcall : lastWrite [call] = none) (hforcing : Forcing h)
      (hlow : (h.step call).low =
        if h.controller.wrote = true ∧ h.low = kForcedLow then h.controller.saved_low else h.low)
      (hreleased : (h.step call).controller.forcing = false)

theorem step_observe (h : Host) (paused : Bool) (hz : Int32) :
    h.step (.observe paused hz) = ⟨(h.decision (.observe paused hz)).2,
      (h.decision (.observe paused hz)).1.getD h.low⟩ := rfl

theorem step_shutdown (h : Host) :
    h.step .shutdown = ⟨(h.decision .shutdown).2, (h.decision .shutdown).1.getD h.low⟩ := rfl

theorem begins_not_forcing (hs : h.Sound) (hcall : Begins h call) : ¬Forcing h := by
  intro hforcing
  obtain ⟨hz, -, hneeds, -⟩ := hcall
  rw [Controller.needsInputs, (hs.paused hforcing).1] at hneeds
  simp at hneeds

/-- A release, by whichever call. -/
theorem does_release {c : Controller} (hcall : lastWrite [call] = none) (hbegins : ¬Begins h call)
    (hc : c.forcing = h.controller.forcing ∧ c.wrote = h.controller.wrote ∧
      c.saved_low = h.controller.saved_low) (current_low : Int32)
    (hcurrent : Forcing h → current_low = h.low)
    (hlow : (h.step call).low = (c.release current_low).1.getD h.low)
    (hcontroller : (h.step call).controller.forcing = (c.release current_low).2.forcing) :
    h.Does call := by
  by_cases hforcing : Forcing h
  · refine .releases hcall hforcing ?_ hcontroller
    rw [hlow, Controller.release, hc.1, hc.2.1, hc.2.2, hcurrent hforcing]
    rw [Forcing] at hforcing
    rw [hforcing]
    by_cases hrestore : h.controller.wrote = true ∧ h.low = kForcedLow
    · rw [if_pos ⟨rfl, hrestore⟩, if_pos hrestore]
      rfl
    · rw [if_neg (fun hall => hrestore hall.2), if_neg hrestore]
      rfl
  · refine .quiet hcall hbegins ?_ ?_ (fun h => absurd h hforcing)
    · rw [hlow, Controller.release, hc.1, if_neg (fun hall => hforcing hall.1)]
      rfl
    · rw [hcontroller]
      exact (Bool.not_eq_true _ ▸ hforcing : h.controller.forcing = false).symm

theorem does (hs : h.Sound) (call : Call) : h.Does call := by
  cases call with
  | user low => exact .writes low rfl
  | shutdown =>
    have hbegins : ¬Begins h .shutdown := by
      rintro ⟨hz, hcall, -⟩
      cases hcall
    by_cases hstopped : h.controller.stopped = true
    · have hdecision : h.decision .shutdown = (none, h.controller) := by
        rw [decision, Controller.shutdown, if_pos hstopped]
      have hstep : h.step .shutdown = h := by
        rw [step_shutdown, hdecision]
        rfl
      exact .quiet rfl hbegins (by rw [hstep]) (by rw [hstep]) (fun _ => hstep)
    · have hdecision : h.decision .shutdown =
          ({ h.controller with stopped := true } : Controller).release
            (if h.controller.forcing then h.low else 0) := by
        rw [decision, Controller.shutdown, if_neg hstopped]
      refine does_release (c := { h.controller with stopped := true }) rfl hbegins ⟨rfl, rfl, rfl⟩
        (if h.controller.forcing then h.low else 0) (fun hforcing => if_pos hforcing) ?_ ?_
      · rw [← hdecision]
        rfl
      · rw [← hdecision]
        rfl
  | observe paused hz =>
    by_cases hneeds : h.controller.needsInputs paused = false
    · have hstep : h.step (.observe paused hz) = h := by
        rw [step_observe, decision, Controller.observe, if_pos hneeds]
        rfl
      refine .quiet rfl ?_ (by rw [hstep]) (by rw [hstep]) (fun _ => hstep)
      rintro ⟨hz, hcall, hneeds', -⟩
      cases hcall
      rw [hneeds] at hneeds'
      cases hneeds'
    · cases paused with
      | false =>
        have hbegins : ¬Begins h (.observe false hz) := by
          rintro ⟨hz, hcall, -⟩
          cases hcall
        -- the game goes on: what was forced is given back
        refine does_release (c := h.controller.edge false) rfl hbegins ⟨rfl, rfl, rfl⟩ h.low
          (fun _ => rfl) ?_ ?_
        · rw [step_observe, decision, Controller.observe, if_neg hneeds]
          rfl
        · rw [step_observe, decision, Controller.observe, if_neg hneeds]
          rfl
      | true =>
        have hneeds' : h.controller.needsInputs true = true := by
          rwa [Bool.not_eq_false] at hneeds
        by_cases hstock : hz ≤ 0 ∨ h.low ≤ 0
        · -- stock mode, or the user has turned the cap off
          have hdecision : h.decision (.observe true hz) = (none, h.controller.edge true) := by
            rw [decision, Controller.observe, if_neg hneeds, if_pos rfl, if_pos hstock]
          refine .quiet rfl ?_ ?_ ?_ ?_
          · rintro ⟨hz', hcall, -, hhz, hlow⟩
            cases hcall
            rcases hstock with hstock | hstock
            · exact absurd hstock (Int32.not_le.mpr hhz)
            · exact absurd hstock (Int32.not_le.mpr hlow)
          · rw [step_observe, hdecision]
            rfl
          · rw [step_observe, hdecision]
            rfl
          · intro hforcing
            rw [Controller.needsInputs, (hs.paused hforcing).1] at hneeds'
            simp at hneeds'
        · have hbegins : Begins h (.observe true hz) := by
            rw [not_or, Int32.not_le, Int32.not_le] at hstock
            exact ⟨hz, rfl, hneeds', hstock⟩
          have hdecision : h.decision (.observe true hz) =
              (if h.low ≠ kForcedLow then some kForcedLow else none,
                { h.controller.edge true with
                  forcing := true
                  saved_low := h.low
                  wrote := decide (h.low ≠ kForcedLow) }) := by
            rw [decision, Controller.observe, if_neg hneeds, if_pos rfl, if_neg hstock]
          refine .begins hbegins ?_ ?_ ?_ ?_ ?_
          · rw [step_observe, hdecision]
            by_cases hlow : h.low = kForcedLow
            · rw [if_neg (fun hne => hne hlow)]
              exact hlow
            · rw [if_pos hlow]
              rfl
          · rw [step_observe, hdecision, Forcing]
          · rw [step_observe, hdecision]
            rw [Controller.needsInputs, Bool.and_eq_true, Bool.not_eq_true'] at hneeds'
            exact ⟨rfl, hneeds'.1⟩
          · rw [step_observe, hdecision]
          · rw [step_observe, hdecision]

theorem Sound.step (hs : h.Sound) (call : Call) : (h.step call).Sound := by
  cases h.does hs call with
  | quiet _ _ _ hforcing hsame =>
    by_cases hf : Forcing h
    · rw [hsame hf]
      exact hs
    · have hf' : ¬Forcing (h.step call) := fun hstep => hf (hforcing.symm.trans hstep)
      exact ⟨fun hstep => absurd hstep hf', fun hstep => absurd hstep hf'⟩
  | writes low hcall =>
    subst hcall
    exact ⟨hs.paused, hs.wrote⟩
  | begins _ _ _ hpaused hwrote hsaved =>
    refine ⟨fun _ => hpaused, fun _ => ?_⟩
    rw [hwrote, hsaved, decide_eq_true_iff]
  | releases _ _ _ hreleased =>
    have hf' : ¬Forcing (h.step call) := fun hstep => by
      rw [Forcing, hreleased] at hstep
      cases hstep
    exact ⟨fun hstep => absurd hstep hf', fun hstep => absurd hstep hf'⟩

theorem Sound.forcing_of_step (hs : h.Sound) (hf : Forcing (h.step call)) (hnot : ¬Begins h call) :
    Forcing h := by
  cases h.does hs call with
  | quiet _ _ _ hforcing => exact hforcing.symm.trans hf
  | writes low hcall =>
    subst hcall
    exact hf
  | begins hcall => exact absurd hcall hnot
  | releases _ hforcing => exact hforcing

end Host

/-! ### Runs -/

/-- A host that has just started. -/
def Host.start (low : Int32) : Host := ⟨{}, low⟩

theorem sound_start (low : Int32) : (Host.start low).Sound where
  paused := fun hf => absurd hf Bool.false_ne_true
  wrote := fun hf => absurd hf Bool.false_ne_true

theorem sound_run (low : Int32) (calls : List Call) : (run Host.step (.start low) calls).Sound :=
  Episodes.run_induction (sound_start low) (fun _ call hs => hs.step call) calls

/-- What is known of a host that forces: the threshold shows what the user wrote since. -/
structure History (after : List Call) (h : Host) : Prop where
  sound : h.Sound
  low : h.low = (lastWrite after).getD kForcedLow

theorem History.snoc {h : Host} {after : List Call} {call : Call}
    (hh : History after h) (hf : Forcing h) (hnot : ¬Begins h call)
    (hf' : Forcing (h.step call)) : History (after ++ [call]) (h.step call) := by
  cases h.does hh.sound call with
  | quiet hcall _ _ _ hsame =>
    rw [hsame hf]
    refine ⟨hh.sound, ?_⟩
    rw [lastWrite_append, hcall, Option.none_or]
    exact hh.low
  | writes low hcall =>
    subst hcall
    refine ⟨hh.sound.step _, ?_⟩
    rw [lastWrite_append]
    rfl
  | begins hcall => exact absurd hcall hnot
  | releases _ _ _ hreleased =>
    rw [Forcing, hreleased] at hf'
    cases hf'

/-- A host that is reached. -/
abbrev reach (low : Int32) (calls : List Call) : Host := run Host.step (.start low) calls

/-- A host that forces has its history. -/
theorem forcing_history {low : Int32} (calls : List Call) (hf : Forcing (reach low calls)) :
    ∃ before first after, calls = before ++ first :: after ∧
      Episode Host.step (.start low) Begins Forcing before first after ∧
      History after (reach low calls) := by
  have hsound := sound_run low
  have hstart : ¬Forcing (.start low) := Bool.false_ne_true
  have hbegins (calls : List Call) (call : Call) (hcall : Begins (reach low calls) call) :
      Forcing ((reach low calls).step call) ∧ History [] ((reach low calls).step call) := by
    have hs := hsound calls
    cases (reach low calls).does hs call with
    | quiet _ hnot => exact absurd hcall hnot
    | writes low hwrite =>
      obtain ⟨hz, heq, -⟩ := hcall
      rw [hwrite] at heq
      cases heq
    | begins _ hlow hforcing => exact ⟨hforcing, hs.step call, hlow⟩
    | releases _ hforcing => exact absurd hforcing (Host.begins_not_forcing hs hcall)
  obtain ⟨before, first, after, rfl, hepisode⟩ := exists_episode hstart
    (fun calls call hcall => (hbegins calls call hcall).1)
    (fun calls call hf hnot => (hsound calls).forcing_of_step hf hnot) calls hf
  refine ⟨before, first, after, rfl, hepisode, hepisode.induction ?_ ?_⟩
  · exact (hbegins before first hepisode.begun).2
  · intro l call s hhistory hlasts hnot hnext
    exact hhistory.snoc hlasts hnot hnext

/-! ### The user's value -/

/-- The value that the user wrote last, or the first. -/
def own (low : Int32) (calls : List Call) : Int32 := (lastWrite calls).getD low

theorem own_append (low : Int32) (calls more : List Call) :
    own low (calls ++ more) = (lastWrite more).getD (own low calls) := by
  rw [own, lastWrite_append, own]
  cases lastWrite more <;> rfl

/-- What a host shows of the user's value. -/
structure Shows (own : Int32) (h : Host) : Prop where
  sound : h.Sound
  free : ¬Forcing h → h.low = own ∨ own = kForcedLow ∧ h.low ≠ kForcedLow
  forced : Forcing h → h.low = own ∨ h.low = kForcedLow ∧ h.controller.saved_low = own

theorem Shows.step {value : Int32} {h : Host} (hh : Shows value h) (call : Call) :
    Shows ((lastWrite [call]).getD value) (h.step call) := by
  have hsound := hh.sound.step call
  cases h.does hh.sound call with
  | quiet hcall _ hlow hforcing hsame =>
    rw [hcall]
    by_cases hf : Forcing h
    · rw [hsame hf]
      exact hh
    · have hf' : ¬Forcing (h.step call) := fun hstep => hf (hforcing.symm.trans hstep)
      refine ⟨hsound, fun _ => ?_, fun hstep => absurd hstep hf'⟩
      rw [hlow]
      exact hh.free hf
  | writes low hcall =>
    subst hcall
    exact ⟨hsound, fun _ => .inl rfl, fun _ => .inl rfl⟩
  | begins hcall hlow hforcing _ _ hsaved =>
    have hvalue : (lastWrite [call]).getD value = value := by
      obtain ⟨hz, rfl, -⟩ := hcall
      rfl
    rw [hvalue]
    refine ⟨hsound, fun hnot => absurd hforcing hnot, fun _ => ?_⟩
    rw [hlow, hsaved]
    rcases hh.free (Host.begins_not_forcing hh.sound hcall) with hown | ⟨hown, -⟩
    · exact .inr ⟨rfl, hown⟩
    · exact .inl hown.symm
  | releases hcall hforcing hlow hreleased =>
    rw [hcall]
    have hnot : ¬Forcing (h.step call) := fun hstep => by
      rw [Forcing, hreleased] at hstep
      cases hstep
    refine ⟨hsound, fun _ => ?_, fun hstep => absurd hstep hnot⟩
    rw [hlow]
    have hwrote := hh.sound.wrote hforcing
    by_cases hrestore : h.controller.wrote = true ∧ h.low = kForcedLow
    · rw [if_pos hrestore]
      rcases hh.forced hforcing with hown | ⟨-, hsaved⟩
      · -- the user has chosen the forced value, and cannot be told from the host
        exact .inr ⟨hown.symm.trans hrestore.2, hwrote.mp hrestore.1⟩
      · exact .inl hsaved
    · rw [if_neg hrestore]
      rcases hh.forced hforcing with hown | ⟨hlow', hsaved⟩
      · exact .inl hown
      · -- the forced value was the user's before
        have hsame : h.controller.saved_low = kForcedLow := by
          by_contra hne
          exact hrestore ⟨hwrote.mpr hne, hlow'⟩
        exact .inl (hlow'.trans (hsame.symm.trans hsaved))

theorem shows_run (low : Int32) (calls : List Call) : Shows (own low calls) (reach low calls) := by
  induction calls using reverseRecOn with
  | nil => exact ⟨sound_start low, fun _ => .inl rfl, fun hf => absurd hf Bool.false_ne_true⟩
  | append_singleton calls call ih =>
    rw [own_append, reach, Episodes.run_append]
    exact ih.step call

/-! ### When the user's value is kept -/

/-- The call gives back what was forced: the game goes on, or the host stops. -/
def Ends (h : Host) (call : Call) : Prop :=
  (∃ guest_vblank_hz, call = .observe false guest_vblank_hz ∧
    h.controller.needsInputs false = true) ∨ call = .shutdown ∧ h.controller.stopped = false

theorem Host.ends_iff {h : Host} (hs : h.Sound) (hf : Forcing h) (call : Call) :
    Ends h call ↔ ¬Forcing (h.step call) := by
  obtain ⟨hpaused, hstopped⟩ := hs.paused hf
  cases call with
  | user low => simp [Ends, Forcing, Host.step, Host.decision, show h.controller.forcing = true from hf]
  | shutdown =>
    simp [Ends, Forcing, Host.step, Host.decision, Controller.shutdown, Controller.release, hstopped]
  | observe paused hz =>
    cases paused with
    | true =>
      simp [Ends, Forcing, Host.step, Host.decision, Controller.observe, Controller.needsInputs,
        hpaused, show h.controller.forcing = true from hf]
    | false =>
      simp [Ends, Forcing, Host.step, Host.decision, Controller.observe, Controller.needsInputs,
        Controller.release, hpaused, hstopped]

/-- What is asked after the calls `seen`.  A host that does not force shows the value of the user;
one that forces shows the forced value, or what the user wrote since it began; and the call that
gave back has left the value from before, or what the user wrote since. -/
structure Respects (low : Int32) (seen : List Call) : Prop where
  free : ¬Forcing (reach low seen) → (reach low seen).low = own low seen
  forced : Forcing (reach low seen) → ∃ before first after, seen = before ++ first :: after ∧
    Episode Host.step (.start low) Begins Forcing before first after ∧
    (reach low seen).low = (lastWrite after).getD kForcedLow
  released : ∀ calls call, seen = calls ++ [call] → Forcing (reach low calls) →
    ¬Forcing (reach low seen) → ∃ before first after, calls = before ++ first :: after ∧
      Episode Host.step (.start low) Begins Forcing before first after ∧
      (reach low seen).low = (lastWrite after).getD (reach low before).low

/-- After the calls `seen`, the call gives back another value than the forced one, which the user
has chosen himself. -/
structure Overwrites (low : Int32) (seen : List Call) (call : Call) : Prop where
  forcing : Forcing (reach low seen)
  ends : Ends (reach low seen) call
  chosen : own low seen = kForcedLow
  other : (reach low seen).controller.saved_low ≠ kForcedLow

/-- A call keeps the user's value, unless it overwrites it. -/
theorem free_step {low : Int32} {seen : List Call} {call : Call}
    (hfree : ¬Forcing (reach low seen) → (reach low seen).low = own low seen)
    (hkeeps : ¬Overwrites low seen call) (hnot : ¬Forcing (reach low (seen ++ [call]))) :
    (reach low (seen ++ [call])).low = own low (seen ++ [call]) := by
  have hshows := shows_run low seen
  rw [own_append]
  rw [reach, Episodes.run_append] at hnot ⊢
  show ((reach low seen).step call).low = _
  cases (reach low seen).does hshows.sound call with
  | quiet hcall _ hlow hforcing =>
    rw [hcall, hlow]
    exact hfree fun hf => hnot (hforcing.trans hf)
  | writes value hcall =>
    subst hcall
    rfl
  | begins _ _ hforcing => exact absurd hforcing hnot
  | releases hcall hforcing hlow =>
    rw [hcall, hlow]
    have hwrote := hshows.sound.wrote hforcing
    rcases hshows.forced hforcing with hown | ⟨hlow', hsaved⟩
    · rw [if_neg]
      · exact hown
      · rintro ⟨hwritten, hforced⟩
        exact hkeeps ⟨hforcing, ((reach low seen).ends_iff hshows.sound hforcing call).mpr hnot,
          hown.symm.trans hforced, hwrote.mp hwritten⟩
    · by_cases hwritten : (reach low seen).controller.wrote = true
      · rw [if_pos ⟨hwritten, hlow'⟩]
        exact hsaved
      · -- nothing was written, since the threshold had the forced value before
        rw [if_neg fun hall => hwritten hall.1, hlow']
        exact (not_not.mp (mt hwrote.mpr hwritten)).symm.trans hsaved

/-- **When the user's value is kept**: in a run all the time, exactly when no call of it gives back
another value than the forced one while that is the one the user has chosen. -/
theorem threshold_restored_iff (low : Int32) (calls : List Call) :
    (∀ seen, seen <+: calls → Respects low seen) ↔
      ∀ seen call, seen ++ [call] <+: calls → ¬Overwrites low seen call := by
  constructor
  · intro hall seen call hpre hbad
    have hshows := shows_run low seen
    have hwrote := (hshows.sound.wrote hbad.forcing).mpr hbad.other
    have hnot := ((reach low seen).ends_iff hshows.sound hbad.forcing call).mp hbad.ends
    have hfree := (hall _ hpre).free
    rw [own_append, reach, Episodes.run_append] at hfree
    have hlow : (reach low seen).low = kForcedLow := by
      rcases hshows.forced hbad.forcing with hown | ⟨hlow, -⟩
      · exact hown.trans hbad.chosen
      · exact hlow
    cases (reach low seen).does hshows.sound call with
    | quiet _ _ _ hforcing => exact hnot (hforcing.trans hbad.forcing)
    | writes value hcall =>
      subst hcall
      exact hnot hbad.forcing
    | begins _ _ hforcing => exact hnot hforcing
    | releases hcall _ hgiven =>
      have hown := hfree hnot
      rw [hcall] at hown
      have hsaved := hgiven.trans (if_pos ⟨hwrote, hlow⟩)
      exact hbad.other (hsaved.symm.trans (hown.trans hbad.chosen))
  · intro hkeeps
    have hfree (seen : List Call) (hpre : seen <+: calls) :
        ¬Forcing (reach low seen) → (reach low seen).low = own low seen := by
      induction seen using reverseRecOn with
      | nil => exact fun _ => rfl
      | append_singleton seen call ih =>
        exact free_step (ih ((prefix_append _ _).trans hpre)) (hkeeps seen call hpre)
    intro seen hpre
    refine ⟨hfree seen hpre, fun hf => ?_, ?_⟩
    · obtain ⟨before, first, after, heq, hepisode, hhistory⟩ := forcing_history seen hf
      exact ⟨before, first, after, heq, hepisode, hhistory.low⟩
    · rintro earlier call rfl hf hnot
      obtain ⟨before, first, after, rfl, hepisode, -⟩ := forcing_history earlier hf
      refine ⟨before, first, after, rfl, hepisode, ?_⟩
      have hbefore := hfree before (((prefix_append _ _).trans (prefix_append _ _)).trans
        hpre) (Host.begins_not_forcing (sound_run low before) hepisode.begun)
      have hends := ((reach low _).ends_iff (sound_run low _) hf call).mpr (by
        rw [reach, Episodes.run_append] at hnot
        exact hnot)
      have hcall : lastWrite [call] = none := by
        rcases hends with ⟨hz, rfl, -⟩ | ⟨rfl, -⟩
        · rfl
        · rfl
      obtain ⟨hz, rfl, -⟩ := hepisode.begun
      rw [hfree _ hpre hnot, own_append, hcall, own_append, hbefore]
      rfl

/-- The user changes the threshold while it is forced, and then to the forced value: the resume puts
back what was there before. -/
theorem forced_value_chosen : ¬ ∀ seen,
    seen <+: [.observe true 60, .user 700, .user kForcedLow, .observe false 60] →
      Respects 500 seen := by
  intro h
  have hfree := (h _ prefix_rfl).free Bool.false_ne_true
  exact absurd hfree (by decide)

end Mcla.MenuState

import Mcla.Library.Episodes

/-! # The capture window

`Window` of `mcla_photo_capture`: while the game has frozen the frame for a photo, the host turns on
the wait for pipelines still being created, unless the user has it on already.  The window closes
at the unfreeze, after a timeout or at shutdown.
-/
namespace Mcla.PhotoCapture
open Episodes (run Episode exists_episode)
open List

def kTimeoutFrames : UInt32 := 120
def kTimeoutMs : UInt64 := 5000
def kMaxLoggedTransitions : Nat := 50

/-- What ends or begins a window. -/
inductive Event where
  | kOpen | kClose | kTimeout | kShutdown
deriving DecidableEq

/-- What a call asks of the host. -/
structure Decision where
  (transition log : Bool := false)
  event : Event := .kOpen
  write_wait : Option Bool := none
  frames : UInt32 := 0
  elapsed_ms : UInt64 := 0

/-- The state of the window. -/
structure Window where
  enabled : Bool
  (is_open owning stopped : Bool := false)
  frames : UInt32 := 0
  opened_ms : UInt64 := 0
  logged : Nat := 0

namespace Window

/-- `Transition` -/
def transition (w : Window) (d : Decision) (event : Event) : Decision × Window :=
  if w.logged < kMaxLoggedTransitions then
    ({ d with transition := true, event, log := true }, { w with logged := w.logged + 1 })
  else ({ d with transition := true, event }, w)

/-- `Open` -/
def openWindow (w : Window) (now_ms : UInt64) (current_wait : Bool) : Decision × Window :=
  if w.enabled = false ∨ w.stopped = true ∨ w.is_open = true then ({}, w)
  else
    transition { w with is_open := true, frames := 0, opened_ms := now_ms, owning := !current_wait }
      { write_wait := if current_wait then none else some true } .kOpen

/-- `End` -/
def endWindow (w : Window) (now_ms : UInt64) (event : Event) : Decision × Window :=
  if w.is_open = false then ({}, w)
  else
    transition { w with is_open := false, owning := false }
      { frames := w.frames
        elapsed_ms := now_ms - w.opened_ms
        write_wait := if w.owning then some false else none } event

/-- `Close` -/
def closeWindow (w : Window) (now_ms : UInt64) : Decision × Window := w.endWindow now_ms .kClose

/-- `Tick` -/
def tick (w : Window) (now_ms : UInt64) : Decision × Window :=
  if w.is_open = false then ({}, w)
  else if kTimeoutFrames ≤ w.frames + 1 ∨ kTimeoutMs ≤ now_ms - w.opened_ms then
    endWindow { w with frames := w.frames + 1 } now_ms .kTimeout
  else ({}, { w with frames := w.frames + 1 })

/-- `Shutdown` -/
def shutdown (w : Window) (now_ms : UInt64) : Decision × Window :=
  ((w.endWindow now_ms .kShutdown).1, { (w.endWindow now_ms .kShutdown).2 with stopped := true })

end Window

/-! ### The host -/

/-- The window, and the setting that it shares with the user. -/
structure Host where
  window : Window
  wait : Bool

/-- The calls of a window. -/
inductive Call where
  | freeze (now_ms : UInt64)
  | unfreeze (now_ms : UInt64)
  | frame (now_ms : UInt64)
  | shutdown (now_ms : UInt64)
  | user (wait : Bool)

namespace Host

/-- What the window decides, and the window after it. -/
def decision (h : Host) : Call → Decision × Window
  | .freeze now_ms => h.window.openWindow now_ms h.wait
  | .unfreeze now_ms => h.window.closeWindow now_ms
  | .frame now_ms => h.window.tick now_ms
  | .shutdown now_ms => h.window.shutdown now_ms
  | .user _ => ({}, h.window)

/-- What the user writes, or what `Apply` does. -/
def step (h : Host) (call : Call) : Host where
  window := (h.decision call).2
  wait := match call with
    | .user wait => wait
    | _ => (h.decision call).1.write_wait.getD h.wait

end Host

/-- What the host writes in the course of some calls. -/
def writes (h : Host) : List Call → List Bool
  | [] => []
  | call :: calls => (h.decision call).1.write_wait.toList ++ writes (h.step call) calls

/-- The call opens the window. -/
def Opens (h : Host) (call : Call) : Prop :=
  (∃ now_ms, call = .freeze now_ms) ∧ h.window.enabled = true ∧ h.window.stopped = false ∧
    h.window.is_open = false

/-- The window is open. -/
def IsOpen (h : Host) : Prop := h.window.is_open = true

/-- A frame of the game. -/
def Call.isFrame : Call → Bool
  | .frame _ => true
  | _ => false

/-! ### What the operations do -/

namespace Window

@[simp] theorem transition_write (w : Window) (d : Decision) (event : Event) :
    (w.transition d event).1.write_wait = d.write_wait := by
  unfold transition
  split <;> rfl

/-- A transition changes the count of logged lines only. -/
theorem transition_window (w : Window) (d : Decision) (event : Event) :
    ∃ logged, (w.transition d event).2 = { w with logged } := by
  unfold transition
  split
  · exact ⟨_, rfl⟩
  · exact ⟨w.logged, rfl⟩

variable {w : Window}

theorem openWindow_quiet (h : w.enabled = false ∨ w.stopped = true ∨ w.is_open = true)
    (now_ms : UInt64) (current_wait : Bool) : w.openWindow now_ms current_wait = ({}, w) := by
  rw [openWindow, if_pos h]

theorem openWindow_write (h : ¬(w.enabled = false ∨ w.stopped = true ∨ w.is_open = true))
    (now_ms : UInt64) (current_wait : Bool) :
    (w.openWindow now_ms current_wait).1.write_wait = if current_wait then none else some true := by
  rw [openWindow, if_neg h, transition_write]

theorem openWindow_window (h : ¬(w.enabled = false ∨ w.stopped = true ∨ w.is_open = true))
    (now_ms : UInt64) (current_wait : Bool) :
    ∃ logged, (w.openWindow now_ms current_wait).2 =
      { w with
        is_open := true, frames := 0, opened_ms := now_ms, owning := !current_wait, logged } := by
  rw [openWindow, if_neg h]
  exact transition_window _ _ _

theorem endWindow_quiet (h : w.is_open = false) (now_ms : UInt64) (event : Event) :
    w.endWindow now_ms event = ({}, w) := by
  rw [endWindow, if_pos h]

theorem endWindow_write (h : w.is_open = true) (now_ms : UInt64) (event : Event) :
    (w.endWindow now_ms event).1.write_wait = if w.owning then some false else none := by
  rw [endWindow, if_neg (by simp [h]), transition_write]

theorem endWindow_window (h : w.is_open = true) (now_ms : UInt64) (event : Event) :
    ∃ logged, (w.endWindow now_ms event).2 =
      { w with is_open := false, owning := false, logged } := by
  rw [endWindow, if_neg (by simp [h])]
  exact transition_window _ _ _

end Window

namespace Host
variable {h : Host} {call : Call}

theorem step_window (h : Host) (call : Call) : (h.step call).window = (h.decision call).2 := rfl

/-- What a call can do: nothing but count a frame, open the window, or end it. -/
inductive Does (h : Host) (call : Call) : Prop where
  | quiet (hwrite : (h.decision call).1.write_wait = none)
      (hopen : (h.step call).window.is_open = h.window.is_open)
      (howning : (h.step call).window.owning = h.window.owning)
      (hopened : (h.step call).window.opened_ms = h.window.opened_ms)
      (hframes : (h.step call).window.frames =
        if h.window.is_open && call.isFrame then h.window.frames + 1 else h.window.frames)
      (hframe : ∀ now_ms, call = .frame now_ms → h.window.is_open = true →
        ¬(kTimeoutFrames ≤ h.window.frames + 1 ∨ kTimeoutMs ≤ now_ms - h.window.opened_ms))
      (hopens : ¬Opens h call)
  | opens (now_ms : UInt64) (hcall : call = .freeze now_ms) (hopens : Opens h call)
      (hwrite : (h.decision call).1.write_wait = if h.wait then none else some true)
      (hopen : (h.step call).window.is_open = true)
      (howning : (h.step call).window.owning = !h.wait)
      (hopened : (h.step call).window.opened_ms = now_ms)
      (hframes : (h.step call).window.frames = 0)
  | ends (hopen : h.window.is_open = true)
      (hwrite : (h.decision call).1.write_wait = if h.window.owning then some false else none)
      (hclosed : (h.step call).window.is_open = false)
      (howning : (h.step call).window.owning = false)

/-- What ends the window at a time, if it is open. -/
theorem does_end {now_ms : UInt64} {event : Event}
    (hwrite : (h.decision call).1.write_wait = (h.window.endWindow now_ms event).1.write_wait)
    (hopen : (h.step call).window.is_open = (h.window.endWindow now_ms event).2.is_open)
    (howning : (h.step call).window.owning = (h.window.endWindow now_ms event).2.owning)
    (hopened : (h.step call).window.opened_ms = (h.window.endWindow now_ms event).2.opened_ms)
    (hframes : (h.step call).window.frames = (h.window.endWindow now_ms event).2.frames)
    (hfreeze : ¬Opens h call) : h.Does call := by
  by_cases hstate : h.window.is_open = true
  · obtain ⟨logged, hwindow⟩ := Window.endWindow_window hstate now_ms event
    rw [hwindow] at hopen howning
    refine .ends hstate ?_ hopen howning
    rw [hwrite, Window.endWindow_write hstate]
  · rw [Bool.not_eq_true] at hstate
    rw [Window.endWindow_quiet hstate] at hwrite hopen howning hopened hframes
    refine .quiet hwrite hopen howning hopened ?_ ?_ hfreeze
    · rw [hframes, hstate, Bool.false_and, if_neg Bool.false_ne_true]
    · intro now_ms hcall hstate'
      rw [hstate] at hstate'
      cases hstate'

theorem does (h : Host) (call : Call) : h.Does call := by
  have hother (hcall : ∀ now_ms, call ≠ .freeze now_ms) : ¬Opens h call := by
    rintro ⟨⟨now_ms, heq⟩, -⟩
    exact hcall now_ms heq
  cases call with
  | freeze now_ms =>
    by_cases hguard : h.window.enabled = false ∨ h.window.stopped = true ∨ h.window.is_open = true
    · have hquiet := Window.openWindow_quiet hguard now_ms h.wait
      refine .quiet ?_ ?_ ?_ ?_ ?_ ?_ ?_
      · rw [decision, hquiet]
      · rw [step_window, decision, hquiet]
      · rw [step_window, decision, hquiet]
      · rw [step_window, decision, hquiet]
      · have hframe : (Call.freeze now_ms).isFrame = false := rfl
        rw [step_window, decision, hquiet, hframe, Bool.and_false, if_neg Bool.false_ne_true]
      · intro _ hcall
        cases hcall
      · rintro ⟨-, henabled, hstopped, hclosed⟩
        rw [henabled, hstopped, hclosed] at hguard
        simp at hguard
    · obtain ⟨logged, hwindow⟩ := Window.openWindow_window hguard now_ms h.wait
      have hopens : Opens h (.freeze now_ms) := by
        simp only [not_or, Bool.not_eq_false, Bool.not_eq_true] at hguard
        exact ⟨⟨now_ms, rfl⟩, hguard.1, hguard.2.1, hguard.2.2⟩
      refine .opens now_ms rfl hopens ?_ ?_ ?_ ?_ ?_
      · exact Window.openWindow_write hguard now_ms h.wait
      · rw [step_window, decision, hwindow]
      · rw [step_window, decision, hwindow]
      · rw [step_window, decision, hwindow]
      · rw [step_window, decision, hwindow]
  | unfreeze now_ms =>
    exact does_end rfl rfl rfl rfl rfl (hother fun _ hcall => by cases hcall)
  | shutdown now_ms =>
    exact does_end rfl rfl rfl rfl rfl (hother fun _ hcall => by cases hcall)
  | user wait =>
    refine .quiet rfl rfl rfl rfl ?_ ?_ (hother fun _ hcall => by cases hcall)
    · have hframe : (Call.user wait).isFrame = false := rfl
      rw [hframe, Bool.and_false]
      rfl
    · intro now_ms hcall
      cases hcall
  | frame now_ms =>
    have hopens := hother fun _ hcall => by cases hcall
    by_cases hstate : h.window.is_open = true
    · by_cases htimeout : kTimeoutFrames ≤ h.window.frames + 1 ∨
          kTimeoutMs ≤ now_ms - h.window.opened_ms
      · have htick : h.decision (.frame now_ms) =
            Window.endWindow { h.window with frames := h.window.frames + 1 } now_ms .kTimeout := by
          rw [decision, Window.tick, if_neg (by simp [hstate]), if_pos htimeout]
        have hstate' : ({ h.window with frames := h.window.frames + 1 } : Window).is_open = true :=
          hstate
        obtain ⟨logged, hwindow⟩ := Window.endWindow_window hstate' now_ms .kTimeout
        refine .ends hstate ?_ ?_ ?_
        · rw [htick, Window.endWindow_write hstate']
        · rw [step_window, htick, hwindow]
        · rw [step_window, htick, hwindow]
      · have htick : h.decision (.frame now_ms) =
            ({}, { h.window with frames := h.window.frames + 1 }) := by
          rw [decision, Window.tick, if_neg (by simp [hstate]), if_neg htimeout]
        refine .quiet ?_ ?_ ?_ ?_ ?_ ?_ hopens
        · rw [htick]
        · rw [step_window, htick]
        · rw [step_window, htick]
        · rw [step_window, htick]
        · rw [step_window, htick, hstate]
          rfl
        · intro now_ms' hcall _
          cases hcall
          exact htimeout
    · rw [Bool.not_eq_true] at hstate
      have htick : h.decision (.frame now_ms) = ({}, h.window) := by
        rw [decision, Window.tick, if_pos hstate]
      refine .quiet ?_ ?_ ?_ ?_ ?_ ?_ hopens
      · rw [htick]
      · rw [step_window, htick]
      · rw [step_window, htick]
      · rw [step_window, htick]
      · rw [step_window, htick, hstate, Bool.false_and, if_neg Bool.false_ne_true]
      · intro now_ms' _ hstate'
        rw [hstate] at hstate'
        cases hstate'

end Host

/-! ### Runs -/

section Runs
variable {h : Host}

theorem Opens.isOpen {call : Call} (hopens : Opens h call) : IsOpen (h.step call) := by
  cases h.does call with
  | quiet _ _ _ _ _ _ hnot => exact absurd hopens hnot
  | opens _ _ _ _ hopen => exact hopen
  | ends hopen =>
    rw [hopens.2.2.2] at hopen
    cases hopen

theorem isOpen_of_step {call : Call} (hopen : IsOpen (h.step call)) (hnot : ¬Opens h call) :
    IsOpen h := by
  cases h.does call with
  | quiet _ hsame => exact hsame.symm.trans hopen
  | opens _ _ hopens => exact absurd hopens hnot
  | ends hopen' => exact hopen'

/-- The host owns the setting only while the window is open. -/
def Owned (h : Host) : Prop := h.window.owning = true → h.window.is_open = true

theorem Owned.step (howned : Owned h) (call : Call) : Owned (h.step call) := by
  intro howning
  cases h.does call with
  | quiet _ hopen hsame =>
    rw [hopen]
    exact howned (hsame.symm.trans howning)
  | opens _ _ _ _ hopen => exact hopen
  | ends _ _ _ hclosed =>
    rw [hclosed] at howning
    cases howning

/-- Of what the host writes, every second is `false`: the true it wrote last, if it owns the
setting, is still to be undone. -/
theorem writes_alternate (howned : Owned h) (calls : List Call) :
    ∃ n, (if h.window.owning then [true] else []) ++ writes h calls =
      (replicate n [true, false]).flatten ++
        if (run Host.step h calls).window.owning then [true] else [] := by
  induction calls generalizing h with
  | nil => exact ⟨0, by rw [writes, append_nil]; rfl⟩
  | cons call calls ih =>
    obtain ⟨n, hn⟩ := ih (howned.step call)
    rw [Episodes.run_cons, writes]
    cases h.does call with
    | quiet hwrite _ hsame =>
      refine ⟨n, ?_⟩
      rw [hsame] at hn
      rw [hwrite]
      exact hn
    | opens _ _ hopens hwrite _ howning =>
      refine ⟨n, ?_⟩
      -- the window was closed, so that nothing is left to undo
      have hnot : h.window.owning = false := by
        rw [← Bool.not_eq_true]
        intro howning
        have hopen := howned howning
        rw [hopens.2.2.2] at hopen
        cases hopen
      rw [howning] at hn
      rw [hwrite, hnot, ← hn]
      by_cases hwait : h.wait = true
      · rw [hwait]
        rfl
      · rw [Bool.not_eq_true] at hwait
        rw [hwait]
        rfl
    | ends _ hwrite _ hclosed =>
      rw [hclosed] at hn
      rw [hwrite]
      by_cases howning : h.window.owning = true
      · -- the false undoes the last true
        refine ⟨n + 1, ?_⟩
        rw [replicate_succ, flatten_cons, append_assoc, ← hn, howning]
        rfl
      · rw [Bool.not_eq_true] at howning
        refine ⟨n, ?_⟩
        rw [howning, ← hn]
        rfl

/-- The history of an open window: who owns the setting was settled when it opened, and no frame
since has been the last that it may stay open for. -/
structure History (before : Host) (now_ms : UInt64) (after : List Call) (h : Host) : Prop where
  owning : h.window.owning = !before.wait
  opened_ms : h.window.opened_ms = now_ms
  frames : h.window.frames.toNat = after.countP Call.isFrame
  within : after.countP Call.isFrame < kTimeoutFrames.toNat
  early : ∀ later_ms, .frame later_ms ∈ after → later_ms - now_ms < kTimeoutMs

theorem History.snoc {before : Host} {now_ms : UInt64} {after : List Call} {call : Call}
    (hhistory : History before now_ms after h) (hopen : IsOpen h) (hnot : ¬Opens h call)
    (hlasts : IsOpen (h.step call)) : History before now_ms (after ++ [call]) (h.step call) := by
  cases h.does call with
  | opens _ _ hopens => exact absurd hopens hnot
  | ends _ _ hclosed =>
    rw [IsOpen, hclosed] at hlasts
    cases hlasts
  | quiet _ _ howning hopened hframes hframe =>
    have hcount : (h.step call).window.frames.toNat =
        after.countP Call.isFrame + (if call.isFrame then 1 else 0) ∧
        after.countP Call.isFrame + (if call.isFrame then 1 else 0) < kTimeoutFrames.toNat := by
      rw [hframes, hopen, Bool.true_and]
      have hlow := hhistory.within
      have hsame := hhistory.frames
      cases call with
      | frame later_ms =>
        have hearly := (not_or.mp (hframe later_ms rfl hopen)).1
        rw [UInt32.not_le, UInt32.lt_iff_toNat_lt, UInt32.toNat_add] at hearly
        -- the counter stays far below its wrap
        have hlimit : kTimeoutFrames.toNat = 120 := rfl
        have hframe' : (Call.frame later_ms).isFrame = true := rfl
        rw [if_pos hframe', if_pos hframe', UInt32.toNat_add]
        rw [hlimit] at hlow hearly ⊢
        have hone : (1 : UInt32).toNat = 1 := rfl
        rw [hsame, hone] at hearly ⊢
        omega
      | freeze | unfreeze | shutdown | user => exact ⟨hsame, hlow⟩
    refine ⟨howning.trans hhistory.owning, hopened.trans hhistory.opened_ms, ?_, ?_, ?_⟩
    · rw [countP_append, countP_singleton]
      exact hcount.1
    · rw [countP_append, countP_singleton]
      exact hcount.2
    · intro later_ms hmem
      rcases mem_append.mp hmem with hmem | hmem
      · exact hhistory.early later_ms hmem
      · have hearly := (not_or.mp (hframe later_ms (mem_singleton.mp hmem).symm hopen)).2
        rw [hhistory.opened_ms] at hearly
        exact UInt64.not_le.mp hearly

/-- An open window has its history. -/
theorem open_history {enabled wait : Bool} (calls : List Call)
    (hopen : IsOpen (run Host.step ⟨{ enabled }, wait⟩ calls)) :
    ∃ before now_ms after, calls = before ++ .freeze now_ms :: after ∧
      Episode Host.step ⟨{ enabled }, wait⟩ Opens IsOpen before (.freeze now_ms) after ∧
      History (run Host.step ⟨{ enabled }, wait⟩ before) now_ms after
        (run Host.step ⟨{ enabled }, wait⟩ calls) := by
  have hclosed : ¬IsOpen (⟨{ enabled }, wait⟩ : Host) := Bool.false_ne_true
  obtain ⟨before, first, after, rfl, hepisode⟩ := exists_episode hclosed
    (fun s call hopens => hopens.isOpen) (fun s call hlasts hnot => isOpen_of_step hlasts hnot)
    calls hopen
  obtain ⟨⟨now_ms, rfl⟩, -⟩ := id hepisode.begun
  refine ⟨before, now_ms, after, rfl, hepisode, hepisode.induction ?_ ?_⟩
  · cases Host.does (run Host.step ⟨{ enabled }, wait⟩ before) (.freeze now_ms) with
    | quiet _ _ _ _ _ _ hnot => exact absurd hepisode.begun hnot
    | ends hopen' =>
      rw [hepisode.begun.2.2.2] at hopen'
      cases hopen'
    | opens _ hcall _ _ _ howning hopened hframes =>
      cases hcall
      exact ⟨howning, hopened, by rw [hframes]; rfl, by decide, fun _ hmem => by cases hmem⟩
  · intro l call s hhistory hlasts hnot hnext
    exact hhistory.snoc hlasts hnot hnext

/-- The window undoes what it wrote, and nothing else, and stays open for 119 frames and 5000 ms at
most. -/
theorem capture_undone (enabled wait : Bool) (calls : List Call) :
    let start : Host := ⟨{ enabled }, wait⟩
    let h := run Host.step start calls
    (h.window.owning = true → h.window.is_open = true) ∧
    (∃ n, writes start calls = (replicate n [true, false]).flatten ++
      if h.window.owning then [true] else []) ∧
    (∀ call, (h.decision call).1.write_wait = some false →
      ∃ before now_ms after, calls = before ++ .freeze now_ms :: after ∧
        Episode Host.step start Opens IsOpen before (.freeze now_ms) after ∧
        (run Host.step start before).wait = false) ∧
    (h.window.is_open = true →
      ∃ before now_ms after, calls = before ++ .freeze now_ms :: after ∧
        Episode Host.step start Opens IsOpen before (.freeze now_ms) after ∧
        after.countP Call.isFrame < 120 ∧
        ∀ later_ms, .frame later_ms ∈ after → later_ms - now_ms < 5000) := by
  intro start h
  have howned : Owned start := fun howning => by cases howning
  refine ⟨Episodes.run_induction howned (fun s call hs => hs.step call) calls,
    writes_alternate howned calls, ?_, ?_⟩
  · intro call hwrite
    have howning : IsOpen h ∧ h.window.owning = true := by
      cases h.does call with
      | quiet hnone =>
        rw [hnone] at hwrite
        cases hwrite
      | opens _ _ _ hopening =>
        rw [hopening] at hwrite
        by_cases hwait : h.wait = true
        · rw [if_pos hwait] at hwrite
          cases hwrite
        · rw [if_neg hwait] at hwrite
          cases hwrite
      | ends hopen hending =>
        refine ⟨hopen, ?_⟩
        by_contra hnot
        rw [hending, if_neg hnot] at hwrite
        cases hwrite
    obtain ⟨before, now_ms, after, heq, hepisode, hhistory⟩ := open_history calls howning.1
    refine ⟨before, now_ms, after, heq, hepisode, ?_⟩
    -- whoever had turned the setting on before would own it still
    have hwait := hhistory.owning.symm.trans howning.2
    rwa [Bool.not_eq_true'] at hwait
  · intro hopen
    obtain ⟨before, now_ms, after, heq, hepisode, hhistory⟩ := open_history calls hopen
    exact ⟨before, now_ms, after, heq, hepisode, hhistory.within, hhistory.early⟩

end Runs

end Mcla.PhotoCapture

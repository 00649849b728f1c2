import Mcla.Library.Binary32
import Mcla.Library.Episodes

/-! # The watchdog of a warp

`Watchdog` of `mcla_warp_probe`: while the warper zooms and the time of its camera stands still for
too long, the watchdog ends the zoom, once in an episode.  An episode lasts for as long as the
samples are of one zoom; a pause or a later time of the camera only starts the clock again.
-/
namespace Mcla.WarpWatchdog
open Episodes (run Episode exists_episode)
open List

def kStateCinematicZoom : UInt32 := 20

/-- The time is a single-precision number, given by its bits. -/
structure Sample where
  now_ms : UInt64 := 0
  complete : Bool := false
  (state request camera : UInt32 := 0)
  time_known : Bool := false
  time : UInt32 := 0
  paused : Bool := false

/-- What a tick answers. -/
inductive Verdict where
  | kIdle | kWatching | kFire | kFired
deriving DecidableEq

/-- What a watchdog holds between two ticks. -/
structure Watchdog where
  (active fired : Bool := false)
  (request camera : UInt32 := 0)
  (entered_ms frozen_since_ms : UInt64 := 0)
  max_time : UInt32 := 0

/-- A sample of a zoom. -/
def Sample.watchable (s : Sample) : Bool :=
  s.complete && s.state == kStateCinematicZoom && s.request != 0 && s.camera != 0 &&
    s.time_known && !Binary32.isNan s.time

namespace Watchdog

/-- The clock that a sample leaves: it starts again at a later time and in a pause. -/
def clocked (w : Watchdog) (s : Sample) : Watchdog :=
  let advanced : Watchdog := if Binary32.lt w.max_time s.time then
    { w with max_time := s.time, frozen_since_ms := s.now_ms } else w
  if s.paused then { advanced with frozen_since_ms := s.now_ms } else advanced

/-- `Observe` -/
def observe (w : Watchdog) (s : Sample) (limit_ms : UInt64) : Verdict × Watchdog :=
  if s.watchable = false then (.kIdle, { w with active := false })
  else if w.active = false ∨ s.request ≠ w.request ∨ s.camera ≠ w.camera then
    (.kWatching, ⟨true, false, s.request, s.camera, s.now_ms, s.now_ms, s.time⟩)
  else if w.fired then (.kFired, w)
  else if limit_ms = 0 ∨ s.now_ms < (w.clocked s).frozen_since_ms ∨
      s.now_ms - (w.clocked s).frozen_since_ms < limit_ms then (.kWatching, w.clocked s)
  else (.kFire, { w.clocked s with fired := true })

end Watchdog

/-- A sample, with the limit of that time. -/
structure Call where
  sample : Sample
  limit_ms : UInt64

/-- One tick. -/
def Watchdog.step (w : Watchdog) (c : Call) : Watchdog := (w.observe c.sample c.limit_ms).2

/-- The answers to some samples. -/
def verdicts (w : Watchdog) : List Call → List Verdict
  | [] => []
  | c :: calls => (w.observe c.sample c.limit_ms).1 :: verdicts (w.step c) calls

/-- The sample begins an episode. -/
def Begins (w : Watchdog) (c : Call) : Prop :=
  c.sample.watchable = true ∧
    (w.active = false ∨ c.sample.request ≠ w.request ∨ c.sample.camera ≠ w.camera)

/-- A request is being watched. -/
def Active (w : Watchdog) : Prop := w.active = true

/-- A sample of the same zoom. -/
def SameZoom (first c : Call) : Prop :=
  c.sample.watchable = true ∧ c.sample.request = first.sample.request ∧
    c.sample.camera = first.sample.camera

/-- No pause, and no time of the camera above those before. -/
def Still (before : List Call) (calls : List Call) : Prop :=
  (∀ c ∈ calls, c.sample.paused = false) ∧
    ∃ m ∈ before, ∀ c ∈ calls, Binary32.lt m.sample.time c.sample.time = false

/-! ### One sample -/

namespace Watchdog
variable {w : Watchdog} {c : Call}

theorem clocked_identity (w : Watchdog) (s : Sample) :
    (w.clocked s).active = w.active ∧ (w.clocked s).fired = w.fired ∧
      (w.clocked s).request = w.request ∧ (w.clocked s).camera = w.camera ∧
      (w.clocked s).entered_ms = w.entered_ms := by
  unfold clocked
  by_cases hlater : Binary32.lt w.max_time s.time = true
  · rw [if_pos hlater]
    by_cases hpaused : s.paused = true
    · rw [if_pos hpaused]
      exact ⟨rfl, rfl, rfl, rfl, rfl⟩
    · rw [if_neg hpaused]
      exact ⟨rfl, rfl, rfl, rfl, rfl⟩
  · rw [if_neg hlater]
    by_cases hpaused : s.paused = true
    · rw [if_pos hpaused]
      exact ⟨rfl, rfl, rfl, rfl, rfl⟩
    · rw [if_neg hpaused]
      exact ⟨rfl, rfl, rfl, rfl, rfl⟩

/-- What a sample can do: end an episode, begin one, find that it has fired, or watch on. -/
inductive Does (w : Watchdog) (c : Call) : Prop where
  | idle (hwatch : c.sample.watchable = false)
      (hobserve : w.observe c.sample c.limit_ms = (.kIdle, { w with active := false }))
  | begins (hbegins : Begins w c) (hobserve : w.observe c.sample c.limit_ms =
      (.kWatching, ⟨true, false, c.sample.request, c.sample.camera, c.sample.now_ms,
        c.sample.now_ms, c.sample.time⟩))
  | fired (hwatch : c.sample.watchable = true) (hbegins : ¬Begins w c) (hfired : w.fired = true)
      (hobserve : w.observe c.sample c.limit_ms = (.kFired, w))
  | watching (hwatch : c.sample.watchable = true) (hbegins : ¬Begins w c)
      (hfired : w.fired = false)
      (hobserve : w.observe c.sample c.limit_ms = (.kWatching, w.clocked c.sample))
  | fires (hwatch : c.sample.watchable = true) (hbegins : ¬Begins w c) (hfired : w.fired = false)
      (hlimit : c.limit_ms ≠ 0) (hafter : (w.clocked c.sample).frozen_since_ms ≤ c.sample.now_ms)
      (hlong : c.limit_ms ≤ c.sample.now_ms - (w.clocked c.sample).frozen_since_ms)
      (hobserve : w.observe c.sample c.limit_ms =
        (.kFire, { w.clocked c.sample with fired := true }))

theorem does (w : Watchdog) (c : Call) : w.Does c := by
  by_cases hwatch : c.sample.watchable = false
  · exact .idle hwatch (by rw [observe, if_pos hwatch])
  · have hwatch' : c.sample.watchable = true := by rwa [Bool.not_eq_false] at hwatch
    by_cases hother : w.active = false ∨ c.sample.request ≠ w.request ∨ c.sample.camera ≠ w.camera
    · exact .begins ⟨hwatch', hother⟩ (by rw [observe, if_neg hwatch, if_pos hother])
    · have hbegins : ¬Begins w c := fun hall => hother hall.2
      by_cases hfired : w.fired = true
      · refine .fired hwatch' hbegins hfired ?_
        rw [observe, if_neg hwatch, if_neg hother, if_pos hfired]
      · have hfired' : w.fired = false := by rwa [Bool.not_eq_true] at hfired
        by_cases hshort : c.limit_ms = 0 ∨ c.sample.now_ms < (w.clocked c.sample).frozen_since_ms ∨
            c.sample.now_ms - (w.clocked c.sample).frozen_since_ms < c.limit_ms
        · refine .watching hwatch' hbegins hfired' ?_
          rw [observe, if_neg hwatch, if_neg hother, if_neg hfired, if_pos hshort]
        · obtain ⟨hlimit, hlong⟩ := not_or.mp hshort
          obtain ⟨hafter, hlong⟩ := not_or.mp hlong
          refine .fires hwatch' hbegins hfired' hlimit (UInt64.not_lt.mp hafter)
            (UInt64.not_lt.mp hlong) ?_
          rw [observe, if_neg hwatch, if_neg hother, if_neg hfired, if_neg hshort]

theorem active_of_begins (hbegins : Begins w c) : Active (w.step c) := by
  cases w.does c with
  | idle hwatch =>
    rw [hbegins.1] at hwatch
    cases hwatch
  | begins _ hobserve =>
    rw [step, hobserve]
    rfl
  | fired _ hnot => exact absurd hbegins hnot
  | watching _ hnot => exact absurd hbegins hnot
  | fires _ hnot => exact absurd hbegins hnot

theorem active_of_step (hactive : Active (w.step c)) (hnot : ¬Begins w c) : Active w := by
  cases w.does c with
  | idle _ hobserve =>
    rw [step, hobserve] at hactive
    cases hactive
  | begins hbegins => exact absurd hbegins hnot
  | fired _ _ _ hobserve =>
    rw [step, hobserve] at hactive
    exact hactive
  | watching _ _ _ hobserve =>
    rw [step, hobserve] at hactive
    exact (w.clocked_identity c.sample).1.symm.trans hactive
  | fires _ _ _ _ _ _ hobserve =>
    rw [step, hobserve] at hactive
    exact (w.clocked_identity c.sample).1.symm.trans hactive

end Watchdog

/-! ### Episodes -/

theorem verdicts_snoc (w : Watchdog) (calls : List Call) (c : Call) :
    verdicts w (calls ++ [c]) =
      verdicts w calls ++ [((run Watchdog.step w calls).observe c.sample c.limit_ms).1] := by
  induction calls generalizing w with
  | nil => rfl
  | cons first calls ih => exact congrArg _ (ih _)

/-- The clock of an episode: since when the camera stands still, and the highest time before. -/
structure Clock (calls : List Call) (w : Watchdog) : Prop where
  highest : ∀ c ∈ calls, Binary32.lt w.max_time c.sample.time = false
  known : ∀ c ∈ calls, Binary32.isNan c.sample.time = false
  since : ∃ x f y, calls = x ++ f :: y ∧ w.frozen_since_ms = f.sample.now_ms ∧
    (∀ c ∈ y, c.sample.paused = false) ∧ ∃ m ∈ x ++ [f], w.max_time = m.sample.time

theorem watchable_known {s : Sample} (h : s.watchable = true) : Binary32.isNan s.time = false := by
  rw [Sample.watchable, Bool.and_eq_true] at h
  rw [← Bool.not_eq_true']
  exact h.2

/-- The clock of one sample more. -/
theorem Clock.snoc {calls : List Call} {w : Watchdog} (h : Clock calls w) {c : Call}
    (hwatch : c.sample.watchable = true) : Clock (calls ++ [c]) (w.clocked c.sample) := by
  have hknown := watchable_known hwatch
  have hall : ∀ c' ∈ calls ++ [c], Binary32.isNan c'.sample.time = false := by
    intro c' hmem
    rcases mem_append.mp hmem with hmem | hmem
    · exact h.known c' hmem
    · rw [mem_singleton.mp hmem]
      exact hknown
  by_cases hlater : Binary32.lt w.max_time c.sample.time = true
  · -- the sample itself has the highest time, and the clock starts with it
    have hclocked : (w.clocked c.sample).max_time = c.sample.time ∧
        (w.clocked c.sample).frozen_since_ms = c.sample.now_ms := by
      unfold Watchdog.clocked
      rw [if_pos hlater]
      by_cases hpaused : c.sample.paused = true
      · rw [if_pos hpaused]
        exact ⟨rfl, rfl⟩
      · rw [if_neg hpaused]
        exact ⟨rfl, rfl⟩
    refine ⟨?_, hall, calls, c, [], rfl, hclocked.2, forall_mem_nil _, c,
      mem_append_right _ (mem_singleton_self c), hclocked.1⟩
    intro c' hmem
    rw [hclocked.1]
    rcases mem_append.mp hmem with hmem | hmem
    · exact Binary32.not_lt_of_lt (h.known c' hmem) hlater (h.highest c' hmem)
    · rw [mem_singleton.mp hmem]
      exact Binary32.not_lt_self _
  · have hhighest : ∀ c' ∈ calls ++ [c], Binary32.lt w.max_time c'.sample.time = false := by
      intro c' hmem
      rcases mem_append.mp hmem with hmem | hmem
      · exact h.highest c' hmem
      · rw [mem_singleton.mp hmem]
        rwa [Bool.not_eq_true] at hlater
    obtain ⟨x, f, y, heq, hsince, hrunning, m, hm, hmax⟩ := h.since
    by_cases hpaused : c.sample.paused = true
    · -- a pause starts the clock again, and keeps the highest time
      have hclocked : w.clocked c.sample = { w with frozen_since_ms := c.sample.now_ms } := by
        rw [Watchdog.clocked, if_neg hlater, if_pos hpaused]
      rw [hclocked]
      refine ⟨hhighest, hall, calls, c, [], rfl, rfl, forall_mem_nil _, m, ?_, hmax⟩
      apply mem_append_left
      rw [heq]
      rcases mem_append.mp hm with hm | hm
      · exact mem_append_left _ hm
      · rw [mem_singleton.mp hm]
        exact mem_append_right _ mem_cons_self
    · -- the camera stands still, and the clock runs on
      have hclocked : w.clocked c.sample = w := by
        rw [Watchdog.clocked, if_neg hlater, if_neg hpaused]
      rw [hclocked]
      refine ⟨hhighest, hall, x, f, y ++ [c], ?_, hsince, ?_, m, hm, hmax⟩
      · rw [heq, append_assoc, cons_append]
      · intro c' hmem
        rcases mem_append.mp hmem with hmem | hmem
        · exact hrunning c' hmem
        · rw [mem_singleton.mp hmem]
          rwa [Bool.not_eq_true] at hpaused

/-- The history of an episode, from the state before it. -/
structure History (before : Watchdog) (first : Call) (after : List Call) (w : Watchdog) : Prop where
  reached : w = run Watchdog.step before (first :: after)
  same : ∀ c ∈ first :: after, SameZoom first c
  request : w.request = first.sample.request
  camera : w.camera = first.sample.camera
  fires : (verdicts before (first :: after)).count .kFire = if w.fired then 1 else 0
  clock : w.fired = false → Clock (first :: after) w

theorem not_begins_same {first c : Call} {w : Watchdog} (hwatch : c.sample.watchable = true)
    (hnot : ¬Begins w c) (hrequest : w.request = first.sample.request)
    (hcamera : w.camera = first.sample.camera) : SameZoom first c := by
  by_contra hother
  apply hnot
  refine ⟨hwatch, .inr ?_⟩
  by_contra hsame
  rw [not_or, not_not, not_not] at hsame
  exact hother ⟨hwatch, hsame.1.trans hrequest, hsame.2.trans hcamera⟩

theorem History.snoc {before w : Watchdog} {first c : Call} {after : List Call}
    (h : History before first after w) (hnot : ¬Begins w c) (hnext : Active (w.step c)) :
    History before first (after ++ [c]) (w.step c) := by
  have hsnoc : verdicts before (first :: (after ++ [c])) =
      verdicts before (first :: after) ++ [(w.observe c.sample c.limit_ms).1] := by
    rw [← cons_append, verdicts_snoc, ← h.reached]
  have hreached : w.step c = run Watchdog.step before (first :: (after ++ [c])) := by
    rw [← cons_append, Episodes.run_append, ← h.reached]
    rfl
  have hsame (hwatch : c.sample.watchable = true) :
      ∀ c' ∈ first :: (after ++ [c]), SameZoom first c' := by
    intro c' hmem
    rw [← cons_append, mem_append] at hmem
    rcases hmem with hmem | hmem
    · exact h.same c' hmem
    · rw [mem_singleton.mp hmem]
      exact not_begins_same hwatch hnot h.request h.camera
  obtain ⟨hactive', hfired', hrequest', hcamera', -⟩ := w.clocked_identity c.sample
  cases w.does c with
  | idle _ hobserve =>
    rw [Watchdog.step, hobserve] at hnext
    cases hnext
  -- an episode that goes on is not begun again
  | begins hbegins => exact absurd hbegins hnot
  | fired hwatch _ hfired hobserve =>
    have hstep : w.step c = w := by rw [Watchdog.step, hobserve]
    rw [hstep] at hreached ⊢
    refine ⟨hreached, hsame hwatch, h.request, h.camera, ?_, ?_⟩
    · rw [hsnoc, hobserve, count_append, h.fires]
      rfl
    · rw [hfired]
      intro hnone
      cases hnone
  | watching hwatch _ hfired hobserve =>
    have hstep : w.step c = w.clocked c.sample := by rw [Watchdog.step, hobserve]
    rw [hstep] at hreached ⊢
    refine ⟨hreached, hsame hwatch, hrequest'.trans h.request, hcamera'.trans h.camera, ?_, ?_⟩
    · rw [hsnoc, hobserve, count_append, h.fires, hfired']
      rfl
    · intro _
      exact (h.clock hfired).snoc hwatch
  | fires hwatch _ hfired _ _ _ hobserve =>
    have hstep : w.step c = { w.clocked c.sample with fired := true } := by
      rw [Watchdog.step, hobserve]
    rw [hstep] at hreached ⊢
    refine ⟨hreached, hsame hwatch, hrequest'.trans h.request, hcamera'.trans h.camera, ?_, ?_⟩
    · rw [hsnoc, hobserve, count_append, h.fires, hfired]
      rfl
    · intro hnone
      cases hnone

/-- A watchdog that samples have reached. -/
abbrev reach (calls : List Call) : Watchdog := run Watchdog.step {} calls

theorem history_of_episode {before after : List Call} {first : Call}
    (h : Episode Watchdog.step {} Begins Active before first after) :
    History (reach before) first after (reach (before ++ first :: after)) := by
  have hwatch := h.begun.1
  refine h.induction ?_ ?_
  · cases (reach before).does first with
    | idle hnot =>
      rw [hwatch] at hnot
      cases hnot
    | fired _ hnot => exact absurd h.begun hnot
    | watching _ hnot => exact absurd h.begun hnot
    | fires _ hnot => exact absurd h.begun hnot
    | begins _ hobserve =>
      rw [Watchdog.step, hobserve]
      refine ⟨?_, forall_mem_singleton.mpr ⟨hwatch, rfl, rfl⟩, rfl, rfl, ?_, fun _ => ?_⟩
      · rw [Episodes.run_cons, Episodes.run_nil, Watchdog.step, hobserve]
      · rw [verdicts, hobserve]
        rfl
      · exact ⟨forall_mem_singleton.mpr (Binary32.not_lt_self _),
          forall_mem_singleton.mpr (watchable_known hwatch), [], first, [], rfl, rfl,
          forall_mem_nil _, first, mem_singleton_self first, rfl⟩
  · intro l c s hhistory _ hnot hnext
    exact hhistory.snoc hnot hnext

/-- When the watchdog fires, and what begins and ends an episode. -/
theorem fires_once_still (calls : List Call) :
    (∀ c, ((reach calls).observe c.sample c.limit_ms).1 = .kFire →
      ∃ before first after, calls = before ++ first :: after ∧
        Episode Watchdog.step {} Begins Active before first after ∧
        (∀ c' ∈ first :: (after ++ [c]), SameZoom first c') ∧
        .kFire ∉ verdicts (reach before) (first :: after) ∧
        ∃ x f y, first :: (after ++ [c]) = x ++ f :: y ∧ Still (x ++ [f]) y ∧
          c.limit_ms ≠ 0 ∧ f.sample.now_ms ≤ c.sample.now_ms ∧
          c.limit_ms ≤ c.sample.now_ms - f.sample.now_ms) ∧
    (∀ before first after, calls = before ++ first :: after →
      Episode Watchdog.step {} Begins Active before first after →
      (verdicts (reach before) (first :: after)).count .kFire ≤ 1) ∧
    (∀ c, c.sample.watchable = false → ¬Active ((reach calls).step c)) ∧
    (∀ c, Begins (reach calls) c → ((reach calls).step c).entered_ms = c.sample.now_ms ∧
      ((reach calls).step c).fired = false) ∧
    ∀ c, c.sample.watchable = true → ¬Begins (reach calls) c →
      ((reach calls).step c).entered_ms = (reach calls).entered_ms := by
  have hstart : ¬Active {} := Bool.false_ne_true
  refine ⟨?_, ?_, ?_, ?_, ?_⟩
  · intro c hfire
    cases (reach calls).does c with
    | idle _ hobserve =>
      rw [hobserve] at hfire
      cases hfire
    | begins _ hobserve =>
      rw [hobserve] at hfire
      cases hfire
    | fired _ _ _ hobserve =>
      rw [hobserve] at hfire
      cases hfire
    | watching _ _ _ hobserve =>
      rw [hobserve] at hfire
      cases hfire
    | fires hwatch hnot hfired hlimit hafter hlong =>
      -- an idle watchdog would begin an episode with a sample to watch
      have hactive : Active (reach calls) := by
        by_contra hidle
        exact hnot ⟨hwatch, .inl ((Bool.not_eq_true _).mp hidle)⟩
      obtain ⟨before, first, after, rfl, hepisode⟩ := exists_episode hstart
        (fun _ _ hbegins => Watchdog.active_of_begins hbegins)
        (fun _ _ hnext hnot => Watchdog.active_of_step hnext hnot) calls hactive
      have hhistory := history_of_episode hepisode
      obtain ⟨hhighest, -, x, f, y, heq, hsince, hrunning, m, hm, hmax⟩ :=
        (hhistory.clock hfired).snoc hwatch
      refine ⟨before, first, after, rfl, hepisode, ?_, ?_, x, f, y, ?_, ⟨hrunning, m, hm, ?_⟩,
        hlimit, ?_, ?_⟩
      · intro c' hmem
        rw [← cons_append, mem_append] at hmem
        rcases hmem with hmem | hmem
        · exact hhistory.same c' hmem
        · rw [mem_singleton.mp hmem]
          exact not_begins_same hwatch hnot hhistory.request hhistory.camera
      · -- it has not fired in this episode yet
        rw [← count_eq_zero, hhistory.fires, hfired]
        rfl
      · rw [← heq, cons_append]
      · intro c' hmem
        rw [← hmax]
        apply hhighest
        rw [heq]
        exact mem_append_right _ (mem_cons_of_mem _ hmem)
      · rw [← hsince]
        exact hafter
      · rw [← hsince]
        exact hlong
  · rintro before first after rfl hepisode
    rw [(history_of_episode hepisode).fires]
    split
    · exact le_rfl
    · exact Nat.zero_le 1
  · intro c hwatch hactive
    rw [Active, Watchdog.step, Watchdog.observe, if_pos hwatch] at hactive
    cases hactive
  · intro c hbegins
    cases (reach calls).does c with
    | idle hwatch =>
      rw [hbegins.1] at hwatch
      cases hwatch
    | begins _ hobserve =>
      rw [Watchdog.step, hobserve]
      exact ⟨rfl, rfl⟩
    | fired _ hnot => exact absurd hbegins hnot
    | watching _ hnot => exact absurd hbegins hnot
    | fires _ hnot => exact absurd hbegins hnot
  · intro c hwatch hnot
    have hentered := ((reach calls).clocked_identity c.sample).2.2.2.2
    cases (reach calls).does c with
    | idle hidle =>
      rw [hwatch] at hidle
      cases hidle
    | begins hbegins => exact absurd hbegins hnot
    | fired _ _ _ hobserve => rw [Watchdog.step, hobserve]
    | watching _ _ _ hobserve =>
      rw [Watchdog.step, hobserve]
      exact hentered
    | fires _ _ _ _ _ _ hobserve =>
      rw [Watchdog.step, hobserve]
      exact hentered

/-- A zoom whose camera is at the time 1.0, or at another. -/
def zoom (now_ms : UInt64) (time : UInt32) (paused : Bool) : Call :=
  ⟨{ now_ms, complete := true, state := 20, request := 1, camera := 1, time_known := true, time,
     paused }, 100⟩

/-- A later time of the camera begins no episode, and neither does a pause: once the watchdog has
fired it does not fire for the next stop. -/
theorem later_time_begins_nothing :
    Binary32.lt 0x3F800000 0x40000000 = true ∧
    (reach [zoom 0 0x3F800000 false, zoom 10 0x40000000 false]).entered_ms = 0 ∧
    verdicts {} [zoom 0 0x3F800000 false, zoom 100 0x3F800000 false, zoom 110 0x40000000 false,
      zoom 120 0x40000000 true, zoom 400 0x40000000 false] =
        [.kWatching, .kFire, .kFired, .kFired, .kFired] := by
  decide

end Mcla.WarpWatchdog

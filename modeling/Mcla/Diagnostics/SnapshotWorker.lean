import Mcla.Library.FairRuns

/-! # Requests for a snapshot

`RequestSnapshot` of `mcla_diagnostics` hands a request to the one worker, `WorkerMain`.  A caller
is accepted by the flag `busy`, stores its request under the lock, stores the status `capturing`
and notifies; the worker takes the request under the lock, captures, stores the result as the
status and clears the flag.  Each atomic access and each locked stretch is one move, and the moves
of any number of callers and of the worker mix in any order.  `Stop` is not called: `started` stays
set and `stopping` clear.

The worker does not wait for the caller's status: it may have finished when the caller stores
`capturing`.  `law_iff` says that this is the only thing that goes wrong.
-/
namespace Mcla.SnapshotWorker
open FairRuns List Option

/-- A `std::string`. -/
abbrev Bytes := List UInt8

/-- The status of a snapshot, as a caller reads it. -/
inductive SnapshotStatus where
  | idle | capturing | complete | failed
deriving DecidableEq

/-- What a caller passes to `RequestSnapshot`. -/
structure Request (Ui Trigger : Type) where
  reason : Bytes
  ui : Ui
  trigger : Trigger

/-- How far a call of `RequestSnapshot` is: accepted, its request stored, its status stored. -/
inductive Caller (Ui Trigger : Type) where
  | outside
  | accepted (request : Request Ui Trigger)
  | stored
  | announced

/-- Where `WorkerMain` is.  It tests for a request (`looking`) before it waits and after each
waking; `holding` is between the lock and `Capture`, `published` after the status is stored. -/
inductive Worker (Ui Trigger : Type) where
  | looking
  | waiting
  | holding (request : Request Ui Trigger)
  | capturing
  | captured (ok : Bool)
  | published

/-- The shared variables, where everybody is, and three histories that the code does not keep:
the requests accepted, those `Capture` was called with, and the results published. -/
structure State (ι Ui Trigger : Type) where
  busy : Bool
  requestedReason : Bytes
  requestedUi : Ui
  requestedTrigger : Trigger
  requestPending : Bool
  snapshotStatus : SnapshotStatus
  caller : ι → Caller Ui Trigger
  worker : Worker Ui Trigger
  (accepted captures : List (Request Ui Trigger))
  finished : List Bool

/-- One atomic step of a caller or of the worker. -/
inductive Move (ι Ui Trigger : Type) where
  | accept (i : ι) (request : Request Ui Trigger)
  | refuse (i : ι)
  | store (i : ι)
  | announce (i : ι)
  | notify (i : ι)
  | look
  | wake
  | take (left : Bytes)
  | enter
  | leave (ok : Bool)
  | publish
  | release

/-- The threads of a run. -/
inductive Party (ι : Type) where
  | caller (i : ι)
  | worker

variable {ι Ui Trigger : Type} {s s' : State ι Ui Trigger} {i : ι}

/-- The request that is stored. -/
def State.requested (s : State ι Ui Trigger) : Request Ui Trigger :=
  ⟨s.requestedReason, s.requestedUi, s.requestedTrigger⟩

/-- Only caller `i` moves. -/
def State.moveCaller [DecidableEq ι] (s : State ι Ui Trigger) (i : ι) (c : Caller Ui Trigger) :
    State ι Ui Trigger :=
  { s with caller := Function.update s.caller i c }

/-- How a snapshot ends. -/
def outcome (ok : Bool) : SnapshotStatus := if ok then .complete else .failed

/-- The worker after a notification. -/
def Worker.notified : Worker Ui Trigger → Worker Ui Trigger
  | .waiting => .looking
  | other => other

/-! ### `RequestSnapshot` -/

section Callers
variable [DecidableEq ι]

/-- The exchange on `busy` that takes the request. -/
def accept (i : ι) (request : Request Ui Trigger) (s : State ι Ui Trigger) :
    Option (State ι Ui Trigger) :=
  match s.caller i, s.busy with
  | .outside, false =>
    some { s.moveCaller i (.accepted request) with
      busy := true, accepted := s.accepted ++ [request] }
  | _, _ => none

theorem accept_eq_some {request : Request Ui Trigger} (h : accept i request s = some s') :
    s.caller i = .outside ∧ s.busy = false ∧
      s' = { s.moveCaller i (.accepted request) with
        busy := true, accepted := s.accepted ++ [request] } := by
  unfold accept at h
  split at h
  · rename_i hcaller hbusy
    exact ⟨hcaller, hbusy, (some.inj h).symm⟩
  · cases h

/-- The exchange on `busy` that fails: the call returns at once. -/
def refuse (i : ι) (s : State ι Ui Trigger) : Option (State ι Ui Trigger) :=
  match s.caller i, s.busy with
  | .outside, true => some s
  | _, _ => none

omit [DecidableEq ι] in
theorem refuse_eq_some (h : refuse i s = some s') : s' = s := by
  unfold refuse at h
  split at h
  · exact (some.inj h).symm
  · cases h

/-- The stretch under `request_mutex_`. -/
def store (i : ι) (s : State ι Ui Trigger) : Option (State ι Ui Trigger) :=
  match s.caller i with
  | .accepted request =>
    some { s.moveCaller i .stored with
      requestedReason := request.reason, requestedUi := request.ui,
      requestedTrigger := request.trigger, requestPending := true }
  | _ => none

theorem store_eq_some (h : store i s = some s') :
    ∃ request, s.caller i = .accepted request ∧
      s' = { s.moveCaller i .stored with
        requestedReason := request.reason, requestedUi := request.ui,
        requestedTrigger := request.trigger, requestPending := true } := by
  unfold store at h
  split at h
  · rename_i request hcaller
    exact ⟨request, hcaller, (some.inj h).symm⟩
  · cases h

/-- The store of the status. -/
def announce (i : ι) (s : State ι Ui Trigger) : Option (State ι Ui Trigger) :=
  match s.caller i with
  | .stored => some { s.moveCaller i .announced with snapshotStatus := .capturing }
  | _ => none

theorem announce_eq_some (h : announce i s = some s') :
    s.caller i = .stored ∧
      s' = { s.moveCaller i .announced with snapshotStatus := .capturing } := by
  unfold announce at h
  split at h
  · rename_i hcaller
    exact ⟨hcaller, (some.inj h).symm⟩
  · cases h

/-- `notify_one`, and the return. -/
def notify (i : ι) (s : State ι Ui Trigger) : Option (State ι Ui Trigger) :=
  match s.caller i with
  | .announced => some { s.moveCaller i .outside with worker := s.worker.notified }
  | _ => none

theorem notify_eq_some (h : notify i s = some s') :
    s.caller i = .announced ∧
      s' = { s.moveCaller i .outside with worker := s.worker.notified } := by
  unfold notify at h
  split at h
  · rename_i hcaller
    exact ⟨hcaller, (some.inj h).symm⟩
  · cases h

end Callers

/-! ### `WorkerMain` -/

/-- The test for a request, where there is none: the worker waits and gives the lock back. -/
def look (s : State ι Ui Trigger) : Option (State ι Ui Trigger) :=
  match s.worker, s.requestPending with
  | .looking, false => some { s with worker := .waiting }
  | _, _ => none

theorem look_eq_some (h : look s = some s') :
    s.worker = .looking ∧ s.requestPending = false ∧ s' = { s with worker := .waiting } := by
  unfold look at h
  split at h
  · rename_i hworker hpending
    exact ⟨hworker, hpending, (some.inj h).symm⟩
  · cases h

/-- A waiting thread may wake without a notification. -/
def wake (s : State ι Ui Trigger) : Option (State ι Ui Trigger) :=
  match s.worker with
  | .waiting => some { s with worker := .looking }
  | _ => none

theorem wake_eq_some (h : wake s = some s') :
    s.worker = .waiting ∧ s' = { s with worker := .looking } := by
  unfold wake at h
  split at h
  · rename_i hworker
    exact ⟨hworker, (some.inj h).symm⟩
  · cases h

/-- The test for a request, where there is one, and the rest of the stretch under the lock.  What
a string holds that was moved from is not said. -/
def take [Inhabited Trigger] (left : Bytes) (s : State ι Ui Trigger) : Option (State ι Ui Trigger) :=
  match s.worker, s.requestPending with
  | .looking, true =>
    some { s with
      worker := .holding s.requested, requestedReason := left, requestedTrigger := default,
      requestPending := false }
  | _, _ => none

theorem take_eq_some [Inhabited Trigger] {left : Bytes} (h : take left s = some s') :
    s.worker = .looking ∧ s.requestPending = true ∧
      s' = { s with
        worker := .holding s.requested, requestedReason := left, requestedTrigger := default,
        requestPending := false } := by
  unfold take at h
  split at h
  · rename_i hworker hpending
    exact ⟨hworker, hpending, (some.inj h).symm⟩
  · cases h

/-- The call of `Capture`. -/
def enter (s : State ι Ui Trigger) : Option (State ι Ui Trigger) :=
  match s.worker with
  | .holding request => some { s with worker := .capturing, captures := s.captures ++ [request] }
  | _ => none

theorem enter_eq_some (h : enter s = some s') :
    ∃ request, s.worker = .holding request ∧
      s' = { s with worker := .capturing, captures := s.captures ++ [request] } := by
  unfold enter at h
  split at h
  · rename_i request hworker
    exact ⟨request, hworker, (some.inj h).symm⟩
  · cases h

/-- The return of `Capture`; one that throws has not captured. -/
def leave (ok : Bool) (s : State ι Ui Trigger) : Option (State ι Ui Trigger) :=
  match s.worker with
  | .capturing => some { s with worker := .captured ok }
  | _ => none

theorem leave_eq_some {ok : Bool} (h : leave ok s = some s') :
    s.worker = .capturing ∧ s' = { s with worker := .captured ok } := by
  unfold leave at h
  split at h
  · rename_i hworker
    exact ⟨hworker, (some.inj h).symm⟩
  · cases h

/-- The store of the result. -/
def publish (s : State ι Ui Trigger) : Option (State ι Ui Trigger) :=
  match s.worker with
  | .captured ok =>
    some { s with
      worker := .published, snapshotStatus := outcome ok, finished := s.finished ++ [ok] }
  | _ => none

theorem publish_eq_some (h : publish s = some s') :
    ∃ ok, s.worker = .captured ok ∧
      s' = { s with
        worker := .published, snapshotStatus := outcome ok, finished := s.finished ++ [ok] } := by
  unfold publish at h
  split at h
  · rename_i ok hworker
    exact ⟨ok, hworker, (some.inj h).symm⟩
  · cases h

/-- The store to `busy`; then the worker looks for the next request. -/
def release (s : State ι Ui Trigger) : Option (State ι Ui Trigger) :=
  match s.worker with
  | .published => some { s with worker := .looking, busy := false }
  | _ => none

theorem release_eq_some (h : release s = some s') :
    s.worker = .published ∧ s' = { s with worker := .looking, busy := false } := by
  unfold release at h
  split at h
  · rename_i hworker
    exact ⟨hworker, (some.inj h).symm⟩
  · cases h

/-! ### The phases of a request -/

/-- The worker is at the test for a request, or waits in it. -/
def Waits (s : State ι Ui Trigger) : Prop := s.worker = .looking ∨ s.worker = .waiting

/-- No caller stands between being accepted and storing its request. -/
def Quiet (s : State ι Ui Trigger) : Prop := ∀ i request, s.caller i ≠ .accepted request

/-- Where the request is that `busy` stands for: with its caller, stored, with the worker, in
`Capture`, or published.  A stored request that the worker waits for has a caller that is still to
notify. -/
inductive Phase (s : State ι Ui Trigger) : Prop where
  | idle (busy : s.busy = false) (pending : s.requestPending = false) (waits : Waits s)
      (quiet : Quiet s) (caught : s.captures = s.accepted)
      (results : s.finished.length = s.captures.length)
  | called (i : ι) (request : Request Ui Trigger) (busy : s.busy = true)
      (pending : s.requestPending = false) (waits : Waits s)
      (caller : s.caller i = .accepted request)
      (only : ∀ j other, s.caller j = .accepted other → j = i)
      (owed : s.accepted = s.captures ++ [request])
      (results : s.finished.length = s.captures.length)
  | stored (busy : s.busy = true) (pending : s.requestPending = true) (waits : Waits s)
      (quiet : Quiet s) (owed : s.accepted = s.captures ++ [s.requested])
      (results : s.finished.length = s.captures.length)
      (woken : s.worker = .waiting → ∃ i, s.caller i = .stored ∨ s.caller i = .announced)
  | held (request : Request Ui Trigger) (busy : s.busy = true) (pending : s.requestPending = false)
      (worker : s.worker = .holding request) (quiet : Quiet s)
      (owed : s.accepted = s.captures ++ [request])
      (results : s.finished.length = s.captures.length)
  | inside (busy : s.busy = true) (pending : s.requestPending = false)
      (worker : s.worker = .capturing ∨ ∃ ok, s.worker = .captured ok) (quiet : Quiet s)
      (caught : s.captures = s.accepted) (results : s.finished.length + 1 = s.captures.length)
  | published (busy : s.busy = true) (pending : s.requestPending = false)
      (worker : s.worker = .published) (quiet : Quiet s) (caught : s.captures = s.accepted)
      (results : s.finished.length = s.captures.length)

/-- What a move leaves alone that is no step of a request. -/
structure Aside (s s' : State ι Ui Trigger) : Prop where
  busy : s'.busy = s.busy
  pending : s'.requestPending = s.requestPending
  requested : s'.requested = s.requested
  accepted : s'.accepted = s.accepted
  captures : s'.captures = s.captures
  finished : s'.finished = s.finished
  caller : ∀ j request, s'.caller j = .accepted request ↔ s.caller j = .accepted request
  worker : s'.worker = s.worker ∨ Waits s ∧ Waits s'
  woken : s.requestPending = true → s'.worker = .waiting →
    ∃ i, s'.caller i = .stored ∨ s'.caller i = .announced

theorem Phase.aside (hphase : Phase s) (h : Aside s s') : Phase s' := by
  have hwaits (hw : Waits s) : Waits s' := by
    rcases h.worker with hsame | ⟨-, hw'⟩
    · unfold Waits
      rw [hsame]
      exact hw
    · exact hw'
  have hquiet (hq : Quiet s) : Quiet s' :=
    fun j request hj => hq j request ((h.caller j request).mp hj)
  have hsame (hw : ¬ Waits s) : s'.worker = s.worker := by
    rcases h.worker with hsame | ⟨hw', -⟩
    · exact hsame
    · exact absurd hw' hw
  have hcaught (hc : s.captures = s.accepted) : s'.captures = s'.accepted := by
    rw [h.captures, h.accepted]
    exact hc
  have hresults (hr : s.finished.length = s.captures.length) :
      s'.finished.length = s'.captures.length := by
    rw [h.finished, h.captures]
    exact hr
  have howed {request} (ho : s.accepted = s.captures ++ [request]) :
      s'.accepted = s'.captures ++ [request] := by
    rw [h.captures, h.accepted]
    exact ho
  cases hphase with
  | idle busy pending waits quiet caught results =>
    exact .idle (h.busy.trans busy) (h.pending.trans pending) (hwaits waits) (hquiet quiet)
      (hcaught caught) (hresults results)
  | called i request busy pending waits caller only owed results =>
    exact .called i request (h.busy.trans busy) (h.pending.trans pending) (hwaits waits)
      ((h.caller i request).mpr caller) (fun j other hj => only j other ((h.caller j other).mp hj))
      (howed owed) (hresults results)
  | stored busy pending waits quiet owed results woken =>
    refine .stored (h.busy.trans busy) (h.pending.trans pending) (hwaits waits) (hquiet quiet) ?_
      (hresults results) (h.woken pending)
    rw [h.requested]
    exact howed owed
  | held request busy pending worker quiet owed results =>
    have hnot : ¬ Waits s := by simp [Waits, worker]
    exact .held request (h.busy.trans busy) (h.pending.trans pending) ((hsame hnot).trans worker)
      (hquiet quiet) (howed owed) (hresults results)
  | inside busy pending worker quiet caught results =>
    have hnot : ¬ Waits s := by
      rcases worker with hw | ⟨ok, hw⟩
      all_goals simp [Waits, hw]
    refine .inside (h.busy.trans busy) (h.pending.trans pending) ?_ (hquiet quiet)
      (hcaught caught) ?_
    · rw [hsame hnot]
      exact worker
    · rw [h.finished, h.captures]
      exact results
  | published busy pending worker quiet caught results =>
    have hnot : ¬ Waits s := by simp [Waits, worker]
    exact .published (h.busy.trans busy) (h.pending.trans pending) ((hsame hnot).trans worker)
      (hquiet quiet) (hcaught caught) (hresults results)

/-- The stored request that a worker may wait for has a caller still to notify. -/
theorem Phase.woken (h : Phase s) (hpending : s.requestPending = true)
    (hworker : s.worker = .waiting) : ∃ i, s.caller i = .stored ∨ s.caller i = .announced := by
  cases h with
  | stored busy pending waits quiet owed results woken => exact woken hworker
  | idle busy pending => simp [pending] at hpending
  | called i request busy pending => simp [pending] at hpending
  | held request busy pending => simp [pending] at hpending
  | inside busy pending => simp [pending] at hpending
  | published busy pending => simp [pending] at hpending

/-- Past the test for a request, the phase is read off the place of the worker. -/
theorem Phase.not_waits (h : Phase s) (hworker : ¬ Waits s) :
    s.busy = true ∧ s.requestPending = false ∧ Quiet s := by
  cases h with
  | held request busy pending worker quiet => exact ⟨busy, pending, quiet⟩
  | inside busy pending worker quiet => exact ⟨busy, pending, quiet⟩
  | published busy pending worker quiet => exact ⟨busy, pending, quiet⟩
  | idle busy pending waits => exact absurd waits hworker
  | called i request busy pending waits => exact absurd waits hworker
  | stored busy pending waits => exact absurd waits hworker

theorem Phase.busy_of_pending (h : Phase s) (hpending : s.requestPending = true) :
    s.busy = true := by
  cases h with
  | idle busy pending => simp [pending] at hpending
  | called i request busy => exact busy
  | stored busy => exact busy
  | held request busy => exact busy
  | inside busy => exact busy
  | published busy => exact busy

theorem Phase.waits_of_pending (h : Phase s) (hpending : s.requestPending = true) : Waits s := by
  by_contra hworker
  obtain ⟨-, hnone, -⟩ := h.not_waits hworker
  simp [hnone] at hpending

theorem Phase.busy_of_accepted (h : Phase s) {request : Request Ui Trigger}
    (hcaller : s.caller i = .accepted request) : s.busy = true := by
  cases h with
  | idle busy pending waits quiet => exact absurd hcaller (quiet i request)
  | called i request busy => exact busy
  | stored busy => exact busy
  | held request busy => exact busy
  | inside busy => exact busy
  | published busy => exact busy

theorem Phase.owed (h : Phase s) {request : Request Ui Trigger}
    (hworker : s.worker = .holding request) : s.accepted = s.captures ++ [request] := by
  cases h with
  | held other busy pending worker quiet owed results =>
    obtain rfl := Worker.holding.inj (worker.symm.trans hworker)
    exact owed
  | _ => simp_all [Waits]

/-! ### Every move keeps the phases -/

section Callers
variable [DecidableEq ι]

theorem caller_moveCaller (s : State ι Ui Trigger) (i j : ι) (c : Caller Ui Trigger) :
    (s.moveCaller i c).caller j = if j = i then c else s.caller j :=
  Function.update_apply ..

/-- A caller that goes on after its request is stored is between the same two points. -/
theorem accepted_moveCaller {c : Caller Ui Trigger} (hc : ∀ request, c ≠ .accepted request)
    (hcaller : ∀ request, s.caller i ≠ .accepted request) (j : ι) (request : Request Ui Trigger) :
    (s.moveCaller i c).caller j = .accepted request ↔ s.caller j = .accepted request := by
  rw [caller_moveCaller]
  by_cases hj : j = i
  · subst hj
    rw [if_pos rfl]
    exact ⟨fun h => absurd h (hc request), fun h => absurd h (hcaller request)⟩
  · rw [if_neg hj]

theorem accept_phase {request : Request Ui Trigger} (h : Phase s)
    (hstep : accept i request s = some s') : Phase s' := by
  obtain ⟨hcaller, hbusy, rfl⟩ := accept_eq_some hstep
  cases h with
  | idle busy pending waits quiet caught results =>
    refine .called i request rfl pending waits ?_ ?_ ?_ results
    · exact (caller_moveCaller s i i _).trans (if_pos rfl)
    · intro j other hj
      by_contra hne
      have hold := caller_moveCaller s i j (.accepted request)
      rw [if_neg hne] at hold
      exact quiet j other (hold.symm.trans hj)
    · show s.accepted ++ [request] = s.captures ++ [request]
      rw [caught]
  | called i request busy => simp [busy] at hbusy
  | stored busy => simp [busy] at hbusy
  | held request busy => simp [busy] at hbusy
  | inside busy => simp [busy] at hbusy
  | published busy => simp [busy] at hbusy

theorem store_phase (h : Phase s) (hstep : store i s = some s') : Phase s' := by
  obtain ⟨request, hcaller, rfl⟩ := store_eq_some hstep
  cases h with
  | called j owner busy pending waits caller only owed results =>
    obtain rfl := only i request hcaller
    obtain rfl := Caller.accepted.inj (caller.symm.trans hcaller)
    have hquiet : Quiet (s.moveCaller i .stored) := by
      intro j other hj
      rw [caller_moveCaller] at hj
      split at hj
      · cases hj
      · rename_i hne
        exact hne (only j other hj)
    refine .stored busy rfl waits hquiet owed results fun _ => ⟨i, .inl ?_⟩
    exact (caller_moveCaller s i i _).trans (if_pos rfl)
  | idle busy pending waits quiet => exact absurd hcaller (quiet i request)
  | stored busy pending waits quiet => exact absurd hcaller (quiet i request)
  | held other busy pending worker quiet => exact absurd hcaller (quiet i request)
  | inside busy pending worker quiet => exact absurd hcaller (quiet i request)
  | published busy pending worker quiet => exact absurd hcaller (quiet i request)

theorem announce_phase (h : Phase s) (hstep : announce i s = some s') : Phase s' := by
  obtain ⟨hcaller, rfl⟩ := announce_eq_some hstep
  refine h.aside ⟨rfl, rfl, rfl, rfl, rfl, rfl, ?_, .inl rfl, fun _ _ => ⟨i, .inr ?_⟩⟩
  · exact accepted_moveCaller (s := s) (i := i) (c := .announced) (by simp) (by simp [hcaller])
  · exact (caller_moveCaller s i i _).trans (if_pos rfl)

theorem notify_phase (h : Phase s) (hstep : notify i s = some s') : Phase s' := by
  obtain ⟨hcaller, rfl⟩ := notify_eq_some hstep
  refine h.aside ⟨rfl, rfl, rfl, rfl, rfl, rfl, ?_, ?_, fun _ hworker => ?_⟩
  · exact accepted_moveCaller (s := s) (i := i) (c := .outside) (by simp) (by simp [hcaller])
  · cases hw : s.worker with
    | waiting => exact .inr ⟨.inr hw, .inl (by simp [Worker.notified])⟩
    | _ => exact .inl (by simp [Worker.notified])
  · cases hw : s.worker <;> simp [hw, Worker.notified] at hworker

end Callers

theorem look_phase (h : Phase s) (hstep : look s = some s') : Phase s' := by
  obtain ⟨hworker, hpending, rfl⟩ := look_eq_some hstep
  refine h.aside ⟨rfl, rfl, rfl, rfl, rfl, rfl, fun _ _ => .rfl, .inr ⟨.inl hworker, .inr rfl⟩,
    fun hpending' => ?_⟩
  simp [hpending] at hpending'

theorem wake_phase (h : Phase s) (hstep : wake s = some s') : Phase s' := by
  obtain ⟨hworker, rfl⟩ := wake_eq_some hstep
  refine h.aside ⟨rfl, rfl, rfl, rfl, rfl, rfl, fun _ _ => .rfl, .inr ⟨.inr hworker, .inl rfl⟩,
    fun _ hwaiting => ?_⟩
  cases hwaiting

theorem take_phase [Inhabited Trigger] {left : Bytes} (h : Phase s) (hstep : take left s = some s') : Phase s' := by
  obtain ⟨hworker, hpending, rfl⟩ := take_eq_some hstep
  cases h with
  | stored busy pending waits quiet owed results woken =>
    exact .held s.requested busy rfl rfl quiet owed results
  | idle busy pending => simp [pending] at hpending
  | called i request busy pending => simp [pending] at hpending
  | held request busy pending => simp [pending] at hpending
  | inside busy pending => simp [pending] at hpending
  | published busy pending => simp [pending] at hpending

theorem enter_phase (h : Phase s) (hstep : enter s = some s') : Phase s' := by
  obtain ⟨request, hworker, rfl⟩ := enter_eq_some hstep
  obtain ⟨hbusy, hpending, hquiet⟩ := h.not_waits (by simp [Waits, hworker])
  refine .inside hbusy hpending (.inl rfl) hquiet ?_ ?_
  · exact (h.owed hworker).symm
  · cases h with
    | held other busy pending worker quiet owed results =>
      show s.finished.length + 1 = (s.captures ++ [request]).length
      rw [length_append, results]
      rfl
    | _ => simp_all [Waits]

theorem leave_phase {ok : Bool} (h : Phase s) (hstep : leave ok s = some s') : Phase s' := by
  obtain ⟨hworker, rfl⟩ := leave_eq_some hstep
  cases h with
  | inside busy pending worker quiet caught results =>
    exact .inside busy pending (.inr ⟨ok, rfl⟩) quiet caught results
  | _ => simp_all [Waits]

theorem publish_phase (h : Phase s) (hstep : publish s = some s') : Phase s' := by
  obtain ⟨ok, hworker, rfl⟩ := publish_eq_some hstep
  cases h with
  | inside busy pending worker quiet caught results =>
    refine .published busy pending rfl quiet caught ?_
    show (s.finished ++ [ok]).length = s.captures.length
    rw [length_append, length_singleton, results]
  | _ => simp_all [Waits]

theorem release_phase (h : Phase s) (hstep : release s = some s') : Phase s' := by
  obtain ⟨hworker, rfl⟩ := release_eq_some hstep
  cases h with
  | published busy pending worker quiet caught results =>
    exact .idle rfl pending (.inl rfl) quiet caught results
  | _ => simp_all [Waits]

/-! ### The system -/

variable [DecidableEq ι] [Inhabited Trigger]

/-- What each move does, where it can be made. -/
def step : Move ι Ui Trigger → State ι Ui Trigger → Option (State ι Ui Trigger)
  | .accept i request => accept i request
  | .refuse i => refuse i
  | .store i => store i
  | .announce i => announce i
  | .notify i => notify i
  | .look => look
  | .wake => wake
  | .take left => take left
  | .enter => enter
  | .leave ok => leave ok
  | .publish => publish
  | .release => release

/-- Whose a move is.  Nobody has to call, and no wake-up without a notification has to come. -/
def party : Move ι Ui Trigger → Option (Party ι)
  | .accept _ _ | .refuse _ | .wake => none
  | .store i | .announce i | .notify i => some (.caller i)
  | .look | .take _ | .enter | .leave _ | .publish | .release => some .worker

/-- After `Start`. -/
structure Initial (s : State ι Ui Trigger) : Prop where
  busy : s.busy = false
  requestPending : s.requestPending = false
  snapshotStatus : s.snapshotStatus = .idle
  caller : ∀ i, s.caller i = .outside
  worker : s.worker = .looking
  accepted : s.accepted = []
  captures : s.captures = []
  finished : s.finished = []

variable (ι Ui Trigger) in
/-- The runs of the worker and its callers. -/
def system : System (State ι Ui Trigger) (Move ι Ui Trigger) (Party ι) where
  start := Initial
  step := step
  party := party

variable {m : Move ι Ui Trigger}

theorem step_phase (h : Phase s) (hstep : step m s = some s') : Phase s' := by
  cases m with
  | accept i request => exact accept_phase h hstep
  | refuse i => exact refuse_eq_some hstep ▸ h
  | store i => exact store_phase h hstep
  | announce i => exact announce_phase h hstep
  | notify i => exact notify_phase h hstep
  | look => exact look_phase h hstep
  | wake => exact wake_phase h hstep
  | take left => exact take_phase h hstep
  | enter => exact enter_phase h hstep
  | leave ok => exact leave_phase h hstep
  | publish => exact publish_phase h hstep
  | release => exact release_phase h hstep

omit [DecidableEq ι] [Inhabited Trigger] in
theorem Initial.phase (h : Initial s) : Phase s := by
  refine .idle h.busy h.requestPending (.inl h.worker) (fun i request hi => ?_) ?_ ?_
  · rw [h.caller] at hi
    cases hi
  · rw [h.captures, h.accepted]
  · rw [h.captures, h.finished]
    rfl

theorem phase_of_execution (e : Execution (system ι Ui Trigger)) (t : ℕ) : Phase (e.state t) :=
  e.invariant (fun _ => Initial.phase) (fun _ _ _ => step_phase) t

/-! ### An accepted request is captured -/

/-- The worker does nothing to the callers, nor does it accept a request. -/
theorem callers_of_worker (hstep : step m s = some s')
    (hworker : party m = some .worker ∨ m = .wake) :
    s'.accepted = s.accepted ∧ s'.caller = s.caller := by
  cases m with
  | look =>
    obtain ⟨-, -, rfl⟩ := look_eq_some hstep
    exact ⟨rfl, rfl⟩
  | wake =>
    obtain ⟨-, rfl⟩ := wake_eq_some hstep
    exact ⟨rfl, rfl⟩
  | take left =>
    obtain ⟨-, -, rfl⟩ := take_eq_some hstep
    exact ⟨rfl, rfl⟩
  | enter =>
    obtain ⟨request, -, rfl⟩ := enter_eq_some hstep
    exact ⟨rfl, rfl⟩
  | leave ok =>
    obtain ⟨-, rfl⟩ := leave_eq_some hstep
    exact ⟨rfl, rfl⟩
  | publish =>
    obtain ⟨ok, -, rfl⟩ := publish_eq_some hstep
    exact ⟨rfl, rfl⟩
  | release =>
    obtain ⟨-, rfl⟩ := release_eq_some hstep
    exact ⟨rfl, rfl⟩
  | _ => rcases hworker with h | h <;> cases h

/-- While a request is served, none is accepted. -/
theorem accepted_of_busy (hstep : step m s = some s') (hbusy : s.busy = true) :
    s'.accepted = s.accepted := by
  cases m with
  | accept i request =>
    obtain ⟨-, hfree, -⟩ := accept_eq_some hstep
    simp [hbusy] at hfree
  | refuse i => rw [refuse_eq_some hstep]
  | store i =>
    obtain ⟨request, -, rfl⟩ := store_eq_some hstep
    rfl
  | announce i =>
    obtain ⟨-, rfl⟩ := announce_eq_some hstep
    rfl
  | notify i =>
    obtain ⟨-, rfl⟩ := notify_eq_some hstep
    rfl
  | wake => exact (callers_of_worker hstep (.inr rfl)).1
  | look | take | enter | leave | publish | release =>
    exact (callers_of_worker hstep (.inl rfl)).1

/-- Only a caller moves itself, but for the start of a call. -/
theorem caller_of_other (hstep : step m s = some s') (hother : party m ≠ some (.caller i))
    (hinside : s.caller i ≠ .outside) : s'.caller i = s.caller i := by
  have hupdate : ∀ j c, j ≠ i → (s.moveCaller j c).caller i = s.caller i := by
    intro j c hne
    rw [caller_moveCaller, if_neg (Ne.symm hne)]
  have hparty : ∀ j, m = .store j ∨ m = .announce j ∨ m = .notify j → j ≠ i := by
    rintro j hm rfl
    rcases hm with rfl | rfl | rfl
    all_goals exact hother rfl
  cases m with
  | accept j request =>
    obtain ⟨hcaller, -, rfl⟩ := accept_eq_some hstep
    refine hupdate j _ ?_
    rintro rfl
    exact hinside hcaller
  | refuse j => rw [refuse_eq_some hstep]
  | store j =>
    obtain ⟨request, -, rfl⟩ := store_eq_some hstep
    exact hupdate j _ (hparty j (.inl rfl))
  | announce j =>
    obtain ⟨-, rfl⟩ := announce_eq_some hstep
    exact hupdate j _ (hparty j (.inr (.inl rfl)))
  | notify j =>
    obtain ⟨-, rfl⟩ := notify_eq_some hstep
    exact hupdate j _ (hparty j (.inr (.inr rfl)))
  | wake => exact congrFun (callers_of_worker hstep (.inr rfl)).2 i
  | look | take | enter | leave | publish | release =>
    exact congrFun (callers_of_worker hstep (.inl rfl)).2 i

/-- What a caller does next where it is. -/
theorem caller_turn (hstep : step m s = some s') (hparty : party m = some (.caller i)) :
    (∀ request, s.caller i = .accepted request → s'.requestPending = true) ∧
    (s.caller i = .stored → s'.caller i = .announced) ∧
    (s.caller i = .announced → s'.worker ≠ .waiting) := by
  cases m with
  | store j =>
    obtain rfl := Party.caller.inj (some.inj hparty)
    obtain ⟨request, hcaller, rfl⟩ := store_eq_some hstep
    simp [hcaller]
  | announce j =>
    obtain rfl := Party.caller.inj (some.inj hparty)
    obtain ⟨hcaller, rfl⟩ := announce_eq_some hstep
    simp [hcaller, caller_moveCaller]
  | notify j =>
    obtain rfl := Party.caller.inj (some.inj hparty)
    obtain ⟨hcaller, rfl⟩ := notify_eq_some hstep
    cases hw : s.worker <;> simp [hcaller, Worker.notified]
  | _ => cases hparty

/-- Others can do no more to the worker than wake it, and only the worker takes a request. -/
theorem worker_of_other (hstep : step m s = some s') (hother : party m ≠ some .worker) :
    (s'.worker = s.worker ∨ s.worker = .waiting ∧ s'.worker = .looking) ∧
      (s.requestPending = true → s'.requestPending = true) := by
  cases m with
  | accept i request =>
    obtain ⟨-, -, rfl⟩ := accept_eq_some hstep
    exact ⟨.inl rfl, id⟩
  | refuse i =>
    rw [refuse_eq_some hstep]
    exact ⟨.inl rfl, id⟩
  | store i =>
    obtain ⟨request, -, rfl⟩ := store_eq_some hstep
    exact ⟨.inl rfl, fun _ => rfl⟩
  | announce i =>
    obtain ⟨-, rfl⟩ := announce_eq_some hstep
    exact ⟨.inl rfl, id⟩
  | notify i =>
    obtain ⟨-, rfl⟩ := notify_eq_some hstep
    refine ⟨?_, id⟩
    cases hw : s.worker with
    | waiting => exact .inr ⟨rfl, by simp [Worker.notified]⟩
    | _ => exact .inl (by simp [Worker.notified])
  | wake =>
    obtain ⟨hworker, rfl⟩ := wake_eq_some hstep
    exact ⟨.inr ⟨hworker, rfl⟩, id⟩
  | _ => exact absurd rfl hother

/-- What the worker does next where it is. -/
theorem worker_turn (hstep : step m s = some s') (hparty : party m = some .worker) :
    (s.worker = .looking ∧ s.requestPending = true → s'.worker = .holding s.requested ∧
      s'.accepted = s.accepted ∧ s'.captures = s.captures) ∧
    (∀ request, s.worker = .holding request → s'.captures = s.captures ++ [request]) ∧
    s.worker ≠ .waiting := by
  cases m with
  | look =>
    obtain ⟨hworker, hpending, rfl⟩ := look_eq_some hstep
    simp [hworker, hpending]
  | take left =>
    obtain ⟨hworker, hpending, rfl⟩ := take_eq_some hstep
    simp [hworker]
  | enter =>
    obtain ⟨request, hworker, rfl⟩ := enter_eq_some hstep
    simp [hworker]
  | leave ok =>
    obtain ⟨hworker, rfl⟩ := leave_eq_some hstep
    simp [hworker]
  | publish =>
    obtain ⟨ok, hworker, rfl⟩ := publish_eq_some hstep
    simp [hworker]
  | release =>
    obtain ⟨hworker, rfl⟩ := release_eq_some hstep
    simp [hworker]
  | _ => cases hparty

/-- The worker holds a request, and the requests accepted are the ones given. -/
def Held (requests : List (Request Ui Trigger)) (s : State ι Ui Trigger) : Prop :=
  (∃ request, s.worker = .holding request) ∧ s.accepted = requests

/-- The worker looks for a request, and one is stored. -/
def Ready (requests : List (Request Ui Trigger)) (s : State ι Ui Trigger) : Prop :=
  (s.worker = .looking ∧ s.requestPending = true) ∧ s.accepted = requests

/-- The worker waits while a request is stored, and a caller is at the given place. -/
def Asleep (i : ι) (place : Caller Ui Trigger) (requests : List (Request Ui Trigger))
    (s : State ι Ui Trigger) : Prop :=
  (s.worker = .waiting ∧ s.requestPending = true ∧ s.caller i = place) ∧ s.accepted = requests

/-- A caller is accepted and has not stored its request. -/
def Called (i : ι) (requests : List (Request Ui Trigger)) (s : State ι Ui Trigger) : Prop :=
  (∃ request, s.caller i = .accepted request) ∧ s.accepted = requests

/-- A request is stored. -/
def Stored (requests : List (Request Ui Trigger)) (s : State ι Ui Trigger) : Prop :=
  s.requestPending = true ∧ s.accepted = requests

section Captured
variable {e : Execution (system ι Ui Trigger)} {requests : List (Request Ui Trigger)} {t : ℕ}

theorem captured_of_held (hfair : e.Fair) (h : Held requests (e.state t)) :
    ∃ later ≥ t, requests <+: (e.state later).captures := by
  refine e.leads hfair .worker (Held requests) (fun s => requests <+: s.captures) ?_ ?_ h
  · rintro t m s' ⟨⟨request, hworker⟩, haccepted⟩ hstep
    have hphase := phase_of_execution e t
    obtain ⟨hbusy, -, -⟩ := hphase.not_waits (by simp [Waits, hworker])
    by_cases hparty : party m = some .worker
    · refine .inl ?_
      obtain ⟨-, hcapture, -⟩ := worker_turn hstep hparty
      rw [hcapture request hworker, ← haccepted, hphase.owed hworker]
    · refine .inr ⟨⟨⟨request, ?_⟩, (accepted_of_busy hstep hbusy).trans haccepted⟩, hparty⟩
      rcases (worker_of_other hstep hparty).1 with hsame | ⟨hwaiting, -⟩
      · exact hsame.trans hworker
      · rw [hworker] at hwaiting
        cases hwaiting
  · rintro t ⟨⟨request, hworker⟩, -⟩
    refine ⟨.enter, rfl, ?_⟩
    show (enter (e.state t)).isSome = true
    unfold enter
    rw [hworker]
    rfl

theorem captured_of_ready (hfair : e.Fair) (h : Ready requests (e.state t)) :
    ∃ later ≥ t, requests <+: (e.state later).captures := by
  have hheld : ∃ later ≥ t, Held requests (e.state later) := by
    refine e.leads hfair .worker (Ready requests) (Held requests) ?_ ?_ h
    · rintro t m s' ⟨⟨hworker, hpending⟩, haccepted⟩ hstep
      have hbusy := (phase_of_execution e t).busy_of_pending hpending
      have hsame := (accepted_of_busy hstep hbusy).trans haccepted
      by_cases hparty : party m = some .worker
      · obtain ⟨htake, -, -⟩ := worker_turn hstep hparty
        exact .inl ⟨⟨_, (htake ⟨hworker, hpending⟩).1⟩, hsame⟩
      · obtain ⟨hplace, hkept⟩ := worker_of_other hstep hparty
        refine .inr ⟨⟨⟨?_, hkept hpending⟩, hsame⟩, hparty⟩
        rcases hplace with hsame | ⟨-, hlooking⟩
        · exact hsame.trans hworker
        · exact hlooking
    · rintro t ⟨⟨hworker, hpending⟩, -⟩
      refine ⟨.take [], rfl, ?_⟩
      show (take [] (e.state t)).isSome = true
      unfold take
      rw [hworker, hpending]
      rfl
  obtain ⟨now, hnow, hheld⟩ := hheld
  obtain ⟨later, hlater, hcaptured⟩ := captured_of_held hfair hheld
  exact ⟨later, hnow.trans hlater, hcaptured⟩

/-- A sleeping worker stays asleep or is woken; a caller that is still to notify keeps its place
until it moves itself. -/
theorem asleep_step {i : ι} {place : Caller Ui Trigger} {m : Move ι Ui Trigger}
    (hphase : Phase s) (h : Asleep i place requests s) (hstep : step m s = some s') :
    Ready requests s' ∨
      (s'.worker = .waiting ∧ s'.requestPending = true ∧ s'.accepted = requests) := by
  obtain ⟨⟨hworker, hpending, -⟩, haccepted⟩ := h
  have hsame := (accepted_of_busy hstep (hphase.busy_of_pending hpending)).trans haccepted
  by_cases hparty : party m = some .worker
  · exact absurd hworker (worker_turn hstep hparty).2.2
  · obtain ⟨hplace, hkept⟩ := worker_of_other hstep hparty
    rcases hplace with hwaiting | ⟨-, hlooking⟩
    · exact .inr ⟨hwaiting.trans hworker, hkept hpending, hsame⟩
    · exact .inl ⟨⟨hlooking, hkept hpending⟩, hsame⟩

theorem captured_of_announced (hfair : e.Fair) {i : ι}
    (h : Asleep i .announced requests (e.state t)) :
    ∃ later ≥ t, requests <+: (e.state later).captures := by
  have hready : ∃ later ≥ t, Ready requests (e.state later) := by
    refine e.leads hfair (.caller i) (Asleep i .announced requests) (Ready requests) ?_ ?_ h
    · intro t m s' hasleep hstep
      rcases asleep_step (phase_of_execution e t) hasleep hstep with hready | ⟨hw, hp, ha⟩
      · exact .inl hready
      · obtain ⟨⟨hworker, hpending, hcaller⟩, -⟩ := hasleep
        by_cases hparty : party m = some (.caller i)
        · -- The only move of the caller is to notify, and that wakes the worker.
          exact absurd hw ((caller_turn hstep hparty).2.2 hcaller)
        · refine .inr ⟨⟨⟨hw, hp, ?_⟩, ha⟩, hparty⟩
          rw [caller_of_other hstep hparty (by simp [hcaller]), hcaller]
    · rintro t ⟨⟨-, -, hcaller⟩, -⟩
      refine ⟨.notify i, rfl, ?_⟩
      show (notify i (e.state t)).isSome = true
      unfold notify
      rw [hcaller]
      rfl
  obtain ⟨now, hnow, hready⟩ := hready
  obtain ⟨later, hlater, hcaptured⟩ := captured_of_ready hfair hready
  exact ⟨later, hnow.trans hlater, hcaptured⟩

theorem captured_of_storing (hfair : e.Fair) {i : ι} (h : Asleep i .stored requests (e.state t)) :
    ∃ later ≥ t, requests <+: (e.state later).captures := by
  have hnext : ∃ later ≥ t, Ready requests (e.state later) ∨
      Asleep i .announced requests (e.state later) := by
    refine e.leads hfair (.caller i) (Asleep i .stored requests)
      (fun s => Ready requests s ∨ Asleep i .announced requests s) ?_ ?_ h
    · intro t m s' hasleep hstep
      rcases asleep_step (phase_of_execution e t) hasleep hstep with hready | ⟨hw, hp, ha⟩
      · exact .inl (.inl hready)
      · obtain ⟨⟨hworker, hpending, hcaller⟩, -⟩ := hasleep
        by_cases hparty : party m = some (.caller i)
        · exact .inl (.inr ⟨⟨hw, hp, (caller_turn hstep hparty).2.1 hcaller⟩, ha⟩)
        · refine .inr ⟨⟨⟨hw, hp, ?_⟩, ha⟩, hparty⟩
          rw [caller_of_other hstep hparty (by simp [hcaller]), hcaller]
    · rintro t ⟨⟨-, -, hcaller⟩, -⟩
      refine ⟨.announce i, rfl, ?_⟩
      show (announce i (e.state t)).isSome = true
      unfold announce
      rw [hcaller]
      rfl
  obtain ⟨now, hnow, hready | hasleep⟩ := hnext
  · obtain ⟨later, hlater, hcaptured⟩ := captured_of_ready hfair hready
    exact ⟨later, hnow.trans hlater, hcaptured⟩
  · obtain ⟨later, hlater, hcaptured⟩ := captured_of_announced hfair hasleep
    exact ⟨later, hnow.trans hlater, hcaptured⟩

theorem captured_of_stored (hfair : e.Fair) (h : Stored requests (e.state t)) :
    ∃ later ≥ t, requests <+: (e.state later).captures := by
  obtain ⟨hpending, haccepted⟩ := h
  have hphase := phase_of_execution e t
  rcases hphase.waits_of_pending hpending with hlooking | hwaiting
  · exact captured_of_ready hfair ⟨⟨hlooking, hpending⟩, haccepted⟩
  · obtain ⟨i, hstored | hannounced⟩ := hphase.woken hpending hwaiting
    · exact captured_of_storing hfair ⟨⟨hwaiting, hpending, hstored⟩, haccepted⟩
    · exact captured_of_announced hfair ⟨⟨hwaiting, hpending, hannounced⟩, haccepted⟩

theorem captured_of_called (hfair : e.Fair) {i : ι} (h : Called i requests (e.state t)) :
    ∃ later ≥ t, requests <+: (e.state later).captures := by
  have hstored : ∃ later ≥ t, Stored requests (e.state later) := by
    refine e.leads hfair (.caller i) (Called i requests) (Stored requests) ?_ ?_ h
    · rintro t m s' ⟨⟨request, hcaller⟩, haccepted⟩ hstep
      have hbusy := (phase_of_execution e t).busy_of_accepted hcaller
      have hsame := (accepted_of_busy hstep hbusy).trans haccepted
      by_cases hparty : party m = some (.caller i)
      · exact .inl ⟨(caller_turn hstep hparty).1 request hcaller, hsame⟩
      · refine .inr ⟨⟨⟨request, ?_⟩, hsame⟩, hparty⟩
        rw [caller_of_other hstep hparty (by simp [hcaller]), hcaller]
    · rintro t ⟨⟨request, hcaller⟩, -⟩
      refine ⟨.store i, rfl, ?_⟩
      show (store i (e.state t)).isSome = true
      unfold store
      rw [hcaller]
      rfl
  obtain ⟨now, hnow, hstored⟩ := hstored
  obtain ⟨later, hlater, hcaptured⟩ := captured_of_stored hfair hstored
  exact ⟨later, hnow.trans hlater, hcaptured⟩

/-- **No request is lost**: where everybody goes on, what is accepted is captured. -/
theorem eventually_captured (hfair : e.Fair) (t : ℕ) :
    ∃ later ≥ t, (e.state t).accepted <+: (e.state later).captures := by
  have hphase := phase_of_execution e t
  cases hphase with
  | idle busy pending waits quiet caught results =>
    exact ⟨t, le_refl t, caught ▸ prefix_rfl⟩
  | called i request busy pending waits caller only owed results =>
    exact captured_of_called hfair ⟨⟨request, caller⟩, rfl⟩
  | stored busy pending waits quiet owed results woken =>
    exact captured_of_stored hfair ⟨pending, rfl⟩
  | held request busy pending worker quiet owed results =>
    exact captured_of_held hfair ⟨⟨request, worker⟩, rfl⟩
  | inside busy pending worker quiet caught results =>
    exact ⟨t, le_refl t, caught ▸ prefix_rfl⟩
  | published busy pending worker quiet caught results =>
    exact ⟨t, le_refl t, caught ▸ prefix_rfl⟩

end Captured

/-! ### The law -/

/-- The status after some results: that of the last one. -/
def lastResult (finished : List Bool) : SnapshotStatus :=
  match finished.getLast? with
  | none => .idle
  | some ok => outcome ok

theorem lastResult_append (finished : List Bool) (ok : Bool) :
    lastResult (finished ++ [ok]) = outcome ok := by
  unfold lastResult
  rw [getLast?_append, getLast?_singleton, some_or]

theorem lastResult_ne_capturing (finished : List Bool) : lastResult finished ≠ .capturing := by
  unfold lastResult
  split
  · decide
  · rename_i ok _
    cases ok
    all_goals decide

/-- No request is pending or running: every one that was accepted has its result published. -/
def Idle (s : State ι Ui Trigger) : Prop := s.finished.length = s.accepted.length

/-- What callers and worker owe each other in a run. -/
structure SnapshotLaw (e : Execution (system ι Ui Trigger)) : Prop where
  /-- The captures are those of the requests, each with its own content, in order. -/
  own : ∀ t, (e.state t).captures <+: (e.state t).accepted
  /-- No more than one request is not captured yet. -/
  prompt : ∀ t, (e.state t).accepted.length ≤ (e.state t).captures.length + 1
  /-- Every request is captured. -/
  captured : e.Fair → ∀ t, ∃ later ≥ t, (e.state t).accepted <+: (e.state later).captures
  /-- A request is accepted only where none is pending or running. -/
  exclusive : ∀ t i request, e.move t = some (.accept i request) → Idle (e.state t)
  /-- Where none is, the status is the last result. -/
  status : ∀ t, Idle (e.state t) → (e.state t).snapshotStatus = lastResult (e.state t).finished ∧
    (e.state t).snapshotStatus ≠ .capturing

omit [DecidableEq ι] [Inhabited Trigger] in
theorem Phase.captures (h : Phase s) : s.captures <+: s.accepted ∧
    s.accepted.length ≤ s.captures.length + 1 := by
  have hcaught (caught : s.captures = s.accepted) : s.captures <+: s.accepted ∧
      s.accepted.length ≤ s.captures.length + 1 := by
    rw [caught]
    exact ⟨prefix_rfl, Nat.le_succ _⟩
  have howed {request} (owed : s.accepted = s.captures ++ [request]) :
      s.captures <+: s.accepted ∧ s.accepted.length ≤ s.captures.length + 1 := by
    rw [owed, length_append]
    exact ⟨prefix_append .., le_refl _⟩
  cases h with
  | idle busy pending waits quiet caught results => exact hcaught caught
  | called i request busy pending waits caller only owed results => exact howed owed
  | stored busy pending waits quiet owed results woken => exact howed owed
  | held request busy pending worker quiet owed results => exact howed owed
  | inside busy pending worker quiet caught results => exact hcaught caught
  | published busy pending worker quiet caught results => exact hcaught caught

omit [DecidableEq ι] [Inhabited Trigger] in
theorem Phase.idle_of_free (h : Phase s) (hfree : s.busy = false) : Idle s := by
  cases h with
  | idle busy pending waits quiet caught results => exact results.trans (caught ▸ rfl)
  | called i request busy => simp [busy] at hfree
  | stored busy => simp [busy] at hfree
  | held request busy => simp [busy] at hfree
  | inside busy => simp [busy] at hfree
  | published busy => simp [busy] at hfree

/-- Where no request is pending or running, the status is the last result. -/
def Right (s : State ι Ui Trigger) : Prop := Idle s → s.snapshotStatus = lastResult s.finished

theorem step_right (hphase : Phase s) (hannounce : ∀ i, m = .announce i → ¬ Idle s) (h : Right s)
    (hstep : step m s = some s') : Right s' := by
  cases m with
  | accept i request =>
    obtain ⟨-, hfree, rfl⟩ := accept_eq_some hstep
    have hidle : s.finished.length = s.accepted.length := hphase.idle_of_free hfree
    intro hstill
    have hlength : s.finished.length = (s.accepted ++ [request]).length := hstill
    rw [length_append, length_singleton] at hlength
    omega
  | announce i =>
    obtain ⟨-, rfl⟩ := announce_eq_some hstep
    exact fun hidle => absurd hidle (hannounce i rfl)
  | publish =>
    obtain ⟨ok, -, rfl⟩ := publish_eq_some hstep
    exact fun _ => (lastResult_append s.finished ok).symm
  | refuse i => exact refuse_eq_some hstep ▸ h
  | store i =>
    obtain ⟨request, -, rfl⟩ := store_eq_some hstep
    exact h
  | notify i =>
    obtain ⟨-, rfl⟩ := notify_eq_some hstep
    exact h
  | look =>
    obtain ⟨-, -, rfl⟩ := look_eq_some hstep
    exact h
  | wake =>
    obtain ⟨-, rfl⟩ := wake_eq_some hstep
    exact h
  | take left =>
    obtain ⟨-, -, rfl⟩ := take_eq_some hstep
    exact h
  | enter =>
    obtain ⟨request, -, rfl⟩ := enter_eq_some hstep
    exact h
  | leave ok =>
    obtain ⟨-, rfl⟩ := leave_eq_some hstep
    exact h
  | release =>
    obtain ⟨-, rfl⟩ := release_eq_some hstep
    exact h

/-- **When the law holds of a run**: exactly when no caller stores `capturing` where no request is
pending or running. -/
theorem law_iff (e : Execution (system ι Ui Trigger)) : SnapshotLaw e ↔
    ∀ t i, e.move t = some (.announce i) → ¬ Idle (e.state t) := by
  constructor
  · intro hlaw t i hmove hidle
    have hstep := e.next t
    rw [hmove] at hstep
    obtain ⟨-, hnext⟩ := announce_eq_some hstep
    have hstill : Idle (e.state (t + 1)) := by
      rw [hnext]
      exact hidle
    refine (hlaw.status (t + 1) hstill).2 ?_
    rw [hnext]
  · intro hannounce
    have hright : ∀ t, Right (e.state t) := by
      refine e.kept ?_ fun t m hmove hstep hright => ?_
      · intro _
        rw [e.first.snapshotStatus, e.first.finished]
        rfl
      · refine step_right (phase_of_execution e t) ?_ hright hstep
        rintro i rfl
        exact hannounce t i hmove
    refine ⟨fun t => (phase_of_execution e t).captures.1,
      fun t => (phase_of_execution e t).captures.2, eventually_captured, ?_, ?_⟩
    · intro t i request hmove
      have hstep := e.next t
      rw [hmove] at hstep
      exact (phase_of_execution e t).idle_of_free (accept_eq_some hstep).2.1
    · intro t hidle
      have hstatus := hright t hidle
      exact ⟨hstatus, hstatus ▸ lastResult_ne_capturing _⟩

/-- Nothing is requested yet. -/
def started : State Unit Unit Bytes where
  busy := false
  requestedReason := []
  requestedUi := ()
  requestedTrigger := []
  requestPending := false
  snapshotStatus := .idle
  caller _ := .outside
  worker := .looking
  accepted := []
  captures := []
  finished := []

/-- The worker finds the request before the caller goes on, and is done with it when the caller
stores the status. -/
def lateMoves : List (Move Unit Unit Bytes) :=
  [.accept () ⟨[], (), []⟩, .store (), .take [], .enter, .leave true, .publish, .release,
    .announce ()]

/-- The run that these moves begin. -/
def lateRun : Execution (system Unit Unit Bytes) :=
  .ofMoves started ⟨rfl, rfl, rfl, fun _ => rfl, rfl, rfl, rfl, rfl⟩ lateMoves rfl

/-- After the run the worker is free and the status is still `capturing`. -/
theorem lateRun_breaks_law : ¬ SnapshotLaw lateRun := fun hlaw => (hlaw.status 8 rfl).2 rfl

end Mcla.SnapshotWorker

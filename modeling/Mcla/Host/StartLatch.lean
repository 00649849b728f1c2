import Mcla.Library.Episodes

/-! # The start latch

`StartLatch` of `mcla_autostart_input`: a diagnostic run presses START once.  The press is published
by `arm`, acknowledged by the guest's reads while it lasts, and released by the clock; the release
is acknowledged by a read, ahead of a second deadline.  Everything else is a failure, and a failure
stays.
-/
namespace Mcla.StartLatch
open Episodes (run Episode exists_episode)
open List

def kStartButton : UInt16 := 0x0010
def kHoldMilliseconds : UInt64 := 5000
def kNeutralAckMilliseconds : UInt64 := 5000

/-- `std::numeric_limits<uint64_t>::max()` -/
def maxTime : UInt64 := 0xFFFFFFFFFFFFFFFF

/-- How far a start has come. -/
inductive Status where
  | idle | holdingStart | waitingNeutralAck | succeeded | failed
deriving DecidableEq

/-- Why a start failed. -/
inductive Error where
  | none | repeatedArm | clockRollback | deadlineOverflow | missingDownAck | missingNeutralAck
  | cancelled | explicitFailure | counterOverflow
deriving DecidableEq

/-- The counters of a snapshot. -/
inductive Counter where
  | read | poll | downRead | neutralRead
deriving DecidableEq

/-- What the latch holds, and shows. -/
structure Snapshot where
  status : Status := .idle
  error : Error := .none
  (last_ms published_ms release_deadline_ms neutral_ack_deadline_ms released_ms down_ack_ms
    neutral_ack_ms : Option UInt64 := .none)
  (read_count poll_count down_read_count neutral_read_count : UInt64 := 0)

namespace Snapshot

/-- The counter of this name. -/
def count (s : Snapshot) : Counter → UInt64
  | .read => s.read_count
  | .poll => s.poll_count
  | .downRead => s.down_read_count
  | .neutralRead => s.neutral_read_count

/-- A counter of the snapshot is set. -/
def setCount (s : Snapshot) (n : UInt64) : Counter → Snapshot
  | .read => { s with read_count := n }
  | .poll => { s with poll_count := n }
  | .downRead => { s with down_read_count := n }
  | .neutralRead => { s with neutral_read_count := n }

/-- `SetFailure` -/
def setFailure (s : Snapshot) (error : Error) (now_ms : UInt64) : Snapshot :=
  { s with
    released_ms :=
      if s.status = .holdingStart ∧ s.released_ms = none then some now_ms else s.released_ms
    error := if s.error = .none then error else s.error
    status := .failed }

/-- `Observe` -/
def observe (s : Snapshot) (now_ms : UInt64) : Bool × Snapshot :=
  match s.last_ms with
  | some last =>
      if now_ms < last then (false, s.setFailure .clockRollback last)
      else (true, { s with last_ms := some now_ms })
  | none => (true, { s with last_ms := some now_ms })

/-- `Increment` -/
def increment (s : Snapshot) (counter : Counter) (now_ms : UInt64) : Bool × Snapshot :=
  if s.count counter = maxTime then (false, s.setFailure .counterOverflow now_ms)
  else (true, s.setCount (s.count counter + 1) counter)

/-- The deadline has come; while it is looked at there is one. -/
def reached (deadline : Option UInt64) (now_ms : UInt64) : Bool := deadline.any (· ≤ now_ms)

/-- The second half of `Advance`. -/
def expire (s : Snapshot) (now_ms : UInt64) : Snapshot :=
  if s.status = .waitingNeutralAck ∧ reached s.neutral_ack_deadline_ms now_ms then
    s.setFailure .missingNeutralAck now_ms
  else s

/-- `Advance` -/
def advance (s : Snapshot) (now_ms : UInt64) : Snapshot :=
  if s.status = .holdingStart ∧ reached s.release_deadline_ms now_ms then
    if s.down_ack_ms = none then
      setFailure { s with released_ms := some now_ms } .missingDownAck now_ms
    else expire { s with released_ms := some now_ms, status := .waitingNeutralAck } now_ms
  else s.expire now_ms

/-- `Arm` -/
def arm (s : Snapshot) (now_ms : UInt64) : Bool × Snapshot :=
  match s.observe now_ms with
  | (false, s) => (false, s)
  | (true, s) =>
      if s.status ≠ .idle then (false, s.setFailure .repeatedArm now_ms)
      else if maxTime - kHoldMilliseconds - kNeutralAckMilliseconds < now_ms then
        (false, s.setFailure .deadlineOverflow now_ms)
      else
        (true, { s with
          published_ms := some now_ms
          release_deadline_ms := some (now_ms + kHoldMilliseconds)
          neutral_ack_deadline_ms := some (now_ms + kHoldMilliseconds + kNeutralAckMilliseconds)
          status := .holdingStart })

/-- What `Read` returns once the clock has been looked at. -/
def answer (s : Snapshot) (now_ms : UInt64) : UInt16 × Snapshot :=
  if s.status = .holdingStart then
    match s.increment .downRead now_ms with
    | (false, s) => (0, s)
    | (true, s) =>
        (kStartButton, if s.down_ack_ms = none then { s with down_ack_ms := some now_ms } else s)
  else
    match s.increment .neutralRead now_ms with
    | (false, s) => (0, s)
    | (true, s) =>
        if s.status = .waitingNeutralAck then
          (0, { s with neutral_ack_ms := some now_ms, status := .succeeded })
        else (0, s)

/-- `Read` -/
def read (s : Snapshot) (now_ms : UInt64) : UInt16 × Snapshot :=
  match s.observe now_ms with
  | (false, s) => (0, s)
  | (true, s) =>
      match s.increment .read now_ms with
      | (false, s) => (0, s)
      | (true, s) => (s.advance now_ms).answer now_ms

/-- `Poll` -/
def poll (s : Snapshot) (now_ms : UInt64) : Status × Snapshot :=
  match s.observe now_ms with
  | (false, s) => (s.status, s)
  | (true, s) =>
      match s.increment .poll now_ms with
      | (false, s) => (s.status, s)
      | (true, s) => ((s.advance now_ms).status, s.advance now_ms)

/-- `Cancel`, and `Fail` with its error. -/
def failWith (s : Snapshot) (error : Error) (now_ms : UInt64) : Snapshot :=
  match s.observe now_ms with
  | (false, s) => s
  | (true, s) => s.setFailure error now_ms

/-- `Cancel` -/
def cancel (s : Snapshot) (now_ms : UInt64) : Snapshot := s.failWith .cancelled now_ms

/-- `Fail` -/
def fail (s : Snapshot) (now_ms : UInt64) : Snapshot := s.failWith .explicitFailure now_ms

end Snapshot

/-- The calls of a latch. -/
inductive Call where
  | arm (now_ms : UInt64)
  | read (now_ms : UInt64)
  | poll (now_ms : UInt64)
  | cancel (now_ms : UInt64)
  | fail (now_ms : UInt64)

namespace Snapshot

/-- One call. -/
def step (s : Snapshot) : Call → Snapshot
  | .arm now_ms => (s.arm now_ms).2
  | .read now_ms => (s.read now_ms).2
  | .poll now_ms => (s.poll now_ms).2
  | .cancel now_ms => s.cancel now_ms
  | .fail now_ms => s.fail now_ms

end Snapshot

/-! ### A failure stays -/

/-- A failure has an error. -/
def Failed (s : Snapshot) : Prop := s.status = .failed ∧ s.error ≠ .none

/-- A failure after a failure, with the first error. -/
def StaysFailed (s t : Snapshot) : Prop := Failed t ∧ t.error = s.error

theorem StaysFailed.trans {s t u : Snapshot} (h : StaysFailed s t) (h' : StaysFailed t u) :
    StaysFailed s u := ⟨h'.1, h'.2.trans h.2⟩

namespace Snapshot
variable {s : Snapshot}

theorem setFailure_failed (error : Error) (herror : error ≠ .none) (now_ms : UInt64) :
    Failed (s.setFailure error now_ms) := by
  refine ⟨rfl, ?_⟩
  change (if s.error = .none then error else s.error) ≠ .none
  split
  · exact herror
  · assumption

theorem setFailure_of_failed (h : Failed s) (error : Error) (now_ms : UInt64) :
    StaysFailed s (s.setFailure error now_ms) := by
  have hkeeps : (s.setFailure error now_ms).error = s.error := if_neg h.2
  refine ⟨⟨rfl, ?_⟩, hkeeps⟩
  rw [hkeeps]
  exact h.2

/-- What the clock says. -/
theorem observe_cases (s : Snapshot) (now_ms : UInt64) :
    (∃ last, s.observe now_ms = (false, s.setFailure .clockRollback last)) ∨
    (s.observe now_ms = (true, { s with last_ms := some now_ms }) ∧
      ∀ last, s.last_ms = some last → last ≤ now_ms) := by
  unfold observe
  cases s.last_ms with
  | none => exact .inr ⟨rfl, fun _ hlast => by cases hlast⟩
  | some last =>
    by_cases hlast : now_ms < last
    · exact .inl ⟨last, if_pos hlast⟩
    · refine .inr ⟨if_neg hlast, fun _ heq => ?_⟩
      cases heq
      exact UInt64.not_lt.mp hlast

theorem increment_cases (s : Snapshot) (counter : Counter) (now_ms : UInt64) :
    s.increment counter now_ms = (false, s.setFailure .counterOverflow now_ms) ∨
    ∃ n, s.increment counter now_ms = (true, s.setCount n counter) := by
  unfold increment
  split
  · exact .inl rfl
  · exact .inr ⟨_, rfl⟩

@[simp] theorem setCount_status (n : UInt64) (c : Counter) :
    (s.setCount n c).status = s.status := by
  cases c <;> rfl

@[simp] theorem setCount_error (n : UInt64) (c : Counter) : (s.setCount n c).error = s.error := by
  cases c <;> rfl

@[simp] theorem setCount_down_ack_ms (n : UInt64) (c : Counter) :
    (s.setCount n c).down_ack_ms = s.down_ack_ms := by
  cases c <;> rfl

theorem setCount_of_failed (h : Failed s) (n : UInt64) (c : Counter) :
    StaysFailed s (s.setCount n c) :=
  ⟨⟨(setCount_status n c).trans h.1, (setCount_error n c).trans_ne h.2⟩, setCount_error n c⟩

theorem advance_of_failed (h : s.status = .failed) (now_ms : UInt64) : s.advance now_ms = s := by
  rw [advance, if_neg (by simp [h]), expire, if_neg (by simp [h])]

theorem answer_of_failed (h : Failed s) (now_ms : UInt64) : StaysFailed s (s.answer now_ms).2 := by
  rw [answer, if_neg (by simp [h.1])]
  rcases increment_cases s .neutralRead now_ms with hfull | ⟨n, hcount⟩
  · rw [hfull]
    exact setFailure_of_failed h _ _
  · rw [hcount]
    have hstays := setCount_of_failed h n .neutralRead
    simp only [hstays.1.1, reduceCtorEq, if_false]
    exact hstays

/-- **A failure stays, with its first error.** -/
theorem step_of_failed (h : Failed s) (call : Call) : StaysFailed s (s.step call) := by
  have hlast : ∀ now_ms, StaysFailed s { s with last_ms := some now_ms } := fun _ => ⟨h, rfl⟩
  cases call with
  | arm now_ms =>
    change StaysFailed s (s.arm now_ms).2
    unfold arm
    rcases observe_cases s now_ms with ⟨last, hobserve⟩ | ⟨hobserve, -⟩
    · rw [hobserve]
      exact setFailure_of_failed h _ _
    · rw [hobserve]
      have hbusy : ({ s with last_ms := some now_ms } : Snapshot).status ≠ .idle := by
        simp [h.1]
      simp only [hbusy, ne_eq, not_false_eq_true, if_true]
      exact (hlast now_ms).trans (setFailure_of_failed (hlast now_ms).1 _ _)
  | read now_ms =>
    change StaysFailed s (s.read now_ms).2
    unfold read
    rcases observe_cases s now_ms with ⟨last, hobserve⟩ | ⟨hobserve, -⟩
    · rw [hobserve]
      exact setFailure_of_failed h _ _
    · rw [hobserve]
      rcases increment_cases { s with last_ms := some now_ms } .read now_ms with hfull | ⟨n, hcount⟩
      · simp only [hfull]
        exact (hlast now_ms).trans (setFailure_of_failed (hlast now_ms).1 _ _)
      · simp only [hcount]
        have hstays := setCount_of_failed (hlast now_ms).1 n .read
        rw [advance_of_failed hstays.1.1]
        exact ((hlast now_ms).trans hstays).trans (answer_of_failed hstays.1 now_ms)
  | poll now_ms =>
    change StaysFailed s (s.poll now_ms).2
    unfold poll
    rcases observe_cases s now_ms with ⟨last, hobserve⟩ | ⟨hobserve, -⟩
    · rw [hobserve]
      exact setFailure_of_failed h _ _
    · rw [hobserve]
      rcases increment_cases { s with last_ms := some now_ms } .poll now_ms with hfull | ⟨n, hcount⟩
      · simp only [hfull]
        exact (hlast now_ms).trans (setFailure_of_failed (hlast now_ms).1 _ _)
      · simp only [hcount]
        have hstays := setCount_of_failed (hlast now_ms).1 n .poll
        rw [advance_of_failed hstays.1.1]
        exact (hlast now_ms).trans hstays
  | cancel now_ms | fail now_ms =>
    change StaysFailed s (s.failWith _ now_ms)
    unfold failWith
    rcases observe_cases s now_ms with ⟨last, hobserve⟩ | ⟨hobserve, -⟩
    · rw [hobserve]
      exact setFailure_of_failed h _ _
    · rw [hobserve]
      exact (hlast now_ms).trans (setFailure_of_failed (hlast now_ms).1 _ _)

/-! ### What a call does -/

theorem advance_cases (s : Snapshot) (now_ms : UInt64) :
    (s.advance now_ms = s ∧
      (s.status = .holdingStart → reached s.release_deadline_ms now_ms = false) ∧
      (s.status = .waitingNeutralAck → reached s.neutral_ack_deadline_ms now_ms = false)) ∨
    Failed (s.advance now_ms) ∨
    (s.status = .holdingStart ∧ reached s.release_deadline_ms now_ms = true ∧
      reached s.neutral_ack_deadline_ms now_ms = false ∧ s.down_ack_ms ≠ none ∧
      s.advance now_ms = { s with released_ms := some now_ms, status := .waitingNeutralAck }) := by
  unfold advance
  by_cases hrelease : s.status = .holdingStart ∧ reached s.release_deadline_ms now_ms
  · rw [if_pos hrelease]
    by_cases hdown : s.down_ack_ms = none
    · rw [if_pos hdown]
      exact .inr (.inl (setFailure_failed .missingDownAck (by decide) _))
    · rw [if_neg hdown]
      by_cases hneutral : reached s.neutral_ack_deadline_ms now_ms
      · refine .inr (.inl ?_)
        rw [expire, if_pos ⟨rfl, hneutral⟩]
        exact setFailure_failed .missingNeutralAck (by decide) _
      · refine .inr (.inr ⟨hrelease.1, hrelease.2, Bool.eq_false_iff.mpr hneutral, hdown, ?_⟩)
        rw [expire, if_neg (not_and_of_not_right _ hneutral)]
  · rw [if_neg hrelease]
    by_cases hneutral : s.status = .waitingNeutralAck ∧ reached s.neutral_ack_deadline_ms now_ms
    · refine .inr (.inl ?_)
      rw [expire, if_pos hneutral]
      exact setFailure_failed .missingNeutralAck (by decide) _
    · refine .inl ⟨?_, fun h => ?_, fun h => ?_⟩
      · rw [expire, if_neg hneutral]
      · exact Bool.eq_false_iff.mpr fun hreached => hrelease ⟨h, hreached⟩
      · exact Bool.eq_false_iff.mpr fun hreached => hneutral ⟨h, hreached⟩

theorem answer_cases (s : Snapshot) (now_ms : UInt64) :
    (Failed (s.answer now_ms).2 ∧ (s.answer now_ms).1 = 0) ∨
    (s.status = .holdingStart ∧ ∃ n, s.answer now_ms = (kStartButton,
      if s.down_ack_ms = none then { s.setCount n .downRead with down_ack_ms := some now_ms }
      else s.setCount n .downRead)) ∨
    (s.status = .waitingNeutralAck ∧ ∃ n, s.answer now_ms =
      (0, { s.setCount n .neutralRead with
        neutral_ack_ms := some now_ms, status := .succeeded })) ∨
    (s.status ≠ .holdingStart ∧ s.status ≠ .waitingNeutralAck ∧
      ∃ n, s.answer now_ms = (0, s.setCount n .neutralRead)) := by
  unfold answer
  by_cases hholding : s.status = .holdingStart
  · rw [if_pos hholding]
    rcases increment_cases s .downRead now_ms with hfull | ⟨n, hcount⟩
    · rw [hfull]
      exact .inl ⟨setFailure_failed .counterOverflow (by decide) _, rfl⟩
    · rw [hcount]
      refine .inr (.inl ⟨hholding, n, ?_⟩)
      simp only [setCount_down_ack_ms]
  · rw [if_neg hholding]
    rcases increment_cases s .neutralRead now_ms with hfull | ⟨n, hcount⟩
    · rw [hfull]
      exact .inl ⟨setFailure_failed .counterOverflow (by decide) _, rfl⟩
    · rw [hcount]
      by_cases hwaiting : s.status = .waitingNeutralAck
      · refine .inr (.inr (.inl ⟨hwaiting, n, ?_⟩))
        simp only [setCount_status, hwaiting, if_true]
      · refine .inr (.inr (.inr ⟨hholding, hwaiting, n, ?_⟩))
        simp only [setCount_status, hwaiting, if_false]

end Snapshot

/-- The clock of a call. -/
def Call.now_ms : Call → UInt64
  | .arm now_ms | .read now_ms | .poll now_ms | .cancel now_ms | .fail now_ms => now_ms

/-- What every call that does not fail leaves. -/
structure Observed (s t : Snapshot) (now_ms : UInt64) : Prop where
  before : ∀ last, s.last_ms = some last → last ≤ now_ms
  last_ms : t.last_ms = some now_ms
  error : t.error = s.error

/-- The press as it was published. -/
structure SamePress (s t : Snapshot) : Prop where
  release : t.release_deadline_ms = s.release_deadline_ms
  neutral : t.neutral_ack_deadline_ms = s.neutral_ack_deadline_ms

/-- What a call can do to a latch that has not failed. -/
inductive Does (s : Snapshot) (call : Call) : Prop where
  | fails (hfailed : Failed (s.step call))
      (hread : ∀ now_ms, call = .read now_ms → (s.read now_ms).1 = 0)
      (harm : ∀ now_ms, call = .arm now_ms → (s.arm now_ms).1 = false)
  | arms (now_ms : UInt64) (hcall : call = .arm now_ms) (hanswer : (s.arm now_ms).1 = true)
      (hobserved : Observed s (s.step call) now_ms) (hidle : s.status = .idle)
      (hroom : now_ms.toNat + 10000 < 2 ^ 64) (hstatus : (s.step call).status = .holdingStart)
      (hrelease : (s.step call).release_deadline_ms = some (now_ms + kHoldMilliseconds))
      (hneutral : (s.step call).neutral_ack_deadline_ms =
        some (now_ms + kHoldMilliseconds + kNeutralAckMilliseconds))
      (hdown : (s.step call).down_ack_ms = s.down_ack_ms)
  | stays (hobserved : Observed s (s.step call) call.now_ms) (hsame : SamePress s (s.step call))
      (hcall : ∀ now_ms, call ≠ .arm now_ms)
      (hread : ∀ now_ms, call = .read now_ms →
        (s.read now_ms).1 = 0 ∧ s.status ≠ .holdingStart ∧ s.status ≠ .waitingNeutralAck)
      (hstatus : (s.step call).status = s.status)
      (hdown : (s.step call).down_ack_ms = s.down_ack_ms)
      (hneutral_ack : (s.step call).neutral_ack_ms = s.neutral_ack_ms)
  | presses (now_ms : UInt64) (hcall : call = .read now_ms)
      (hanswer : (s.read now_ms).1 = kStartButton)
      (hobserved : Observed s (s.step call) now_ms) (hsame : SamePress s (s.step call))
      (hholding : s.status = .holdingStart) (hstatus : (s.step call).status = .holdingStart)
      (hearly : Snapshot.reached s.release_deadline_ms now_ms = false)
      (hdown : (s.step call).down_ack_ms = s.down_ack_ms.or (some now_ms))
  | releases (now_ms : UInt64) (hcall : call = .poll now_ms)
      (hobserved : Observed s (s.step call) now_ms) (hsame : SamePress s (s.step call))
      (hholding : s.status = .holdingStart) (hstatus : (s.step call).status = .waitingNeutralAck)
      (hrelease : Snapshot.reached s.release_deadline_ms now_ms = true)
      (hacked : s.down_ack_ms ≠ none) (hdown : (s.step call).down_ack_ms = s.down_ack_ms)
  | acknowledges (now_ms : UInt64) (hcall : call = .read now_ms) (hanswer : (s.read now_ms).1 = 0)
      (hobserved : Observed s (s.step call) now_ms) (hsame : SamePress s (s.step call))
      (hwas : (s.status = .holdingStart ∧ Snapshot.reached s.release_deadline_ms now_ms = true ∧
        s.down_ack_ms ≠ none) ∨ s.status = .waitingNeutralAck)
      (hstatus : (s.step call).status = .succeeded)
      (hintime : Snapshot.reached s.neutral_ack_deadline_ms now_ms = false)
      (hdown : (s.step call).down_ack_ms = s.down_ack_ms)
      (hneutral_ack : (s.step call).neutral_ack_ms = some now_ms)

theorem does_arm (s : Snapshot) (now_ms : UInt64) : Does s (.arm now_ms) := by
  have hread : ∀ later, Call.arm now_ms = .read later → (s.read later).1 = 0 := by
    intro later heq
    cases heq
  -- a call that is refused has failed
  have hfails : ∀ t, s.arm now_ms = (false, t) → Failed t → Does s (.arm now_ms) := by
    intro t heq hfailed
    refine .fails ?_ hread fun later hcall => ?_
    · change Failed (s.arm now_ms).2
      rw [heq]
      exact hfailed
    · cases hcall
      rw [heq]
  rcases s.observe_cases now_ms with ⟨last, hobserve⟩ | ⟨hobserve, hbefore⟩
  · refine hfails (s.setFailure .clockRollback last) ?_
      (Snapshot.setFailure_failed .clockRollback (by decide) last)
    rw [Snapshot.arm, hobserve]
  · by_cases hidle : s.status = .idle
    · by_cases hroom : maxTime - kHoldMilliseconds - kNeutralAckMilliseconds < now_ms
      · refine hfails
          (Snapshot.setFailure { s with last_ms := some now_ms } .deadlineOverflow now_ms) ?_
          (Snapshot.setFailure_failed .deadlineOverflow (by decide) now_ms)
        rw [Snapshot.arm, hobserve]
        simp only [hidle, ne_eq, not_true_eq_false, if_false, hroom, if_true]
      · have harm : s.arm now_ms = (true, { s with
            last_ms := some now_ms
            published_ms := some now_ms
            release_deadline_ms := some (now_ms + kHoldMilliseconds)
            neutral_ack_deadline_ms := some (now_ms + kHoldMilliseconds + kNeutralAckMilliseconds)
            status := .holdingStart }) := by
          rw [Snapshot.arm, hobserve]
          simp only [hidle, ne_eq, not_true_eq_false, if_false, hroom]
        have hstep : s.step (.arm now_ms) = _ := congrArg Prod.snd harm
        refine .arms now_ms rfl (congrArg Prod.fst harm) ?_ hidle ?_ ?_ ?_ ?_ ?_
        · rw [hstep]
          exact ⟨hbefore, rfl, rfl⟩
        · rw [UInt64.not_lt, UInt64.le_iff_toNat_le] at hroom
          have hlimit : (maxTime - kHoldMilliseconds - kNeutralAckMilliseconds).toNat =
              2 ^ 64 - 1 - 10000 := by decide
          omega
        all_goals rw [hstep]
    · refine hfails (Snapshot.setFailure { s with last_ms := some now_ms } .repeatedArm now_ms) ?_
        (Snapshot.setFailure_failed .repeatedArm (by decide) now_ms)
      rw [Snapshot.arm, hobserve]
      simp only [hidle, ne_eq, not_false_eq_true, if_true]

theorem does_poll (s : Snapshot) (now_ms : UInt64) : Does s (.poll now_ms) := by
  have hfails : Failed (s.poll now_ms).2 → Does s (.poll now_ms) := by
    intro hfailed
    refine .fails hfailed (fun later heq => ?_) fun later heq => ?_
    · cases heq
    · cases heq
  rcases s.observe_cases now_ms with ⟨last, hobserve⟩ | ⟨hobserve, hbefore⟩
  · apply hfails
    rw [Snapshot.poll, hobserve]
    exact Snapshot.setFailure_failed .clockRollback (by decide) last
  · rcases Snapshot.increment_cases { s with last_ms := some now_ms } .poll now_ms with
      hfull | ⟨n, hcount⟩
    · apply hfails
      rw [Snapshot.poll, hobserve]
      simp only [hfull]
      exact Snapshot.setFailure_failed .counterOverflow (by decide) now_ms
    · have hstep : s.step (.poll now_ms) =
          ({ s with last_ms := some now_ms }.setCount n .poll).advance now_ms := by
        change (s.poll now_ms).2 = _
        rw [Snapshot.poll, hobserve]
        simp only [hcount]
      rcases Snapshot.advance_cases ({ s with last_ms := some now_ms }.setCount n .poll) now_ms with
        ⟨hadvance, -, -⟩ | hfailed | ⟨hholding, hrelease, -, hacked, hadvance⟩
      · rw [hadvance] at hstep
        refine .stays ?_ ?_ (fun later heq => ?_) (fun later heq => ?_) ?_ ?_ ?_
        · rw [hstep]
          exact ⟨hbefore, rfl, rfl⟩
        · rw [hstep]
          exact ⟨rfl, rfl⟩
        · cases heq
        · cases heq
        · rw [hstep]
          rfl
        · rw [hstep]
          rfl
        · rw [hstep]
          rfl
      · apply hfails
        change Failed (s.step (.poll now_ms))
        rw [hstep]
        exact hfailed
      · rw [hadvance] at hstep
        refine .releases now_ms rfl ?_ ?_ hholding ?_ hrelease hacked ?_
        · rw [hstep]
          exact ⟨hbefore, rfl, rfl⟩
        · rw [hstep]
          exact ⟨rfl, rfl⟩
        · rw [hstep]
        · rw [hstep]
          rfl

theorem does_read (s : Snapshot) (now_ms : UInt64) : Does s (.read now_ms) := by
  have hfails : Failed (s.read now_ms).2 → (s.read now_ms).1 = 0 → Does s (.read now_ms) := by
    intro hfailed hanswer
    refine .fails hfailed (fun later heq => ?_) fun later heq => ?_
    · cases heq
      exact hanswer
    · cases heq
  rcases s.observe_cases now_ms with ⟨last, hobserve⟩ | ⟨hobserve, hbefore⟩
  · have hread : s.read now_ms = (0, s.setFailure .clockRollback last) := by
      rw [Snapshot.read, hobserve]
    apply hfails
    · rw [hread]
      exact Snapshot.setFailure_failed .clockRollback (by decide) last
    · rw [hread]
  · rcases Snapshot.increment_cases { s with last_ms := some now_ms } .read now_ms with
      hfull | ⟨n, hcount⟩
    · have hread : s.read now_ms =
          (0, Snapshot.setFailure { s with last_ms := some now_ms } .counterOverflow now_ms) := by
        rw [Snapshot.read, hobserve]
        simp only [hfull]
      apply hfails
      · rw [hread]
        exact Snapshot.setFailure_failed .counterOverflow (by decide) now_ms
      · rw [hread]
    · have hread : s.read now_ms =
          (({ s with last_ms := some now_ms }.setCount n .read).advance now_ms).answer now_ms := by
        rw [Snapshot.read, hobserve]
        simp only [hcount]
      have hstep : s.step (.read now_ms) = (s.read now_ms).2 := rfl
      rcases Snapshot.advance_cases ({ s with last_ms := some now_ms }.setCount n .read) now_ms with
        ⟨hadvance, hearly, hintime⟩ | hfailed | ⟨hholding, hrelease, hintime, hacked, hadvance⟩
      · -- the clock changes nothing
        rw [hadvance] at hread
        rcases Snapshot.answer_cases ({ s with last_ms := some now_ms }.setCount n .read) now_ms
          with ⟨hfailed, hzero⟩ | ⟨hholding, m, hanswer⟩ | ⟨hwaiting, m, hanswer⟩ |
          ⟨hholding, hwaiting, m, hanswer⟩
        · exact hfails (hread ▸ hfailed) (hread ▸ hzero)
        · rw [hanswer] at hread
          rw [hread] at hstep
          refine .presses now_ms rfl (by rw [hread]) ?_ ?_ hholding ?_ (hearly hholding) ?_
          · rw [hstep]
            split
            · exact ⟨hbefore, rfl, rfl⟩
            · exact ⟨hbefore, rfl, rfl⟩
          · rw [hstep]
            split
            · exact ⟨rfl, rfl⟩
            · exact ⟨rfl, rfl⟩
          · rw [hstep]
            split
            · exact hholding
            · exact hholding
          · rw [hstep]
            change (if s.down_ack_ms = none then _ else _ : Snapshot).down_ack_ms = _
            cases hdown : s.down_ack_ms with
            | none => rw [if_pos rfl]; rfl
            | some d => rw [if_neg (by simp)]; rfl
        · rw [hanswer] at hread
          rw [hread] at hstep
          refine .acknowledges now_ms rfl (by rw [hread]) ?_ ?_ (.inr hwaiting) ?_
            (hintime hwaiting) ?_ ?_
          · rw [hstep]
            exact ⟨hbefore, rfl, rfl⟩
          · rw [hstep]
            exact ⟨rfl, rfl⟩
          · rw [hstep]
          · rw [hstep]
            rfl
          · rw [hstep]
        · rw [hanswer] at hread
          rw [hread] at hstep
          refine .stays ?_ ?_ (fun later heq => ?_) (fun later heq => ?_) ?_ ?_ ?_
          · rw [hstep]
            exact ⟨hbefore, rfl, rfl⟩
          · rw [hstep]
            exact ⟨rfl, rfl⟩
          · cases heq
          · cases heq
            exact ⟨by rw [hread], hholding, hwaiting⟩
          · rw [hstep]
            rfl
          · rw [hstep]
            rfl
          · rw [hstep]
            rfl
      · rcases Snapshot.answer_cases
          (({ s with last_ms := some now_ms }.setCount n .read).advance now_ms) now_ms with
          ⟨hfailed', hzero⟩ | ⟨hholding, -⟩ | ⟨hwaiting, -⟩ | ⟨-, -, m, hanswer⟩
        · exact hfails (hread ▸ hfailed') (hread ▸ hzero)
        · rw [hfailed.1] at hholding
          cases hholding
        · rw [hfailed.1] at hwaiting
          cases hwaiting
        · rw [hanswer] at hread
          apply hfails
          · rw [hread]
            exact (Snapshot.setCount_of_failed hfailed m .neutralRead).1
          · rw [hread]
      · -- the read that finds the deadline passed acknowledges the release too
        rw [hadvance] at hread
        rcases Snapshot.answer_cases { { s with last_ms := some now_ms }.setCount n .read with
            released_ms := some now_ms, status := .waitingNeutralAck } now_ms with
          ⟨hfailed, hzero⟩ | ⟨hholding, -⟩ | ⟨-, m, hanswer⟩ | ⟨-, hwaiting, -⟩
        · exact hfails (hread ▸ hfailed) (hread ▸ hzero)
        · cases hholding
        · rw [hanswer] at hread
          rw [hread] at hstep
          refine .acknowledges now_ms rfl (by rw [hread]) ?_ ?_ (.inl ⟨hholding, hrelease, hacked⟩)
            ?_ hintime ?_ ?_
          · rw [hstep]
            exact ⟨hbefore, rfl, rfl⟩
          · rw [hstep]
            exact ⟨rfl, rfl⟩
          · rw [hstep]
          · rw [hstep]
            rfl
          · rw [hstep]
        · exact absurd rfl hwaiting

theorem failWith_failed (s : Snapshot) {error : Error} (herror : error ≠ .none) (now_ms : UInt64) :
    Failed (s.failWith error now_ms) := by
  rw [Snapshot.failWith]
  rcases s.observe_cases now_ms with ⟨last, hobserve⟩ | ⟨hobserve, -⟩
  · rw [hobserve]
    exact Snapshot.setFailure_failed .clockRollback (by decide) last
  · rw [hobserve]
    exact Snapshot.setFailure_failed error herror now_ms

theorem does (s : Snapshot) (call : Call) : Does s call := by
  cases call with
  | arm now_ms => exact does_arm s now_ms
  | read now_ms => exact does_read s now_ms
  | poll now_ms => exact does_poll s now_ms
  | cancel now_ms =>
    refine .fails (failWith_failed s (by decide) now_ms) (fun later heq => ?_) fun later heq => ?_
    · cases heq
    · cases heq
  | fail now_ms =>
    refine .fails (failWith_failed s (by decide) now_ms) (fun later heq => ?_) fun later heq => ?_
    · cases heq
    · cases heq

/-! ### Runs -/

variable (calls : List Call)

/-- The latch after some calls. -/
abbrev reach : Snapshot := run Snapshot.step {} calls

/-- The call publishes the press. -/
def Arms (s : Snapshot) (call : Call) : Prop :=
  ∃ now_ms, call = .arm now_ms ∧ (s.arm now_ms).1 = true

/-- The press was published, and nothing has failed. -/
def Armed (s : Snapshot) : Prop :=
  s.status = .holdingStart ∨ s.status = .waitingNeutralAck ∨ s.status = .succeeded

/-- The start button is held down. -/
def Holding (s : Snapshot) : Prop := s.status = .holdingStart

variable {s : Snapshot}

theorem holding_of_arms {call : Call} (h : Arms s call) : Holding (s.step call) := by
  obtain ⟨now_ms, rfl, hanswer⟩ := h
  cases does s (.arm now_ms) with
  | fails _ _ harm =>
    rw [harm now_ms rfl] at hanswer
    cases hanswer
  | arms _ _ _ _ _ _ hstatus => exact hstatus
  | stays _ _ hcall => exact absurd rfl (hcall now_ms)
  | presses _ hcall | releases _ hcall | acknowledges _ hcall => cases hcall

theorem armed_of_step {call : Call} (h : Armed (s.step call)) (hnot : ¬Arms s call) : Armed s := by
  cases does s call with
  | fails hfailed =>
    rw [Armed, hfailed.1] at h
    simp at h
  | arms now_ms hcall hanswer => exact absurd ⟨now_ms, hcall, hanswer⟩ hnot
  | stays _ _ _ _ hstatus =>
    rw [Armed, hstatus] at h
    exact h
  | presses _ _ _ _ _ hholding => exact .inl hholding
  | releases _ _ _ _ hholding => exact .inl hholding
  | acknowledges _ _ _ _ _ hwas =>
    rcases hwas with ⟨hholding, -⟩ | hwaiting
    · exact .inl hholding
    · exact .inr (.inl hwaiting)

theorem holding_of_step {call : Call} (h : Holding (s.step call)) (hnot : ¬Arms s call) :
    Holding s := by
  cases does s call with
  | fails hfailed =>
    rw [Holding, hfailed.1] at h
    cases h
  | arms now_ms hcall hanswer => exact absurd ⟨now_ms, hcall, hanswer⟩ hnot
  | stays _ _ _ _ hstatus => exact hstatus.symm.trans h
  | presses _ _ _ _ _ hholding => exact hholding
  | releases _ _ _ _ hholding => exact hholding
  | acknowledges _ _ _ _ _ _ hstatus =>
    rw [Holding, hstatus] at h
    cases h

/-- The press was acknowledged: the guest read START from it at a time before the release. -/
def Acknowledged (before : List Call) (published : UInt64) (after : List Call) (down : UInt64) :
    Prop :=
  ∃ l r, after = l ++ .read down :: r ∧
    ((reach (before ++ .arm published :: l)).read down).1 = kStartButton ∧
    published ≤ down ∧ down.toNat < published.toNat + 5000

/-- The handshake is complete: after the press was acknowledged, the guest read no button at a time
after the release and before the second deadline. -/
def Completed (before : List Call) (published : UInt64) (after : List Call)
    (down neutral : UInt64) : Prop :=
  ∃ l r, after = l ++ .read neutral :: r ∧ Acknowledged before published l down ∧
    ((reach (before ++ .arm published :: l)).read neutral).1 = 0 ∧
    published.toNat + 5000 ≤ neutral.toNat ∧ neutral.toNat < published.toNat + 10000

/-- What is known of an armed latch. -/
structure History (before : List Call) (published : UInt64) (after : List Call) (s : Snapshot) :
    Prop where
  reached : s = reach (before ++ .arm published :: after)
  room : published.toNat + 10000 < 2 ^ 64
  release : s.release_deadline_ms = some (published + kHoldMilliseconds)
  neutral : s.neutral_ack_deadline_ms =
    some (published + kHoldMilliseconds + kNeutralAckMilliseconds)
  last : ∃ last, s.last_ms = some last ∧ published ≤ last ∧
    (s.status = .waitingNeutralAck → published.toNat + 5000 ≤ last.toNat)
  acknowledged : ∀ down, s.down_ack_ms = some down → Acknowledged before published after down
  pressed : s.status ≠ .holdingStart → s.down_ack_ms ≠ none
  completed : s.status = .succeeded → ∃ down neutral, s.down_ack_ms = some down ∧
    s.neutral_ack_ms = some neutral ∧ Completed before published after down neutral

theorem Acknowledged.snoc {before after : List Call} {published down : UInt64}
    (h : Acknowledged before published after down) (call : Call) :
    Acknowledged before published (after ++ [call]) down := by
  obtain ⟨l, r, rfl, hrest⟩ := h
  refine ⟨l, r ++ [call], ?_, hrest⟩
  rw [append_assoc, cons_append]

theorem Completed.snoc {before after : List Call} {published down neutral : UInt64}
    (h : Completed before published after down neutral) (call : Call) :
    Completed before published (after ++ [call]) down neutral := by
  obtain ⟨l, r, rfl, hrest⟩ := h
  refine ⟨l, r ++ [call], ?_, hrest⟩
  rw [append_assoc, cons_append]

theorem reached_some {deadline now_ms : UInt64} :
    Snapshot.reached (some deadline) now_ms = true ↔ deadline.toNat ≤ now_ms.toNat := by
  rw [Snapshot.reached, Option.any_some, decide_eq_true_iff, UInt64.le_iff_toNat_le]

theorem not_reached_some {deadline now_ms : UInt64} :
    Snapshot.reached (some deadline) now_ms = false ↔ now_ms.toNat < deadline.toNat := by
  rw [Bool.eq_false_iff, Ne, reached_some, not_le]

section Deadlines
variable {published : UInt64} (hroom : published.toNat + 10000 < 2 ^ 64)
include hroom

theorem release_toNat : (published + kHoldMilliseconds).toNat = published.toNat + 5000 := by
  have hhold : kHoldMilliseconds.toNat = 5000 := rfl
  rw [UInt64.toNat_add, hhold]
  omega

theorem neutral_toNat :
    (published + kHoldMilliseconds + kNeutralAckMilliseconds).toNat = published.toNat + 10000 := by
  have hack : kNeutralAckMilliseconds.toNat = 5000 := rfl
  rw [UInt64.toNat_add, release_toNat hroom, hack]
  omega

end Deadlines

/-- Nothing is acknowledged ahead of the press. -/
theorem idle_down_ack : (reach calls).status = .idle → (reach calls).down_ack_ms = none := by
  refine Episodes.run_induction (P := fun s : Snapshot => s.status = .idle → s.down_ack_ms = none)
    (fun _ => rfl) (fun s call ih hidle => ?_) calls
  cases does s call with
  | fails hfailed =>
    rw [hfailed.1] at hidle
    cases hidle
  | stays _ _ _ _ hstatus hdown => exact hdown.trans (ih (hstatus.symm.trans hidle))
  | arms _ _ _ _ _ _ hstatus => exact absurd (hstatus.symm.trans hidle) (by decide)
  | presses _ _ _ _ _ _ hstatus => exact absurd (hstatus.symm.trans hidle) (by decide)
  | releases _ _ _ _ _ hstatus => exact absurd (hstatus.symm.trans hidle) (by decide)
  | acknowledges _ _ _ _ _ _ hstatus => exact absurd (hstatus.symm.trans hidle) (by decide)

theorem history_arm {before : List Call} {published : UInt64}
    (h : Arms (reach before) (.arm published)) :
    History before published [] ((reach before).step (.arm published)) := by
  obtain ⟨now_ms, heq, hanswer⟩ := h
  cases heq
  cases does (reach before) (.arm published) with
  | fails _ _ harm =>
    rw [harm published rfl] at hanswer
    cases hanswer
  | stays _ _ hcall => exact absurd rfl (hcall published)
  | presses _ hcall | releases _ hcall | acknowledges _ hcall => cases hcall
  | arms _ hcall _ hobserved hidle hroom hstatus hrelease hneutral hdown =>
    cases hcall
    refine ⟨?_, hroom, hrelease, hneutral,
      ⟨published, hobserved.last_ms, UInt64.le_refl _, ?_⟩, ?_, ?_, ?_⟩
    · rw [reach, reach, Episodes.run_append]
      rfl
    · intro hwaiting
      exact absurd (hstatus.symm.trans hwaiting) (by decide)
    · intro down heq
      rw [hdown, idle_down_ack before hidle] at heq
      cases heq
    · exact fun hne => absurd hstatus hne
    · intro hsucceeded
      exact absurd (hstatus.symm.trans hsucceeded) (by decide)

theorem History.snoc {before after : List Call} {published : UInt64} {call : Call}
    (h : History before published after s) (hnot : ¬Arms s call) (harmed : Armed (s.step call)) :
    History before published (after ++ [call]) (s.step call) := by
  have hreached : s.step call = reach (before ++ .arm published :: (after ++ [call])) := by
    rw [← cons_append, ← append_assoc, reach, Episodes.run_append]
    exact congrArg (·.step call) h.reached
  obtain ⟨last, hlast, hpublished, hreleased⟩ := h.last
  have hlater : ∀ {now_ms}, Observed s (s.step call) now_ms →
      published ≤ now_ms ∧ last.toNat ≤ now_ms.toNat := fun hobserved =>
    ⟨UInt64.le_trans hpublished (hobserved.before last hlast), hobserved.before last hlast⟩
  cases does s call with
  | fails hfailed =>
    rw [Armed, hfailed.1] at harmed
    simp at harmed
  | arms now_ms hcall hanswer => exact absurd ⟨now_ms, hcall, hanswer⟩ hnot
  | stays hobserved hsame _ _ hstatus hdown hneutral_ack =>
    have hnow := hlater hobserved
    refine ⟨hreached, h.room, hsame.release.trans h.release, hsame.neutral.trans h.neutral,
      ⟨_, hobserved.last_ms, hnow.1, ?_⟩, ?_, ?_, ?_⟩
    · intro hwaiting
      exact (hreleased (hstatus.symm.trans hwaiting)).trans hnow.2
    · intro down heq
      exact (h.acknowledged down (hdown.symm.trans heq)).snoc call
    · rw [hstatus, hdown]
      exact h.pressed
    · rw [hstatus, hdown, hneutral_ack]
      intro hsucceeded
      obtain ⟨down, neutral, hd, hn, hcompleted⟩ := h.completed hsucceeded
      exact ⟨down, neutral, hd, hn, hcompleted.snoc call⟩
  | presses now_ms hcall hanswer hobserved hsame hholding hstatus hearly hdown =>
    have hnow := hlater hobserved
    refine ⟨hreached, h.room, hsame.release.trans h.release, hsame.neutral.trans h.neutral,
      ⟨_, hobserved.last_ms, hnow.1, ?_⟩, ?_, ?_, ?_⟩
    · intro hwaiting
      exact absurd (hstatus.symm.trans hwaiting) (by decide)
    · intro down heq
      rw [hdown] at heq
      cases hold : s.down_ack_ms with
      | some earlier =>
        rw [hold] at heq
        cases heq
        exact (h.acknowledged down hold).snoc call
      | none =>
        -- the first read of the press
        rw [hold] at heq
        cases heq
        rw [h.release, not_reached_some, release_toNat h.room] at hearly
        refine ⟨after, [], by rw [hcall], ?_, hnow.1, hearly⟩
        rw [← h.reached]
        exact hanswer
    · exact fun hne => absurd hstatus hne
    · intro hsucceeded
      exact absurd (hstatus.symm.trans hsucceeded) (by decide)
  | releases now_ms hcall hobserved hsame hholding hstatus hrelease hacked hdown =>
    have hnow := hlater hobserved
    rw [h.release, reached_some, release_toNat h.room] at hrelease
    refine ⟨hreached, h.room, hsame.release.trans h.release, hsame.neutral.trans h.neutral,
      ⟨_, hobserved.last_ms, hnow.1, fun _ => hrelease⟩, ?_, ?_, ?_⟩
    · intro down heq
      exact (h.acknowledged down (hdown.symm.trans heq)).snoc call
    · rw [hdown]
      exact fun _ => hacked
    · intro hsucceeded
      exact absurd (hstatus.symm.trans hsucceeded) (by decide)
  | acknowledges now_ms hcall hanswer hobserved hsame hwas hstatus hintime hdown hneutral_ack =>
    have hnow := hlater hobserved
    rw [h.neutral, not_reached_some, neutral_toNat h.room] at hintime
    have hacked : s.down_ack_ms ≠ none := by
      rcases hwas with ⟨-, -, hacked⟩ | hwaiting
      · exact hacked
      · exact h.pressed (by rw [hwaiting]; decide)
    have hafter : published.toNat + 5000 ≤ now_ms.toNat := by
      rcases hwas with ⟨-, hrelease, -⟩ | hwaiting
      · rwa [h.release, reached_some, release_toNat h.room] at hrelease
      · exact (hreleased hwaiting).trans hnow.2
    refine ⟨hreached, h.room, hsame.release.trans h.release, hsame.neutral.trans h.neutral,
      ⟨_, hobserved.last_ms, hnow.1, ?_⟩, ?_, ?_, ?_⟩
    · intro hwaiting
      exact absurd (hstatus.symm.trans hwaiting) (by decide)
    · intro down heq
      exact (h.acknowledged down (hdown.symm.trans heq)).snoc call
    · rw [hdown]
      exact fun _ => hacked
    · intro _
      obtain ⟨down, hsome⟩ := Option.ne_none_iff_exists'.mp hacked
      refine ⟨down, now_ms, hdown.trans hsome, hneutral_ack, after, [], by rw [hcall],
        h.acknowledged down hsome, ?_, hafter, hintime⟩
      rw [← h.reached]
      exact hanswer

/-- An armed latch has its history. -/
theorem armed_history (harmed : Armed (reach calls)) :
    ∃ before published after, calls = before ++ .arm published :: after ∧
      Arms (reach before) (.arm published) ∧ History before published after (reach calls) := by
  have hidle : ¬Armed ({} : Snapshot) := by simp [Armed]
  obtain ⟨before, first, after, rfl, hepisode⟩ := exists_episode hidle
    (fun s call (h : Arms (reach s) call) => .inl (holding_of_arms h))
    (fun s call h hnot => armed_of_step h hnot) calls harmed
  obtain ⟨published, rfl, -⟩ := id hepisode.begun
  exact ⟨before, published, after, rfl, hepisode.begun, hepisode.induction
    (history_arm hepisode.begun) fun l call s h _ hnot hnext => h.snoc hnot hnext⟩

/-- A failure has its error. -/
theorem failed_error : (reach calls).status = .failed → (reach calls).error ≠ .none := by
  refine Episodes.run_induction (P := fun s : Snapshot => s.status = .failed → s.error ≠ .none)
    (fun heq => by cases heq) (fun s call ih heq => ?_) calls
  cases does s call with
  | fails hfailed => exact hfailed.2
  | stays hobserved _ _ _ hstatus =>
    rw [hobserved.error]
    exact ih (hstatus.symm.trans heq)
  | arms _ _ _ _ _ _ hstatus => exact absurd (hstatus.symm.trans heq) (by decide)
  | presses _ _ _ _ _ _ hstatus => exact absurd (hstatus.symm.trans heq) (by decide)
  | releases _ _ _ _ _ hstatus => exact absurd (hstatus.symm.trans heq) (by decide)
  | acknowledges _ _ _ _ _ _ hstatus => exact absurd (hstatus.symm.trans heq) (by decide)

theorem run_of_failed (h : Failed s) (more : List Call) :
    StaysFailed s (run Snapshot.step s more) := by
  induction more generalizing s with
  | nil => exact ⟨h, rfl⟩
  | cons call more ih =>
    have hstep := Snapshot.step_of_failed h call
    exact hstep.trans (ih hstep.1)

/-- The read that returns START finds the press held. -/
theorem holding_of_start {now_ms : UInt64} (h : (s.read now_ms).1 = kStartButton) :
    Holding s ∧ Holding (s.step (.read now_ms)) ∧
      Snapshot.reached s.release_deadline_ms now_ms = false ∧
      ∀ last, s.last_ms = some last → last ≤ now_ms := by
  have hzero : (s.read now_ms).1 ≠ 0 := by
    rw [h]
    decide
  cases does s (.read now_ms) with
  | fails _ hread => exact absurd (hread now_ms rfl) hzero
  | arms _ hcall | releases _ hcall => cases hcall
  | stays _ _ _ hread => exact absurd (hread now_ms rfl).1 hzero
  | acknowledges _ hcall hanswer =>
    cases hcall
    exact absurd hanswer hzero
  | presses _ hcall _ hobserved _ hholding hstatus hearly =>
    cases hcall
    exact ⟨hholding, hstatus, hearly, hobserved.before⟩

/-- A press that is held has been held since it was published. -/
theorem holding_history (hholding : Holding (reach calls)) :
    ∃ before published after, calls = before ++ .arm published :: after ∧
      Arms (reach before) (.arm published) ∧ History before published after (reach calls) ∧
      ∀ l r, after = l ++ r → Holding (reach (before ++ .arm published :: l)) := by
  have hidle : ¬Holding ({} : Snapshot) := by simp [Holding]
  obtain ⟨before, first, after, rfl, hepisode⟩ := exists_episode hidle
    (fun s call (h : Arms (reach s) call) => holding_of_arms h)
    (fun s call h hnot => holding_of_step h hnot) calls hholding
  obtain ⟨published, rfl, -⟩ := id hepisode.begun
  exact ⟨before, published, after, rfl, hepisode.begun,
    hepisode.induction (history_arm hepisode.begun) fun l call s h _ hnot hnext =>
      h.snoc hnot (.inl hnext), hepisode.lasting⟩

/-- **The handshake**: START is returned for 5000 ms after it was published, while nothing has
failed; a success has both acknowledgements in their time; and a failure stays, with its first
error. -/
theorem start_handshake (calls : List Call) :
    (∀ now_ms, ((reach calls).read now_ms).1 = kStartButton →
      ∃ before published after, calls = before ++ .arm published :: after ∧
        Arms (reach before) (.arm published) ∧
        (∀ l r, after = l ++ r → Holding (reach (before ++ .arm published :: l))) ∧
        Holding ((reach calls).step (.read now_ms)) ∧
        published ≤ now_ms ∧ now_ms.toNat < published.toNat + 5000) ∧
    ((reach calls).status = .succeeded →
      ∃ before published after down neutral, calls = before ++ .arm published :: after ∧
        Arms (reach before) (.arm published) ∧ Completed before published after down neutral ∧
        (reach calls).down_ack_ms = some down ∧ (reach calls).neutral_ack_ms = some neutral) ∧
    ((reach calls).status = .failed → (reach calls).error ≠ .none ∧
      ∀ more, (reach (calls ++ more)).status = .failed ∧
        (reach (calls ++ more)).error = (reach calls).error) := by
  refine ⟨?_, ?_, ?_⟩
  · intro now_ms hstart
    obtain ⟨hholding, hafter, hearly, hbefore⟩ := holding_of_start hstart
    obtain ⟨before, published, after, heq, harms, hhistory, hlasting⟩ :=
      holding_history calls hholding
    obtain ⟨last, hlast, hpublished, -⟩ := hhistory.last
    rw [hhistory.release, not_reached_some, release_toNat hhistory.room] at hearly
    exact ⟨before, published, after, heq, harms, hlasting, hafter,
      UInt64.le_trans hpublished (hbefore last hlast), hearly⟩
  · intro hsucceeded
    obtain ⟨before, published, after, heq, harms, hhistory⟩ :=
      armed_history calls (.inr (.inr hsucceeded))
    obtain ⟨down, neutral, hdown, hneutral, hcompleted⟩ := hhistory.completed hsucceeded
    exact ⟨before, published, after, down, neutral, heq, harms, hcompleted, hdown, hneutral⟩
  · intro hfailed
    refine ⟨failed_error calls hfailed, fun more => ?_⟩
    have hstays := run_of_failed ⟨hfailed, failed_error calls hfailed⟩ more
    rw [← Episodes.run_append] at hstays
    exact ⟨hstays.1.1, hstays.2⟩

/-- The press is published at 10, acknowledged, and released and acknowledged by the read at the
deadline. -/
example : (reach [.arm 10, .read 11, .read 5009, .read 5010]).status = .succeeded := by decide

end Mcla.StartLatch

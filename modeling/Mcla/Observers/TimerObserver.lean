import Mcla.Library.TaskCounts
import Mcla.Library.AnsweredRun
import Mcla.Observers.TimerJournal

/-! # The timer observer

Calls of an instrumented function run on any number of threads.  A call reserves a place before
it runs and publishes its row when it is over; a freeze stops the admissions and copies what was
stored, if no admitted call is under way.  A short mutex guards the counts and the rows; whether
calls are accepted, how many are in flight and whether the observer failed are atomics.

A task is one call or one freeze, and a move is one atomic step of one task.  A lock may throw,
and an attempt at it may fail for no reason; the row of a call is whatever was observed.
-/
namespace Mcla.TimerObserver
open TimerJournal (Window Observation valid_clock kMaxQpc)
open TaskCounts (unit)
open List Option

/-! ### Data -/

/-- A call, as the recorder stores it. -/
structure RawRecord where
  observation : Observation := {}
  entry_ordinal : Nat := 0
  callback_issues : BitVec 32 := 0
  deriving DecidableEq

/-- The counters of the recorder. -/
structure Counts where
  (observed_entries admitted_entries stored_entries completed_entries overflow_entries
    outside_before_entries outside_after_entries : Nat := 0)
  (counter_saturated observer_failed : Bool := false)
  deriving DecidableEq

/-- The counters, by name. -/
inductive Counter where
  | observed | admitted | stored | completed | overflow | outsideBefore | outsideAfter
  deriving DecidableEq

def kCounterMax : Nat := 2 ^ 64 - 1

def Counts.get (c : Counts) : Counter → Nat
  | .observed => c.observed_entries
  | .admitted => c.admitted_entries
  | .stored => c.stored_entries
  | .completed => c.completed_entries
  | .overflow => c.overflow_entries
  | .outsideBefore => c.outside_before_entries
  | .outsideAfter => c.outside_after_entries

/-- One more, however great. -/
def Counts.plus (c : Counts) : Counter → Counts
  | .observed => { c with observed_entries := c.observed_entries + 1 }
  | .admitted => { c with admitted_entries := c.admitted_entries + 1 }
  | .stored => { c with stored_entries := c.stored_entries + 1 }
  | .completed => { c with completed_entries := c.completed_entries + 1 }
  | .overflow => { c with overflow_entries := c.overflow_entries + 1 }
  | .outsideBefore => { c with outside_before_entries := c.outside_before_entries + 1 }
  | .outsideAfter => { c with outside_after_entries := c.outside_after_entries + 1 }

/-- One more, up to the end of the counter. -/
def Counts.increment (c : Counts) (counter : Counter) : Counts :=
  if c.get counter = kCounterMax then { c with counter_saturated := true } else c.plus counter

/-- What a freeze returns. -/
structure Snapshot where
  window : Window := {}
  records : List RawRecord := []
  counts : Counts := {}
  deriving DecidableEq

/-- Which count a completed call goes to; only a stored one keeps its row. -/
def RawRecord.place (window : Window) (row : RawRecord) : Counter :=
  let call := row.observation
  let discardable := window.valid && valid_clock call && call.identity.valid &&
    call.before_available && call.after_available && row.callback_issues = 0
  if discardable && call.exit_qpc < window.begin_qpc then .outsideBefore
  else if discardable && call.entry_qpc ≥ window.end_qpc then .outsideAfter
  else .stored

/-! ### Tasks -/

/-- Where a task is.  A freeze carries its destination as it was when the freeze was called and
as it is now. -/
inductive Task where
  -- `reserve`
  | asking
  | locking
  | asked
  | observing
  | measuring
  | overflowing
  | claiming
  | admitting
  | reserved (slot : Option Nat)
  | reserveFailed
  -- the original, and `complete`
  | running (slot : Nat)
  | completing (row : RawRecord)
  | publishing (row : RawRecord)
  | counting
  | dropping
  | published
  | losing
  | lost
  | finished
  -- `try_freeze_into`
  | stopping (before dest : Snapshot)
  | trying (before dest : Snapshot)
  | draining (before dest : Snapshot)
  | copying (before dest : Snapshot)
  | flagging (before dest : Snapshot)
  | unlocking (before dest : Snapshot) (result : Bool)
  | freezeFailed (before dest : Snapshot)
  | returned (before dest : Snapshot) (result : Bool)
  deriving DecidableEq

/-- `failed_locks` counts the completions that did not get the lock; the code has no such
count. -/
structure World where
  accepting : Bool := false
  holder : Option Nat := none
  records : List RawRecord := []
  in_flight : Nat := 0
  observer_failed : Bool := false
  counts : Counts := {}
  tasks : List Task := []
  failed_locks : Nat := 0

/-- How a step comes out where the code leaves it open. -/
inductive Chance where
  | goes
  | throws
  | misses
  | observes (row : RawRecord)
  deriving DecidableEq

/-- The task `me` is at a place in its program: the world after its next step, and its next
place.  A task that waits for the lock has no step. -/
def World.advance (w : World) (capacity : Nat) (window : Window) (me : Nat) (chance : Chance) :
    Task → Option (World × Task)
  | .asking => some (w, if w.accepting then .locking else .finished)
  | .locking =>
    if chance = .throws then some (w, .reserveFailed)
    else if w.holder = none then some ({ w with holder := some me }, .asked)
    else none
  | .asked => some (w, if w.accepting then .observing else .reserved none)
  | .observing => some ({ w with counts := w.counts.increment .observed }, .measuring)
  | .measuring =>
    some (w, if w.records.length + w.in_flight ≥ capacity then .overflowing else .claiming)
  | .overflowing => some ({ w with counts := w.counts.increment .overflow }, .reserved none)
  | .claiming => some ({ w with in_flight := w.in_flight + 1 }, .admitting)
  | .admitting =>
    some ({ w with counts := w.counts.increment .admitted },
      .reserved (some w.counts.observed_entries))
  | .reserved slot =>
    some ({ w with holder := none }, match slot with
      | none => .finished
      | some slot => .running slot)
  | .reserveFailed => some ({ w with observer_failed := true }, .finished)
  | .running slot =>
    match chance with
    | .observes row => some (w, .completing { row with entry_ordinal := slot })
    | _ => none
  | .completing row =>
    if chance = .throws then some ({ w with failed_locks := w.failed_locks + 1 }, .losing)
    else if w.holder = none then some ({ w with holder := some me }, .publishing row)
    else none
  | .publishing row =>
    some ({ w with
        records := if row.place window = .stored then w.records ++ [row] else w.records
        counts := w.counts.increment (row.place window) }, .counting)
  | .counting => some ({ w with counts := w.counts.increment .completed }, .dropping)
  | .dropping => some ({ w with in_flight := w.in_flight - 1 }, .published)
  | .published => some ({ w with holder := none }, .finished)
  | .losing => some ({ w with observer_failed := true }, .lost)
  | .lost => some ({ w with in_flight := w.in_flight - 1 }, .finished)
  | .finished => none
  | .stopping before dest => some ({ w with accepting := false }, .trying before dest)
  | .trying before dest =>
    if chance = .throws then some (w, .freezeFailed before dest)
    else if chance = .misses || w.holder ≠ none then some (w, .returned before dest false)
    else some ({ w with holder := some me }, .draining before dest)
  | .draining before dest =>
    some (w, if w.in_flight ≠ 0 then .unlocking before dest false else .copying before dest)
  | .copying before _ =>
    some (w, .flagging before ⟨window, w.records, w.counts⟩)
  | .flagging before dest =>
    some (w, .unlocking before
      { dest with counts := { dest.counts with observer_failed := w.observer_failed } } true)
  | .unlocking before dest result =>
    some ({ w with holder := none }, .returned before dest result)
  | .freezeFailed before dest =>
    some ({ w with observer_failed := true }, .returned before dest false)
  | .returned _ _ _ => none

/-- One step of a run. -/
inductive Move where
  | invoke
  | freeze (dest : Snapshot)
  | stop_admissions
  | step (task : Nat) (chance : Chance)
  deriving DecidableEq

/-- One move; a step that a task cannot take leaves the world as it is. -/
def World.move (capacity : Nat) (window : Window) (w : World) : Move → World
  | .invoke => { w with tasks := w.tasks ++ [.asking] }
  | .freeze dest => { w with tasks := w.tasks ++ [.stopping dest dest] }
  | .stop_admissions => { w with accepting := false }
  | .step me chance =>
    match w.tasks[me]? with
    | none => w
    | some task =>
      match w.advance capacity window me chance task with
      | none => w
      | some (w, task) => { w with tasks := w.tasks.set me task }

/-- A new observer after some moves. -/
def run (capacity : Nat) (window : Window) (enabled : Bool) (moves : List Move) : World :=
  moves.foldl (World.move capacity window) { accepting := enabled }

/-! ### The places of the tasks -/

namespace Task

/-- Places inside the mutex. -/
def locked : Task → Bool
  | .asked | .observing | .measuring | .overflowing | .claiming | .admitting | .reserved _
  | .publishing _ | .counting | .dropping | .published
  | .draining _ _ | .copying _ _ | .flagging _ _ | .unlocking _ _ _ => true
  | _ => false

/-- Places at which the task has its share of `in_flight`. -/
def holds : Task → Bool
  | .admitting | .reserved (some _) | .running _ | .completing _ | .publishing _ | .counting
  | .dropping | .losing | .lost => true
  | _ => false

/-- Places at which a row can still come from the task. -/
def budget : Task → Bool
  | .claiming | .admitting | .reserved (some _) | .running _ | .completing _ | .publishing _
  | .losing | .lost => true
  | _ => false

/-- Places at which the row of an admitted call is not stored yet. -/
def inFlight : Task → Bool
  | .admitting | .reserved (some _) | .running _ | .completing _ | .publishing _ => true
  | _ => false

/-- Places between the count of the call and the count of its admission or its overflow. -/
def undecided : Task → Bool
  | .measuring | .overflowing | .claiming | .admitting => true
  | _ => false

/-- Places between the count of the admission and that of the completion. -/
def incomplete : Task → Bool
  | .reserved (some _) | .running _ | .completing _ | .publishing _ | .counting => true
  | _ => false

def isCounting : Task → Bool
  | .counting => true
  | _ => false

def isLosing : Task → Bool
  | .losing => true
  | _ => false

theorem locked_of_undecided (t : Task) (h : t.undecided = true) : t.locked = true := by
  cases t <;> first | rfl | cases h

theorem locked_of_counting (t : Task) (h : t.isCounting = true) : t.locked = true := by
  cases t <;> first | rfl | cases h

theorem holds_of_losing (t : Task) (h : t.isLosing = true) : t.holds = true := by
  cases t <;> first | rfl | cases h

theorem budget_of_inFlight (t : Task) (h : t.inFlight = true) : t.budget = true := by
  cases t with
  | reserved slot => cases slot <;> first | rfl | cases h
  | _ => first | rfl | cases h

/-- Outside the mutex, and at the places of a freeze, what can bring a row has its share. -/
theorem holds_of_budget (t : Task) (h : t.budget = true) : t.holds = true ∨ t = .claiming := by
  cases t with
  | reserved slot => cases slot <;> first | exact Or.inl rfl | cases h
  | claiming => exact Or.inr rfl
  | _ => first | exact Or.inl rfl | cases h

/-- Only a task inside the mutex has a share although its row is stored. -/
theorem budget_of_holds (t : Task) (h : t.holds = true) (hfree : t.locked = false) :
    t.budget = true := by
  cases t with
  | reserved slot => cases hfree
  | _ => first | rfl | simp [holds, locked] at h hfree

theorem holds_of_incomplete (t : Task) (h : t.incomplete = true) : t.holds = true := by
  cases t with
  | reserved slot => cases slot <;> first | rfl | cases h
  | _ => first | rfl | cases h

end Task

theorem Counts.increment_eq {c : Counts} {counter : Counter}
    (h : (c.increment counter).counter_saturated = false) :
    c.counter_saturated = false ∧ c.increment counter = c.plus counter := by
  unfold Counts.increment at h ⊢
  split at h
  · cases h
  · rename_i hroom
    rw [if_neg hroom]
    refine ⟨?_, rfl⟩
    cases counter <;> exact h

/-! ### What every move keeps -/

section Numbers
variable {capacity : Nat} {window : Window} {w w' : World} {me : Nat} {task task' : Task}

/-- The counts balance, but for the tasks that are between two of them. -/
structure Balance (w : World) : Prop where
  observed : w.counts.observed_entries = w.counts.admitted_entries + w.counts.overflow_entries +
    w.tasks.countP Task.undecided
  admitted : w.counts.admitted_entries = w.counts.completed_entries + w.failed_locks +
    w.tasks.countP Task.incomplete
  completed : w.counts.completed_entries + w.tasks.countP Task.isCounting =
    w.counts.stored_entries + w.counts.outside_before_entries + w.counts.outside_after_entries
  stored : w.counts.stored_entries = w.records.length

/-- How the counters add up, in every state. -/
structure Numbers (capacity : Nat) (w : World) : Prop where
  in_flight : w.in_flight = w.tasks.countP Task.holds
  room : w.records.length + w.tasks.countP Task.budget ≤ capacity
  balance : w.counts.counter_saturated = false → Balance w
  failures : w.failed_locks = 0 ∨ w.observer_failed = true ∨ 0 < w.tasks.countP Task.isLosing

/-- What a step of one task does to the counts, in terms of the two places of the task. -/
structure Shift (w w' : World) (task task' : Task) : Prop where
  tasks : w'.tasks = w.tasks
  in_flight : w'.in_flight + unit Task.holds task = w.in_flight + unit Task.holds task'
  balance : w'.counts.counter_saturated = false → w.counts.counter_saturated = false ∧
    w'.counts.observed_entries + w.counts.admitted_entries + w.counts.overflow_entries +
        unit Task.undecided task =
      w.counts.observed_entries + w'.counts.admitted_entries + w'.counts.overflow_entries +
        unit Task.undecided task' ∧
    w'.counts.admitted_entries + w.counts.completed_entries + w.failed_locks +
        unit Task.incomplete task =
      w.counts.admitted_entries + w'.counts.completed_entries + w'.failed_locks +
        unit Task.incomplete task' ∧
    w'.counts.completed_entries + unit Task.isCounting task' + w.counts.stored_entries +
        w.counts.outside_before_entries + w.counts.outside_after_entries =
      w.counts.completed_entries + unit Task.isCounting task + w'.counts.stored_entries +
        w'.counts.outside_before_entries + w'.counts.outside_after_entries ∧
    w'.counts.stored_entries + w.records.length = w.counts.stored_entries + w'.records.length
  failures : (w'.observer_failed = true ∨ unit Task.isLosing task' = 1) ∨
    w'.failed_locks = w.failed_locks ∧ w'.observer_failed = w.observer_failed ∧
      unit Task.isLosing task = unit Task.isLosing task'

theorem Numbers.shift (h : Numbers capacity w) (hme : w.tasks[me]? = some task)
    (hs : Shift w w' task task')
    (hroom : w'.records.length + (w.tasks.set me task').countP Task.budget ≤ capacity) :
    Numbers capacity { w' with tasks := w'.tasks.set me task' } where
  in_flight := by
    have hset := TaskCounts.countP_set hme Task.holds task'
    have := hs.in_flight
    have := h.in_flight
    simp only [hs.tasks]
    omega
  room := by
    simp only [hs.tasks]
    exact hroom
  balance := by
    intro hok
    obtain ⟨hok', h1, h2, h3, h4⟩ := hs.balance hok
    obtain ⟨b1, b2, b3, b4⟩ := h.balance hok'
    have s1 := TaskCounts.countP_set hme Task.undecided task'
    have s2 := TaskCounts.countP_set hme Task.incomplete task'
    have s3 := TaskCounts.countP_set hme Task.isCounting task'
    constructor <;> simp only [hs.tasks] <;> omega
  failures := by
    have hset := TaskCounts.countP_set hme Task.isLosing task'
    simp only [hs.tasks]
    rcases hs.failures with hflag | ⟨hsame, hflag, hunit⟩
    · rcases hflag with hflag | hunit
      · exact Or.inr (Or.inl hflag)
      · right
        right
        have hlosing := TaskCounts.unit_le_countP
          (show (w.tasks.set me task')[me]? = some task' from
            getElem?_set_self (AnsweredRun.lt_length hme)) Task.isLosing
        omega
    · rw [hsame, hflag]
      rcases h.failures with hnone | hfailed | hlosing
      · exact Or.inl hnone
      · exact Or.inr (Or.inl hfailed)
      · exact Or.inr (Or.inr (by omega))

/-- A step that adds no row and no claim leaves room. -/
theorem Numbers.room_le (h : Numbers capacity w) (hme : w.tasks[me]? = some task)
    (hle : w'.records.length + unit Task.budget task' ≤ w.records.length + unit Task.budget task) :
    w'.records.length + (w.tasks.set me task').countP Task.budget ≤ capacity := by
  have hset := TaskCounts.countP_set hme Task.budget task'
  have := h.room
  omega

/-- A step that changes no count and keeps its share of each. -/
theorem Shift.still (htasks : w'.tasks = w.tasks) (hin : w'.in_flight = w.in_flight)
    (hcounts : w'.counts = w.counts) (hrecords : w'.records = w.records)
    (hlocks : w'.failed_locks = w.failed_locks)
    (hfailed : w'.observer_failed = true ∨ w'.observer_failed = w.observer_failed ∧
      unit Task.isLosing task = unit Task.isLosing task')
    (h1 : unit Task.holds task = unit Task.holds task')
    (h2 : unit Task.undecided task = unit Task.undecided task')
    (h3 : unit Task.incomplete task = unit Task.incomplete task')
    (h4 : unit Task.isCounting task = unit Task.isCounting task') : Shift w w' task task' where
  tasks := htasks
  in_flight := by omega
  balance := by
    intro hok
    rw [hcounts] at hok
    rw [hcounts, hrecords, hlocks]
    refine ⟨hok, ?_, ?_, ?_, ?_⟩ <;> omega
  failures := by
    rcases hfailed with hflag | ⟨hflag, hunit⟩
    · exact Or.inl (Or.inl hflag)
    · exact Or.inr ⟨hlocks, hflag, hunit⟩

end Numbers

/-! ### The mutex and the freezes -/

/-- A task inside the mutex is the one that holds it. -/
def Guarded (w : World) : Prop :=
  ∀ (i : Nat) (t : Task), w.tasks[i]? = some t → t.locked = true → w.holder = some i

/-- The counts of a copy, as far as they do not depend on failed locks. -/
structure Copied (dest : Snapshot) : Prop where
  observed : dest.counts.observed_entries =
    dest.counts.admitted_entries + dest.counts.overflow_entries
  completed : dest.counts.completed_entries = dest.counts.stored_entries +
    dest.counts.outside_before_entries + dest.counts.outside_after_entries
  stored : dest.counts.stored_entries = dest.records.length
  le : dest.counts.completed_entries ≤ dest.counts.admitted_entries

/-- A copy balances but for the completions that did not get the lock; `failed` tells of them. -/
def Settled (w : World) (dest : Snapshot) (failed : Bool) : Prop :=
  dest.counts.counter_saturated = false → Copied dest ∧
    dest.counts.admitted_entries ≤ dest.counts.completed_entries + w.failed_locks ∧
    (dest.counts.admitted_entries = dest.counts.completed_entries ∨ failed = true)

/-- What is known of a freeze at its place. -/
def Fits (w : World) : Task → Prop
  | .stopping before dest | .trying before dest | .draining before dest
  | .freezeFailed before dest => dest = before
  | .copying before dest => dest = before ∧ w.in_flight = 0
  | .flagging _ dest => Settled w dest w.observer_failed
  | .unlocking _ dest true | .returned _ dest true => Settled w dest dest.counts.observer_failed
  | .unlocking before dest false | .returned before dest false => dest = before
  | _ => True

/-- What every step keeps. -/
structure Inv (capacity : Nat) (w : World) : Prop where
  numbers : Numbers capacity w
  guarded : Guarded w
  fits : ∀ (i : Nat) (t : Task), w.tasks[i]? = some t → Fits w t

section Step
variable {capacity : Nat} {window : Window} {w w' : World} {me : Nat} {task task' : Task}

/-- The mutex passes from hand to hand. -/
def Passes (w w' : World) (me : Nat) (task task' : Task) : Prop :=
  (w'.holder = w.holder ∧ (task'.locked = true → task.locked = true)) ∨
    (w.holder = none ∧ w'.holder = some me) ∨ (task.locked = true ∧ task'.locked = false)

theorem Guarded.step (h : Guarded w) (hme : w.tasks[me]? = some task)
    (hpass : Passes w w' me task task') (htasks : w'.tasks = w.tasks) :
    Guarded { w' with tasks := w'.tasks.set me task' } := by
  intro i t ht hlocked
  simp only [htasks] at ht
  rcases TaskCounts.getElem?_set_cases ht with ⟨rfl, rfl⟩ | ⟨hne, hold⟩
  · rcases hpass with ⟨hsame, hback⟩ | ⟨-, htaken⟩ | ⟨-, hfree⟩
    · exact hsame.trans (h i task hme (hback hlocked))
    · exact htaken
    · exact absurd (hlocked.symm.trans hfree) (by decide)
  · have hholds := h i t hold hlocked
    rcases hpass with ⟨hsame, -⟩ | ⟨hfree, -⟩ | ⟨hmine, -⟩
    · exact hsame.trans hholds
    · rw [hfree] at hholds
      cases hholds
    · have := (h me task hme hmine).symm.trans hholds
      exact absurd (some.inj this).symm hne

/-- What is known of a freeze stays known when others move. -/
theorem Fits.mono {t : Task} (h : Fits w t) (hlocks : w.failed_locks ≤ w'.failed_locks)
    (hfailed : w.observer_failed = true → w'.observer_failed = true)
    (hin : (∃ before dest, t = .copying before dest) → w'.in_flight ≤ w.in_flight) : Fits w' t := by
  have hsettled : ∀ dest failed failed', Settled w dest failed → (failed = true → failed' = true) →
      Settled w' dest failed' := by
    intro dest failed failed' hset himp hok
    obtain ⟨hcopied, hle, hor⟩ := hset hok
    exact ⟨hcopied, by omega, hor.imp_right himp⟩
  cases t with
  | copying before dest =>
    have := hin ⟨before, dest, rfl⟩
    exact ⟨h.1, by have := h.2; omega⟩
  | flagging before dest => exact hsettled dest _ _ h hfailed
  | unlocking before dest result =>
    cases result with
    | true => exact hsettled dest _ _ h id
    | false => exact h
  | returned before dest result =>
    cases result with
    | true => exact hsettled dest _ _ h id
    | false => exact h
  | _ => exact h

/-- **One step of one task**: what it does to the counts, to the mutex and to its own place is
all there is to check. -/
theorem Inv.step (h : Inv capacity w) (hme : w.tasks[me]? = some task) (hs : Shift w w' task task')
    (hroom : w'.records.length + (w.tasks.set me task').countP Task.budget ≤ capacity)
    (hpass : Passes w w' me task task') (hlocks : w.failed_locks ≤ w'.failed_locks)
    (hfailed : w.observer_failed = true → w'.observer_failed = true)
    (hin : task = .claiming ∨ w'.in_flight ≤ w.in_flight) (hfits : Fits w' task') :
    Inv capacity { w' with tasks := w'.tasks.set me task' } where
  numbers := h.numbers.shift hme hs hroom
  guarded := h.guarded.step hme hpass hs.tasks
  fits := by
    intro i t ht
    simp only [hs.tasks] at ht
    rcases TaskCounts.getElem?_set_cases ht with ⟨rfl, rfl⟩ | ⟨hne, hold⟩
    · exact hfits.mono le_rfl id fun _ => le_rfl
    · have hkept : Fits w' t := by
        apply (h.fits i t hold).mono hlocks hfailed
        rintro ⟨before, dest, rfl⟩
        rcases hin with rfl | hle
        · -- the mutex is held by the freeze, so no call claims
          have h1 := h.guarded i _ hold rfl
          have h2 := h.guarded me _ hme rfl
          exact absurd (some.inj (h1.symm.trans h2)) hne
        · exact hle
      exact hkept.mono le_rfl id fun _ => le_rfl

/-- Inside the mutex there is one task: the counts of places inside it are its own. -/
theorem Inv.alone (h : Inv capacity w) (hme : w.tasks[me]? = some task)
    (hlocked : task.locked = true) {p : Task → Bool} (hp : ∀ t, p t = true → t.locked = true) :
    w.tasks.countP p = unit p task := by
  apply TaskCounts.countP_alone hme
  intro j t hj hcounts
  have h1 := h.guarded j t hj (hp t hcounts)
  have h2 := h.guarded me task hme hlocked
  exact some.inj (h1.symm.trans h2)

theorem inv_new (capacity : Nat) (enabled : Bool) : Inv capacity { accepting := enabled } where
  numbers := {
    in_flight := rfl
    room := Nat.zero_le _
    balance := by intro; exact ⟨rfl, rfl, rfl, rfl⟩
    failures := Or.inl rfl }
  guarded := by intro i t ht; simp at ht
  fits := by intro i t ht; simp at ht

/-- The places of the task count alike. -/
structure Alike (task task' : Task) : Prop where
  holds : unit Task.holds task = unit Task.holds task'
  budget : unit Task.budget task' ≤ unit Task.budget task
  undecided : unit Task.undecided task = unit Task.undecided task'
  incomplete : unit Task.incomplete task = unit Task.incomplete task'
  counting : unit Task.isCounting task = unit Task.isCounting task'
  losing : unit Task.isLosing task = unit Task.isLosing task'

/-- A step that touches no count. -/
theorem Inv.moves (h : Inv capacity w) (hme : w.tasks[me]? = some task) (task' : Task)
    (ha : Alike task task') {accepting : Bool} {holder : Option Nat}
    (hpass : Passes w { w with accepting := accepting, holder := holder } me task task')
    (hfits : Fits { w with accepting := accepting, holder := holder } task') :
    Inv capacity
      { w with accepting := accepting, holder := holder, tasks := w.tasks.set me task' } := by
  have hshift : Shift w { w with accepting := accepting, holder := holder } task task' :=
    Shift.still rfl rfl rfl rfl rfl (Or.inr ⟨rfl, ha.losing⟩) ha.holds ha.undecided ha.incomplete
      ha.counting
  exact h.step hme hshift (h.numbers.room_le hme (Nat.add_le_add_left ha.budget _)) hpass le_rfl id
    (Or.inr le_rfl) hfits

/-- A step that reports a failure of the observer. -/
theorem Inv.fails (h : Inv capacity w) (hme : w.tasks[me]? = some task) (task' : Task)
    (h1 : unit Task.holds task = unit Task.holds task')
    (h2 : unit Task.budget task' ≤ unit Task.budget task)
    (h3 : unit Task.undecided task = unit Task.undecided task')
    (h4 : unit Task.incomplete task = unit Task.incomplete task')
    (h5 : unit Task.isCounting task = unit Task.isCounting task') (hlocked : task'.locked = false)
    (hfits : Fits { w with observer_failed := true } task') :
    Inv capacity { w with observer_failed := true, tasks := w.tasks.set me task' } := by
  have hshift : Shift w { w with observer_failed := true } task task' :=
    Shift.still rfl rfl rfl rfl rfl (Or.inl rfl) h1 h3 h4 h5
  have hpass : Passes w { w with observer_failed := true } me task task' :=
    Or.inl ⟨rfl, fun hl => absurd (hl.symm.trans hlocked) (by decide)⟩
  exact h.step hme hshift (h.numbers.room_le hme (Nat.add_le_add_left h2 _)) hpass le_rfl
    (fun _ => rfl) (Or.inr le_rfl) hfits

/-- A step inside the mutex that changes the counts. -/
theorem Inv.tallies (h : Inv capacity w) (hme : w.tasks[me]? = some task) {counts : Counts}
    {records : List RawRecord}
    (hs : Shift w { w with records := records, counts := counts } task task')
    (hroom : records.length + unit Task.budget task' ≤ w.records.length + unit Task.budget task)
    (hlocked : task.locked = true)
    (hfits : Fits { w with records := records, counts := counts } task') :
    Inv capacity
      { w with records := records, counts := counts, tasks := w.tasks.set me task' } :=
  h.step hme hs (h.numbers.room_le hme hroom) (Or.inl ⟨rfl, fun _ => hlocked⟩) le_rfl id
    (Or.inr le_rfl) hfits

/-- The call is counted. -/
theorem Inv.observing (h : Inv capacity w) (hme : w.tasks[me]? = some .observing) :
    Inv capacity { w with
      counts := w.counts.increment .observed, tasks := w.tasks.set me .measuring } := by
  refine h.tallies hme ?_ le_rfl rfl trivial
  constructor
  · rfl
  · rfl
  · intro hok
    obtain ⟨hok', heq⟩ := Counts.increment_eq hok
    refine ⟨hok', ?_, ?_, ?_, ?_⟩ <;>
      simp [heq, Counts.plus, unit, Task.undecided, Task.incomplete, Task.isCounting]
    omega
  · exact Or.inr ⟨rfl, rfl, rfl⟩

/-- The call finds no place. -/
theorem Inv.overflowing (h : Inv capacity w) (hme : w.tasks[me]? = some .overflowing) :
    Inv capacity { w with
      counts := w.counts.increment .overflow, tasks := w.tasks.set me (.reserved none) } := by
  refine h.tallies hme ?_ le_rfl rfl trivial
  constructor
  · rfl
  · rfl
  · intro hok
    obtain ⟨hok', heq⟩ := Counts.increment_eq hok
    refine ⟨hok', ?_, ?_, ?_, ?_⟩ <;>
      simp [heq, Counts.plus, unit, Task.undecided, Task.incomplete, Task.isCounting]
    omega
  · exact Or.inr ⟨rfl, rfl, rfl⟩

/-- The call is admitted. -/
theorem Inv.admitting (h : Inv capacity w) (hme : w.tasks[me]? = some .admitting) (slot : Nat) :
    Inv capacity { w with
      counts := w.counts.increment .admitted
      tasks := w.tasks.set me (.reserved (some slot)) } := by
  refine h.tallies hme ?_ le_rfl rfl trivial
  constructor
  · rfl
  · rfl
  · intro hok
    obtain ⟨hok', heq⟩ := Counts.increment_eq hok
    refine ⟨hok', ?_, ?_, ?_, ?_⟩ <;>
      (simp [heq, Counts.plus, unit, Task.undecided, Task.incomplete, Task.isCounting]; try omega)
  · exact Or.inr ⟨rfl, rfl, rfl⟩

/-- The row of a call is stored, or counted as outside the window. -/
theorem Inv.publishing (h : Inv capacity w) {row : RawRecord}
    (hme : w.tasks[me]? = some (.publishing row)) :
    Inv capacity { w with
      records := if row.place window = .stored then w.records ++ [row] else w.records
      counts := w.counts.increment (row.place window), tasks := w.tasks.set me .counting } := by
  have hplace : row.place window = .stored ∨ row.place window = .outsideBefore ∨
      row.place window = .outsideAfter := by
    unfold RawRecord.place
    dsimp only
    split
    · exact Or.inr (Or.inl rfl)
    · split
      · exact Or.inr (Or.inr rfl)
      · exact Or.inl rfl
  have hlength : (if row.place window = .stored then w.records ++ [row] else w.records).length ≤
      w.records.length + 1 := by
    split <;> simp
  refine h.tallies hme ?_ ?_ rfl trivial
  · constructor
    · rfl
    · rfl
    · intro hok
      obtain ⟨hok', heq⟩ := Counts.increment_eq hok
      simp only [heq, unit, Task.undecided, Task.incomplete, Task.isCounting]
      rcases hplace with hp | hp | hp <;> simp [hp, Counts.plus, hok'] <;> omega
    · exact Or.inr ⟨rfl, rfl, rfl⟩
  · simpa [unit, Task.budget] using hlength

/-- The call is completed. -/
theorem Inv.counting (h : Inv capacity w) (hme : w.tasks[me]? = some .counting) :
    Inv capacity { w with
      counts := w.counts.increment .completed, tasks := w.tasks.set me .dropping } := by
  refine h.tallies hme ?_ le_rfl rfl trivial
  constructor
  · rfl
  · rfl
  · intro hok
    obtain ⟨hok', heq⟩ := Counts.increment_eq hok
    refine ⟨hok', ?_, ?_, ?_, ?_⟩ <;>
      simp [heq, Counts.plus, unit, Task.undecided, Task.incomplete, Task.isCounting]
    omega
  · exact Or.inr ⟨rfl, rfl, rfl⟩

/-- There is a place for the call: nobody else is about to claim one, so the rows to come are
among the calls in flight. -/
theorem Inv.claims (h : Inv capacity w) (hme : w.tasks[me]? = some .measuring)
    (hroom : w.records.length + w.in_flight < capacity) :
    Inv capacity { w with tasks := w.tasks.set me .claiming } := by
  have hshift : Shift w w .measuring .claiming :=
    Shift.still rfl rfl rfl rfl rfl (Or.inr ⟨rfl, rfl⟩) rfl rfl rfl rfl
  have hbudget : w.tasks.countP Task.budget ≤ w.tasks.countP Task.holds := by
    apply countP_mono_left
    intro t ht hcounts
    rcases Task.holds_of_budget t hcounts with hholds | rfl
    · exact hholds
    · obtain ⟨j, hj⟩ := mem_iff_getElem?.mp ht
      have h1 := h.guarded j _ hj rfl
      have h2 := h.guarded me _ hme rfl
      obtain rfl := some.inj (h1.symm.trans h2)
      rw [hme] at hj
      cases hj
  have hset := TaskCounts.countP_set hme Task.budget .claiming
  have hin := h.numbers.in_flight
  apply h.step hme hshift ?_ (Or.inl ⟨rfl, fun _ => rfl⟩) le_rfl id (Or.inr le_rfl) trivial
  simp only [unit, Task.budget, Bool.false_eq_true, if_false, if_true] at hset
  omega

theorem Inv.claiming (h : Inv capacity w) (hme : w.tasks[me]? = some .claiming) :
    Inv capacity { w with
      in_flight := w.in_flight + 1, tasks := w.tasks.set me .admitting } := by
  have hshift : Shift w { w with in_flight := w.in_flight + 1 } .claiming .admitting := by
    constructor
    · rfl
    · rfl
    · intro hok
      exact ⟨hok, rfl, rfl, rfl, rfl⟩
    · exact Or.inr ⟨rfl, rfl, rfl⟩
  exact h.step hme hshift (h.numbers.room_le hme le_rfl) (Or.inl ⟨rfl, fun _ => rfl⟩) le_rfl id
    (Or.inl rfl) trivial

/-- A task gives up its share of `in_flight`. -/
theorem Inv.drops (h : Inv capacity w) (hme : w.tasks[me]? = some task) (task' : Task)
    (hholds : unit Task.holds task = 1) (h1 : unit Task.holds task' = 0)
    (h2 : unit Task.budget task' ≤ unit Task.budget task)
    (h3 : unit Task.undecided task = unit Task.undecided task')
    (h4 : unit Task.incomplete task = unit Task.incomplete task')
    (h5 : unit Task.isCounting task = unit Task.isCounting task')
    (h6 : unit Task.isLosing task = unit Task.isLosing task')
    (hlocked : task'.locked = true → task.locked = true)
    (hfits : Fits { w with in_flight := w.in_flight - 1 } task') :
    Inv capacity { w with
      in_flight := w.in_flight - 1, tasks := w.tasks.set me task' } := by
  have hpos := TaskCounts.unit_le_countP hme Task.holds
  have hin := h.numbers.in_flight
  have hshift : Shift w { w with in_flight := w.in_flight - 1 } task task' := by
    constructor
    · rfl
    · dsimp only
      omega
    · intro hok
      dsimp only
      refine ⟨hok, ?_, ?_, ?_, ?_⟩ <;> omega
    · exact Or.inr ⟨rfl, rfl, h6⟩
  exact h.step hme hshift (h.numbers.room_le hme (Nat.add_le_add_left h2 _))
    (Or.inl ⟨rfl, hlocked⟩) le_rfl id (Or.inr (Nat.sub_le _ _)) hfits

/-- The lock throws in a completion. -/
theorem Inv.loses (h : Inv capacity w) {row : RawRecord}
    (hme : w.tasks[me]? = some (.completing row)) :
    Inv capacity { w with
      failed_locks := w.failed_locks + 1, tasks := w.tasks.set me .losing } := by
  have hshift : Shift w { w with failed_locks := w.failed_locks + 1 } (.completing row)
      .losing := by
    constructor
    · rfl
    · rfl
    · intro hok
      refine ⟨hok, ?_, ?_, ?_, ?_⟩ <;>
        (simp [unit, Task.undecided, Task.incomplete, Task.isCounting]; try omega)
    · exact Or.inl (Or.inr rfl)
  exact h.step hme hshift (h.numbers.room_le hme le_rfl) (Or.inl ⟨rfl, fun hl => by cases hl⟩)
    (Nat.le_succ _) id (Or.inr le_rfl) trivial

/-- A freeze that found nothing in flight copies counts that balance. -/
theorem Inv.copies (h : Inv capacity w) {before dest : Snapshot}
    (hme : w.tasks[me]? = some (.copying before dest)) :
    Settled w ⟨window, w.records, w.counts⟩ w.observer_failed := by
  intro hok
  have hnumbers := h.numbers
  have hnone : w.tasks.countP Task.holds = 0 := by
    have := (h.fits me _ hme).2
    have := hnumbers.in_flight
    omega
  have hundecided := h.alone hme rfl Task.locked_of_undecided
  have hcounting := h.alone hme rfl Task.locked_of_counting
  have hincomplete := TaskCounts.countP_le w.tasks Task.holds_of_incomplete
  have hlosing := TaskCounts.countP_le w.tasks Task.holds_of_losing
  obtain ⟨b1, b2, b3, b4⟩ := hnumbers.balance hok
  have hunit : unit Task.undecided (.copying before dest) = 0 := rfl
  have hunit' : unit Task.isCounting (.copying before dest) = 0 := rfl
  refine ⟨⟨?_, ?_, b4, ?_⟩, ?_, ?_⟩
  · dsimp only
    omega
  · dsimp only
    omega
  · dsimp only
    omega
  · dsimp only
    omega
  · dsimp only
    rcases hnumbers.failures with hzero | hfailed | hpos
    · left
      omega
    · exact Or.inr hfailed
    · omega

/-- **Every step of a task** keeps what holds of the world. -/
theorem Inv.advance (h : Inv capacity w) (hme : w.tasks[me]? = some task) {chance : Chance}
    (hadvance : w.advance capacity window me chance task = some (w', task')) :
    Inv capacity { w' with tasks := w'.tasks.set me task' } := by
  have hfits := h.fits me task hme
  cases task with
  | asking =>
    cases hadvance
    split
    · exact h.moves hme .locking ⟨rfl, le_rfl, rfl, rfl, rfl, rfl⟩
        (Or.inl ⟨rfl, fun hl => hl⟩) trivial
    · exact h.moves hme .finished ⟨rfl, le_rfl, rfl, rfl, rfl, rfl⟩
        (Or.inl ⟨rfl, fun hl => hl⟩) trivial
  | locking =>
    dsimp only [World.advance] at hadvance
    split at hadvance
    · cases hadvance
      exact h.moves hme .reserveFailed ⟨rfl, le_rfl, rfl, rfl, rfl, rfl⟩
        (Or.inl ⟨rfl, fun hl => hl⟩) trivial
    · split at hadvance
      · rename_i hfree
        cases hadvance
        exact h.moves hme .asked ⟨rfl, le_rfl, rfl, rfl, rfl, rfl⟩
          (Or.inr (Or.inl ⟨hfree, rfl⟩)) trivial
      · cases hadvance
  | asked =>
    cases hadvance
    split
    · exact h.moves hme .observing ⟨rfl, le_rfl, rfl, rfl, rfl, rfl⟩
        (Or.inl ⟨rfl, fun _ => rfl⟩) trivial
    · exact h.moves hme (.reserved none) ⟨rfl, le_rfl, rfl, rfl, rfl, rfl⟩
        (Or.inl ⟨rfl, fun _ => rfl⟩) trivial
  | observing =>
    cases hadvance
    exact h.observing hme
  | measuring =>
    cases hadvance
    split
    · exact h.moves hme .overflowing ⟨rfl, le_rfl, rfl, rfl, rfl, rfl⟩
        (Or.inl ⟨rfl, fun _ => rfl⟩) trivial
    · rename_i hroom
      exact h.claims hme (by omega)
  | overflowing =>
    cases hadvance
    exact h.overflowing hme
  | claiming =>
    cases hadvance
    exact h.claiming hme
  | admitting =>
    cases hadvance
    exact h.admitting hme _
  | reserved slot =>
    cases hadvance
    cases slot with
    | none =>
      exact h.moves hme .finished ⟨rfl, le_rfl, rfl, rfl, rfl, rfl⟩
        (Or.inr (Or.inr ⟨rfl, rfl⟩)) trivial
    | some slot =>
      exact h.moves hme (.running slot) ⟨rfl, le_rfl, rfl, rfl, rfl, rfl⟩
        (Or.inr (Or.inr ⟨rfl, rfl⟩)) trivial
  | reserveFailed =>
    cases hadvance
    exact h.fails hme .finished rfl le_rfl rfl rfl rfl rfl trivial
  | running slot =>
    cases chance with
    | observes row =>
      cases hadvance
      exact h.moves hme (.completing { row with entry_ordinal := slot })
        ⟨rfl, le_rfl, rfl, rfl, rfl, rfl⟩ (Or.inl ⟨rfl, fun hl => hl⟩) trivial
    | _ => cases hadvance
  | completing row =>
    dsimp only [World.advance] at hadvance
    split at hadvance
    · cases hadvance
      exact h.loses hme
    · split at hadvance
      · rename_i hfree
        cases hadvance
        exact h.moves hme (.publishing row) ⟨rfl, le_rfl, rfl, rfl, rfl, rfl⟩
          (Or.inr (Or.inl ⟨hfree, rfl⟩)) trivial
      · cases hadvance
  | publishing row =>
    cases hadvance
    exact h.publishing hme
  | counting =>
    cases hadvance
    exact h.counting hme
  | dropping =>
    cases hadvance
    exact h.drops hme .published rfl rfl le_rfl rfl rfl rfl rfl (fun _ => rfl) trivial
  | published =>
    cases hadvance
    exact h.moves hme .finished ⟨rfl, le_rfl, rfl, rfl, rfl, rfl⟩
      (Or.inr (Or.inr ⟨rfl, rfl⟩)) trivial
  | losing =>
    cases hadvance
    exact h.fails hme .lost rfl le_rfl rfl rfl rfl rfl trivial
  | lost =>
    cases hadvance
    exact h.drops hme .finished rfl rfl (Nat.zero_le _) rfl rfl rfl rfl (fun hl => hl) trivial
  | finished => cases hadvance
  | stopping before dest =>
    cases hadvance
    exact h.moves hme (.trying before dest) ⟨rfl, le_rfl, rfl, rfl, rfl, rfl⟩
      (Or.inl ⟨rfl, fun hl => hl⟩) hfits
  | trying before dest =>
    dsimp only [World.advance] at hadvance
    split at hadvance
    · cases hadvance
      exact h.moves hme (.freezeFailed before dest) ⟨rfl, le_rfl, rfl, rfl, rfl, rfl⟩
        (Or.inl ⟨rfl, fun hl => hl⟩) hfits
    · split at hadvance
      · cases hadvance
        exact h.moves hme (.returned before dest false) ⟨rfl, le_rfl, rfl, rfl, rfl, rfl⟩
          (Or.inl ⟨rfl, fun hl => hl⟩) hfits
      · rename_i hmiss
        cases hadvance
        have hfree : w.holder = none := by
          by_contra hheld
          exact hmiss (by simp [hheld])
        exact h.moves hme (.draining before dest) ⟨rfl, le_rfl, rfl, rfl, rfl, rfl⟩
          (Or.inr (Or.inl ⟨hfree, rfl⟩)) hfits
  | draining before dest =>
    cases hadvance
    split
    · exact h.moves hme (.unlocking before dest false) ⟨rfl, le_rfl, rfl, rfl, rfl, rfl⟩
        (Or.inl ⟨rfl, fun _ => rfl⟩) hfits
    · rename_i hdrained
      exact h.moves hme (.copying before dest) ⟨rfl, le_rfl, rfl, rfl, rfl, rfl⟩
        (Or.inl ⟨rfl, fun _ => rfl⟩)
        ⟨hfits, by simpa using hdrained⟩
  | copying before dest =>
    cases hadvance
    exact h.moves hme (.flagging before _) ⟨rfl, le_rfl, rfl, rfl, rfl, rfl⟩
      (Or.inl ⟨rfl, fun _ => rfl⟩)
      (h.copies hme)
  | flagging before dest =>
    cases hadvance
    exact h.moves hme (.unlocking before _ true) ⟨rfl, le_rfl, rfl, rfl, rfl, rfl⟩
      (Or.inl ⟨rfl, fun _ => rfl⟩) fun hok => by
      obtain ⟨⟨c1, c2, c3, c4⟩, hrest⟩ := hfits hok
      exact ⟨⟨c1, c2, c3, c4⟩, hrest⟩
  | unlocking before dest result =>
    cases hadvance
    refine h.moves hme (.returned before dest result) ⟨rfl, le_rfl, rfl, rfl, rfl, rfl⟩
      (Or.inr (Or.inr ⟨rfl, rfl⟩)) ?_
    cases result with
    | true => exact hfits
    | false => exact hfits
  | freezeFailed before dest =>
    cases hadvance
    exact h.fails hme (.returned before dest false) rfl le_rfl rfl rfl rfl rfl hfits
  | returned before dest result => cases hadvance

/-- A task more, at its start. -/
theorem Inv.begins (h : Inv capacity w) {t : Task} (hlocked : t.locked = false)
    (h1 : unit Task.holds t = 0) (h2 : unit Task.budget t = 0) (h3 : unit Task.undecided t = 0)
    (h4 : unit Task.incomplete t = 0) (h5 : unit Task.isCounting t = 0)
    (hfits : Fits w t) : Inv capacity { w with tasks := w.tasks ++ [t] } where
  numbers := {
    in_flight := by
      have := h.numbers.in_flight
      simp only [TaskCounts.countP_snoc]
      omega
    room := by
      have := h.numbers.room
      simp only [TaskCounts.countP_snoc]
      omega
    balance := by
      intro hok
      obtain ⟨b1, b2, b3, b4⟩ := h.numbers.balance hok
      constructor <;> simp only [TaskCounts.countP_snoc] <;> omega
    failures := by
      simp only [TaskCounts.countP_snoc]
      rcases h.numbers.failures with hnone | hfailed | hlosing
      · exact Or.inl hnone
      · exact Or.inr (Or.inl hfailed)
      · exact Or.inr (Or.inr (by omega)) }
  guarded := by
    intro i s hs hl
    rcases AnsweredRun.getElem?_snoc hs with hold | ⟨-, rfl⟩
    · exact h.guarded i s hold hl
    · exact absurd (hl.symm.trans hlocked) (by decide)
  fits := by
    intro i s hs
    rcases AnsweredRun.getElem?_snoc hs with hold | ⟨-, rfl⟩
    · exact (h.fits i s hold).mono le_rfl id fun _ => le_rfl
    · exact hfits.mono le_rfl id fun _ => le_rfl

theorem Inv.move (h : Inv capacity w) (move : Move) :
    Inv capacity (w.move capacity window move) := by
  cases move with
  | invoke => exact h.begins rfl rfl rfl rfl rfl rfl trivial
  | freeze dest => exact h.begins rfl rfl rfl rfl rfl rfl rfl
  | stop_admissions =>
    exact {
      numbers := ⟨h.numbers.in_flight, h.numbers.room, fun hok => by
        obtain ⟨b1, b2, b3, b4⟩ := h.numbers.balance hok
        exact ⟨b1, b2, b3, b4⟩, h.numbers.failures⟩
      guarded := h.guarded
      fits := fun i t ht => (h.fits i t ht).mono le_rfl id fun _ => le_rfl }
  | step me chance =>
    unfold World.move
    dsimp only
    cases hme : w.tasks[me]? with
    | none => exact h
    | some task =>
      dsimp only
      cases hadvance : w.advance capacity window me chance task with
      | none => exact h
      | some pair => exact h.advance hme hadvance

end Step

theorem run_inv (capacity : Nat) (window : Window) (enabled : Bool) (moves : List Move) :
    Inv capacity (run capacity window enabled moves) := by
  induction moves using reverseRecOn with
  | nil => exact inv_new capacity enabled
  | append_singleton moves move ih =>
    unfold run at ih ⊢
    rw [foldl_append]
    exact ih.move move

section Freeze
variable {capacity : Nat} {w : World}

/-- Rows that are stored, and rows that may come from calls in flight. -/
theorem Inv.rows_le (h : Inv capacity w) :
    w.records.length + w.tasks.countP Task.inFlight ≤ capacity := by
  have hle := TaskCounts.countP_le w.tasks Task.budget_of_inFlight
  have := h.numbers.room
  omega

/-- A row that is about to be stored has a place in the array. -/
theorem Inv.slot_lt (h : Inv capacity w) {me : Nat} {row : RawRecord}
    (hme : w.tasks[me]? = some (.publishing row)) : w.records.length < capacity := by
  have hone := TaskCounts.unit_le_countP hme Task.budget
  have := h.numbers.room
  simp only [unit, Task.budget, if_true] at hone
  omega

/-- Between two uses of the mutex, and where a reservation compares them with the capacity, the
two sizes count no row twice. -/
theorem Inv.sizes_le (h : Inv capacity w) (hquiet : w.holder = none ∨ .measuring ∈ w.tasks) :
    w.records.length + w.in_flight ≤ capacity := by
  have hle : w.tasks.countP Task.holds ≤ w.tasks.countP Task.budget := by
    apply countP_mono_left
    intro t ht hholds
    by_cases hlocked : t.locked = true
    · obtain ⟨j, hj⟩ := mem_iff_getElem?.mp ht
      have hmine := h.guarded j t hj hlocked
      rcases hquiet with hfree | hmeasuring
      · cases hmine.symm.trans hfree
      · -- the task that measures is the one inside
        obtain ⟨i, hi⟩ := mem_iff_getElem?.mp hmeasuring
        obtain rfl := some.inj (hmine.symm.trans (h.guarded i _ hi rfl))
        cases some.inj (hj.symm.trans hi)
        cases hholds
    · exact Task.budget_of_holds t hholds (by simpa using hlocked)
  have hroom := h.numbers.room
  have hin := h.numbers.in_flight
  omega

/-- A freeze that failed left its destination as it was. -/
theorem Inv.unchanged (h : Inv capacity w) {me : Nat} {before dest : Snapshot}
    (hme : w.tasks[me]? = some (.returned before dest false)) : dest = before :=
  h.fits me _ hme

theorem Inv.frozen (h : Inv capacity w) {me : Nat} {before dest : Snapshot}
    (hme : w.tasks[me]? = some (.returned before dest true))
    (hok : dest.counts.counter_saturated = false) :
    Copied dest ∧ (w.failed_locks = 0 ∨ dest.counts.observer_failed = false →
      dest.counts.admitted_entries = dest.counts.completed_entries) := by
  obtain ⟨hcopied, hle, hreported⟩ := h.fits me _ hme hok
  refine ⟨hcopied, ?_⟩
  rintro (hnone | hsound)
  · have := hcopied.le
    omega
  · rcases hreported with heq | hfailed
    · exact heq
    · cases hsound.symm.trans hfailed

end Freeze

/-- What the observer promises of its rows and of a freeze. -/
structure Promise (capacity : Nat) (w : World) : Prop where
  rows_le : w.records.length + w.tasks.countP Task.inFlight ≤ capacity
  sizes_le : w.holder = none ∨ .measuring ∈ w.tasks → w.records.length + w.in_flight ≤ capacity
  slot_lt : ∀ (me : Nat) (row : RawRecord), w.tasks[me]? = some (.publishing row) →
    w.records.length < capacity
  counts : ∀ (me : Nat) (before dest : Snapshot), w.tasks[me]? = some (.returned before dest true) →
    dest.counts.counter_saturated = false →
    dest.counts.observed_entries = dest.counts.admitted_entries + dest.counts.overflow_entries ∧
      dest.counts.completed_entries = dest.counts.stored_entries +
        dest.counts.outside_before_entries + dest.counts.outside_after_entries ∧
      dest.counts.stored_entries = dest.records.length
  completed : ∀ (me : Nat) (before dest : Snapshot),
    w.tasks[me]? = some (.returned before dest true) →
    dest.counts.counter_saturated = false →
    w.failed_locks = 0 ∨ dest.counts.observer_failed = false →
    dest.counts.admitted_entries = dest.counts.completed_entries
  unchanged : ∀ (me : Nat) (before dest : Snapshot),
    w.tasks[me]? = some (.returned before dest false) → dest = before

/-- **The counts of a freeze balance.**  Whatever the threads do, rows and rows to come fit into
the array; a freeze copies counts that balance, if no counter was at its end, but for the
completions that could not take the mutex, which the copy reports as a failure. -/
theorem freeze_balanced (capacity : Nat) (window : Window) (enabled : Bool) (moves : List Move) :
    Promise capacity (run capacity window enabled moves) := by
  have h := run_inv capacity window enabled moves
  constructor
  · exact h.rows_le
  · exact h.sizes_le
  · intro me row hme
    exact h.slot_lt hme
  · intro me before dest hme hok
    obtain ⟨hcopied, -⟩ := h.frozen hme hok
    exact ⟨hcopied.observed, hcopied.completed, hcopied.stored⟩
  · intro me before dest hme hok hsound
    exact (h.frozen hme hok).2 hsound
  · intro me before dest hme
    exact h.unchanged hme

/-- One call that is over, but for the mutex that throws in its completion, and a freeze. -/
def failedLock : List Move :=
  [.invoke, .freeze {}] ++ replicate 8 (.step 0 .goes) ++ [.step 0 (.observes {}),
    .step 0 .throws] ++ replicate 2 (.step 0 .goes) ++ replicate 6 (.step 1 .goes)

/-- The freeze succeeds with a call that was admitted and never completed. -/
theorem freeze_unbalanced : ¬ ∀ (capacity : Nat) (window : Window) (enabled : Bool)
    (moves : List Move) (me : Nat) (before dest : Snapshot),
    (run capacity window enabled moves).tasks[me]? = some (.returned before dest true) →
      dest.counts.admitted_entries = dest.counts.completed_entries := by
  intro h
  have hcopy : (run 1 {} true failedLock).tasks[1]? = some (.returned {}
      ⟨{}, [], { observed_entries := 1, admitted_entries := 1, observer_failed := true }⟩
      true) := by decide
  exact absurd (h 1 {} true failedLock 1 _ _ hcopy) (by decide)

end Mcla.TimerObserver

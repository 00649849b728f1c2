import Mcla.Library.NestedRecorder

/-! # The owner-ready gate

`Deadline`, `Wait` and the two checks of `mcla_owner_ready_gate`, `waiting` and `signal` of
`mcla_owner_ready`, and what the offline `validate` asks of the clocks.

The two programs share two manual-reset events and a clock.  Each is a machine that takes one
operation on them at a time, so that they can be interleaved in any way, and any operation may fail.
-/
namespace Mcla.OwnerReady
open NestedRecorder

def INT64_MAX : Nat := 2 ^ 63 - 1

/-- `max` in `Deadline` -/
def kMax : UInt64 := 0x7FFFFFFFFFFFFFFF

/-- The window of a handshake. -/
structure Window where
  (begin_ end_ frequency : UInt64)
deriving DecidableEq

/-- `Deadline` -/
def deadline (w : Window) : Except String UInt64 := do
  need (10 ≤ w.frequency ∧ w.frequency ≤ 10000000000 ∧ 0 < w.begin_ ∧
    w.begin_ ≤ kMax - 180 * w.frequency ∧ w.end_ = w.begin_ + 180 * w.frequency)
    "OWNER_READY_INVALID_JOURNAL_WINDOW"
  return w.end_ - 60 * w.frequency

/-- The clocks that each side has taken. -/
structure Evidence where
  window : Window
  deadline : Nat
  (opened waiting_before waiting_after ready_before ready_after : Nat := 0)
deriving DecidableEq

/-- `ValidateSource` -/
def validateSource (e : Evidence) (observation : Nat) : Except String Unit :=
  need (e.ready_after ≤ observation ∧ observation < e.deadline) "OWNER_READY_SOURCE_OUTSIDE_BUDGET"

/-- `ValidateCut` -/
def validateCut (e : Evidence) (cut : Nat) : Except String Unit :=
  need (e.ready_after ≤ cut ∧ cut < e.window.end_.toNat) "OWNER_READY_CUT_OUTSIDE_JOURNAL"

/-! ### The events and the clock -/

/-- What a poll of the event returns. -/
inductive Poll where
  | kEmpty | kSignaled | kFailed
deriving DecidableEq

/-- The clocks around a signal. -/
structure Signal where
  (signal_before_qpc signal_after_qpc : Nat)
deriving DecidableEq

/-- What happens on the way. -/
inductive Happening where
  | announced
  | set (before : Nat)
  | signalled (signal : Signal)
  | returned (evidence : Evidence)
deriving DecidableEq

/-- The two events and the clock, and what has happened, the latest first. -/
structure Shared where
  clock : Nat
  (ready waiting : Bool := false)
  trace : List Happening := []

/-- The reading of the clock: the call may fail, and gives a positive `int64_t`. -/
def Shared.qpc (s : Shared) (failed : Bool) : Option Nat :=
  if failed then none else if 0 < s.clock ∧ s.clock ≤ INT64_MAX then some s.clock else none

/-- `PollEvent` -/
def poll (event failed : Bool) : Poll :=
  if failed then .kFailed else if event then .kSignaled else .kEmpty

/-! ### `Wait` -/

/-- The operation that comes next. -/
inductive Place where
  | opened
  | freshReady
  | freshWaiting
  | waiting_before
  | announce
  | waiting_after
  | ready_before
  | ready
  | ready_after (status : Poll)
  | pause
  | returned
  | thrown (error : String)
deriving DecidableEq

/-- A `Wait` under way. -/
structure Native where
  place : Place
  previous : Nat
  out : Evidence

/-- `Wait` before its first operation. -/
def Native.start (w : Window) (d : UInt64) : Native where
  place := .opened
  previous := w.begin_.toNat
  out := { window := w, deadline := d.toNat }

/-- The wait raises an error. -/
def Native.throw (n : Native) (error : String) : Native := { n with place := .thrown error }

/-- The lambda `clock`, on what `now` gave; `next` goes on with the reading. -/
def Native.clock (n : Native) (stop : Bool) (now : Option Nat) (next : Nat → Native) : Native :=
  if stop then n.throw "OWNER_READY_CANCELLED"
  else match now with
    | none => n.throw "OWNER_READY_QPC_FAILED"
    | some value =>
      if n.previous ≤ value ∧ value < n.out.deadline then next value
      else n.throw "OWNER_READY_CLOCK_OR_DEADLINE"

/-- One operation of `Wait`.  `stop` is what the stop token says and `failed` whether the operation
fails. -/
def Native.step (stop failed : Bool) (s : Shared) (n : Native) : Shared × Native :=
  match n.place with
  | .opened => (s, n.clock stop (s.qpc failed) fun value =>
      { n with place := .freshReady, previous := value, out.opened := value })
  | .freshReady => (s, if poll s.ready failed = .kEmpty then { n with place := .freshWaiting }
      else n.throw "OWNER_READY_OBJECT_NOT_FRESH")
  | .freshWaiting => (s, if poll s.waiting failed = .kEmpty then { n with place := .waiting_before }
      else n.throw "OWNER_READY_OBJECT_NOT_FRESH")
  | .waiting_before => (s, n.clock stop (s.qpc failed) fun value =>
      { n with place := .announce, previous := value, out.waiting_before := value })
  | .announce =>
      if failed then (s, n.throw "OWNER_READY_ANNOUNCE_FAILED")
      else ({ s with waiting := true, trace := .announced :: s.trace },
        { n with place := .waiting_after })
  | .waiting_after => (s, n.clock stop (s.qpc failed) fun value =>
      { n with place := .ready_before, previous := value, out.waiting_after := value })
  | .ready_before => (s, n.clock stop (s.qpc failed) fun value =>
      { n with place := .ready, previous := value, out.ready_before := value })
  | .ready => (s, { n with place := .ready_after (poll s.ready failed) })
  | .ready_after status =>
      let read := n.clock stop (s.qpc failed) fun value =>
        { n with
          place := match status with
            | .kFailed => .thrown "OWNER_READY_POLL_FAILED"
            | .kSignaled => .returned
            | .kEmpty => .pause
          previous := value
          out.ready_after := value }
      if read.place = .returned then ({ s with trace := .returned read.out :: s.trace }, read)
      else (s, read)
  | .pause => (s, { n with place := .ready_before })
  | .returned => (s, n)
  | .thrown _ => (s, n)

/-! ### `NativeEvents` -/

/-- The calls of `NativeEvents`. -/
inductive Call where
  | waiting | signal
deriving DecidableEq

/-- The operation that comes next in a call. -/
inductive At where
  | idle
  | asked (call : Call)
  | ready
  | before
  | set (before : Nat)
  | after (before : Nat)
deriving DecidableEq

/-- The answering side, between two operations. -/
structure NativeEvents where
  place : At := .idle
  sent : Bool := false

/-- A call is made, both handles being held; one after a signal raises. -/
def NativeEvents.enter (call : Call) (v : NativeEvents) : NativeEvents :=
  if v.sent then v else { v with place := .asked call }

/-- One operation of a call.  A call that raises leaves the place idle. -/
def NativeEvents.step (failed : Bool) (s : Shared) (v : NativeEvents) : Shared × NativeEvents :=
  match v.place with
  | .idle => (s, v)
  | .asked .waiting => (s, { v with place := .idle })
  | .asked .signal =>
      (s, { v with place := if poll s.waiting failed = .kSignaled then .ready else .idle })
  | .ready => (s, { v with place := if poll s.ready failed = .kEmpty then .before else .idle })
  | .before => match s.qpc failed with
    | none => (s, { v with place := .idle })
    | some before => (s, { v with place := .set before })
  | .set before =>
      if failed then (s, { v with place := .idle })
      else ({ s with ready := true, trace := .set before :: s.trace }, ⟨.after before, true⟩)
  | .after before => match s.qpc failed with
    | none => (s, { v with place := .idle })
    | some after =>
      if before ≤ after then
        ({ s with trace := .signalled ⟨before, after⟩ :: s.trace }, { v with place := .idle })
      else (s, { v with place := .idle })

/-! ### Both together -/

/-- Both sides, and what they share. -/
structure System where
  shared : Shared
  native : Native
  events : NativeEvents

/-- The clock goes on, or one of the two takes an operation. -/
inductive Step : System → System → Prop where
  | tick (z : System) (clock : Nat) (h : z.shared.clock ≤ clock) :
      Step z { z with shared.clock := clock }
  | native (z : System) (stop failed : Bool) :
      Step z { z with
        shared := (z.native.step stop failed z.shared).1
        native := (z.native.step stop failed z.shared).2 }
  | call (z : System) (call : Call) (h : z.events.place = .idle) :
      Step z { z with events := z.events.enter call }
  | events (z : System) (failed : Bool) :
      Step z { z with
        shared := (z.events.step failed z.shared).1
        events := (z.events.step failed z.shared).2 }

/-- What runs on a window reach. -/
inductive Reachable (w : Window) (d : UInt64) : System → Prop where
  | start (clock : Nat) : Reachable w d ⟨{ clock := clock }, .start w d, {}⟩
  | step {z z' : System} (h : Reachable w d z) (hstep : Step z z') : Reachable w d z'

/-- A move in which nothing fails. -/
inductive Move where
  | tick (clock : Nat)
  | native
  | call (call : Call)
  | events

/-- One move of a run. -/
def System.move (z : System) : Move → System
  | .tick clock => { z with shared.clock := max z.shared.clock clock }
  | .native => { z with
      shared := (z.native.step false false z.shared).1
      native := (z.native.step false false z.shared).2 }
  | .call call => if z.events.place = .idle then { z with events := z.events.enter call } else z
  | .events => { z with
      shared := (z.events.step false z.shared).1
      events := (z.events.step false z.shared).2 }

theorem Reachable.move {w : Window} {d : UInt64} {z : System} (h : Reachable w d z) (move : Move) :
    Reachable w d (z.move move) := by
  cases move with
  | tick clock => exact h.step (.tick z _ (le_max_left _ _))
  | native => exact h.step (.native z false false)
  | call call =>
    unfold System.move
    split_ifs with hidle
    · exact h.step (.call z call hidle)
    · exact h
  | events => exact h.step (.events z false)

theorem Reachable.moves {w : Window} {d : UInt64} {z : System} (h : Reachable w d z)
    (moves : List Move) : Reachable w d (moves.foldl System.move z) := by
  induction moves generalizing z with
  | nil => exact h
  | cons move moves ih => exact ih (h.move move)

/-! ### The offline check -/

/-- The numbers of the sidecar, without those of the cut. -/
structure Sidecar where
  (frequency journal_begin_qpc journal_end_qpc ready_deadline_qpc opened_qpc waiting_before_qpc
    waiting_after_qpc ready_before_qpc ready_after_qpc source_observed_qpc : Int)

/-- `NUMBERS` -/
def Sidecar.numbers (value : Sidecar) : List Int :=
  [value.frequency, value.journal_begin_qpc, value.journal_end_qpc, value.ready_deadline_qpc,
    value.opened_qpc, value.waiting_before_qpc, value.waiting_after_qpc, value.ready_before_qpc,
    value.ready_after_qpc, value.source_observed_qpc]

/-- `keys` -/
def Sidecar.keys (value : Sidecar) : List Int :=
  [value.journal_begin_qpc, value.opened_qpc, value.waiting_before_qpc, value.waiting_after_qpc,
    value.ready_before_qpc, value.ready_after_qpc, value.source_observed_qpc]

/-- The checks of `validate` on the numbers of a sidecar and a signal. -/
def validateClocks (value : Sidecar) (before after : Int) : Except String Unit := do
  need (∀ number ∈ value.numbers, 0 < number ∧ number ≤ INT64_MAX) "owner-ready integers"
  need (10 ≤ value.frequency ∧ value.frequency ≤ 10 ^ 10 ∧
    value.journal_end_qpc = value.journal_begin_qpc + 180 * value.frequency ∧
    value.ready_deadline_qpc = value.journal_end_qpc - 60 * value.frequency)
    "owner-ready unchanged horizon"
  need ((∀ pair ∈ value.keys.zip value.keys.tail, pair.1 ≤ pair.2) ∧
    value.source_observed_qpc < value.ready_deadline_qpc) "owner-ready ordered clock brackets"
  need (value.waiting_before_qpc ≤ before ∧ before ≤ after ∧ after < value.ready_deadline_qpc ∧
    before ≤ value.ready_after_qpc) "owner-ready signal clock bracket"

/-- What `validate` asks of `freeze_qpc` besides the source's schedule. -/
def validateFreeze (value : Sidecar) (freeze_qpc : Int) : Except String Unit := do
  need (0 < freeze_qpc ∧ freeze_qpc ≤ INT64_MAX) "owner-ready integers"
  need (freeze_qpc < value.journal_end_qpc) "owner-ready actual cut inside horizon"

/-- The sidecar of an evidence and a source observation. -/
def sidecar (e : Evidence) (observation : Nat) : Sidecar where
  frequency := e.window.frequency.toNat
  journal_begin_qpc := e.window.begin_.toNat
  journal_end_qpc := e.window.end_.toNat
  ready_deadline_qpc := e.deadline
  opened_qpc := e.opened
  waiting_before_qpc := e.waiting_before
  waiting_after_qpc := e.waiting_after
  ready_before_qpc := e.ready_before
  ready_after_qpc := e.ready_after
  source_observed_qpc := observation

end Mcla.OwnerReady

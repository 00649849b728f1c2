import Mcla.Observers.WorkerIteration

/-! # The edges of the renders

A reader of the handoff journal goes once through the rows of all workers, one row for each
answer of a worker's core, in the order in which they were written.  For each worker it keeps the
last wait entry, the eligible wait and the last dispatch, and to a render with a phase it attaches
what it has kept.  These are the rows of the iteration that the render belongs to.
-/
namespace Mcla.WorkerHandoff
open WorkerIteration List

/-! ### Rows -/

/-- What is constant over the life of a worker. -/
structure Lifetime where
  native_thread_id : Nat := 0
  key : Key := {}

def Lifetime.pair (l : Lifetime) : Nat × Nat := (l.key.thread_epoch, l.key.worker_serial)

/-- A row of the journal of workers. -/
structure Row where
  (qpc thread_epoch worker_serial native_thread_id context base owner object_epoch event reason
    helper operation dispatch phase_call_id retired_operation retirement_reason : Nat := 0)
  (eligible phase_bound : Bool := false)

def Row.pair (row : Row) : Nat × Nat := (row.thread_epoch, row.worker_serial)

/-- The numbers of the enumerations, as the rows have them. -/
def eventNumber : Event → Nat
  | .kIgnored => 0
  | .kEntered => 1
  | .kWaitEntered => 2
  | .kWaitEligible => 3
  | .kWaitRejected => 4
  | .kDispatchEntered => 5
  | .kRenderConsumed => 6
  | .kDispatchCompleted => 7
  | .kExited => 8
  | .kFrozen => 9
  | .kFault => 10

def reasonNumber : Reason → Nat
  | .kNone => 0
  | .kInactive => 1
  | .kTerminal => 2
  | .kBadKey => 3
  | .kClock => 4
  | .kState => 5
  | .kIdentity => 6
  | .kCaller => 7
  | .kObject => 8
  | .kExtraOperation => 9
  | .kMissingOperation => 10
  | .kOutcome => 11
  | .kNullHandle => 12
  | .kWaitUnsuccessful => 13
  | .kUnwind => 14
  | .kDuplicateRender => 15
  | .kNextWait => 16
  | .kNoRender => 17
  | .kWorkerExit => 18
  | .kFreeze => 19
  | .kObserverFault => 20

/-- The row of an answer. -/
def rowOf (l : Lifetime) (qpc : Nat) (t : Transition) : Row where
  qpc := qpc
  thread_epoch := l.key.thread_epoch
  worker_serial := l.key.worker_serial
  native_thread_id := l.native_thread_id
  context := l.key.lane.context
  base := l.key.lane.base
  owner := l.key.owner
  object_epoch := l.key.object_epoch
  event := eventNumber t.event
  reason := reasonNumber t.reason
  helper := t.helper_id
  operation := t.operation_id
  dispatch := t.dispatch_id
  phase_call_id := t.phase_call_id
  retired_operation := t.retired_wait_operation
  retirement_reason := reasonNumber t.retirement_reason
  eligible := t.eligible
  phase_bound := t.phase_bound

/-- The clock that a call is given. -/
def clockOf : Call → Nat
  | .enter _ qpc => qpc
  | .waitEnter _ qpc _ _ _ => qpc
  | .waitExit _ qpc _ _ _ => qpc
  | .dispatchEnter _ qpc _ _ _ => qpc
  | .render _ qpc _ _ => qpc
  | .dispatchExit _ qpc _ _ => qpc
  | .exit _ qpc _ => qpc
  | .freeze _ qpc => qpc
  | .observerFault => 0

/-! ### Many workers -/

section Workers
variable {ι : Type} [DecidableEq ι] (lifetime : ι → Lifetime)

/-- The cores of the workers, and the rows that were written of their answers. -/
structure Workers (ι : Type) where
  core : ι → Worker := fun _ => {}
  worker_events : List Row := []

/-- A call on the core of one worker. -/
def Workers.next (s : Workers ι) (call : ι × Call) : Workers ι where
  core := Function.update s.core call.1 ((s.core call.1).call call.2).1
  worker_events := s.worker_events ++
    [rowOf (lifetime call.1) (clockOf call.2) ((s.core call.1).call call.2).2]

/-- The calls on all workers, in the order in which they are made. -/
def journal (calls : List (ι × Call)) : Workers ι := calls.foldl (Workers.next lifetime) {}

end Workers

/-! ### The reader -/

/-- A render, and what is known of its wait, its dispatch and its wait entry. -/
structure Edge where
  event : Row
  (wait dispatch wait_entry : Option Row)

/-- What the reader keeps of the rows so far. -/
structure Reader where
  render_events : Nat → List Edge := fun _ => []
  (eligible dispatches wait_entries : Nat × Nat → Option Row := fun _ => none)

namespace Reader

/-- Everything but the edges, of one row. -/
def kept (r : Reader) (event : Row) : Reader :=
  let key := event.pair
  let kind := event.event
  let r := if kind ∈ [2, 4, 7, 8, 9, 10] then
      { r with
        eligible := Function.update r.eligible key none
        dispatches := Function.update r.dispatches key none }
    else r
  let r := if kind = 2 then
      { r with wait_entries := Function.update r.wait_entries key (some event) }
    else r
  let r := if kind ∈ [7, 8, 9, 10] then
      { r with wait_entries := Function.update r.wait_entries key none }
    else r
  let r := if kind = 3 ∧ event.eligible = true then
      { r with eligible := Function.update r.eligible key (some event) }
    else r
  if kind = 5 then
    { r with dispatches := Function.update r.dispatches key (some event) }
  else r

/-- The reader takes in one row. -/
def next (r : Reader) (event : Row) : Reader :=
  let key := event.pair
  let r := r.kept event
  if event.event = 6 then
    let edge : Edge := ⟨event, r.eligible key, r.dispatches key, r.wait_entries key⟩
    let r := { r with eligible := Function.update r.eligible key none }
    if event.phase_bound then
      { r with
        render_events := Function.update r.render_events event.phase_call_id
          (r.render_events event.phase_call_id ++ [edge]) }
    else r
  else r

end Reader

/-- The reader after some rows. -/
def evaluate (rows : List Row) : Reader := rows.foldl Reader.next {}

/-! ### What a call answers -/

/-- A call of a worker that has entered, at a new clock. -/
structure Clocked (w w' : Worker) (qpc : Nat) : Prop where
  later : w.last_qpc ≤ qpc
  last : w'.last_qpc = qpc
  entered : w'.entered = true

/-- What a call that is no fault does to the iteration of its worker, and what it answers. -/
inductive Answer (w : Worker) (qpc : Nat) (w' : Worker) (t : Transition) : Prop where
  | ignored (hterminal : w.terminal = true) (hsame : w' = w) (hevent : t.event = .kIgnored)
  | entered (hopen : w.terminal = false) (hentered : w.entered = false)
      (hevent : t.event = .kEntered) (hstate : w'.state = w.state)
      (hslot : w'.eligible = w.eligible)
  | waitEntered (hopen : w.terminal = false) (hevent : t.event = .kWaitEntered)
      (hstate : w'.state = .kWait) (hhelper : t.helper_id = w'.helper) (hpos : 0 < w'.helper)
      (hoperation : t.operation_id = 0) (heligible : t.eligible = false)
      (hclock : Clocked w w' qpc)
  | waitRejected (hopen : w.terminal = false) (hevent : t.event = .kWaitRejected)
      (hwait : w.state = .kWait) (hstate : w'.state = .kIdle) (hslot : w'.eligible = w.eligible)
      (hclock : Clocked w w' qpc)
  | waitEligible (hopen : w.terminal = false) (hevent : t.event = .kWaitEligible)
      (hwait : w.state = .kWait) (hstate : w'.state = .kIdle) (hhelper : w'.helper = w.helper)
      (htold : t.helper_id = w.helper) (hoperation : w'.operation = w'.eligible)
      (htoldop : t.operation_id = w'.eligible) (heligible : t.eligible = true)
      (hclock : Clocked w w' qpc)
  | dispatchEntered (hopen : w.terminal = false) (hevent : t.event = .kDispatchEntered)
      (hidle : w.state = .kIdle) (hstate : w'.state = .kDispatch) (hhelper : w'.helper = w.helper)
      (hoperation : w'.operation = w.operation) (hslot : w'.eligible = w.eligible)
      (htold : t.helper_id = w.helper) (htoldop : t.operation_id = w.operation)
      (hdispatch : t.dispatch_id = w'.dispatch) (hpos : 0 < w'.dispatch)
      (heligible : t.eligible = decide (w.eligible ≠ 0)) (hclock : Clocked w w' qpc)
  | rendered (hopen : w.terminal = false) (hevent : t.event = .kRenderConsumed)
      (hdispatch : w.state = .kDispatch) (hstate : w'.state = .kDispatch)
      (hslot : w'.eligible = 0) (htold : t.helper_id = w.helper)
      (htoldop : t.operation_id = w.eligible) (htolddispatch : t.dispatch_id = w.dispatch)
      (heligible : t.eligible = decide (w.eligible ≠ 0))
      (hbound : t.phase_bound = true → w.eligible ≠ 0) (hclock : Clocked w w' qpc)
  | dispatchCompleted (hopen : w.terminal = false) (hevent : t.event = .kDispatchCompleted)
      (hdispatch : w.state = .kDispatch) (hstate : w'.state = .kIdle)
      (hslot : w'.eligible = 0 ∨ w.render_seen = true ∧ w'.eligible = w.eligible)
      (hclock : Clocked w w' qpc)
  | left (hevent : t.event = .kExited ∨ t.event = .kFrozen) (hterminal : w'.terminal = true)

/-- An answer that is a fault says nothing here. -/
def Told (w : Worker) (qpc : Nat) (s : Worker × Transition) : Prop :=
  s.2.event ≠ .kFault → Answer w qpc s.1 s.2

section Answers
variable {w : Worker}

theorem fault_told {v : Worker} (hopen : v.terminal = false) (qpc : Nat) (reason : Reason) :
    Told w qpc (v.fault reason) := by
  intro hfault
  refine absurd ?_ hfault
  unfold Worker.fault
  rw [if_neg (by simp [hopen])]
  simp [Worker.record]

theorem fault_told_self (w : Worker) (qpc : Nat) (reason : Reason) :
    Told w qpc (w.fault reason) := by
  by_cases hterminal : w.terminal = true
  · intro _
    unfold Worker.fault
    rw [if_pos hterminal]
    exact .ignored hterminal rfl rfl
  · exact fault_told (by simpa using hterminal) qpc reason

/-- The check fails, or the call goes on at a new clock. -/
theorem check_told {key : Key} {qpc : Nat} {next : Worker → Worker × Transition}
    (hnext : ({ w with last_qpc := qpc } : Worker).terminal = false → w.last_qpc ≤ qpc →
      w.entered = true → Told w qpc (next { w with last_qpc := qpc })) :
    Told w qpc (match w.check key qpc with
      | .error failure => failure
      | .ok w => next w) := by
  unfold Worker.check
  by_cases hterminal : w.terminal = true
  · rw [if_pos hterminal]
    exact fun _ => .ignored hterminal rfl rfl
  · rw [if_neg hterminal]
    split_ifs with hentered hkey hclock
    · exact fault_told_self w qpc _
    · exact fault_told_self w qpc _
    · exact fault_told_self w qpc _
    · simp only [Worker.clock, Bool.not_eq_true', Bool.not_eq_false, Bool.and_eq_true,
        decide_eq_true_eq] at hclock
      have hopen : w.terminal = false := by simpa using hterminal
      exact hnext hopen hclock.2 (by simpa using hentered)

theorem enter_told (key : Key) (qpc : Nat) : Told w qpc (w.enter key qpc) := by
  unfold Worker.enter
  split
  · exact fault_told_self w qpc _
  · rename_i hstart
    simp only [Bool.or_eq_true, not_or, Bool.not_eq_true] at hstart
    obtain ⟨⟨⟨hentered, hfailed⟩, hfrozen⟩, hexited⟩ := hstart
    split
    · exact fault_told_self w qpc _
    · split
      · exact fault_told_self w qpc _
      · intro _
        refine .entered ?_ hentered rfl rfl rfl
        unfold Worker.terminal
        rw [hfailed, hfrozen, hexited]
        rfl

theorem waitEnter_told (key : Key) (qpc helper_id caller_lr guest_handle : Nat) :
    Told w qpc (w.waitEnter key qpc helper_id caller_lr guest_handle) := by
  unfold Worker.waitEnter
  refine check_told fun hopen hlater hentered => ?_
  dsimp only
  split
  · exact fault_told hopen qpc _
  · split
    · exact fault_told hopen qpc _
    · split
      · exact fault_told hopen qpc _
      · rename_i hhelper
        simp only [Bool.or_eq_true, decide_eq_true_eq] at hhelper
        intro _
        refine .waitEntered hopen ?_ rfl rfl (by simp only; omega) rfl rfl ⟨hlater, ?_, ?_⟩
        · exact Worker.retire_event _ _ _
        · simp only [Worker.retire_fst, Worker.retired]
        · simpa only [Worker.retire_fst, Worker.retired] using hentered

theorem waitExit_told (key : Key) (qpc helper_id : Nat) (normal_return : Bool)
    (observation : Option ValidatedWait) :
    Told w qpc (w.waitExit key qpc helper_id normal_return observation) := by
  unfold Worker.waitExit
  refine check_told fun hopen hlater hentered => ?_
  dsimp only
  split
  · exact fault_told hopen qpc _
  · rename_i hstate
    have hwait : w.state = .kWait := by
      simp only [Bool.or_eq_true, not_or] at hstate
      simpa using hstate.1
    split
    · exact fault_told hopen qpc _
    · split
      · split
        · exact fault_told hopen qpc _
        · exact fun _ => .waitRejected hopen rfl hwait rfl rfl ⟨hlater, rfl, hentered⟩
      · split
        · exact fault_told hopen qpc _
        · split
          · exact fun _ => .waitRejected hopen rfl hwait rfl rfl ⟨hlater, rfl, hentered⟩
          · rename_i o hvalid _
            have hpos := (Worker.validated_ok hvalid).2.1
            intro _
            refine .waitEligible hopen rfl hwait rfl rfl rfl rfl rfl ?_ ⟨hlater, rfl, hentered⟩
            exact decide_eq_true (by simp only at hpos ⊢; omega)

theorem dispatchEnter_told (key : Key) (qpc dispatch_id caller_lr closure_address : Nat) :
    Told w qpc (w.dispatchEnter key qpc dispatch_id caller_lr closure_address) := by
  unfold Worker.dispatchEnter
  refine check_told fun hopen hlater hentered => ?_
  dsimp only
  split
  · exact fault_told hopen qpc _
  · rename_i hstate
    split
    · exact fault_told hopen qpc _
    · split
      · exact fault_told hopen qpc _
      · split
        · exact fault_told hopen qpc _
        · rename_i hdispatch
          simp only [Bool.or_eq_true, decide_eq_true_eq] at hdispatch
          intro _
          exact .dispatchEntered hopen rfl (by simpa using hstate) rfl rfl rfl rfl rfl rfl rfl
            (by simp only; omega) rfl ⟨hlater, rfl, hentered⟩

theorem render_told (key : Key) (qpc phase_call_id caller_lr : Nat) :
    Told w qpc (w.render key qpc phase_call_id caller_lr) := by
  unfold Worker.render
  refine check_told fun hopen hlater hentered => ?_
  dsimp only
  split
  · exact fault_told hopen qpc _
  · rename_i hstate
    have hdispatch : w.state = .kDispatch := by simpa using hstate
    split
    · exact fault_told hopen qpc _
    · split
      · exact fault_told hopen qpc _
      · split
        · exact fault_told hopen qpc _
        · intro _
          refine .rendered hopen rfl hdispatch hdispatch rfl rfl rfl rfl rfl ?_
            ⟨hlater, rfl, hentered⟩
          intro hbound
          simp only [Bool.and_eq_true, decide_eq_true_eq] at hbound
          exact hbound.1

theorem dispatchExit_told (key : Key) (qpc dispatch_id : Nat) (normal_return : Bool) :
    Told w qpc (w.dispatchExit key qpc dispatch_id normal_return) := by
  unfold Worker.dispatchExit
  refine check_told fun hopen hlater hentered => ?_
  dsimp only
  split
  · exact fault_told hopen qpc _
  · rename_i hstate
    have hdispatch : w.state = .kDispatch := by
      simp only [Bool.or_eq_true, not_or] at hstate
      simpa using hstate.1
    split
    · exact fault_told hopen qpc _
    · intro _
      by_cases hseen : w.render_seen = true
      · simp only [if_pos hseen]
        exact .dispatchCompleted hopen rfl hdispatch rfl (Or.inr ⟨hseen, rfl⟩)
          ⟨hlater, rfl, hentered⟩
      · simp only [if_neg hseen]
        refine .dispatchCompleted hopen ?_ hdispatch rfl (Or.inl ?_) ⟨hlater, ?_, ?_⟩
        · exact Worker.retire_event _ _ _
        · simp only [Worker.retire_fst, Worker.retired, Worker.clearWait]
        · simp only [Worker.retire_fst, Worker.retired, Worker.clearWait]
        · simpa only [Worker.retire_fst, Worker.retired, Worker.clearWait] using hentered

theorem exit_told (key : Key) (qpc : Nat) (normal_return : Bool) :
    Told w qpc (w.exit key qpc normal_return) := by
  unfold Worker.exit
  refine check_told fun hopen hlater hentered => ?_
  dsimp only
  split
  · exact fault_told hopen qpc _
  · split
    · exact fault_told hopen qpc _
    · intro _
      refine .left (Or.inl (Worker.retire_event _ _ _)) ?_
      simp [Worker.terminal]

theorem freeze_told (key : Key) (qpc : Nat) : Told w qpc (w.freeze key qpc) := by
  unfold Worker.freeze
  refine check_told fun hopen hlater hentered => ?_
  intro _
  refine .left (Or.inr (Worker.retire_event _ _ _)) ?_
  simp [Worker.terminal]

/-- **Every call** that is no fault has one of these answers. -/
theorem call_told (w : Worker) (call : Call) : Told w (clockOf call) (w.call call) := by
  cases call with
  | enter key qpc => exact enter_told key qpc
  | waitEnter key qpc helper caller handle => exact waitEnter_told key qpc helper caller handle
  | waitExit key qpc helper normal observation =>
    exact waitExit_told key qpc helper normal observation
  | dispatchEnter key qpc dispatch caller closure =>
    exact dispatchEnter_told key qpc dispatch caller closure
  | render key qpc phase caller => exact render_told key qpc phase caller
  | dispatchExit key qpc dispatch normal => exact dispatchExit_told key qpc dispatch normal
  | exit key qpc normal => exact exit_told key qpc normal
  | freeze key qpc => exact freeze_told key qpc
  | observerFault => exact fault_told_self w 0 _

end Answers

/-! ### What the reader keeps of a worker -/

section Kept
variable {r : Reader} {event : Row}

/-- Two readers keep the same rows of a worker. -/
structure SameAt (key : Nat × Nat) (r r' : Reader) : Prop where
  eligible : r'.eligible key = r.eligible key
  dispatches : r'.dispatches key = r.dispatches key
  wait_entries : r'.wait_entries key = r.wait_entries key

theorem SameAt.ite {key : Nat × Nat} {c : Prop} [Decidable c] {r r' r'' : Reader}
    (h : SameAt key r r') (h' : SameAt key r' r'') : SameAt key r (if c then r'' else r') := by
  split
  · exact ⟨h'.eligible.trans h.eligible, h'.dispatches.trans h.dispatches,
      h'.wait_entries.trans h.wait_entries⟩
  · exact h

/-- A row says nothing of other workers. -/
theorem sameAt_kept {key : Nat × Nat} (h : key ≠ event.pair) : SameAt key r (r.kept event) := by
  unfold Reader.kept
  -- the steps of the row, the last one first
  refine SameAt.ite ?_ ⟨rfl, Function.update_of_ne h _ _, rfl⟩
  refine SameAt.ite ?_ ⟨Function.update_of_ne h _ _, rfl, rfl⟩
  refine SameAt.ite ?_ ⟨rfl, rfl, Function.update_of_ne h _ _⟩
  refine SameAt.ite ?_ ⟨rfl, rfl, Function.update_of_ne h _ _⟩
  refine SameAt.ite ⟨rfl, rfl, rfl⟩ ?_
  exact ⟨Function.update_of_ne h _ _, Function.update_of_ne h _ _, rfl⟩

theorem sameAt_next {key : Nat × Nat} (h : key ≠ event.pair) : SameAt key r (r.next event) := by
  have hkept := sameAt_kept (r := r) h
  unfold Reader.next
  refine hkept.ite ?_
  have hrendered : SameAt key (r.kept event) { r.kept event with
      eligible := Function.update (r.kept event).eligible event.pair none } :=
    ⟨Function.update_of_ne h _ _, rfl, rfl⟩
  exact hrendered.ite ⟨rfl, rfl, rfl⟩

theorem kept_render_events : (r.kept event).render_events = r.render_events := by
  unfold Reader.kept
  simp only [apply_ite Reader.render_events, ite_self]

/-- Rows that are no render add no edge. -/
theorem next_render_events (h : event.event ≠ 6) :
    (r.next event).render_events = r.render_events := by
  unfold Reader.next
  dsimp only
  rw [if_neg h, kept_render_events]

theorem next_waitEntered (h : event.event = 2) :
    (r.next event).wait_entries event.pair = some event := by
  simp [Reader.next, Reader.kept, h]

theorem next_waitEligible (h : event.event = 3) (heligible : event.eligible = true) :
    (r.next event).eligible event.pair = some event ∧
      (r.next event).wait_entries = r.wait_entries := by
  simp [Reader.next, Reader.kept, h, heligible]

theorem next_dispatchEntered (h : event.event = 5) :
    (r.next event).dispatches event.pair = some event ∧
      (r.next event).eligible = r.eligible ∧ (r.next event).wait_entries = r.wait_entries := by
  simp [Reader.next, Reader.kept, h]

/-- A render adds the edge of what was kept, if it has a phase. -/
theorem next_rendered (h : event.event = 6) :
    (r.next event).render_events = if event.phase_bound then
      Function.update r.render_events event.phase_call_id
        (r.render_events event.phase_call_id ++
          [⟨event, r.eligible event.pair, r.dispatches event.pair, r.wait_entries event.pair⟩])
      else r.render_events := by
  have hkept : r.kept event = r := by simp [Reader.kept, h]
  unfold Reader.next
  dsimp only
  rw [if_pos h, hkept]
  split
  · rfl
  · rfl

end Kept

/-! ### The iteration of a render -/

/-- The rows of one worker. -/
def own (rows : List Row) (key : Nat × Nat) : List Row := rows.filter fun row => row.pair = key

/-- What the rows of one iteration have in common, and what an edge is asked for. -/
structure Linked (event wait dispatch wait_entry : Row) : Prop where
  kinds : wait_entry.event = 2 ∧ wait.event = 3 ∧ dispatch.event = 5 ∧ event.event = 6
  thread : wait_entry.native_thread_id = event.native_thread_id ∧
    wait.native_thread_id = event.native_thread_id ∧
    dispatch.native_thread_id = event.native_thread_id
  epoch : wait_entry.thread_epoch = event.thread_epoch ∧
    wait.thread_epoch = event.thread_epoch ∧ dispatch.thread_epoch = event.thread_epoch
  eligible : event.eligible = true ∧ wait.eligible = true ∧ dispatch.eligible = true
  operation : event.operation = wait.operation ∧ wait.operation = dispatch.operation
  helper : event.helper = wait.helper ∧ wait.helper = dispatch.helper ∧
    dispatch.helper = wait_entry.helper ∧ wait_entry.helper > 0
  unlinked_entry : wait_entry.operation = 0 ∧ wait_entry.eligible = false
  dispatch_id : event.dispatch = dispatch.dispatch ∧ dispatch.dispatch > 0
  clocks : wait_entry.qpc ≤ wait.qpc ∧ wait.qpc ≤ dispatch.qpc ∧ dispatch.qpc ≤ event.qpc

/-- The edge of the render at `n`: the three rows before it among those of its worker. -/
def OwnEdge (rows : List Row) (n : Nat) (edge : Edge) : Prop :=
  rows[n]? = some edge.event ∧ ∃ earlier wait_entry wait dispatch,
    own (rows.take n) edge.event.pair = earlier ++ [wait_entry, wait, dispatch] ∧
      edge.wait_entry = some wait_entry ∧ edge.wait = some wait ∧
      edge.dispatch = some dispatch ∧ Linked edge.event wait dispatch wait_entry

/-- Where the renders bound to a phase are. -/
def boundRenders (rows : List Row) (phase : Nat) : List Nat :=
  (List.range rows.length).filter fun n =>
    rows[n]?.any fun row => row.event = 6 && row.phase_bound && row.phase_call_id = phase

theorem own_snoc (rows : List Row) (row : Row) (key : Nat × Nat) :
    own (rows ++ [row]) key = own rows key ++ if row.pair = key then [row] else [] := by
  unfold own
  rw [filter_append]
  by_cases h : row.pair = key
  · simp [h]
  · simp [h]

theorem boundRenders_snoc (rows : List Row) (row : Row) (phase : Nat) :
    boundRenders (rows ++ [row]) phase = boundRenders rows phase ++
      if row.event = 6 ∧ row.phase_bound = true ∧ row.phase_call_id = phase
        then [rows.length] else [] := by
  unfold boundRenders
  rw [length_append, length_singleton, range_succ, filter_append]
  congr 1
  · refine filter_congr fun n hn => ?_
    rw [getElem?_append_left (mem_range.mp hn)]
  · rw [filter_singleton, getElem?_concat_length]
    simp only [Option.any_some, cond_eq_ite, Bool.and_eq_true, decide_eq_true_eq, and_assoc]

theorem OwnEdge.snoc {rows : List Row} {n : Nat} {edge : Edge} (h : OwnEdge rows n edge)
    (row : Row) : OwnEdge (rows ++ [row]) n edge := by
  obtain ⟨hevent, hedge⟩ := h
  have hn : n < rows.length := (List.getElem?_eq_some_iff.mp hevent).1
  refine ⟨?_, ?_⟩
  · rw [getElem?_append_left hn]
    exact hevent
  · rw [take_append_of_le_length hn.le]
    exact hedge

/-- A row of the iteration that goes on. -/
structure OfEntry (l : Lifetime) (w : Worker) (row : Row) : Prop where
  kind : row.event = 2
  thread : row.native_thread_id = l.native_thread_id
  epoch : row.thread_epoch = l.key.thread_epoch
  helper : row.helper = w.helper
  positive : 0 < w.helper
  operation : row.operation = 0
  eligible : row.eligible = false
  qpc : row.qpc ≤ w.last_qpc

/-- The row says that this worker's wait was eligible. -/
structure OfWait (l : Lifetime) (w : Worker) (wait_entry row : Row) : Prop where
  kind : row.event = 3
  thread : row.native_thread_id = l.native_thread_id
  epoch : row.thread_epoch = l.key.thread_epoch
  helper : row.helper = w.helper
  slot : w.operation = w.eligible
  operation : row.operation = w.eligible
  eligible : row.eligible = true
  before : wait_entry.qpc ≤ row.qpc
  qpc : row.qpc ≤ w.last_qpc

/-- The row enters this worker's dispatch. -/
structure OfDispatch (l : Lifetime) (w : Worker) (wait row : Row) : Prop where
  kind : row.event = 5
  thread : row.native_thread_id = l.native_thread_id
  epoch : row.thread_epoch = l.key.thread_epoch
  helper : row.helper = w.helper
  operation : row.operation = w.eligible
  eligible : row.eligible = true
  dispatch : row.dispatch = w.dispatch
  positive : 0 < w.dispatch
  before : wait.qpc ≤ row.qpc
  qpc : row.qpc ≤ w.last_qpc

/-- The reader has kept the rows of the iteration that a worker is in, as far as it has come. -/
structure Fits (l : Lifetime) (w : Worker) (rows : List Row) (r : Reader) : Prop where
  fresh : w.terminal = false → w.entered = false → w.state = .kIdle
  waiting : w.terminal = false → w.state = .kWait → ∃ earlier wait_entry,
    own rows l.pair = earlier ++ [wait_entry] ∧ r.wait_entries l.pair = some wait_entry ∧
      OfEntry l w wait_entry
  granted : w.terminal = false → w.state = .kIdle → w.eligible ≠ 0 → ∃ earlier wait_entry wait,
    own rows l.pair = earlier ++ [wait_entry, wait] ∧
      r.wait_entries l.pair = some wait_entry ∧ r.eligible l.pair = some wait ∧
      OfEntry l w wait_entry ∧ OfWait l w wait_entry wait
  dispatched : w.terminal = false → w.state = .kDispatch → w.eligible ≠ 0 →
    ∃ earlier wait_entry wait dispatch,
      own rows l.pair = earlier ++ [wait_entry, wait, dispatch] ∧
        r.wait_entries l.pair = some wait_entry ∧ r.eligible l.pair = some wait ∧
        r.dispatches l.pair = some dispatch ∧ OfEntry l w wait_entry ∧
        OfWait l w wait_entry wait ∧ OfDispatch l w wait dispatch

section Fits
variable {l : Lifetime} {w w' : Worker} {rows : List Row} {r : Reader} {row : Row} {qpc : Nat}
  {t : Transition}

/-- A row of another worker. -/
theorem Fits.other (h : Fits l w rows r) (hpair : l.pair ≠ row.pair) :
    Fits l w (rows ++ [row]) (r.next row) := by
  have hown : own (rows ++ [row]) l.pair = own rows l.pair := by
    rw [own_snoc, if_neg (Ne.symm hpair), append_nil]
  refine ⟨h.fresh, ?_, ?_, ?_⟩
  · rw [hown, (sameAt_next hpair).wait_entries]
    exact h.waiting
  · rw [hown, (sameAt_next hpair).wait_entries, (sameAt_next hpair).eligible]
    exact h.granted
  · rw [hown, (sameAt_next hpair).wait_entries, (sameAt_next hpair).eligible,
      (sameAt_next hpair).dispatches]
    exact h.dispatched

/-- A worker that is in no iteration. -/
theorem Fits.none (hentered : w'.terminal = false → w'.entered = false → w'.state = .kIdle)
    (hwait : w'.terminal = false → w'.state ≠ .kWait)
    (hslot : w'.terminal = false → w'.eligible = 0) : Fits l w' rows r :=
  ⟨hentered, fun hopen hstate => absurd hstate (hwait hopen),
    fun hopen _ hne => absurd (hslot hopen) hne, fun hopen _ hne => absurd (hslot hopen) hne⟩

theorem OfEntry.kept (h : OfEntry l w row) (hhelper : w'.helper = w.helper)
    (hclock : Clocked w w' qpc) : OfEntry l w' row where
  kind := h.kind
  thread := h.thread
  epoch := h.epoch
  helper := h.helper.trans hhelper.symm
  positive := hhelper ▸ h.positive
  operation := h.operation
  eligible := h.eligible
  qpc := h.qpc.trans (hclock.last ▸ hclock.later)

theorem OfWait.kept {wait_entry : Row} (h : OfWait l w wait_entry row)
    (hhelper : w'.helper = w.helper) (hoperation : w'.operation = w.operation)
    (hslot : w'.eligible = w.eligible) (hclock : Clocked w w' qpc) :
    OfWait l w' wait_entry row where
  kind := h.kind
  thread := h.thread
  epoch := h.epoch
  helper := h.helper.trans hhelper.symm
  slot := by rw [hoperation, hslot, h.slot]
  operation := h.operation.trans hslot.symm
  eligible := h.eligible
  before := h.before
  qpc := h.qpc.trans (hclock.last ▸ hclock.later)

/-- **One answer** of the worker itself. -/
theorem Fits.step (h : Fits l w rows r) {ts : List Transition} (hinv : Inv w ts)
    (ha : Answer w qpc w' t) : Fits l w' (rows ++ [rowOf l qpc t]) (r.next (rowOf l qpc t)) := by
  have hown : own (rows ++ [rowOf l qpc t]) l.pair = own rows l.pair ++ [rowOf l qpc t] := by
    rw [own_snoc]
    exact congrArg _ (if_pos rfl)
  cases ha with
  | ignored hterminal hsame hevent =>
    subst hsame
    refine Fits.none ?_ ?_ ?_ <;> simp [hterminal]
  | entered hopen hentered hevent hstate hslot =>
    have hidle := h.fresh hopen hentered
    refine Fits.none (fun _ _ => hstate.trans hidle) (fun _ => ?_) fun _ => ?_
    · rw [hstate, hidle]
      decide
    · rw [hslot, hinv.unentered hentered]
  | waitEntered hopen hevent hstate hhelper hpos hoperation heligible hclock =>
    have hkind : (rowOf l qpc t).event = 2 := congrArg eventNumber hevent
    refine ⟨?_, ?_, ?_, ?_⟩
    · intro _ hentered
      rw [hclock.entered] at hentered
      cases hentered
    · intro _ _
      exact ⟨own rows l.pair, _, hown, next_waitEntered hkind,
        ⟨hkind, rfl, rfl, hhelper, hpos, hoperation, heligible, hclock.last.ge⟩⟩
    · intro _ hidle
      rw [hstate] at hidle
      cases hidle
    · intro _ hdispatch
      rw [hstate] at hdispatch
      cases hdispatch
  | waitRejected hopen hevent hwait hstate hslot hclock =>
    refine Fits.none (fun _ _ => hstate) (fun _ => ?_) fun _ => ?_
    · rw [hstate]
      decide
    · rw [hslot, hinv.waiting hwait]
  | waitEligible hopen hevent hwait hstate hhelper htold hoperation htoldop heligible hclock =>
    have hkind : (rowOf l qpc t).event = 3 := congrArg eventNumber hevent
    obtain ⟨earlier, wait_entry, hrows, hkept, hentry⟩ := h.waiting hopen hwait
    obtain ⟨hslot, hentries⟩ := next_waitEligible (r := r) hkind heligible
    refine ⟨?_, ?_, ?_, ?_⟩
    · intro _ _
      exact hstate
    · intro _ hwait'
      rw [hstate] at hwait'
      cases hwait'
    · intro _ _ _
      refine ⟨earlier, wait_entry, _, ?_, ?_, hslot, hentry.kept hhelper hclock, ?_⟩
      · rw [hown, hrows, append_assoc]
        rfl
      · rw [hentries]
        exact hkept
      · exact ⟨hkind, rfl, rfl, htold.trans hhelper.symm, hoperation, htoldop, heligible,
          hentry.qpc.trans hclock.later, hclock.last.ge⟩
    · intro _ hdispatch
      rw [hstate] at hdispatch
      cases hdispatch
  | dispatchEntered hopen hevent hidle hstate hhelper hoperation hslot htold htoldop hdispatch hpos
      heligible hclock =>
    have hkind : (rowOf l qpc t).event = 5 := congrArg eventNumber hevent
    obtain ⟨hdispatches, hslots, hentries⟩ := next_dispatchEntered (r := r) hkind
    refine ⟨?_, ?_, ?_, ?_⟩
    · intro _ hentered
      rw [hclock.entered] at hentered
      cases hentered
    · intro _ hwait
      rw [hstate] at hwait
      cases hwait
    · intro _ hidle'
      rw [hstate] at hidle'
      cases hidle'
    · intro _ _ hne
      rw [hslot] at hne
      obtain ⟨earlier, wait_entry, wait, hrows, hkept, hwait, hentry, hof⟩ :=
        h.granted hopen hidle hne
      refine ⟨earlier, wait_entry, wait, _, ?_, ?_, ?_, hdispatches, hentry.kept hhelper hclock,
        hof.kept hhelper hoperation hslot hclock, ?_⟩
      · rw [hown, hrows, append_assoc]
        rfl
      · rw [hentries]
        exact hkept
      · rw [hslots]
        exact hwait
      · exact ⟨hkind, rfl, rfl, htold.trans hhelper.symm,
          htoldop.trans (hof.slot.trans hslot.symm), heligible.trans (decide_eq_true hne),
          hdispatch, hpos, hof.qpc.trans hclock.later, hclock.last.ge⟩
  | rendered hopen hevent hdispatch hstate hslot htold htoldop htolddispatch heligible hbound
      hclock =>
    refine Fits.none (fun _ hentered => ?_) (fun _ => ?_) fun _ => hslot
    · rw [hclock.entered] at hentered
      cases hentered
    · rw [hstate]
      decide
  | dispatchCompleted hopen hevent hdispatch hstate hslot hclock =>
    refine Fits.none (fun _ _ => hstate) (fun _ => ?_) fun _ => ?_
    · rw [hstate]
      decide
    · rcases hslot with hempty | ⟨hseen, hsame⟩
      · exact hempty
      · rw [hsame, hinv.taken hdispatch hseen]
  | left hevent hterminal =>
    refine Fits.none ?_ ?_ ?_ <;> simp [hterminal]

/-- The answers that are rows of a render. -/
theorem rendered_of_number (h : eventNumber t.event = 6) : t.event = .kRenderConsumed := by
  cases hevent : t.event <;> rw [hevent] at h <;> first | rfl | cases h

/-- The edge of a render that is bound to a phase. -/
theorem Fits.edge (h : Fits l w rows r) (ha : Answer w qpc w' t)
    (hevent : t.event = .kRenderConsumed) (hbound : t.phase_bound = true) :
    OwnEdge (rows ++ [rowOf l qpc t]) rows.length ⟨rowOf l qpc t, r.eligible l.pair,
      r.dispatches l.pair, r.wait_entries l.pair⟩ := by
  cases ha with
  | rendered hopen _ hdispatch hstate hslot htold htoldop htolddispatch heligible hslotted hclock =>
    have hne := hslotted hbound
    obtain ⟨earlier, wait_entry, wait, dispatch, hrows, hentries, hwaits, hdispatches, hentry,
      hwait, hof⟩ := h.dispatched hopen hdispatch hne
    refine ⟨getElem?_concat_length, earlier, wait_entry, wait, dispatch, ?_, hentries, hwaits,
      hdispatches, ?_⟩
    · rw [take_left]
      exact hrows
    · exact
        { kinds := ⟨hentry.kind, hwait.kind, hof.kind, congrArg eventNumber hevent⟩
          thread := ⟨hentry.thread, hwait.thread, hof.thread⟩
          epoch := ⟨hentry.epoch, hwait.epoch, hof.epoch⟩
          eligible := ⟨heligible.trans (decide_eq_true hne), hwait.eligible, hof.eligible⟩
          operation := ⟨htoldop.trans hwait.operation.symm,
            hwait.operation.trans hof.operation.symm⟩
          helper := ⟨htold.trans hwait.helper.symm, hwait.helper.trans hof.helper.symm,
            hof.helper.trans hentry.helper.symm, hentry.helper ▸ hentry.positive⟩
          unlinked_entry := ⟨hentry.operation, hentry.eligible⟩
          dispatch_id := ⟨htolddispatch.trans hof.dispatch.symm, hof.dispatch ▸ hof.positive⟩
          clocks := ⟨hwait.before, hof.before, hof.qpc.trans hclock.later⟩ }
  | ignored _ _ hother => rw [hother] at hevent; cases hevent
  | entered _ _ hother => rw [hother] at hevent; cases hevent
  | waitEntered _ hother => rw [hother] at hevent; cases hevent
  | waitRejected _ hother => rw [hother] at hevent; cases hevent
  | waitEligible _ hother => rw [hother] at hevent; cases hevent
  | dispatchEntered _ hother => rw [hother] at hevent; cases hevent
  | dispatchCompleted _ hother => rw [hother] at hevent; cases hevent
  | left hother =>
    rw [hevent] at hother
    rcases hother with h | h <;> cases h

/-- **One row** more, and the edges are still those of the renders bound to a phase. -/
theorem Fits.edges (h : Fits l w rows r) (ha : Answer w qpc w' t) {phase : Nat}
    (hedges : Forall₂ (OwnEdge rows) (boundRenders rows phase) (r.render_events phase)) :
    Forall₂ (OwnEdge (rows ++ [rowOf l qpc t])) (boundRenders (rows ++ [rowOf l qpc t]) phase)
      ((r.next (rowOf l qpc t)).render_events phase) := by
  have hkept : Forall₂ (OwnEdge (rows ++ [rowOf l qpc t])) (boundRenders rows phase)
      (r.render_events phase) := hedges.imp fun _ _ hedge => hedge.snoc _
  rw [boundRenders_snoc]
  by_cases hrender : (rowOf l qpc t).event = 6
  · rw [next_rendered hrender]
    by_cases hbound : (rowOf l qpc t).phase_bound = true
    · rw [if_pos hbound]
      by_cases hphase : (rowOf l qpc t).phase_call_id = phase
      · subst hphase
        rw [if_pos ⟨hrender, hbound, rfl⟩, Function.update_self]
        exact rel_append hkept (.cons (h.edge ha (rendered_of_number hrender) hbound) .nil)
      · rw [if_neg (fun hall => hphase hall.2.2), append_nil,
          Function.update_of_ne (Ne.symm hphase)]
        exact hkept
    · rw [if_neg hbound, if_neg (fun hall => hbound hall.2.1), append_nil]
      exact hkept
  · rw [next_render_events hrender, if_neg (fun hall => hrender hall.1), append_nil]
    exact hkept

end Fits

/-! ### Every interleaving -/

section Interleavings
variable {ι : Type} [DecidableEq ι] {lifetime : ι → Lifetime}

/-- What holds of the cores, the rows and the reader of them. -/
structure Attached (lifetime : ι → Lifetime) (s : Workers ι) : Prop where
  inv : ∀ i, ∃ ts, Inv (s.core i) ts
  fits : ∀ i, Fits (lifetime i) (s.core i) s.worker_events (evaluate s.worker_events)
  edges : ∀ phase, Forall₂ (OwnEdge s.worker_events) (boundRenders s.worker_events phase)
    ((evaluate s.worker_events).render_events phase)

omit [DecidableEq ι] in
theorem attached_new : Attached lifetime {} where
  inv _ := ⟨[], inv_new⟩
  fits _ := Fits.none (fun _ _ => rfl) (fun _ h => by cases h) fun _ => rfl
  edges _ := .nil

theorem evaluate_snoc (rows : List Row) (row : Row) :
    evaluate (rows ++ [row]) = (evaluate rows).next row := by
  unfold evaluate
  rw [foldl_append]
  rfl

/-- **One call** on one of the workers. -/
theorem Attached.next {s : Workers ι} (h : Attached lifetime s)
    (hkeys : Function.Injective fun i => (lifetime i).pair) (call : ι × Call)
    (hfault : ((s.core call.1).call call.2).2.event ≠ .kFault) :
    Attached lifetime (s.next lifetime call) := by
  obtain ⟨i, call⟩ := call
  obtain ⟨ts, hinv⟩ := h.inv i
  have ha := call_told (s.core i) call hfault
  have hcore : (s.next lifetime (i, call)).core i = ((s.core i).call call).1 :=
    Function.update_self ..
  have hother : ∀ j, j ≠ i → (s.next lifetime (i, call)).core j = s.core j :=
    fun j hj => Function.update_of_ne hj ..
  have hrows : (s.next lifetime (i, call)).worker_events = s.worker_events ++
    [rowOf (lifetime i) (clockOf call) ((s.core i).call call).2] := rfl
  refine ⟨?_, ?_, ?_⟩
  · intro j
    by_cases hj : j = i
    · subst hj
      rw [hcore]
      exact ⟨_, hinv.call call⟩
    · rw [hother j hj]
      exact h.inv j
  · intro j
    rw [hrows, evaluate_snoc]
    by_cases hj : j = i
    · subst hj
      rw [hcore]
      exact (h.fits j).step hinv ha
    · rw [hother j hj]
      exact (h.fits j).other fun hpair => hj (hkeys hpair)
  · intro phase
    rw [hrows, evaluate_snoc]
    exact (h.fits i).edges ha (h.edges phase)

theorem journal_snoc (calls : List (ι × Call)) (call : ι × Call) :
    journal lifetime (calls ++ [call]) = (journal lifetime calls).next lifetime call := by
  unfold journal
  rw [foldl_append]
  rfl

theorem journal_attached (hkeys : Function.Injective fun i => (lifetime i).pair)
    (calls : List (ι × Call))
    (hfault : ∀ row ∈ (journal lifetime calls).worker_events, row.event ≠ eventNumber .kFault) :
    Attached lifetime (journal lifetime calls) := by
  induction calls using reverseRecOn with
  | nil => exact attached_new
  | append_singleton calls call ih =>
    rw [journal_snoc] at hfault ⊢
    have hrows : ((journal lifetime calls).next lifetime call).worker_events =
      (journal lifetime calls).worker_events ++ [rowOf (lifetime call.1) (clockOf call.2)
        (((journal lifetime calls).core call.1).call call.2).2] := rfl
    rw [hrows] at hfault
    refine (ih fun row hrow => hfault row (mem_append_left _ hrow)).next hkeys call ?_
    intro hevent
    exact hfault _ (mem_append_right _ (mem_singleton_self _))
      (congrArg eventNumber hevent)

/-- **The reader attaches the own iteration.**  Workers with keys of their own make any calls
without a fault, in any order.  Then the edges under a phase are, one for one and in order, those
of the renders bound to it, each with the wait entry, the eligible wait and the dispatch that come
right before the render among the rows of its worker; other renders have no edge. -/
theorem edges_own_iteration (hkeys : Function.Injective fun i => (lifetime i).pair)
    (calls : List (ι × Call))
    (hfault : ∀ row ∈ (journal lifetime calls).worker_events, row.event ≠ eventNumber .kFault)
    (phase : Nat) :
    Forall₂ (OwnEdge (journal lifetime calls).worker_events)
      (boundRenders (journal lifetime calls).worker_events phase)
      ((evaluate (journal lifetime calls).worker_events).render_events phase) :=
  (journal_attached hkeys calls hfault).edges phase

/-- Two workers take turns.  The first has a wait rejected and renders in its second dispatch, the
second renders out of an iteration without a phase. -/
theorem edges_of_two_workers :
    let key (i : Bool) : Key := ⟨7, if i then 2 else 1, ⟨3, 4⟩, 0x40001000, 9⟩
    let lifetime (i : Bool) : Lifetime := ⟨if i then 21 else 20, key i⟩
    let calls : List (Bool × Call) :=
      [(false, .enter (key false) 1), (true, .enter (key true) 2),
        (false, .waitEnter (key false) 3 1 kWaitCaller 5),
        (true, .waitEnter (key true) 4 2 kWaitCaller 5),
        (false, .waitExit (key false) 5 1 true (some ⟨31, 9, .kTimeout, true⟩)),
        (true, .waitExit (key true) 6 2 true (some ⟨32, 9, .kSuccess, true⟩)),
        (false, .waitEnter (key false) 7 3 kWaitCaller 5),
        (true, .dispatchEnter (key true) 8 1 kRenderCaller 0x40001058),
        (false, .waitExit (key false) 9 3 true (some ⟨33, 9, .kSuccess, true⟩)),
        (false, .dispatchEnter (key false) 10 2 kRenderCaller 0x40001058),
        (true, .render (key true) 11 0 kRenderCaller),
        (false, .render (key false) 12 77 kRenderCaller)]
    boundRenders (journal lifetime calls).worker_events 77 = [11] ∧
      Forall₂ (OwnEdge (journal lifetime calls).worker_events)
        (boundRenders (journal lifetime calls).worker_events 77)
        ((evaluate (journal lifetime calls).worker_events).render_events 77) := by
  intro key lifetime calls
  refine ⟨by decide, edges_own_iteration ?_ calls (by decide) 77⟩
  intro i j hij
  revert i j
  decide

end Interleavings
end Mcla.WorkerHandoff

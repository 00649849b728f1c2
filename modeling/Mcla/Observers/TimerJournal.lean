import Mcla.Library.PairMarks

/-! # The timer journal

A fixed store of timer observations, filled in the order in which the observed calls complete.
Each record carries flags for what makes it doubtful; two of them are about pairs of records,
and a new record raises them on old ones.  Addresses, clocks and counters are numbers; the
flags are the bits of a 32-bit word.
-/
namespace Mcla.TimerJournal
open List

/-! ### Observations -/

def kMaxQpc : Nat := 2 ^ 63 - 1
def kMaxFrequency : Nat := 10000000000
def kMaxWindowSeconds : Nat := 12
def kCounterMax : Nat := 2 ^ 64 - 1

/-- The window of an observation. -/
structure Window where
  begin_qpc : Nat := 0
  /-- Exclusive. -/
  (end_qpc qpc_frequency : Nat := 0)
  deriving DecidableEq

/-- The window is in range, and not empty. -/
def Window.valid (w : Window) : Bool :=
  w.begin_qpc ≠ 0 && w.begin_qpc < w.end_qpc && w.end_qpc ≤ kMaxQpc &&
    w.qpc_frequency ≠ 0 && w.qpc_frequency ≤ kMaxFrequency &&
    w.end_qpc - w.begin_qpc ≤ kMaxWindowSeconds * w.qpc_frequency

/-- Who called which timer. -/
structure Identity where
  (timer_address caller_address thread_identity : Nat := 0)
  deriving DecidableEq

/-- An identity that a journal can be made for. -/
def Identity.valid (i : Identity) : Bool :=
  i.timer_address ≠ 0 && i.caller_address ≠ 0 && i.thread_identity ≠ 0

/-- The opaque fields of the timer, in the order of their offsets. -/
structure State where
  words : List Nat := replicate 18 0
  bytes : List Nat := replicate 3 0
  qwords : List Nat := replicate 1 0
  deriving DecidableEq

/-- One call of the timer, as it was seen. -/
structure Observation where
  identity : Identity := {}
  (entry_qpc exit_qpc incoming_r5_low_byte incoming_f1_bits : Nat := 0)
  (before after : State := {})
  (before_available after_available : Bool := false)
  deriving DecidableEq

/-- The clocks are in order. -/
def valid_clock (o : Observation) : Bool :=
  o.entry_qpc ≠ 0 && o.entry_qpc ≤ o.exit_qpc && o.exit_qpc ≤ kMaxQpc

/-! ### Flags -/

/-- Issues, one to a bit. -/
abbrev Issues := BitVec 32

def kNone : Issues := 0
def kInvalidWindow : Issues := 1 <<< 0
def kInvalidClock : Issues := 1 <<< 1
def kMissingIdentity : Issues := 1 <<< 2
def kMissingState : Issues := 1 <<< 3
def kStraddlesBegin : Issues := 1 <<< 4
def kStraddlesEnd : Issues := 1 <<< 5
def kOutsideBefore : Issues := 1 <<< 6
def kOutsideAfter : Issues := 1 <<< 7
def kWitnessIntervalsOverlapOrTouch : Issues := 1 <<< 8
def kSharedAddressOverlapOrTouch : Issues := 1 <<< 9
def kEntryOrderRegressed : Issues := 1 <<< 10
def kExitOrderRegressed : Issues := 1 <<< 11
def kStorageOverflow : Issues := 1 <<< 12
def kCounterSaturated : Issues := 1 <<< 13

/-- `(issues & flag) != 0` -/
def carries (issues flag : Issues) : Bool := issues &&& flag != 0

/-- `if (c) issues |= flag;` -/
def raise (issues : Issues) (c : Bool) (flag : Issues) : Issues :=
  if c then issues ||| flag else issues

@[simp] theorem carries_or (a b flag : Issues) :
    carries (a ||| b) flag = (carries a flag || carries b flag) := by
  have hdist : (a ||| b) &&& flag = (a &&& flag) ||| (b &&& flag) := by
    ext i
    simp [Bool.and_or_distrib_right]
  have hzero := @BitVec.or_eq_zero_iff _ (a &&& flag) (b &&& flag)
  simp only [carries, hdist, bne]
  grind

@[simp] theorem carries_raise (a : Issues) (c : Bool) (f flag : Issues) :
    carries (raise a c f) flag = (carries a flag || (c && carries f flag)) := by
  cases c <;> simp [raise]

@[simp] theorem carries_none (flag : Issues) : carries kNone flag = false := by
  simp [carries, kNone]

/-- The flags of any of the words. -/
def union : List Issues → Issues
  | [] => kNone
  | issues :: rest => issues ||| union rest

theorem union_append (xs ys : List Issues) : union (xs ++ ys) = union xs ||| union ys := by
  induction xs with
  | nil => simp [union, kNone]
  | cons x xs ih => simp [union, ih, BitVec.or_assoc]

/-! ### The journal -/

/-- A call, with its place and its issues. -/
structure Record where
  observation : Observation
  observed_ordinal : Nat := 0
  issues : Issues := kNone
  wholly_inside_window : Bool := false

/-- The calls of a window. -/
structure Journal where
  window : Window
  records : List Record := []
  observed_calls : Nat := 0
  issues : Issues := kNone
  (previous_entry previous_exit : Nat := 0)
  have_previous_clock : Bool := false

/-- A fresh journal. -/
def Journal.new (window : Window) : Journal :=
  { window, issues := raise kNone (!window.valid) kInvalidWindow }

/-- The flags of a record that come from its own observation and the window. -/
def placed (window : Window) (input : Observation) : Issues :=
  let clock := valid_clock input
  let issues := raise kNone (!window.valid) kInvalidWindow
  let issues := raise issues (!clock) kInvalidClock
  let issues := raise issues (!input.identity.valid) kMissingIdentity
  let issues := raise issues (!input.before_available || !input.after_available) kMissingState
  if clock && window.valid then
    let issues := raise issues (input.exit_qpc < window.begin_qpc) kOutsideBefore
    let issues := raise issues (input.entry_qpc ≥ window.end_qpc) kOutsideAfter
    let issues := raise issues
      (input.entry_qpc < window.begin_qpc && input.exit_qpc ≥ window.begin_qpc) kStraddlesBegin
    raise issues
      (input.entry_qpc < window.end_qpc && input.exit_qpc ≥ window.end_qpc) kStraddlesEnd
  else issues

/-- The loop over the records that are there, with the flags of the new row. -/
def markOverlaps (input : Observation) : List Record → Issues → List Record × Issues
  | [], row => ([], row)
  | old :: rest, row =>
    let previous := old.observation
    if valid_clock previous && (input.entry_qpc ≤ previous.exit_qpc &&
        previous.entry_qpc ≤ input.exit_qpc) then
      let overlap := raise kWitnessIntervalsOverlapOrTouch
        (input.identity.timer_address ≠ 0 &&
          input.identity.timer_address = previous.identity.timer_address)
        kSharedAddressOverlapOrTouch
      let marked := markOverlaps input rest (row ||| overlap)
      ({ old with issues := old.issues ||| overlap } :: marked.1, marked.2)
    else
      let marked := markOverlaps input rest row
      (old :: marked.1, marked.2)

/-- The count of calls, which sticks at its greatest value. -/
def Journal.count (j : Journal) : Journal :=
  if j.observed_calls = kCounterMax then { j with issues := j.issues ||| kCounterSaturated }
  else { j with observed_calls := j.observed_calls + 1 }

/-- The clocks that the next call is compared with. -/
def Journal.remember (j : Journal) (input : Observation) : Journal :=
  if valid_clock input then
    { j with
      previous_entry := input.entry_qpc, previous_exit := input.exit_qpc,
      have_previous_clock := true }
  else j

/-- `observe`, for a store of `capacity` records. -/
def Journal.observe (capacity : Nat) (j : Journal) (input : Observation) : Journal × Bool :=
  let j := j.count
  if j.records.length = capacity then
    ({ j with issues := j.issues ||| kStorageOverflow }, false)
  else
    let clock := valid_clock input
    let inside := clock && j.window.valid && input.entry_qpc ≥ j.window.begin_qpc &&
      input.exit_qpc < j.window.end_qpc
    let marked :=
      if clock then markOverlaps input j.records (placed j.window input)
      else (j.records, placed j.window input)
    let issues := raise marked.2 (clock && j.have_previous_clock &&
      input.entry_qpc < j.previous_entry) kEntryOrderRegressed
    let issues := raise issues (clock && j.have_previous_clock &&
      input.exit_qpc < j.previous_exit) kExitOrderRegressed
    let row : Record := ⟨input, j.observed_calls, issues, inside⟩
    let j := j.remember input
    ({ j with issues := j.issues ||| row.issues, records := marked.1 ++ [row] }, true)

/-- A new journal after the calls of `inputs`. -/
def observeAll (capacity : Nat) (window : Window) (inputs : List Observation) : Journal :=
  inputs.foldl (fun j input => (j.observe capacity input).1) (.new window)

/-! ### What one call does -/

/-- The flags that a new observation raises on an old record, and on its own. -/
def raised (input previous : Observation) : Issues :=
  if valid_clock previous && (input.entry_qpc ≤ previous.exit_qpc &&
      previous.entry_qpc ≤ input.exit_qpc) then
    raise kWitnessIntervalsOverlapOrTouch
      (input.identity.timer_address ≠ 0 &&
        input.identity.timer_address = previous.identity.timer_address)
      kSharedAddressOverlapOrTouch
  else kNone

/-- An old record after the comparison with a new observation. -/
def Record.met (r : Record) (input : Observation) : Record :=
  { r with issues := r.issues ||| raised input r.observation }

@[simp] theorem Record.met_observation (r : Record) (input : Observation) :
    (r.met input).observation = r.observation := rfl

@[simp] theorem Record.met_issues (r : Record) (input : Observation) :
    (r.met input).issues = r.issues ||| raised input r.observation := rfl

theorem markOverlaps_eq (input : Observation) (records : List Record) (row : Issues) :
    markOverlaps input records row =
      (records.map (·.met input),
        row ||| union (records.map fun r => raised input r.observation)) := by
  induction records generalizing row with
  | nil => simp [markOverlaps, union, kNone]
  | cons old rest ih =>
    by_cases hmeet : (valid_clock old.observation &&
        (input.entry_qpc ≤ old.observation.exit_qpc &&
          old.observation.entry_qpc ≤ input.exit_qpc)) = true
    · simp only [markOverlaps, if_pos hmeet, ih, map_cons, union, Record.met, raised,
        BitVec.or_assoc]
    · simp only [markOverlaps, if_neg hmeet, ih, map_cons, union, Record.met, raised, kNone,
        BitVec.ofNat_eq_ofNat, BitVec.or_zero, BitVec.zero_or]

/-- The flags of the new record: its place in the window, the pairs it makes and the order of
the clocks. -/
def Journal.rowIssues (j : Journal) (input : Observation) : Issues :=
  let issues := if valid_clock input then
      placed j.window input ||| union (j.records.map fun r => raised input r.observation)
    else placed j.window input
  let issues := raise issues (valid_clock input && j.have_previous_clock &&
    input.entry_qpc < j.previous_entry) kEntryOrderRegressed
  raise issues (valid_clock input && j.have_previous_clock && input.exit_qpc < j.previous_exit)
    kExitOrderRegressed

/-- The flag of a counter that is stuck. -/
def Journal.stuck (j : Journal) : Issues :=
  if j.observed_calls = kCounterMax then kCounterSaturated else kNone

section Fields
variable (j : Journal) (input : Observation)

@[simp] theorem Journal.count_window : j.count.window = j.window := by
  unfold Journal.count
  split <;> rfl

@[simp] theorem Journal.count_records : j.count.records = j.records := by
  unfold Journal.count
  split <;> rfl

@[simp] theorem Journal.count_issues : j.count.issues = j.issues ||| j.stuck := by
  unfold Journal.count Journal.stuck
  split <;> simp [kNone]

@[simp] theorem Journal.count_rowIssues : j.count.rowIssues input = j.rowIssues input := by
  unfold Journal.count
  split <;> rfl

@[simp] theorem Journal.remember_window : (j.remember input).window = j.window := by
  unfold Journal.remember
  split <;> rfl

@[simp] theorem Journal.remember_issues : (j.remember input).issues = j.issues := by
  unfold Journal.remember
  split <;> rfl

@[simp] theorem Journal.remember_calls : (j.remember input).observed_calls = j.observed_calls := by
  unfold Journal.remember
  split <;> rfl

theorem Journal.count_calls (h : j.observed_calls ≤ kCounterMax) :
    j.count.observed_calls = min (j.observed_calls + 1) kCounterMax := by
  unfold Journal.count
  split <;> dsimp only <;> omega

end Fields

variable {capacity : Nat}

/-- A call that finds the store full keeps the records. -/
theorem Journal.observe_full {j : Journal} (input : Observation) (h : j.records.length = capacity) :
    (j.observe capacity input).1 =
      { j.count with issues := j.issues ||| j.stuck ||| kStorageOverflow } := by
  simp [Journal.observe, h]

/-- A call that finds room stores its row at the end and marks the old ones. -/
theorem Journal.observe_room {j : Journal} (input : Observation) (h : j.records.length ≠ capacity) :
    ∃ ordinal inside, (j.observe capacity input).1 =
      { j.count.remember input with
        issues := j.issues ||| j.stuck ||| j.rowIssues input
        records := (if valid_clock input then j.records.map (·.met input) else j.records) ++
          [⟨input, ordinal, j.rowIssues input, inside⟩] } := by
  refine ⟨j.count.observed_calls, valid_clock input && j.window.valid &&
    input.entry_qpc ≥ j.window.begin_qpc && input.exit_qpc < j.window.end_qpc, ?_⟩
  rw [← j.count_rowIssues input]
  unfold Journal.observe Journal.rowIssues
  cases hclock : valid_clock input <;> simp [h, markOverlaps_eq]

theorem Journal.observe_window (j : Journal) (input : Observation) :
    (j.observe capacity input).1.window = j.window := by
  by_cases h : j.records.length = capacity
  · simp [Journal.observe_full input h]
  · obtain ⟨ordinal, inside, heq⟩ := Journal.observe_room input h
    simp [heq]

theorem Journal.observe_calls (j : Journal) (input : Observation) :
    (j.observe capacity input).1.observed_calls = j.count.observed_calls := by
  by_cases h : j.records.length = capacity
  · simp [Journal.observe_full input h]
  · obtain ⟨ordinal, inside, heq⟩ := Journal.observe_room input h
    simp [heq]

/-! ### Flags about pairs -/

/-- A flag that only a pair of records raises: `R` says which. -/
structure PairFlag (flag : Issues) (R : Observation → Observation → Bool) : Prop where
  alone : ∀ window input, carries (placed window input) flag = false
  entry_order : carries kEntryOrderRegressed flag = false
  exit_order : carries kExitOrderRegressed flag = false
  pair : ∀ a b, (valid_clock a && carries (raised a b) flag) = R a b
  symm : ∀ a b, R a b = R b a

variable (a b : Observation)

/-- Both clocks are valid and the closed intervals meet. -/
def meets : Bool :=
  valid_clock a && valid_clock b && (a.entry_qpc ≤ b.exit_qpc && b.entry_qpc ≤ a.exit_qpc)

/-- Moreover the two are of one timer. -/
def shares : Bool :=
  meets a b && (a.identity.timer_address ≠ 0 &&
    a.identity.timer_address = b.identity.timer_address)

theorem meets_pair : PairFlag kWitnessIntervalsOverlapOrTouch meets where
  alone window input := by
    simp only [placed]
    split <;> simp only [carries_raise] <;>
      simp [carries, kInvalidClock, kMissingIdentity, kMissingState, kOutsideBefore, kOutsideAfter,
        kStraddlesBegin, kStraddlesEnd, kInvalidWindow, kNone, kWitnessIntervalsOverlapOrTouch]
  entry_order := by decide
  exit_order := by decide
  pair a b := by
    have hself : carries kWitnessIntervalsOverlapOrTouch kWitnessIntervalsOverlapOrTouch
      = true := by decide
    have hnone : carries kNone kWitnessIntervalsOverlapOrTouch = false := by decide
    unfold raised meets
    split <;> simp_all
  symm a b := by
    unfold meets
    grind

theorem shares_pair : PairFlag kSharedAddressOverlapOrTouch shares where
  alone window input := by
    simp only [placed]
    split <;> simp only [carries_raise] <;>
      simp [carries, kInvalidClock, kMissingIdentity, kMissingState, kOutsideBefore, kOutsideAfter,
        kStraddlesBegin, kStraddlesEnd, kInvalidWindow, kNone, kSharedAddressOverlapOrTouch]
  entry_order := by decide
  exit_order := by decide
  pair a b := by
    have hself : carries kSharedAddressOverlapOrTouch kSharedAddressOverlapOrTouch
      = true := by decide
    have hwitness : carries kWitnessIntervalsOverlapOrTouch kSharedAddressOverlapOrTouch
      = false := by decide
    have hnone : carries kNone kSharedAddressOverlapOrTouch = false := by decide
    unfold raised shares meets
    split <;> simp_all
  symm a b := by
    unfold shares meets
    grind

/-- The stored observations, each with whether its record carries the flag. -/
def Journal.flags (j : Journal) (flag : Issues) : List (Observation × Bool) :=
  j.records.map fun r => (r.observation, carries r.issues flag)

def Journal.observations (j : Journal) : List Observation := j.records.map (·.observation)

theorem carries_union (words : List Issues) (flag : Issues) :
    carries (union words) flag = words.any (carries · flag) := by
  induction words with
  | nil => simp [union]
  | cons w words ih => simp [union, ih]

section Flags
variable {flag : Issues} {R : Observation → Observation → Bool} {capacity : Nat} {j : Journal}

theorem PairFlag.rowIssues (hR : PairFlag flag R) (j : Journal) (input : Observation) :
    carries (j.rowIssues input) flag = j.observations.any (R input) := by
  have hpair := fun b => hR.pair input b
  unfold Journal.rowIssues Journal.observations
  cases hclock : valid_clock input with
  | false =>
    have hnot : ∀ b, R input b = false := by
      intro b
      rw [← hpair b, hclock, Bool.false_and]
    simp [hR.alone, hnot]
  | true =>
    have hraised : ∀ b, carries (raised input b) flag = R input b := by
      intro b
      rw [← hpair b, hclock, Bool.true_and]
    simp only [carries_raise, carries_or, carries_union, hR.alone, hR.entry_order,
      hR.exit_order, any_map, Bool.and_false, Bool.or_false, Bool.false_or, if_true]
    congr 1
    funext r
    exact hraised r.observation

/-- **One arrival**: the flags of the old records are raised where the newcomer is related to
them, and the newcomer is compared with all of them. -/
theorem PairFlag.observe_room (hR : PairFlag flag R) (input : Observation)
    (h : j.records.length ≠ capacity) :
    (j.observe capacity input).1.flags flag =
      (j.flags flag).map (fun m => (m.1, m.2 || R input m.1)) ++
        [(input, j.observations.any (R input))] := by
  obtain ⟨ordinal, inside, heq⟩ := Journal.observe_room input h
  have hrow := hR.rowIssues j input
  have hpair := fun b => hR.pair input b
  rw [heq]
  unfold Journal.flags
  dsimp only
  rw [map_append, map_map]
  congr 1
  · cases hclock : valid_clock input with
    | false =>
      simp only [hclock, Bool.false_and] at hpair
      simp [← hpair]
    | true =>
      simp only [hclock, Bool.true_and] at hpair
      simp [← hpair]
  · simp [hrow]

theorem observe_observations (input : Observation) (h : j.records.length ≠ capacity) :
    (j.observe capacity input).1.observations = j.observations ++ [input] := by
  obtain ⟨ordinal, inside, heq⟩ := Journal.observe_room input h
  rw [heq]
  unfold Journal.observations
  cases valid_clock input <;> simp [Function.comp_def]

end Flags

/-! ### The flags of the journal itself -/

/-- What is raised on the journal whatever its rows are: at construction, by a call that finds
the store full, and by a call past the greatest count. -/
def levelIssues (window : Window) (capacity calls : Nat) : Issues :=
  let issues := raise kNone (!window.valid) kInvalidWindow
  let issues := raise issues (capacity < calls) kStorageOverflow
  raise issues (kCounterMax < calls) kCounterSaturated

theorem union_met (records : List Record) (input : Observation) :
    union ((records.map (·.met input)).map (·.issues)) =
      union (records.map (·.issues)) ||| union (records.map fun r => raised input r.observation) := by
  induction records with
  | nil => simp [union, kNone]
  | cons r records ih =>
    simp only [map_cons, union, ih, Record.met_issues]
    ac_rfl

theorem raise_covers {a b : Issues} (h : a ||| b = a) (c : Bool) (flag : Issues) :
    raise a c flag ||| b = raise a c flag := by
  cases c with
  | false => exact h
  | true =>
    calc a ||| flag ||| b = a ||| b ||| flag := by ac_rfl
      _ = a ||| flag := by rw [h]

/-- The row of a newcomer has every flag that it raises. -/
theorem Journal.rowIssues_covers {j : Journal} {input : Observation} (hclock : valid_clock input) :
    j.rowIssues input ||| union (j.records.map fun r => raised input r.observation) =
      j.rowIssues input := by
  unfold Journal.rowIssues
  rw [if_pos hclock]
  apply raise_covers
  apply raise_covers
  rw [BitVec.or_assoc, BitVec.or_self]

/-- What a run of `calls` calls leaves behind. -/
structure Seen (capacity : Nat) (window : Window) (inputs : List Observation) (j : Journal) :
    Prop where
  same_window : j.window = window
  observations : j.observations = inputs.take capacity
  calls : j.observed_calls = min inputs.length kCounterMax
  issues : j.issues = union (j.records.map (·.issues)) ||| levelIssues window capacity inputs.length

section Run
variable {capacity : Nat} {window : Window} {inputs : List Observation} {j : Journal}

theorem Seen.length (h : Seen capacity window inputs j) :
    j.records.length = min capacity inputs.length := by
  have hlength := congrArg List.length h.observations
  simpa [Journal.observations] using hlength

theorem seen_new : Seen capacity window [] (.new window) where
  same_window := rfl
  observations := by simp [Journal.observations, Journal.new]
  calls := rfl
  issues := by simp [Journal.new, levelIssues, union, raise, kNone]

/-- The flags of the journal after one more call. -/
theorem levelIssues_succ (window : Window) (capacity : Nat) (inputs : List Observation)
    (hcalls : j.observed_calls = min inputs.length kCounterMax) :
    levelIssues window capacity (inputs.length + 1) =
      levelIssues window capacity inputs.length ||| j.stuck |||
        (if capacity ≤ inputs.length then kStorageOverflow else kNone) := by
  have hstuck : j.observed_calls = kCounterMax ↔ kCounterMax < inputs.length + 1 := by omega
  have hfull : capacity < inputs.length + 1 ↔ capacity ≤ inputs.length := by omega
  have hfull' : capacity < inputs.length → capacity ≤ inputs.length := by omega
  have hover : kCounterMax < inputs.length → kCounterMax < inputs.length + 1 := by omega
  unfold levelIssues Journal.stuck raise
  simp only [hstuck, hfull, kNone, decide_eq_true_eq]
  by_cases h1 : capacity ≤ inputs.length <;> by_cases h2 : capacity < inputs.length <;>
    by_cases h3 : kCounterMax < inputs.length + 1 <;>
      by_cases h4 : kCounterMax < inputs.length <;>
        first | omega | (simp [h1, h2, h3, h4] <;> grind)

theorem Seen.step (h : Seen capacity window inputs j) (input : Observation) :
    Seen capacity window (inputs ++ [input]) (j.observe capacity input).1 where
  same_window := (Journal.observe_window j input).trans h.same_window
  observations := by
    by_cases hfull : j.records.length = capacity
    · have hle : capacity ≤ inputs.length := by
        have := h.length
        omega
      rw [take_append_of_le_length hle, ← h.observations, Journal.observe_full input hfull]
      simp [Journal.observations]
    · have hlt : inputs.length < capacity := by
        have := h.length
        omega
      rw [observe_observations input hfull, h.observations, take_of_length_le hlt.le,
        take_of_length_le (by simp; omega)]
  calls := by
    rw [Journal.observe_calls, Journal.count_calls j (by rw [h.calls]; omega), h.calls,
      length_append, length_singleton]
    omega
  issues := by
    rw [length_append, length_singleton, levelIssues_succ window capacity inputs h.calls]
    have hlength := h.length
    by_cases hfull : j.records.length = capacity
    · rw [if_pos (by omega), Journal.observe_full input hfull]
      simp only [Journal.count_records, h.issues]
      ac_rfl
    · rw [if_neg (by omega)]
      obtain ⟨ordinal, inside, heq⟩ := Journal.observe_room input hfull
      rw [heq]
      dsimp only
      rw [map_append, union_append, h.issues]
      simp only [map_cons, map_nil, union, kNone, BitVec.ofNat_eq_ofNat, BitVec.or_zero]
      by_cases hclock : valid_clock input
      · rw [if_pos hclock, union_met]
        have hrow := Journal.rowIssues_covers (j := j) hclock
        generalize union (j.records.map fun r => raised input r.observation) = met at hrow ⊢
        calc union (j.records.map (·.issues)) ||| levelIssues window capacity inputs.length |||
              j.stuck ||| j.rowIssues input
            = union (j.records.map (·.issues)) ||| levelIssues window capacity inputs.length |||
              j.stuck ||| (j.rowIssues input ||| met) := by rw [hrow]
          _ = _ := by ac_rfl
      · rw [if_neg hclock]
        ac_rfl

theorem observeAll_append (inputs : List Observation) (input : Observation) :
    observeAll capacity window (inputs ++ [input]) =
      ((observeAll capacity window inputs).observe capacity input).1 := by
  simp [observeAll]

theorem observeAll_seen (inputs : List Observation) :
    Seen capacity window inputs (observeAll capacity window inputs) := by
  induction inputs using reverseRecOn with
  | nil => exact seen_new
  | append_singleton inputs input ih =>
    rw [observeAll_append]
    exact ih.step input

/-- **A flag about pairs marks the related pairs**, whatever the order of arrival. -/
theorem PairFlag.flags_eq {flag : Issues} {R : Observation → Observation → Bool}
    (hR : PairFlag flag R) (inputs : List Observation) :
    (observeAll capacity window inputs).flags flag =
      PairMarks.marked R (observeAll capacity window inputs).observations := by
  induction inputs using reverseRecOn with
  | nil => simp [observeAll, Journal.new, Journal.flags, Journal.observations, PairMarks.marked]
  | append_singleton inputs input ih =>
    rw [observeAll_append]
    by_cases hfull : (observeAll capacity window inputs).records.length = capacity
    · have hrecords := congrArg Journal.records (Journal.observe_full input hfull)
      simp only [Journal.count_records] at hrecords
      unfold Journal.flags Journal.observations at ih ⊢
      rw [hrecords, ih]
    · rw [hR.observe_room input hfull, observe_observations input hfull,
        PairMarks.marked_append hR.symm, ih]

end Run

/-! ### The flags of a stored record -/

/-- The closed interval between the two clocks. -/
def interval (o : Observation) : Set Nat := Set.Icc o.entry_qpc o.exit_qpc

/-- `b` has valid clocks, and its closed interval meets that of `a`. -/
def Overlaps : Prop := valid_clock b ∧ (interval a ∩ interval b).Nonempty

/-- Moreover the two have the same timer address, and it is not zero. -/
def SharesTimer : Prop :=
  Overlaps a b ∧ a.identity.timer_address ≠ 0 ∧ a.identity.timer_address = b.identity.timer_address

/-- A record carries the flag exactly when its clocks are valid and it is related to another
record that is stored. -/
def Journal.Marks (j : Journal) (flag : Issues) (R : Observation → Observation → Prop) : Prop :=
  ∀ i (hi : i < j.records.length), carries j.records[i].issues flag = true ↔
    valid_clock j.records[i].observation ∧ ∃ k, ∃ hk : k < j.records.length,
      k ≠ i ∧ R j.records[i].observation j.records[k].observation

theorem meets_iff : meets a b = true ↔ valid_clock a ∧ Overlaps a b := by
  unfold meets Overlaps interval
  rw [Bool.and_eq_true, Bool.and_eq_true, and_assoc]
  apply and_congr_right
  intro ha
  apply and_congr_right
  intro hb
  -- with the entry of each before its exit, the later entry lies in both intervals
  have hle : ∀ o, valid_clock o = true → o.entry_qpc ≤ o.exit_qpc := by
    intro o h
    simp only [valid_clock, Bool.and_eq_true, decide_eq_true_eq] at h
    exact h.1.2
  rw [Set.Icc_inter_Icc, Set.nonempty_Icc]
  have := hle a ha
  have := hle b hb
  simp only [Bool.and_eq_true, decide_eq_true_eq]
  omega

theorem shares_iff : shares a b = true ↔ valid_clock a ∧ SharesTimer a b := by
  unfold shares SharesTimer
  rw [Bool.and_eq_true, meets_iff, and_assoc]
  simp

theorem PairFlag.marks {flag : Issues} {R : Observation → Observation → Bool}
    {S : Observation → Observation → Prop} (hR : PairFlag flag R)
    (hS : ∀ a b, R a b = true ↔ valid_clock a ∧ S a b) (capacity : Nat) (window : Window)
    (inputs : List Observation) : (observeAll capacity window inputs).Marks flag S := by
  intro i hi
  have hflags := congrArg (·[i]?) (@PairFlag.flags_eq capacity window _ _ hR inputs)
  have hobs : i < (observeAll capacity window inputs).observations.length := by
    simpa [Journal.observations] using hi
  have hmark : i < (PairMarks.marked R
      (observeAll capacity window inputs).observations).length := by
    simpa [PairMarks.marked] using hobs
  have hkey := PairMarks.marked_getElem hmark hobs
  rw [getElem?_eq_getElem hmark] at hflags
  simp only [Journal.flags, getElem?_map, getElem?_eq_getElem hi, Option.map_some,
    Option.some.injEq] at hflags
  rw [← hflags] at hkey
  rw [hkey]
  simp only [Journal.observations, length_map, getElem_map, hS]
  constructor
  · rintro ⟨k, hk, hne, hclock, hrel⟩
    exact ⟨hclock, k, hk, hne, hrel⟩
  · rintro ⟨hclock, k, hk, hne, hrel⟩
    exact ⟨k, hk, hne, hclock, hrel⟩

theorem PairFlag.perm {flag : Issues} {R : Observation → Observation → Bool} (hR : PairFlag flag R)
    {window : Window} {inputs others : List Observation}
    (h : (observeAll capacity window inputs).observations.Perm
      (observeAll capacity window others).observations) :
    ((observeAll capacity window inputs).flags flag).Perm
      ((observeAll capacity window others).flags flag) := by
  rw [hR.flags_eq, hR.flags_eq]
  exact PairMarks.marked_perm h

/-- **The flags of the journal.**  For every sequence of calls: a record carries the overlap
flag exactly when its clocks are valid and another stored record with valid clocks has an
interval that meets its own, and the shared-timer flag when moreover the two have one timer;
two runs that store the same observations, in whatever orders, give each the same flags; and
`issues()` is the union of the rows' flags and of those of the journal itself. -/
theorem observeAll_flags (capacity : Nat) (window : Window) (inputs : List Observation) :
    (observeAll capacity window inputs).Marks kWitnessIntervalsOverlapOrTouch Overlaps ∧
    (observeAll capacity window inputs).Marks kSharedAddressOverlapOrTouch SharesTimer ∧
    (∀ others, (observeAll capacity window inputs).observations.Perm
        (observeAll capacity window others).observations →
      ((observeAll capacity window inputs).flags kWitnessIntervalsOverlapOrTouch).Perm
        ((observeAll capacity window others).flags kWitnessIntervalsOverlapOrTouch) ∧
      ((observeAll capacity window inputs).flags kSharedAddressOverlapOrTouch).Perm
        ((observeAll capacity window others).flags kSharedAddressOverlapOrTouch)) ∧
    (observeAll capacity window inputs).issues =
      union ((observeAll capacity window inputs).records.map (·.issues)) |||
        levelIssues window capacity inputs.length := by
  refine ⟨?_, ?_, ?_, ?_⟩
  · exact meets_pair.marks meets_iff capacity window inputs
  · exact shares_pair.marks shares_iff capacity window inputs
  · intro others h
    exact ⟨meets_pair.perm h, shares_pair.perm h⟩
  · exact (observeAll_seen inputs).issues

/-- The entry clock of the first call failed: its row carries no overlap flag, although the
second has valid clocks and an interval that meets the interval of the first. -/
theorem observeAll_unmarked :
    ¬ ∀ i (hi : i < (observeAll 1024 ⟨1, 10, 1⟩
        [{ entry_qpc := 0, exit_qpc := 5 }, { entry_qpc := 3, exit_qpc := 8 }]).records.length),
      carries (observeAll 1024 ⟨1, 10, 1⟩ [{ entry_qpc := 0, exit_qpc := 5 },
          { entry_qpc := 3, exit_qpc := 8 }]).records[i].issues
        kWitnessIntervalsOverlapOrTouch = true ↔
      ∃ k, ∃ hk : k < (observeAll 1024 ⟨1, 10, 1⟩ [{ entry_qpc := 0, exit_qpc := 5 },
          { entry_qpc := 3, exit_qpc := 8 }]).records.length, k ≠ i ∧
        Overlaps (observeAll 1024 ⟨1, 10, 1⟩ [{ entry_qpc := 0, exit_qpc := 5 },
            { entry_qpc := 3, exit_qpc := 8 }]).records[i].observation
          (observeAll 1024 ⟨1, 10, 1⟩ [{ entry_qpc := 0, exit_qpc := 5 },
            { entry_qpc := 3, exit_qpc := 8 }]).records[k].observation := by
  intro h
  have hflag := (h 0 (by decide)).mpr ⟨1, by decide, by decide, by decide, 3, by
    constructor <;> constructor <;> decide⟩
  exact absurd hflag (by decide)

end Mcla.TimerJournal

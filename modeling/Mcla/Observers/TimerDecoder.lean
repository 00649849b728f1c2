import Mcla.Library.JsonTree
import Mcla.Observers.TimerObserver

/-! # The decoder of timer observations

A receipt has the counts and the records of one observer.  The decoder checks the schema, the
counts and each record, and derives anew what makes a record doubtful: from the record alone, from
its clocks and those of the last record with valid clocks before it, and from each pair of records.
It goes by the entry ordinals, not by the clocks, and keeps the records in the order of the receipt.

A document is read as a tree.  Keys that are there twice and integers that are too long, which the
parser refuses, are refused where the object or the integer is read.  Sets of issues are written
out sorted by text.
-/
namespace Mcla.TimerDecode
open TimerJournal (State)
open TimerObserver (Counts)

def MAX_BYTES : Nat := 4 * 1024 * 1024
def CAPACITY : Nat := 1024
def U32 : Nat := 2 ^ 32 - 1
def U64 : Nat := 2 ^ 64 - 1
def MAX_QPC : Nat := 2 ^ 63 - 1
def HOOK_ADDRESS : Nat := 0x821BDA90

def FALSE_FLAGS : List String := ["state_coherence_proven", "object_lifetime_proven",
  "simulation_proven", "fps_proven", "frame_to_step_mapping_proven", "native_admitted"]

def COUNT_KEYS : List String := ["observed_entries", "admitted_entries", "stored_entries",
  "completed_entries", "overflow_entries", "outside_before_entries", "outside_after_entries",
  "counter_saturated", "observer_failed"]

def TOP_KEYS : List String := FALSE_FLAGS ++ ["schema", "token", "status", "clock",
  "thread_identity_domain", "hook_address", "capacity", "begin_qpc", "end_qpc_exclusive",
  "qpc_frequency", "counts", "records"]

def RECORD_KEYS : List String := ["entry_ordinal", "callback_issues", "timer_address",
  "caller_address", "native_thread_id", "entry_qpc", "exit_qpc", "incoming_r5_low_byte",
  "incoming_f1_bits", "before", "after"]

def STATE_KEYS : List String := ["words", "bytes", "qword64"]

/-! ### Issues -/

/-- What may be wrong with a journal. -/
inductive Diagnostic where
  | invalidClock | missingIdentity | missingState | callbackFailure
  | straddlesBegin | straddlesEnd | retainedOutside
  | entryRegressed | exitRegressed | overlap | sharedAddress
  | counterSaturated | observerFailed | overflow | noObservations
  deriving DecidableEq

/-- The names of the diagnostics. -/
def Diagnostic.text : Diagnostic → String
  | .invalidClock => "INVALID_OUTER_CLOCK_WITNESS"
  | .missingIdentity => "MISSING_OBSERVED_IDENTITY"
  | .missingState => "MISSING_OPAQUE_STATE"
  | .callbackFailure => "CALLBACK_FAILURE_OR_ORIGINAL_UNWIND"
  | .straddlesBegin => "STRADDLES_OR_TOUCHES_WINDOW_BEGIN"
  | .straddlesEnd => "STRADDLES_OR_TOUCHES_WINDOW_END"
  | .retainedOutside => "RETAINED_DIAGNOSTIC_OUTSIDE_WINDOW"
  | .entryRegressed => "ENTRY_CLOCK_ORDER_REGRESSED"
  | .exitRegressed => "EXIT_CLOCK_ORDER_REGRESSED"
  | .overlap => "OUTER_WITNESSES_OVERLAP_OR_TOUCH"
  | .sharedAddress => "SHARED_ADDRESS_WITNESSES_OVERLAP_OR_TOUCH"
  | .counterSaturated => "COUNTER_SATURATED"
  | .observerFailed => "OBSERVER_FAILED_OR_INCOMPLETE_PUBLICATION"
  | .overflow => "STORAGE_OR_RESERVATION_OVERFLOW"
  | .noObservations => "NO_RETAINED_TIMER_OBSERVATIONS"

/-- `if c: issues.add(d)` -/
def add (issues : Finset Diagnostic) (c : Bool) (d : Diagnostic) : Finset Diagnostic :=
  if c then insert d issues else issues

@[simp] theorem mem_add {issues : Finset Diagnostic} {c : Bool} {d e : Diagnostic} :
    e ∈ add issues c d ↔ e ∈ issues ∨ c = true ∧ e = d := by
  unfold add
  cases c <;> simp [or_comm]

/-! ### Values -/

def need (ok : Bool) (reason : String) : Except String Unit := if ok then .ok () else .error reason

@[simp] theorem need_ok {ok : Bool} {reason : String} : need ok reason = .ok () ↔ ok = true := by
  cases ok <;> simp [need]

variable (value : JsonTree)

/-- The object has just these keys. -/
def exact (keys : List String) (label : String) : Except String Unit :=
  need (value.hasKeys keys) label

def uint (high low : Nat) : JsonTree → Except String Nat
  | .num value => if low ≤ value ∧ value ≤ high then .ok value.toNat
    else .error "bounded exact unsigned integer"
  | _ => .error "bounded exact unsigned integer"

def readFlag : JsonTree → Except String Bool
  | .bool value => .ok value
  | _ => .error "exact diagnostic count flag"

/-- The value is this text. -/
def isText (text : String) : JsonTree → Bool
  | .str value => value = text
  | _ => false

/-- The value is this integer. -/
def isNumber (expected : Nat) : JsonTree → Bool
  | .num value => value = expected
  | _ => false

def isFalse : JsonTree → Bool
  | .bool value => !value
  | _ => false

/-- One array of a state. -/
def readField (count limit : Nat) : JsonTree → Except String (List Nat)
  | .arr items => do
    need (items.length = count) "exact opaque state field count"
    items.mapM (uint limit 0)
  | _ => .error "exact opaque state field count"

/-- `_state` -/
def readState : JsonTree → Except String (Option State)
  | .null => .ok none
  | value => do
    exact value STATE_KEYS "exact opaque state schema"
    let words ← readField 18 U32 (value.field "words")
    let bytes ← readField 3 255 (value.field "bytes")
    let qword64 ← uint U64 0 (value.field "qword64")
    return some { words, bytes, qwords := [qword64] }

/-! ### Counts -/

variable (counts : Counts)

/-- A counter is at its end. -/
def Saturated : Bool :=
  [counts.observed_entries, counts.admitted_entries, counts.stored_entries,
    counts.completed_entries, counts.overflow_entries, counts.outside_before_entries,
    counts.outside_after_entries].any (· = U64)

/-- `total` -/
def total (values : List Nat) : Nat :=
  if counts.counter_saturated then min U64 values.sum else values.sum

/-- The counts against each other and the number of records. -/
def checkCounts (records : Nat) : Except String Unit := do
  need (!counts.counter_saturated || Saturated counts)
    "saturated flag requires a saturated counter"
  need (counts.stored_entries = records && records ≤ CAPACITY &&
    counts.stored_entries ≤ counts.completed_entries &&
    counts.completed_entries ≤ counts.admitted_entries) "retained/completed/admitted counts"
  need (counts.observed_entries = total counts [counts.admitted_entries, counts.overflow_entries])
    "observed versus admitted/overflow counts"
  need (counts.completed_entries = total counts [counts.stored_entries,
    counts.outside_before_entries, counts.outside_after_entries])
    "completed versus retained/outside counts"
  need (counts.observer_failed || counts.admitted_entries = counts.completed_entries)
    "successful freeze must drain all admissions"

/-- `_counts` -/
def readCounts (records : Nat) : Except String Counts := do
  exact value COUNT_KEYS "exact counts schema"
  let counts : Counts := {
    observed_entries := ← uint U64 0 (value.field "observed_entries")
    admitted_entries := ← uint U64 0 (value.field "admitted_entries")
    stored_entries := ← uint U64 0 (value.field "stored_entries")
    completed_entries := ← uint U64 0 (value.field "completed_entries")
    overflow_entries := ← uint U64 0 (value.field "overflow_entries")
    outside_before_entries := ← uint U64 0 (value.field "outside_before_entries")
    outside_after_entries := ← uint U64 0 (value.field "outside_after_entries")
    counter_saturated := ← readFlag (value.field "counter_saturated")
    observer_failed := ← readFlag (value.field "observer_failed") }
  checkCounts counts records
  return counts

/-! ### Records -/

/-- A record, as the decoder returns it. -/
structure Row where
  (entry_ordinal callback_issues timer_address caller_address native_thread_id entry_qpc exit_qpc
    incoming_r5_low_byte incoming_f1_bits : Nat := 0)
  (before after : Option State := none)
  diagnostic_issues : Finset Diagnostic := ∅

namespace Row
variable (begin_qpc end_qpc : Nat) (r : Row)

def clock_witness_valid : Bool :=
  0 < r.entry_qpc && r.entry_qpc ≤ r.exit_qpc && r.exit_qpc ≤ MAX_QPC

/-- `identity_valid` -/
def identity_valid : Bool := r.timer_address ≠ 0 && r.caller_address ≠ 0 && r.native_thread_id ≠ 0

/-- `outside` -/
def outside : Bool := r.exit_qpc < begin_qpc || r.entry_qpc ≥ end_qpc

/-- What a callback that failed could not give is cleared. -/
def checkCleared : Except String Unit := do
  need (!r.callback_issues.testBit 0 || r.entry_qpc = 0) "failed entry clock must be cleared"
  need (!r.callback_issues.testBit 1 || r.exit_qpc = 0) "failed exit clock must be cleared"
  need (!r.callback_issues.testBit 2 || r.before.isNone) "failed before-state must be cleared"
  need (!r.callback_issues.testBit 3 || r.after.isNone) "failed after-state must be cleared"

/-- The issues of a record alone. -/
def own : Finset Diagnostic :=
  let issues := add ∅ (!r.clock_witness_valid) .invalidClock
  let issues := add issues (!r.identity_valid) .missingIdentity
  let issues := add issues (r.before.isNone || r.after.isNone) .missingState
  let issues := add issues (r.callback_issues ≠ 0) .callbackFailure
  if r.clock_witness_valid then
    let issues := add issues (r.entry_qpc < begin_qpc && begin_qpc ≤ r.exit_qpc) .straddlesBegin
    let issues := add issues (r.entry_qpc < end_qpc && end_qpc ≤ r.exit_qpc) .straddlesEnd
    add issues (r.outside begin_qpc end_qpc) .retainedOutside
  else issues

/-- A call that could have been counted is not retained. -/
def countable : Bool :=
  r.clock_witness_valid && r.outside begin_qpc end_qpc && r.identity_valid && r.before.isSome &&
    r.after.isSome && r.callback_issues = 0

end Row

/-- The values of a record with this ordinal. -/
def readRow (record : JsonTree) (ordinal : Nat) : Except String Row := do
  let callback_issues ← uint 31 0 (record.field "callback_issues")
  let timer_address ← uint U32 0 (record.field "timer_address")
  let caller_address ← uint U32 0 (record.field "caller_address")
  let native_thread_id ← uint U32 0 (record.field "native_thread_id")
  let entry_qpc ← uint U64 0 (record.field "entry_qpc")
  let exit_qpc ← uint U64 0 (record.field "exit_qpc")
  let incoming_r5_low_byte ← uint 255 0 (record.field "incoming_r5_low_byte")
  let incoming_f1_bits ← uint U64 0 (record.field "incoming_f1_bits")
  let before ← readState (record.field "before")
  let after ← readState (record.field "after")
  return {
    entry_ordinal := ordinal, callback_issues, timer_address, caller_address, native_thread_id
    entry_qpc, exit_qpc, incoming_r5_low_byte, incoming_f1_bits, before, after }

/-- The loop over the records, with the ordinals that were seen. -/
def readRecords (begin_qpc end_qpc observed : Nat) :
    List Nat → List JsonTree → Except String (List Row)
  | _, [] => .ok []
  | seen, record :: records => do
    exact record RECORD_KEYS "exact raw timer record schema"
    let ordinal ← uint observed 1 (record.field "entry_ordinal")
    need (!seen.contains ordinal) "duplicate entry ordinal"
    let row ← readRow record ordinal
    row.checkCleared
    need (!row.countable begin_qpc end_qpc)
      "healthy wholly-outside call should be counted, not retained"
    let rows ← readRecords begin_qpc end_qpc observed (ordinal :: seen) records
    return { row with diagnostic_issues := row.own begin_qpc end_qpc } :: rows

/-! ### Records against each other -/

/-- The rows on the way, the last row with valid clocks, and the pairs that were counted. -/
structure Sweep where
  rows : List Row
  previous_valid : Option Row := none
  overlap_pairs : Nat := 0

/-- `if c: row['diagnostic_issues'].add(d)`, for the row at an index. -/
def mark (rows : List Row) (index : Nat) (c : Bool) (d : Diagnostic) : List Row :=
  rows.modify index fun row => { row with diagnostic_issues := add row.diagnostic_issues c d }

/-- One turn of the inner loop. -/
def compareRows (index : Nat) (s : Sweep) (old_index : Nat) : Sweep :=
  let row := s.rows.getD index {}
  let old := s.rows.getD old_index {}
  if !old.clock_witness_valid then s
  else if row.entry_qpc ≤ old.exit_qpc && old.entry_qpc ≤ row.exit_qpc then
    let shared := row.timer_address ≠ 0 && row.timer_address = old.timer_address
    let rows := mark (mark s.rows index true .overlap) old_index true .overlap
    let rows := mark (mark rows index shared .sharedAddress) old_index shared .sharedAddress
    { s with rows, overlap_pairs := s.overlap_pairs + 1 }
  else s

/-- The comparison of a row with the last one with valid clocks. -/
def compareOrder (rows : List Row) (index : Nat) (row : Row) : Option Row → List Row
  | none => rows
  | some previous =>
    mark (mark rows index (row.entry_qpc < previous.entry_qpc) .entryRegressed)
      index (row.exit_qpc < previous.exit_qpc) .exitRegressed

/-- One turn of the outer loop, after the rows at these indices. -/
def sweepRow (olds : List Nat) (s : Sweep) (index : Nat) : Sweep :=
  let row := s.rows.getD index {}
  if !row.clock_witness_valid then s
  else olds.foldl (compareRows index) { s with
    rows := compareOrder s.rows index row s.previous_valid, previous_valid := some row }

/-- The outer loop. -/
def sweep (s : Sweep) (olds : List Nat) : List Nat → Sweep
  | [] => s
  | index :: rest => sweep (sweepRow olds s index) (olds ++ [index]) rest

/-- The indices of the rows by their ordinals. -/
def ordered (rows : List Row) : List Nat :=
  (List.range rows.length).insertionSort fun i j =>
    (rows.getD i {}).entry_ordinal ≤ (rows.getD j {}).entry_ordinal

/-! ### Summaries -/

/-- The time between two records of one timer. -/
structure Difference where
  (from_entry_ordinal to_entry_ordinal : Nat)
  raw_interval_difference_ticks_bounds : Option (Int × Int)

/-- The records of one timer, caller and thread. -/
structure Summary where
  (timer_address caller_address native_thread_id : Nat)
  record_indices : List Nat := []
  adjacent_outer_witness_differences : List Difference := []

/-- From one record to the next. -/
def difference (old row : Row) : Difference where
  from_entry_ordinal := old.entry_ordinal
  to_entry_ordinal := row.entry_ordinal
  raw_interval_difference_ticks_bounds :=
    if row.clock_witness_valid && old.clock_witness_valid then
      some ((row.entry_qpc : Int) - old.exit_qpc, (row.exit_qpc : Int) - old.entry_qpc)
    else none

/-- The group with one row more. -/
def Summary.extend (rows : List Row) (index : Nat) (group : Summary) : Summary :=
  { group with
    record_indices := group.record_indices ++ [index]
    adjacent_outer_witness_differences := group.adjacent_outer_witness_differences ++
      (group.record_indices.getLast?.map fun last =>
        difference (rows.getD last {}) (rows.getD index {})).toList }

/-- The row at an index joins the group of its identity, or opens one. -/
def regroup (rows : List Row) (index : Nat) : List Summary → List Summary
  | [] =>
    let row := rows.getD index {}
    [Summary.extend rows index ⟨row.timer_address, row.caller_address, row.native_thread_id, [], []⟩]
  | group :: groups =>
    let row := rows.getD index {}
    if group.timer_address = row.timer_address ∧ group.caller_address = row.caller_address ∧
        group.native_thread_id = row.native_thread_id then group.extend rows index :: groups
    else group :: regroup rows index groups

/-! ### The decoder -/

/-- What the decoder returns. -/
structure Result where
  (status token : String)
  (begin_qpc end_qpc_exclusive qpc_frequency : Nat)
  counts : Counts
  raw_callback_issues : Nat
  records : List Row
  admission_order_record_indices : List Nat
  identity_summaries : List Summary
  overlap_or_touch_pairs : Nat
  diagnostic_issues : Finset Diagnostic

/-- `re.fullmatch('[0-9a-f]{32}', token)` -/
def tokenShape (token : String) : Bool :=
  token.length = 32 && token.toList.all fun c => '0' ≤ c && c ≤ '9' || 'a' ≤ c && c ≤ 'f'

/-- What the caller of the decoder expects. -/
def checkExpected (size : Nat) (token : String) (begin_qpc end_qpc qpc_frequency : Nat) :
    Except String Unit := do
  need (0 < size && size ≤ MAX_BYTES) "bounded immutable receipt bytes"
  need (tokenShape token) "expected token shape"
  need (1 ≤ begin_qpc && begin_qpc ≤ MAX_QPC) "bounded exact unsigned integer"
  need (1 ≤ end_qpc && end_qpc ≤ MAX_QPC) "bounded exact unsigned integer"
  need (10 ≤ qpc_frequency && qpc_frequency ≤ 10 ^ 10) "bounded exact unsigned integer"
  need (end_qpc = begin_qpc + 91 * qpc_frequency / 10)
    "exact shared91-slot observation window"

/-- The fields of the receipt that are compared with what is expected. -/
def checkBinding (token : String) (begin_qpc end_qpc qpc_frequency : Nat) :
    Except String Unit := do
  exact value TOP_KEYS "exact timer receipt schema"
  need (isText "mcla-timer-observer-v1" (value.field "schema") &&
    isText token (value.field "token") &&
    isText "TIMER_OBSERVATIONS_REVIEW_PENDING" (value.field "status"))
    "schema/token/status binding"
  need (isText "win32-query-performance-counter" (value.field "clock") &&
    isText "win32-native-thread-id-reuse-possible" (value.field "thread_identity_domain"))
    "exact clock/native thread interpretation"
  need (isNumber HOOK_ADDRESS (value.field "hook_address") &&
    isNumber CAPACITY (value.field "capacity") &&
    isNumber begin_qpc (value.field "begin_qpc") &&
    isNumber end_qpc (value.field "end_qpc_exclusive") &&
    isNumber qpc_frequency (value.field "qpc_frequency"))
    "exact declared integer/window binding"
  need (FALSE_FLAGS.all fun key => isFalse (value.field key)) "unsupported proven/admission claim"

def readArray : JsonTree → Except String (List JsonTree)
  | .arr items => .ok items
  | _ => .error "bounded native record array"

/-- The issues of the receipt, beside those of its rows. -/
def countIssues (records : Nat) : Finset Diagnostic :=
  let issues := add ∅ counts.counter_saturated .counterSaturated
  let issues := add issues counts.observer_failed .observerFailed
  let issues := add issues (counts.overflow_entries ≠ 0) .overflow
  add issues (records = 0) .noObservations

/-- What the decoder makes of the rows. -/
def conclude (token : String) (begin_qpc end_qpc qpc_frequency : Nat) (counts : Counts)
    (rows : List Row) : Result :=
  let order := ordered rows
  let swept := sweep { rows } [] order
  let reasons := swept.rows.foldl (fun issues row => issues ∪ row.diagnostic_issues)
    (countIssues counts rows.length)
  { status := if reasons = ∅ then "TIMER_OBSERVATIONS_DECODED_REVIEW_PENDING"
      else "TIMER_OBSERVATIONS_DIAGNOSTIC_INCONCLUSIVE"
    token, begin_qpc, end_qpc_exclusive := end_qpc, qpc_frequency, counts
    raw_callback_issues := rows.foldl (fun mask row => mask ||| row.callback_issues) 0
    records := swept.rows
    admission_order_record_indices := order
    identity_summaries := order.foldl (fun groups index => regroup swept.rows index groups) []
    overlap_or_touch_pairs := swept.overlap_pairs
    diagnostic_issues := reasons }

/-- `decode`, of the bytes of a document. -/
def decode (token : String) (begin_qpc end_qpc qpc_frequency : Nat) :
    Except String Result := do
  checkExpected value.text.length token begin_qpc end_qpc qpc_frequency
  checkBinding value token begin_qpc end_qpc qpc_frequency
  let records ← readArray (value.field "records")
  need (records.length ≤ CAPACITY) "bounded native record array"
  let counts ← readCounts (value.field "counts") records.length
  let rows ← readRecords begin_qpc end_qpc counts.observed_entries [] records
  return conclude token begin_qpc end_qpc qpc_frequency counts rows

end Mcla.TimerDecode

import Mcla.Library.NestedRecorder
import Mcla.Observers.TimerSweep

/-! # The decoder and the journal: whole receipts

A receipt of what a freeze copied, with the counts and records under the names that the decoder
knows them by, is accepted; and each of its rows has the issues that the journal flags.
-/
namespace Mcla.TimerDecode
open TimerJournal (State Observation Window Record Journal valid_clock kExitOrderRegressed
  kWitnessIntervalsOverlapOrTouch kSharedAddressOverlapOrTouch)
open TimerObserver (RawRecord Counts Snapshot Call Reading Made Sound Typed)
open List

/-! ### Receipts -/

def number (n : Nat) : JsonTree := .num n

def numbers (values : List Nat) : JsonTree := .arr (values.map number)

/-- The object of a state. -/
structure WritesState (s : State) (value : JsonTree) : Prop where
  keys : value.hasKeys STATE_KEYS = true
  words : value.field "words" = numbers s.words
  bytes : value.field "bytes" = numbers s.bytes
  qword64 : value.field "qword64" = number (s.qwords.headD 0)

/-- The object of a state, or null where there is none. -/
def WritesReading (available : Bool) (s : State) (value : JsonTree) : Prop :=
  if available then WritesState s value else value = .null

/-- The document writes the record. -/
structure WritesRecord (r : RawRecord) (value : JsonTree) : Prop where
  keys : value.hasKeys RECORD_KEYS = true
  entry_ordinal : value.field "entry_ordinal" = number r.entry_ordinal
  callback_issues : value.field "callback_issues" = number r.callback_issues.toNat
  timer_address : value.field "timer_address" = number r.observation.identity.timer_address
  caller_address : value.field "caller_address" = number r.observation.identity.caller_address
  native_thread_id : value.field "native_thread_id" =
    number r.observation.identity.thread_identity
  entry_qpc : value.field "entry_qpc" = number r.observation.entry_qpc
  exit_qpc : value.field "exit_qpc" = number r.observation.exit_qpc
  incoming_r5_low_byte : value.field "incoming_r5_low_byte" =
    number r.observation.incoming_r5_low_byte
  incoming_f1_bits : value.field "incoming_f1_bits" = number r.observation.incoming_f1_bits
  before : WritesReading r.observation.before_available r.observation.before (value.field "before")
  after : WritesReading r.observation.after_available r.observation.after (value.field "after")

/-- The document writes the counters. -/
structure WritesCounts (c : Counts) (value : JsonTree) : Prop where
  keys : value.hasKeys COUNT_KEYS = true
  observed_entries : value.field "observed_entries" = number c.observed_entries
  admitted_entries : value.field "admitted_entries" = number c.admitted_entries
  stored_entries : value.field "stored_entries" = number c.stored_entries
  completed_entries : value.field "completed_entries" = number c.completed_entries
  overflow_entries : value.field "overflow_entries" = number c.overflow_entries
  outside_before_entries : value.field "outside_before_entries" = number c.outside_before_entries
  outside_after_entries : value.field "outside_after_entries" = number c.outside_after_entries
  counter_saturated : value.field "counter_saturated" = .bool c.counter_saturated
  observer_failed : value.field "observer_failed" = .bool c.observer_failed

/-- The document of a snapshot, whose text is the receipt; the writer itself is not part of the
tree. -/
structure Writes (token : String) (s : Snapshot) (value : JsonTree) : Prop where
  keys : value.hasKeys TOP_KEYS = true
  flags : ∀ key ∈ FALSE_FLAGS, value.field key = .bool false
  schema : value.field "schema" = .str "mcla-timer-observer-v1"
  token : value.field "token" = .str token
  status : value.field "status" = .str "TIMER_OBSERVATIONS_REVIEW_PENDING"
  clock : value.field "clock" = .str "win32-query-performance-counter"
  domain : value.field "thread_identity_domain" = .str "win32-native-thread-id-reuse-possible"
  hook_address : value.field "hook_address" = number HOOK_ADDRESS
  capacity : value.field "capacity" = number CAPACITY
  begin_qpc : value.field "begin_qpc" = number s.window.begin_qpc
  end_qpc : value.field "end_qpc_exclusive" = number s.window.end_qpc
  qpc_frequency : value.field "qpc_frequency" = number s.window.qpc_frequency
  counts : WritesCounts s.counts (value.field "counts")
  records : ∃ items, value.field "records" = .arr items ∧
    Forall₂ WritesRecord s.records items

/-! A document with the keys in the order of the decoder's lists is one. -/

/-- The document of a timer's state. -/
def stateJson (available : Bool) (s : State) : JsonTree :=
  if available then .obj [("words", numbers s.words), ("bytes", numbers s.bytes),
    ("qword64", number (s.qwords.headD 0))] else .null

/-- The document of a record. -/
def recordJson (r : RawRecord) : JsonTree := .obj [
  ("entry_ordinal", number r.entry_ordinal), ("callback_issues", number r.callback_issues.toNat),
  ("timer_address", number r.observation.identity.timer_address),
  ("caller_address", number r.observation.identity.caller_address),
  ("native_thread_id", number r.observation.identity.thread_identity),
  ("entry_qpc", number r.observation.entry_qpc), ("exit_qpc", number r.observation.exit_qpc),
  ("incoming_r5_low_byte", number r.observation.incoming_r5_low_byte),
  ("incoming_f1_bits", number r.observation.incoming_f1_bits),
  ("before", stateJson r.observation.before_available r.observation.before),
  ("after", stateJson r.observation.after_available r.observation.after)]

/-- The document of the counters. -/
def countsJson (c : Counts) : JsonTree := .obj [
  ("observed_entries", number c.observed_entries), ("admitted_entries", number c.admitted_entries),
  ("stored_entries", number c.stored_entries), ("completed_entries", number c.completed_entries),
  ("overflow_entries", number c.overflow_entries),
  ("outside_before_entries", number c.outside_before_entries),
  ("outside_after_entries", number c.outside_after_entries),
  ("counter_saturated", .bool c.counter_saturated), ("observer_failed", .bool c.observer_failed)]

/-- The document of a snapshot. -/
def receiptJson (token : String) (s : Snapshot) : JsonTree :=
  .obj ((FALSE_FLAGS.map fun key => (key, JsonTree.bool false)) ++ [
    ("schema", .str "mcla-timer-observer-v1"), ("token", .str token),
    ("status", .str "TIMER_OBSERVATIONS_REVIEW_PENDING"),
    ("clock", .str "win32-query-performance-counter"),
    ("thread_identity_domain", .str "win32-native-thread-id-reuse-possible"),
    ("hook_address", number HOOK_ADDRESS), ("capacity", number CAPACITY),
    ("begin_qpc", number s.window.begin_qpc), ("end_qpc_exclusive", number s.window.end_qpc),
    ("qpc_frequency", number s.window.qpc_frequency), ("counts", countsJson s.counts),
    ("records", .arr (s.records.map recordJson))])

theorem stateJson_writes (available : Bool) (s : State) :
    WritesReading available s (stateJson available s) := by
  cases available with
  | false => rfl
  | true =>
    refine ⟨?_, rfl, rfl, rfl⟩
    show JsonTree.sameNames STATE_KEYS STATE_KEYS = true
    decide

theorem recordJson_writes (r : RawRecord) : WritesRecord r (recordJson r) := by
  refine ⟨?_, rfl, rfl, rfl, rfl, rfl, rfl, rfl, rfl, rfl, ?_, ?_⟩
  · show JsonTree.sameNames RECORD_KEYS RECORD_KEYS = true
    decide
  · exact stateJson_writes _ _
  · exact stateJson_writes _ _

theorem countsJson_writes (c : Counts) : WritesCounts c (countsJson c) := by
  refine ⟨?_, rfl, rfl, rfl, rfl, rfl, rfl, rfl, rfl, rfl⟩
  show JsonTree.sameNames COUNT_KEYS COUNT_KEYS = true
  decide

theorem receiptJson_writes (token : String) (s : Snapshot) :
    Writes token s (receiptJson token s) := by
  refine ⟨?_, ?_, rfl, rfl, rfl, rfl, rfl, rfl, rfl, rfl, rfl, rfl, ?_, ?_⟩
  · show JsonTree.sameNames TOP_KEYS TOP_KEYS = true
    decide
  · intro key hkey
    simp only [FALSE_FLAGS, mem_cons, not_mem_nil, or_false] at hkey
    rcases hkey with rfl | rfl | rfl | rfl | rfl | rfl <;> rfl
  · exact countsJson_writes s.counts
  · refine ⟨s.records.map recordJson, rfl, ?_⟩
    rw [forall₂_map_right_iff]
    exact forall₂_same.mpr fun r _ => recordJson_writes r

/-! ### Rows that calls leave -/

/-- The values of a row are what the decoder reads as such. -/
structure Legible (r : RawRecord) : Prop where
  callback_issues : r.callback_issues.toNat ≤ 31
  timer_address : r.observation.identity.timer_address ≤ U32
  caller_address : r.observation.identity.caller_address ≤ U32
  thread_identity : r.observation.identity.thread_identity ≤ U32
  entry_qpc : r.observation.entry_qpc ≤ U64
  exit_qpc : r.observation.exit_qpc ≤ U64
  incoming_r5_low_byte : r.observation.incoming_r5_low_byte ≤ 255
  incoming_f1_bits : r.observation.incoming_f1_bits ≤ U64
  before : r.observation.before_available = true → Typed r.observation.before
  after : r.observation.after_available = true → Typed r.observation.after

/-- What failed is cleared. -/
structure Cleared (r : RawRecord) : Prop where
  entry_clock : r.callback_issues.toNat.testBit 0 = true → r.observation.entry_qpc = 0
  exit_clock : r.callback_issues.toNat.testBit 1 = true → r.observation.exit_qpc = 0
  before : r.callback_issues.toNat.testBit 2 = true → r.observation.before_available = false
  after : r.callback_issues.toNat.testBit 3 = true → r.observation.after_available = false

theorem callback_bits (c : Call) :
    c.row.callback_issues.toNat ≤ 31 ∧
      c.row.callback_issues.toNat.testBit 0 = c.entry_clock.isNone ∧
      c.row.callback_issues.toNat.testBit 1 = c.exit_clock.isNone ∧
      c.row.callback_issues.toNat.testBit 2 = c.before.fails ∧
      c.row.callback_issues.toNat.testBit 3 = c.after.fails := by
  unfold Call.row
  dsimp only
  generalize c.entry_clock.isNone = entry, c.exit_clock.isNone = exit, c.before.fails = before,
    c.after.fails = after, c.unwinds = unwinds
  cases entry <;> cases exit <;> cases before <;> cases after <;> cases unwinds <;> decide

theorem clock_le {clock : Option Nat} (h : ∀ qpc, clock = some qpc → qpc < 2 ^ 64) :
    clock.getD 0 ≤ U64 := by
  cases clock with
  | none => exact Nat.zero_le _
  | some qpc => exact Nat.le_pred_of_lt (h qpc rfl)

theorem typed_kept {r : Reading} (h : ∀ s, r = .reads s → Typed s) (hkept : r.kept.2 = true) :
    Typed r.kept.1 := by
  cases r with
  | reads state => exact h state rfl
  | _ => cases hkept

variable {r : RawRecord} {value : JsonTree} {window : Window}

theorem legible_of_made (h : Made r) : Legible r := by
  obtain ⟨c, htyped, hobservation, hissues⟩ := h
  constructor
  · rw [hissues]
    exact (callback_bits c).1
  all_goals rw [hobservation]
  · exact Nat.le_pred_of_lt htyped.timer_address
  · exact Nat.le_pred_of_lt htyped.caller_address
  · exact Nat.le_pred_of_lt htyped.thread_identity
  · exact clock_le htyped.entry_clock
  · exact clock_le htyped.exit_clock
  · exact Nat.le_pred_of_lt htyped.incoming_r5_low_byte
  · exact Nat.le_pred_of_lt htyped.incoming_f1_bits
  · exact typed_kept htyped.before
  · exact typed_kept htyped.after

theorem cleared_of_made (h : Made r) : Cleared r := by
  obtain ⟨c, -, hobservation, hissues⟩ := h
  obtain ⟨-, hentry, hexit, hbefore, hafter⟩ := callback_bits c
  have hfails : ∀ r : Reading, r.fails = true → r.kept.2 = false := by
    intro r hr
    cases r <;> first | rfl | cases hr
  constructor <;> rw [hissues, hobservation]
  · intro hbit
    have hnone := Option.isNone_iff_eq_none.mp (hentry.symm.trans hbit)
    show c.entry_clock.getD 0 = 0
    rw [hnone]
    rfl
  · intro hbit
    have hnone := Option.isNone_iff_eq_none.mp (hexit.symm.trans hbit)
    show c.exit_clock.getD 0 = 0
    rw [hnone]
    rfl
  · intro hbit
    exact hfails _ (hbefore.symm.trans hbit)
  · intro hbit
    exact hfails _ (hafter.symm.trans hbit)

/-! ### What the decoder reads -/

theorem ok_bind {α β : Type} (a : α) (next : α → Except String β) :
    (Except.ok a >>= next) = next a := rfl

/-- The row of a record, without its issues. -/
def rowOf (r : RawRecord) : Row where
  entry_ordinal := r.entry_ordinal
  callback_issues := r.callback_issues.toNat
  timer_address := r.observation.identity.timer_address
  caller_address := r.observation.identity.caller_address
  native_thread_id := r.observation.identity.thread_identity
  entry_qpc := r.observation.entry_qpc
  exit_qpc := r.observation.exit_qpc
  incoming_r5_low_byte := r.observation.incoming_r5_low_byte
  incoming_f1_bits := r.observation.incoming_f1_bits
  before := if r.observation.before_available then some r.observation.before else none
  after := if r.observation.after_available then some r.observation.after else none

/-- The row of a record, with the issues of its own. -/
def readOf (window : Window) (r : RawRecord) : Row :=
  { rowOf r with diagnostic_issues := (rowOf r).own window.begin_qpc window.end_qpc }

theorem of_rowOf (r : RawRecord) : Of (rowOf r) r.observation := by
  unfold rowOf
  refine ⟨rfl, rfl, rfl, rfl, ?_, ?_⟩
  · dsimp only
    cases r.observation.before_available <;> rfl
  · dsimp only
    cases r.observation.after_available <;> rfl

theorem uint_number {high low n : Nat} (hlow : low ≤ n) (hhigh : n ≤ high) :
    uint high low (number n) = .ok n := by
  unfold number uint
  dsimp only
  rw [if_pos ⟨by omega, by omega⟩]
  rfl

theorem readField_numbers {count limit : Nat} {values : List Nat} (hcount : values.length = count)
    (hlimit : ∀ v ∈ values, v ≤ limit) : readField count limit (numbers values) = .ok values := by
  have hread : (values.map number).mapM (uint limit 0) = .ok (values.map id) :=
    NestedRecorder.mapM_map_ok fun v hv => uint_number (Nat.zero_le _) (hlimit v hv)
  rw [map_id] at hread
  unfold numbers readField
  dsimp only
  rw [length_map, hcount, decide_eq_true rfl, hread]
  rfl

theorem readState_writes {available : Bool} {s : State} (h : WritesReading available s value)
    (htyped : available = true → Typed s) :
    readState value = .ok (if available then some s else none) := by
  unfold WritesReading at h
  cases available with
  | false =>
    obtain rfl : value = .null := h
    rfl
  | true =>
    replace h : WritesState s value := h
    have htyped := htyped rfl
    have hwords : readField 18 U32 (value.field "words") = .ok s.words := by
      rw [h.words]
      exact readField_numbers htyped.words.1 fun v hv => Nat.le_pred_of_lt (htyped.words.2 v hv)
    have hbytes : readField 3 255 (value.field "bytes") = .ok s.bytes := by
      rw [h.bytes]
      exact readField_numbers htyped.bytes.1 fun v hv => Nat.le_pred_of_lt (htyped.bytes.2 v hv)
    obtain ⟨q, hq⟩ := length_eq_one_iff.mp htyped.qwords.1
    have hqword : uint U64 0 (value.field "qword64") = .ok q := by
      rw [h.qword64, hq]
      exact uint_number (Nat.zero_le _)
        (Nat.le_pred_of_lt (htyped.qwords.2 q (hq ▸ mem_singleton_self _)))
    have hs : ({ words := s.words, bytes := s.bytes, qwords := [q] } : State) = s := by
      rw [← hq]
    have hkeys := h.keys
    cases value with
    | obj fields =>
      unfold readState exact
      dsimp only
      rw [hkeys, hwords, hbytes, hqword]
      exact congrArg (fun s => Except.ok (some s)) hs
    | _ => cases hkeys

theorem readRow_writes (h : WritesRecord r value) (hr : Legible r) :
    readRow value r.entry_ordinal = .ok (rowOf r) := by
  unfold readRow
  rw [h.callback_issues, h.timer_address, h.caller_address, h.native_thread_id, h.entry_qpc,
    h.exit_qpc, h.incoming_r5_low_byte, h.incoming_f1_bits, readState_writes h.before hr.before,
    readState_writes h.after hr.after, uint_number (Nat.zero_le _) hr.callback_issues,
    uint_number (Nat.zero_le _) hr.timer_address, uint_number (Nat.zero_le _) hr.caller_address,
    uint_number (Nat.zero_le _) hr.thread_identity, uint_number (Nat.zero_le _) hr.entry_qpc,
    uint_number (Nat.zero_le _) hr.exit_qpc, uint_number (Nat.zero_le _) hr.incoming_r5_low_byte,
    uint_number (Nat.zero_le _) hr.incoming_f1_bits]
  rfl

theorem checkCleared_rowOf (h : Cleared r) : (rowOf r).checkCleared = .ok () := by
  have himplies : ∀ {b : Bool} {p : Prop} [Decidable p], (b = true → p) →
      (!b || decide p) = true := by
    intro b p _ hp
    cases b with
    | false => rfl
    | true => exact decide_eq_true (hp rfl)
  have hisNone : ∀ {b a : Bool} {s : State}, (b = true → a = false) →
      (!b || (if a then some s else none).isNone) = true := by
    intro b a s hp
    cases b with
    | false => rfl
    | true =>
      rw [hp rfl]
      rfl
  unfold Row.checkCleared rowOf
  dsimp only
  rw [need_ok.mpr (himplies h.entry_clock), need_ok.mpr (himplies h.exit_clock),
    need_ok.mpr (hisNone h.before), need_ok.mpr (hisNone h.after)]
  rfl

/-- A row that was stored could not have been counted. -/
theorem not_countable (hvalid : window.valid = true) (h : r.place window = .stored) :
    (rowOf r).countable window.begin_qpc window.end_qpc = false := by
  by_contra hcountable
  rw [Bool.not_eq_false] at hcountable
  unfold Row.countable at hcountable
  simp only [Bool.and_eq_true, decide_eq_true_eq] at hcountable
  obtain ⟨⟨⟨⟨⟨hclock, houtside⟩, hidentity⟩, hbefore⟩, hafter⟩, hmask⟩ := hcountable
  have hof := of_rowOf r
  have hdiscardable : (window.valid && valid_clock r.observation && r.observation.identity.valid &&
      r.observation.before_available && r.observation.after_available &&
      decide (r.callback_issues = 0)) = true := by
    have hissues : r.callback_issues = 0 := BitVec.eq_of_toNat_eq hmask
    have hb : r.observation.before_available = true := by
      cases hbool : r.observation.before_available with
      | true => rfl
      | false =>
        unfold rowOf at hbefore
        rw [hbool] at hbefore
        cases hbefore
    have ha : r.observation.after_available = true := by
      cases hbool : r.observation.after_available with
      | true => rfl
      | false =>
        unfold rowOf at hafter
        rw [hbool] at hafter
        cases hafter
    rw [hvalid, hof.clock.symm.trans hclock, hof.identity_valid.symm.trans hidentity, hb, ha,
      hissues]
    rfl
  unfold RawRecord.place at h
  dsimp only at h
  rw [hdiscardable] at h
  unfold Row.outside rowOf at houtside
  simp only [Bool.or_eq_true, decide_eq_true_eq] at houtside
  rcases houtside with hbegin | hend
  · simp [hbegin] at h
  · simp [hend] at h
    split at h <;> cases h

theorem readRecords_writes {observed : Nat} {records : List RawRecord} {items : List JsonTree}
    (h : Forall₂ WritesRecord records items) (hlegible : ∀ r ∈ records, Legible r ∧ Cleared r ∧
      (rowOf r).countable window.begin_qpc window.end_qpc = false)
    (hordinals : ∀ r ∈ records, 1 ≤ r.entry_ordinal ∧ r.entry_ordinal ≤ observed) {seen : List Nat}
    (hnodup : (records.map (·.entry_ordinal)).Nodup) (hseen : ∀ r ∈ records, r.entry_ordinal ∉ seen)
    :
    readRecords window.begin_qpc window.end_qpc observed seen items =
      .ok (records.map (readOf window)) := by
  induction h generalizing seen with
  | nil => rfl
  | @cons r item records items hone _ ih =>
    obtain ⟨hr, hcleared, hcountable⟩ := hlegible r mem_cons_self
    obtain ⟨hpos, hle⟩ := hordinals r mem_cons_self
    rw [map_cons, nodup_cons] at hnodup
    have hrest : readRecords window.begin_qpc window.end_qpc observed (r.entry_ordinal :: seen)
        items = .ok (records.map (readOf window)) := by
      refine ih (fun s hs => hlegible s (mem_cons_of_mem _ hs))
        (fun s hs => hordinals s (mem_cons_of_mem _ hs)) hnodup.2 fun s hs hmem => ?_
      rcases mem_cons.mp hmem with heq | hold
      · exact hnodup.1 (heq ▸ mem_map_of_mem hs)
      · exact hseen s (mem_cons_of_mem _ hs) hold
    have hfresh : (!seen.contains r.entry_ordinal) = true := by
      rw [Bool.not_eq_true', contains_eq_mem, decide_eq_false]
      exact hseen r mem_cons_self
    have hkept : (!(rowOf r).countable window.begin_qpc window.end_qpc) = true := by
      rw [hcountable]
      rfl
    unfold readRecords exact
    rw [hone.keys, hone.entry_ordinal, uint_number hpos hle, need_ok.mpr rfl, ok_bind, ok_bind,
      need_ok.mpr hfresh, ok_bind, readRow_writes hone hr, ok_bind,
      checkCleared_rowOf hcleared, ok_bind, need_ok.mpr hkept, ok_bind, hrest]
    rfl

theorem readFlag_bool (b : Bool) : readFlag (.bool b) = .ok b := rfl

/-- The counts of a copy pass the checks. -/
theorem checkCounts_copied {s : Snapshot} {failed : Bool} (hok : s.counts.counter_saturated = false)
    (hcopied : TimerObserver.Copied s) (hroom : s.records.length ≤ CAPACITY)
    (hdrained : s.counts.observer_failed = failed)
    (hfailed : failed = true ∨ s.counts.admitted_entries = s.counts.completed_entries) :
    checkCounts s.counts s.records.length = .ok () := by
  have htotal : ∀ values, total s.counts values = values.sum := by
    intro values
    unfold total
    rw [hok]
    rfl
  have hstored := hcopied.stored
  have hcompleted := hcopied.completed
  have hobserved := hcopied.observed
  have hle := hcopied.le
  unfold checkCounts
  simp only [htotal]
  have h1 : (!s.counts.counter_saturated || Saturated s.counts) = true := by
    rw [hok]
    rfl
  have h2 : (decide (s.counts.stored_entries = s.records.length) &&
      decide (s.records.length ≤ CAPACITY) &&
      decide (s.counts.stored_entries ≤ s.counts.completed_entries) &&
      decide (s.counts.completed_entries ≤ s.counts.admitted_entries)) = true := by
    simp only [Bool.and_eq_true, decide_eq_true_eq]
    refine ⟨⟨⟨hstored, hroom⟩, ?_⟩, hle⟩
    omega
  have h3 : decide (s.counts.observed_entries =
      [s.counts.admitted_entries, s.counts.overflow_entries].sum) = true := by
    rw [decide_eq_true_eq, hobserved]
    simp
  have h4 : decide (s.counts.completed_entries = [s.counts.stored_entries,
      s.counts.outside_before_entries, s.counts.outside_after_entries].sum) = true := by
    rw [decide_eq_true_eq, hcompleted]
    simp [Nat.add_assoc]
  have h5 : (s.counts.observer_failed ||
      decide (s.counts.admitted_entries = s.counts.completed_entries)) = true := by
    rw [hdrained]
    rcases hfailed with htrue | heq
    · rw [htrue]
      rfl
    · rw [heq, decide_eq_true rfl, Bool.or_true]
  rw [need_ok.mpr h1, need_ok.mpr h2, need_ok.mpr h3, need_ok.mpr h4, need_ok.mpr h5]
  rfl

theorem readCounts_writes {c : Counts} {records : Nat} (h : WritesCounts c value)
    (hle : ∀ counter, c.get counter ≤ TimerObserver.kCounterMax)
    (hcheck : checkCounts c records = .ok ()) : readCounts value records = .ok c := by
  have hread : ∀ counter, uint U64 0 (number (c.get counter)) = .ok (c.get counter) :=
    fun counter => uint_number (Nat.zero_le _) (hle counter)
  have hobserved : uint U64 0 (number c.observed_entries) = .ok c.observed_entries :=
    hread .observed
  have hadmitted : uint U64 0 (number c.admitted_entries) = .ok c.admitted_entries :=
    hread .admitted
  have hstored : uint U64 0 (number c.stored_entries) = .ok c.stored_entries := hread .stored
  have hcompleted : uint U64 0 (number c.completed_entries) = .ok c.completed_entries :=
    hread .completed
  have hoverflow : uint U64 0 (number c.overflow_entries) = .ok c.overflow_entries :=
    hread .overflow
  have hbefore : uint U64 0 (number c.outside_before_entries) = .ok c.outside_before_entries :=
    hread .outsideBefore
  have hafter : uint U64 0 (number c.outside_after_entries) = .ok c.outside_after_entries :=
    hread .outsideAfter
  unfold readCounts exact
  rw [h.keys, h.observed_entries, h.admitted_entries, h.stored_entries, h.completed_entries,
    h.overflow_entries, h.outside_before_entries, h.outside_after_entries, h.counter_saturated,
    h.observer_failed, hobserved, hadmitted, hstored, hcompleted, hoverflow, hbefore, hafter,
    readFlag_bool, readFlag_bool, need_ok.mpr rfl]
  simp only [ok_bind]
  rw [hcheck]
  rfl

/-! ### The size of a receipt -/

theorem textLength_number {n : Nat} (h : n ≤ U64) : (number n).textLength ≤ 20 :=
  JsonTree.textLength_num (by decide) (by unfold U64 at h; omega)

theorem textLength_numbers {values : List Nat} (h : ∀ v ∈ values, v ≤ U64) :
    (numbers values).textLength ≤ values.length * 21 + 2 := by
  have hitems : JsonTree.itemsLength (values.map number) ≤ (values.map number).length * (20 + 1) := by
    refine JsonTree.itemsLength_le fun item hi => ?_
    obtain ⟨v, hv, rfl⟩ := mem_map.mp hi
    exact textLength_number (h v hv)
  rw [length_map] at hitems
  unfold numbers JsonTree.textLength
  omega

/-- A state that is there, or null. -/
theorem textLength_reading {available : Bool} {s : State} (h : WritesReading available s value)
    (htyped : available = true → Typed s) : value.textLength ≤ 600 := by
  unfold WritesReading at h
  cases available with
  | false =>
    obtain rfl : value = .null := h
    decide
  | true =>
    replace h : WritesState s value := h
    have htyped := htyped rfl
    have hbound : ∀ key ∈ STATE_KEYS, (value.field key).textLength ≤
        (if key = "words" then 400 else 70) := by
      intro key hkey
      simp only [STATE_KEYS, mem_cons, not_mem_nil, or_false] at hkey
      rcases hkey with rfl | rfl | rfl
      · rw [h.words]
        have := textLength_numbers fun v hv =>
          (Nat.le_pred_of_lt (htyped.words.2 v hv)).trans (by decide)
        rw [htyped.words.1] at this
        exact this.trans (by decide)
      · rw [h.bytes]
        have := textLength_numbers fun v hv =>
          (Nat.le_pred_of_lt (htyped.bytes.2 v hv)).trans (by decide)
        rw [htyped.bytes.1] at this
        exact this.trans (by decide)
      · rw [h.qword64]
        obtain ⟨q, hq⟩ := length_eq_one_iff.mp htyped.qwords.1
        rw [hq]
        exact (textLength_number (Nat.le_pred_of_lt
          (htyped.qwords.2 q (hq ▸ mem_singleton_self _)))).trans (by decide)
    exact (JsonTree.textLength_le h.keys hbound).trans (by decide)

theorem textLength_record (h : WritesRecord r value) (hr : Legible r)
    (hordinal : r.entry_ordinal ≤ U64) : value.textLength ≤ 1600 := by
  have hsmall : U32 ≤ U64 := by decide
  have hbound : ∀ key ∈ RECORD_KEYS, (value.field key).textLength ≤
      (if key = "before" ∨ key = "after" then 600 else 20) := by
    intro key hkey
    simp only [RECORD_KEYS, mem_cons, not_mem_nil, or_false] at hkey
    rcases hkey with rfl | rfl | rfl | rfl | rfl | rfl | rfl | rfl | rfl | rfl | rfl
    · exact h.entry_ordinal ▸ textLength_number hordinal
    · exact h.callback_issues ▸ textLength_number (hr.callback_issues.trans (by decide))
    · exact h.timer_address ▸ textLength_number (hr.timer_address.trans hsmall)
    · exact h.caller_address ▸ textLength_number (hr.caller_address.trans hsmall)
    · exact h.native_thread_id ▸ textLength_number (hr.thread_identity.trans hsmall)
    · exact h.entry_qpc ▸ textLength_number hr.entry_qpc
    · exact h.exit_qpc ▸ textLength_number hr.exit_qpc
    · exact h.incoming_r5_low_byte ▸ textLength_number
        (hr.incoming_r5_low_byte.trans (by decide))
    · exact h.incoming_f1_bits ▸ textLength_number hr.incoming_f1_bits
    · exact textLength_reading h.before hr.before
    · exact textLength_reading h.after hr.after
  exact (JsonTree.textLength_le h.keys hbound).trans (by decide)

theorem textLength_counts {c : Counts} (h : WritesCounts c value)
    (hle : ∀ counter, c.get counter ≤ TimerObserver.kCounterMax) : value.textLength ≤ 1000 := by
  have hbound : ∀ key ∈ COUNT_KEYS, (value.field key).textLength ≤ 20 := by
    intro key hkey
    simp only [COUNT_KEYS, mem_cons, not_mem_nil, or_false] at hkey
    rcases hkey with rfl | rfl | rfl | rfl | rfl | rfl | rfl | rfl | rfl
    · exact h.observed_entries ▸ textLength_number (hle .observed)
    · exact h.admitted_entries ▸ textLength_number (hle .admitted)
    · exact h.stored_entries ▸ textLength_number (hle .stored)
    · exact h.completed_entries ▸ textLength_number (hle .completed)
    · exact h.overflow_entries ▸ textLength_number (hle .overflow)
    · exact h.outside_before_entries ▸ textLength_number (hle .outsideBefore)
    · exact h.outside_after_entries ▸ textLength_number (hle .outsideAfter)
    · rw [h.counter_saturated]
      cases c.counter_saturated <;> decide
    · rw [h.observer_failed]
      cases c.observer_failed <;> decide
  exact (JsonTree.textLength_le h.keys hbound).trans (by decide)

/-- What the caller of the decoder expects of a window. -/
structure Expected (window : Window) : Prop where
  begin_qpc : 1 ≤ window.begin_qpc ∧ window.begin_qpc ≤ MAX_QPC
  end_qpc : window.end_qpc ≤ MAX_QPC
  qpc_frequency : 10 ≤ window.qpc_frequency ∧ window.qpc_frequency ≤ 10 ^ 10
  slots : window.end_qpc = window.begin_qpc + 91 * window.qpc_frequency / 10

theorem Expected.lt (h : Expected window) : window.begin_qpc < window.end_qpc := by
  have := h.slots
  have := h.qpc_frequency
  omega

theorem Expected.valid (h : Expected window) : window.valid = true := by
  have hlt := h.lt
  have hslots := h.slots
  obtain ⟨hten, hmost⟩ := h.qpc_frequency
  obtain ⟨hpos, -⟩ := h.begin_qpc
  unfold Window.valid
  simp only [Bool.and_eq_true, decide_eq_true_eq]
  refine ⟨⟨⟨⟨⟨by omega, hlt⟩, h.end_qpc⟩, by omega⟩, hmost⟩, ?_⟩
  unfold TimerJournal.kMaxWindowSeconds
  omega

section Receipt
variable {token : String} {s : Snapshot} {value : JsonTree} {window : Window}

/-- The text of a receipt fits. -/
theorem textLength_receipt (h : Writes token s value) (hs : Sound CAPACITY window s)
    (hwindow : Expected window) (hok : s.counts.counter_saturated = false)
    (htoken : tokenShape token = true) : value.textLength ≤ MAX_BYTES := by
  obtain ⟨items, hitems, hrecords⟩ := h.records
  have hlength : token.length = 32 := by
    unfold tokenShape at htoken
    simp only [Bool.and_eq_true, decide_eq_true_eq] at htoken
    exact htoken.1
  have hclocks : MAX_QPC ≤ U64 := by decide
  have hlong : (JsonTree.arr items).textLength ≤ 2000000 := by
    have hall : JsonTree.itemsLength items ≤ items.length * (1600 + 1) := by
      refine JsonTree.itemsLength_le fun item hitem => ?_
      obtain ⟨i, hi, rfl⟩ := mem_iff_getElem.mp hitem
      have hlen := hrecords.length_eq
      have hrow := Forall₂.get hrecords (by omega) hi
      have hmem : s.records.get ⟨i, by omega⟩ ∈ s.records := get_mem _ _
      have hle := (hs.ordinals hok).2 _ hmem
      exact textLength_record hrow (legible_of_made (hs.made _ hmem).1)
        (hle.2.trans (hs.counts .observed))
    have hroom := hs.room
    have hlen := hrecords.length_eq
    unfold CAPACITY at hroom
    rw [JsonTree.textLength]
    omega
  have hbound : ∀ key ∈ TOP_KEYS, (value.field key).textLength ≤
      (if key = "records" then 2000000 else if key = "counts" then 1000 else 60) := by
    intro key hkey
    rcases mem_append.mp hkey with hflag | hother
    · have hfalse : (value.field key).textLength ≤ 5 := by
        rw [h.flags key hflag]
        decide
      refine hfalse.trans ?_
      split
      · decide
      · split <;> decide
    · simp only [mem_cons, not_mem_nil, or_false] at hother
      rcases hother with rfl | rfl | rfl | rfl | rfl | rfl | rfl | rfl | rfl | rfl | rfl | rfl
      · rw [h.schema]
        decide
      · rw [h.token, JsonTree.textLength, hlength]
        decide
      · rw [h.status]
        decide
      · rw [h.clock]
        decide
      · rw [h.domain]
        decide
      · exact h.hook_address ▸ (textLength_number (by decide)).trans (by decide)
      · exact h.capacity ▸ (textLength_number (by decide)).trans (by decide)
      · rw [h.begin_qpc, hs.same_window]
        exact (textLength_number (hwindow.begin_qpc.2.trans hclocks)).trans (by decide)
      · rw [h.end_qpc, hs.same_window]
        exact (textLength_number (hwindow.end_qpc.trans hclocks)).trans (by decide)
      · rw [h.qpc_frequency, hs.same_window]
        exact (textLength_number (hwindow.qpc_frequency.2.trans (by decide))).trans (by decide)
      · exact (textLength_counts h.counts hs.counts).trans (by decide)
      · rw [hitems]
        exact hlong.trans (by decide)
  exact (JsonTree.textLength_le h.keys hbound).trans (by decide)

theorem checkExpected_receipt (h : Writes token s value) (hs : Sound CAPACITY window s)
    (hwindow : Expected window) (hok : s.counts.counter_saturated = false)
    (htoken : tokenShape token = true) :
    checkExpected value.text.length token window.begin_qpc window.end_qpc window.qpc_frequency =
      .ok () := by
  have hsize : (decide (0 < value.text.length) && decide (value.text.length ≤ MAX_BYTES)) = true := by
    rw [JsonTree.length_text]
    have hpos : 0 < value.textLength := by
      have hkeys := h.keys
      cases value with
      | obj fields =>
        rw [JsonTree.textLength]
        omega
      | _ => cases hkeys
    simp only [Bool.and_eq_true, decide_eq_true_eq]
    exact ⟨hpos, textLength_receipt h hs hwindow hok htoken⟩
  have hlt := hwindow.lt
  have h1 : (decide (1 ≤ window.begin_qpc) && decide (window.begin_qpc ≤ MAX_QPC)) = true := by
    simp only [Bool.and_eq_true, decide_eq_true_eq]
    exact hwindow.begin_qpc
  have h2 : (decide (1 ≤ window.end_qpc) && decide (window.end_qpc ≤ MAX_QPC)) = true := by
    simp only [Bool.and_eq_true, decide_eq_true_eq]
    exact ⟨by omega, hwindow.end_qpc⟩
  have h3 : (decide (10 ≤ window.qpc_frequency) && decide (window.qpc_frequency ≤ 10 ^ 10)) =
      true := by
    simp only [Bool.and_eq_true, decide_eq_true_eq]
    exact hwindow.qpc_frequency
  unfold checkExpected
  rw [need_ok.mpr hsize, need_ok.mpr htoken, need_ok.mpr h1, need_ok.mpr h2,
    need_ok.mpr h3, need_ok.mpr (decide_eq_true hwindow.slots)]
  rfl

theorem checkBinding_receipt (h : Writes token s value) (hs : Sound CAPACITY window s) :
    checkBinding value token window.begin_qpc window.end_qpc window.qpc_frequency = .ok () := by
  have hnumber : ∀ n, isNumber n (number n) = true := fun n => decide_eq_true rfl
  have htext : ∀ text, isText text (.str text) = true := fun text => decide_eq_true rfl
  have hflags : (FALSE_FLAGS.all fun key => isFalse (value.field key)) = true := by
    rw [all_eq_true]
    intro key hkey
    rw [h.flags key hkey]
    rfl
  have hwindow := hs.same_window
  unfold checkBinding exact
  rw [h.keys, h.schema, h.token, h.status, h.clock, h.domain, h.hook_address, h.capacity,
    h.begin_qpc, h.end_qpc, h.qpc_frequency, hflags, hwindow]
  simp only [hnumber, htext, Bool.and_self]
  rfl

/-- The rows that the decoder reads from a receipt. -/
theorem readRecords_receipt (hs : Sound CAPACITY window s) (hwindow : Expected window)
    (hok : s.counts.counter_saturated = false) {items : List JsonTree}
    (hitems : Forall₂ WritesRecord s.records items) :
    readRecords window.begin_qpc window.end_qpc s.counts.observed_entries [] items =
      .ok (s.records.map (readOf window)) := by
  obtain ⟨hnodup, hordinals⟩ := hs.ordinals hok
  refine readRecords_writes hitems (fun r hr => ?_) hordinals hnodup fun r hr => not_mem_nil
  obtain ⟨hmade, hplace⟩ := hs.made r hr
  exact ⟨legible_of_made hmade, cleared_of_made hmade, not_countable hwindow.valid hplace⟩

/-- The decoder goes through the rows in the order of the classification. -/
theorem ordered_receipt : ordered (s.records.map (readOf window)) = s.order := by
  have hget : ∀ i : Nat, ((s.records.map (readOf window)).getD i {}).entry_ordinal =
      (s.records.getD i {}).entry_ordinal := by
    intro i
    rw [getD_eq_getElem?_getD, getD_eq_getElem?_getD, getElem?_map]
    cases s.records[i]? <;> rfl
  unfold ordered Snapshot.order
  simp only [hget, length_map]

theorem order_perm (s : Snapshot) : s.order.Perm (List.range s.records.length) :=
  perm_insertionSort _ _

/-- **The rows of a receipt and the records of the classification** have the same issues. -/
theorem swept_receipt (hs : Sound CAPACITY window s) (hwindow : Expected window) :
    (sweep { rows := s.records.map (readOf window) } [] s.order).rows.length = s.records.length ∧
    Forall₂ (fun i (record : Record) =>
        record.observation = (s.records.getD i {}).observation ∧
        Agree ((sweep { rows := s.records.map (readOf window) } [] s.order).rows.getD i
          {}).diagnostic_issues record.issues)
      s.order (s.classify_offline CAPACITY).retained_calls.records := by
  have hget : ∀ i < s.records.length, (s.records.map (readOf window)).getD i {} =
      readOf window (s.records.getD i {}) := by
    intro i hi
    rw [getD_eq_getElem?_getD, getD_eq_getElem?_getD, getElem?_map, getElem?_eq_getElem hi]
    rfl
  have hstart : Follows window (fun i => (s.records.getD i {}).observation) s.records.length []
      { rows := s.records.map (readOf window) } (.new window) := by
    refine ⟨length_map _, fun i hi => (by cases hi), fun i hi => ?_, rfl, Forall₂.nil,
      fun i hi _ => ?_, rfl⟩
    · dsimp only
      rw [hget i hi]
      exact of_bare (of_rowOf _) rfl
    · dsimp only
      rw [hget i hi]
      exact own_agree (of_rowOf _) hwindow.valid
  have hperm := order_perm s
  have hlt : ∀ i ∈ s.order, i < s.records.length := fun i hi =>
    mem_range.mp (hperm.mem_iff.mp hi)
  have hlength : ([] ++ s.order).length ≤ CAPACITY := by
    rw [nil_append, hperm.length_eq, length_range]
    exact hs.room
  have hswept := hstart.sweep hlt (hperm.nodup_iff.mpr nodup_range) hlength
  refine ⟨hswept.length, ?_⟩
  have hrecords : (s.classify_offline CAPACITY).retained_calls.records =
      (s.order.foldl (fun (j : Journal) i =>
        (j.observe CAPACITY (s.records.getD i {}).observation).1) (Journal.new window)).records := by
    unfold Snapshot.classify_offline TimerJournal.observeAll
    dsimp only
    rw [foldl_map, foldl_map, hs.same_window]
  rw [hrecords]
  exact hswept.marked

end Receipt

/-- **Both sides classify alike.**  Whatever the threads do, as long as no counter is at its end,
the decoder accepts the receipt of what a freeze has copied; and each of its rows has the issues
that the journal flags on the record of the same observation. -/
theorem decode_agrees {window : Window} (hwindow : Expected window) (enabled : Bool)
    {moves : List TimerObserver.Move} (hgenuine : ∀ move ∈ moves, move.Genuine) {me : Nat}
    {before dest : Snapshot}
    (hfrozen : (TimerObserver.run CAPACITY window enabled moves).tasks[me]? =
      some (.returned before dest true))
    (hok : dest.counts.counter_saturated = false) {token : String}
    (htoken : tokenShape token = true) {receipt : JsonTree} (hreceipt : Writes token dest receipt) :
    ∃ result, decode receipt token window.begin_qpc window.end_qpc window.qpc_frequency =
        .ok result ∧
      result.records.length = dest.records.length ∧
      dest.order.Perm (List.range dest.records.length) ∧
      Forall₂ (fun i (record : Record) =>
          record.observation = (dest.records.getD i {}).observation ∧
          Agree (result.records.getD i {}).diagnostic_issues record.issues)
        dest.order (dest.classify_offline CAPACITY).retained_calls.records := by
  have hsound : Sound CAPACITY window dest :=
    (TimerObserver.run_rows CAPACITY window enabled hgenuine).backed _
      (mem_of_getElem? hfrozen)
  obtain ⟨hcopied, hcompleted⟩ :=
    (TimerObserver.run_inv CAPACITY window enabled moves).frozen hfrozen hok
  have hdrained : dest.counts.observer_failed = true ∨
      dest.counts.admitted_entries = dest.counts.completed_entries := by
    cases hfailed : dest.counts.observer_failed with
    | true => exact Or.inl rfl
    | false => exact Or.inr (hcompleted (Or.inr hfailed))
  obtain ⟨items, hitems, hrecords⟩ := hreceipt.records
  have hlength : items.length = dest.records.length := hrecords.length_eq.symm
  obtain ⟨hswept, hagree⟩ := swept_receipt hsound hwindow
  have hcounts := readCounts_writes hreceipt.counts hsound.counts
    (checkCounts_copied hok hcopied hsound.room rfl hdrained)
  have hroom : decide (dest.records.length ≤ CAPACITY) = true := decide_eq_true hsound.room
  refine ⟨conclude token window.begin_qpc window.end_qpc window.qpc_frequency dest.counts
    (dest.records.map (readOf window)), ?_, ?_, order_perm dest, ?_⟩
  · unfold decode
    rw [checkExpected_receipt hreceipt hsound hwindow hok htoken, ok_bind,
      checkBinding_receipt hreceipt hsound, ok_bind, hitems]
    show (need (items.length ≤ CAPACITY) _ >>= _) = _
    rw [hlength, need_ok.mpr hroom, ok_bind, hcounts, ok_bind,
      readRecords_receipt hsound hwindow hok hrecords]
    rfl
  · unfold conclude
    dsimp only
    rw [ordered_receipt]
    exact hswept
  · unfold conclude
    dsimp only
    rw [ordered_receipt]
    exact hagree

/-- A call on one timer, with both states read. -/
def sharedCall (thread entry exit : Nat) : Call where
  identity := ⟨0x1000, 0x82130004, thread⟩
  incoming_r5_low_byte := 1
  entry_clock := some entry
  before := .reads {}
  after := .reads { words := replicate 18 7, bytes := [1, 2, 3], qwords := [5] }
  exit_clock := some exit

/-- The second call begins before the first one ends, and ends before it. -/
def sharedCalls : List Call := [sharedCall 1 1005 1008, sharedCall 2 1006 1007]

theorem sharedCalls_made : ∀ c ∈ sharedCalls, Made c.row := by
  have htyped : ∀ s : State, s = {} ∨
      s = { words := replicate 18 7, bytes := [1, 2, 3], qwords := [5] } → Typed s := by
    rintro s (rfl | rfl)
    · exact ⟨by decide, by decide, by decide⟩
    · exact ⟨by decide, by decide, by decide⟩
  intro c hc
  refine ⟨c, ?_, rfl, rfl⟩
  simp only [sharedCalls, mem_cons, not_mem_nil, or_false] at hc
  rcases hc with rfl | rfl
  all_goals exact ⟨by decide, by decide, by decide, by decide, by decide,
    fun qpc h => by cases h; decide, fun qpc h => by cases h; decide,
    fun s h => htyped s (.inl (Reading.reads.inj h).symm),
    fun s h => htyped s (.inr (Reading.reads.inj h).symm)⟩

/-- The two calls side by side, from their starts to their ends, and a freeze after them. -/
def sharedMoves : List TimerObserver.Move :=
  [.invoke, .invoke, .freeze {}] ++ replicate 8 (.step 0 .goes) ++
    replicate 8 (.step 1 .goes) ++ [.step 1 (.observes (sharedCall 2 1006 1007).row)] ++
    replicate 5 (.step 1 .goes) ++ [.step 0 (.observes (sharedCall 1 1005 1008).row)] ++
    replicate 5 (.step 0 .goes) ++ replicate 6 (.step 2 .goes)

/-- What the freeze copies: the call that was completed first comes first. -/
def sharedCopy : Snapshot where
  window := ⟨1000, 1910, 100⟩
  records := [{ (sharedCall 2 1006 1007).row with entry_ordinal := 2 },
    { (sharedCall 1 1005 1008).row with entry_ordinal := 1 }]
  counts := {
    observed_entries := 2, admitted_entries := 2, stored_entries := 2, completed_entries := 2 }

/-- Both records are flagged, the pair for its overlap and the second one for the order of the
exits. -/
theorem decode_agrees_shared :
    (sharedCopy.classify_offline CAPACITY).retained_calls.records.map (·.issues) =
      [kWitnessIntervalsOverlapOrTouch ||| kSharedAddressOverlapOrTouch,
        kWitnessIntervalsOverlapOrTouch ||| kSharedAddressOverlapOrTouch ||| kExitOrderRegressed] ∧
    ∃ result, decode (receiptJson "0123456789abcdef0123456789abcdef" sharedCopy)
        "0123456789abcdef0123456789abcdef" 1000 1910 100 = .ok result ∧
      result.records.length = 2 ∧ sharedCopy.order.Perm (List.range 2) ∧
      Forall₂ (fun i (record : Record) =>
          record.observation = (sharedCopy.records.getD i {}).observation ∧
          Agree (result.records.getD i {}).diagnostic_issues record.issues)
        sharedCopy.order (sharedCopy.classify_offline CAPACITY).retained_calls.records := by
  have hgenuine : ∀ move ∈ sharedMoves, move.Genuine := by
    intro move hmove
    simp only [sharedMoves, mem_append, mem_cons, mem_replicate, not_mem_nil, or_false] at hmove
    rcases hmove with (((((((rfl | rfl | rfl) | ⟨-, rfl⟩) | ⟨-, rfl⟩) | rfl) | ⟨-, rfl⟩) | rfl) |
      ⟨-, rfl⟩) | ⟨-, rfl⟩
    all_goals first
      | exact trivial
      | exact sharedCalls_made _ (by simp [sharedCalls])
  have hfrozen : (TimerObserver.run CAPACITY ⟨1000, 1910, 100⟩ true sharedMoves).tasks[2]? =
      some (.returned {} sharedCopy true) := by decide
  exact ⟨by decide, @decode_agrees ⟨1000, 1910, 100⟩ ⟨by decide, by decide, by decide, by decide⟩
    true _ hgenuine _ _ _ hfrozen rfl _ (by decide) _ (receiptJson_writes _ _)⟩

end Mcla.TimerDecode

import Mcla.Semaphore.JournalWords
import Mcla.Semaphore.PrefixProjection
import Mcla.Semaphore.PrefixReader
import Mcla.Semaphore.PrefixSnapshot

/-! # The prefix audit: it accepts what the observer writes

The observer writes a document only where its rows are representable.  What is read of it is the
snapshot again, with null for what it has no clock for, and each check of the audit is one that
the observer has made, or follows from what a journal keeps of its rows.
-/
namespace Mcla.Semaphore
open NumberedTable
open Prefix Snapshot
open Credit (need_ok uint_ok uintOrNull_ok)
open NestedRecorder (bind_ok check_ok forM_ok mapM_map_ok)
open List

/-! ### What is read -/

theorem Origin.ofName_name {origin : Origin} (h : origin.nameless = false) :
    Origin.ofName origin.name = origin := by
  cases origin <;> first | rfl | cases h

theorem ContextKind.ofName_name {kind : ContextKind} (h : kind.nameless = false) :
    ContextKind.ofName kind.name = kind := by
  cases kind <;> first | rfl | cases h

theorem TimeoutKind.ofName_name {kind : TimeoutKind} (h : kind.nameless = false) :
    TimeoutKind.ofName kind.name = kind := by
  cases kind <;> first | rfl | cases h

theorem WaitResult.ofName_name {result : WaitResult} (h : result.nameless = false) :
    WaitResult.ofName result.name = result := by
  cases result <;> first | rfl | cases h

theorem readNumber_number {n : Nat} (h : n < 2 ^ 64) : readNumber (number n) = .ok n := by
  have hlt : (0 : Int) ≤ (n : Int) ∧ (n : Int) < 10 ^ 20 := by omega
  unfold readNumber number
  dsimp only
  rw [if_pos hlt, Int.toNat_natCast]

variable {value : Option Nat} {s : Snapshot}

theorem readOrNull_number (h : ∀ n, value = some n → n < 2 ^ 64) :
    readOrNull readNumber (Snapshot.orNull number value) = .ok value := by
  cases value with
  | none => rfl
  | some n =>
    show some <$> readNumber (number n) = .ok (some n)
    rw [readNumber_number (h n rfl)]
    rfl

/-- The clock of a row, where it has one. -/
def clockOf (value : Nat) : Option Nat := if value ≠ 0 then some value else none

theorem clockOf_eq_some {value n : Nat} : clockOf value = some n ↔ value = n ∧ n ≠ 0 := by
  unfold clockOf
  split
  · rename_i hvalue
    rw [Option.some.injEq]
    exact ⟨fun h => ⟨h, h ▸ hvalue⟩, fun h => h.1⟩
  · rename_i hvalue
    simp only [reduceCtorEq, false_iff]
    rintro ⟨rfl, hne⟩
    exact hvalue hne

theorem readOrNull_clock {value : Nat} (h : value < 2 ^ 64) :
    readOrNull readNumber (clockJson value) = .ok (clockOf value) := by
  unfold clockJson clockOf
  split
  · show some <$> readNumber (number value) = .ok (some value)
    rw [readNumber_number h]
    rfl
  · rfl

/-- An epoch, as the audit reads it. -/
def epochOf (row : Epoch) (history_complete : Bool) : Credit.Epoch where
  epoch_id := row.epoch_id
  object_cookie := row.object_cookie
  creation_qpc := row.creation_qpc
  destroy_qpc := row.destroy_qpc
  initial_count := row.initial_count
  maximum_count := row.maximum_count
  origin := row.origin
  history_complete := history_complete

def contextOf (context : ReleaseContext) : Credit.Context where
  kind := context.kind
  generation := if context.kind = .kUpdate then some context.generation else none

/-- A payload, as the audit reads it. -/
def payloadOf (row : Operation) : Payload :=
  if row.kind = .kRelease then
    .release row.release_count (if row.completed then some row.release_success else none)
      (if row.completed then row.previous_count.map Int.toNat else none) (contextOf row.context)
  else if row.kind = .kWait then
    .wait (if row.completed then some row.wait_result else none) row.timeout_kind
  else .unsupported row.kind.name

/-- An operation, as the audit reads it. -/
def operationOf (row : Operation) : Prefix.Operation where
  op_id := row.op_id
  epoch_id := row.epoch_id
  native_thread_id := row.native_thread_id
  guest_handle := row.guest_handle
  entry_qpc := clockOf row.entry_qpc
  exit_qpc := if row.completed then clockOf row.exit_qpc else none
  completed := row.completed
  payload := payloadOf row

/-- The losses, as the audit reads them. -/
def lossOf (s : Snapshot) : List Loss :=
  if s.counts.overflow_operations ≠ 0 then [{
    first_op_id := s.counts.stored_operations + 1
    last_op_id := s.counts.observed_operations
    kind := .overflow }]
  else []

/-- The epochs, as the audit reads them. -/
def epochsOf (s : Snapshot) : List Credit.Epoch :=
  (s.epochs.zip s.coverage).map fun (row, claim) => epochOf row (covered claim)

/-- What the audit reads of a snapshot. -/
def sourceOf (s : Snapshot) : Source where
  token := s.token
  qpc_frequency := s.window.qpc_frequency
  observer_begin_qpc := s.window.begin_qpc
  freeze_qpc := s.freeze
  capacity := kOperationCapacity
  flags := replicate 9 false
  admission_inventory_complete := s.inventory = .kCompleteThroughFreeze ∧ ¬ s.fatal
  observer_failed := s.coverage_failed || s.fatal
  unknown_coverage_gap := s.coverage_gap || s.fatal
  counts := ⟨s.counts.observed_operations, s.counts.stored_operations,
    s.counts.completed_operations, s.pending, s.counts.overflow_operations⟩
  epochs := epochsOf s
  operations := s.operations.map operationOf
  loss_ranges := lossOf s

/-- What a written epoch is read as. -/
theorem readEpoch_epochJson {row : Epoch} (covered : Bool) (hid : row.epoch_id < 2 ^ 64)
    (hcookie : row.object_cookie < 2 ^ 64) (hcreation : row.creation_qpc < 2 ^ 64)
    (hdestroy : ∀ n, row.destroy_qpc = some n → n < 2 ^ 64) (hinitial : row.initial_count < 2 ^ 64)
    (hmaximum : row.maximum_count < 2 ^ 64) (horigin : row.origin.nameless = false) :
    readEpoch (epochJson row covered) = .ok (epochOf row covered) := by
  have hname : readText "epoch origin" ((epochJson row covered).field "origin") =
    .ok row.origin.name := rfl
  have horigin := Origin.ofName_name horigin
  refine bind_ok.mpr ⟨(), need_ok.mpr rfl, bind_ok.mpr ⟨_, readNumber_number hid,
    bind_ok.mpr ⟨_, readNumber_number hcookie, bind_ok.mpr ⟨_, readNumber_number hcreation,
    bind_ok.mpr ⟨_, readOrNull_number hdestroy, bind_ok.mpr ⟨_, readNumber_number hinitial,
    bind_ok.mpr ⟨_, readNumber_number hmaximum, bind_ok.mpr ⟨_, hname,
    bind_ok.mpr ⟨_, rfl, ?_⟩⟩⟩⟩⟩⟩⟩⟩⟩
  rw [horigin]
  rfl

/-- What reading needs of the numbers and names of an operation. -/
structure Readable (row : Operation) : Prop where
  op_id : row.op_id < 2 ^ 64
  epoch_id : row.epoch_id < 2 ^ 64
  typed : row.Typed
  entry : row.entry_qpc < 2 ^ 64
  exit : row.exit_qpc < 2 ^ 64
  count : row.kind = .kRelease → row.release_count < 2 ^ 64
  previous : row.kind = .kRelease → ∀ n, row.previous_count = some n → 0 ≤ n ∧ n < 2 ^ 64
  context : row.kind = .kRelease → row.context.kind.nameless = false
  result : row.kind = .kWait → row.wait_result.nameless = false
  timeout : row.kind = .kWait → row.timeout_kind.nameless = false

theorem readContext_contextJson {context : ReleaseContext}
    (hkind : context.kind.nameless = false) (htyped : context.generation.typed = true) :
    readContext (contextJson context) = .ok (contextOf context) := by
  obtain ⟨hepoch, hserial⟩ := of_decide_eq_true htyped
  have hname : readText "release context kind" ((contextJson context).field "kind") =
    .ok context.kind.name := rfl
  have hkind := ContextKind.ofName_name hkind
  have hgeneration : readOrNull readGeneration ((contextJson context).field "generation") =
      .ok (contextOf context).generation := by
    by_cases hupdate : context.kind = .kUpdate
    · have hread : readGeneration (.obj [("thread_epoch", number context.generation.thread_epoch),
          ("serial", number context.generation.serial)]) = .ok context.generation :=
        bind_ok.mpr ⟨(), need_ok.mpr rfl, bind_ok.mpr ⟨_, readNumber_number hepoch,
          bind_ok.mpr ⟨_, readNumber_number hserial, rfl⟩⟩⟩
      have hwritten : (contextJson context).field "generation" =
          .obj [("thread_epoch", number context.generation.thread_epoch),
            ("serial", number context.generation.serial)] := if_pos hupdate
      have hgiven : (contextOf context).generation = some context.generation := if_pos hupdate
      rw [hwritten, hgiven]
      show some <$> readGeneration _ = .ok (some context.generation)
      rw [hread]
      rfl
    · have hwritten : (contextJson context).field "generation" = .null := if_neg hupdate
      have hgiven : (contextOf context).generation = none := if_neg hupdate
      rw [hwritten, hgiven]
      rfl
  refine bind_ok.mpr ⟨(), need_ok.mpr rfl, bind_ok.mpr ⟨_, hname, bind_ok.mpr ⟨_, hgeneration, ?_⟩⟩⟩
  rw [hkind]
  rfl

theorem kindName_release {kind : Kind} : kind.name = "release" ↔ kind = .kRelease := by
  cases kind <;> simp [Kind.name]

theorem kindName_wait {kind : Kind} : kind.name = "wait" ↔ kind = .kWait := by
  cases kind <;> simp [Kind.name]

theorem readPayload_payloadJson {row : Operation} (h : Readable row) :
    readPayload row.kind.name (payloadJson row) = .ok (payloadOf row) := by
  unfold readPayload payloadJson payloadOf
  by_cases hrelease : row.kind = .kRelease
  · simp only [if_pos hrelease, if_pos (kindName_release.mpr hrelease)]
    have hsuccess : readOrNull readBool (if row.completed then .bool row.release_success else .null) =
        .ok (if row.completed then some row.release_success else none) := by
      cases row.completed <;> rfl
    have hprevious : readOrNull readNumber
        (if row.completed then Snapshot.orNull .num row.previous_count else .null) =
          .ok (if row.completed then row.previous_count.map Int.toNat else none) := by
      cases row.completed with
      | false => rfl
      | true =>
        cases hcount : row.previous_count with
        | none => rfl
        | some n =>
          obtain ⟨hpos, hlt⟩ := h.previous hrelease n hcount
          have hread := readNumber_number (n := n.toNat) (by omega)
          rw [number, Int.toNat_of_nonneg hpos] at hread
          show some <$> readNumber (.num n) = .ok (some n.toNat)
          rw [hread]
          rfl
    have hcontext := readContext_contextJson (h.context hrelease) h.typed.generation
    exact bind_ok.mpr ⟨(), need_ok.mpr rfl, bind_ok.mpr
      ⟨_, readNumber_number (h.count hrelease), bind_ok.mpr ⟨_, hsuccess,
        bind_ok.mpr ⟨_, hprevious, bind_ok.mpr ⟨_, hcontext, rfl⟩⟩⟩⟩⟩
  · have hrelease' := fun hname => hrelease (kindName_release.mp hname)
    by_cases hwait : row.kind = .kWait
    · simp only [if_neg hrelease, if_pos hwait, if_neg hrelease', if_pos (kindName_wait.mpr hwait)]
      have hresult : readOrNull (readText "single-wait result")
          (if row.completed then .str row.wait_result.name else .null) =
            .ok (if row.completed then some row.wait_result.name else none) := by
        cases row.completed <;> rfl
      refine bind_ok.mpr ⟨(), need_ok.mpr rfl, bind_ok.mpr ⟨_, hresult,
        bind_ok.mpr ⟨row.timeout_kind.name, rfl, ?_⟩⟩⟩
      rw [TimeoutKind.ofName_name (h.timeout hwait)]
      have hname := WaitResult.ofName_name (h.result hwait)
      cases row.completed with
      | false => rfl
      | true =>
        show Except.ok (Payload.wait (some (WaitResult.ofName row.wait_result.name)) _) = _
        rw [hname]
        rfl
    · have hwait' := fun hname => hwait (kindName_wait.mp hname)
      simp only [if_neg hrelease, if_neg hwait, if_neg hrelease', if_neg hwait']
      rfl

theorem readOperation_operationJson {row : Operation} (h : Readable row) :
    readOperation (operationJson row) = .ok (operationOf row) := by
  have hhandle : ∀ n, row.guest_handle = some n → n < 2 ^ 64 := by
    intro n hn
    have hall := h.typed.guest_handle
    rw [hn] at hall
    have hlt : n < 2 ^ 32 := of_decide_eq_true hall
    omega
  have htid : row.native_thread_id < 2 ^ 64 := h.typed.native_thread_id.trans (by decide)
  have hexit : readOrNull readNumber (if row.completed then clockJson row.exit_qpc else .null) =
      .ok (if row.completed then clockOf row.exit_qpc else none) := by
    cases row.completed with
    | false => rfl
    | true => exact readOrNull_clock h.exit
  exact bind_ok.mpr ⟨(), need_ok.mpr rfl, bind_ok.mpr ⟨row.kind.name, rfl,
    bind_ok.mpr ⟨_, readNumber_number h.op_id, bind_ok.mpr ⟨_, readNumber_number h.epoch_id,
    bind_ok.mpr ⟨_, readNumber_number htid, bind_ok.mpr ⟨_, readOrNull_number hhandle,
    bind_ok.mpr ⟨_, readOrNull_clock h.entry, bind_ok.mpr ⟨_, hexit,
    bind_ok.mpr ⟨_, rfl, bind_ok.mpr ⟨_, readPayload_payloadJson h, rfl⟩⟩⟩⟩⟩⟩⟩⟩⟩⟩

/-- What reading needs of a snapshot. -/
structure Legible (s : Snapshot) : Prop where
  frequency : s.window.qpc_frequency < 2 ^ 64
  begin_qpc : s.window.begin_qpc < 2 ^ 64
  freeze : s.freeze < 2 ^ 64
  observed : s.counts.observed_operations < 2 ^ 64
  stored : s.counts.stored_operations < kOperationCapacity + 1
  completed : s.counts.completed_operations < 2 ^ 64
  pending : s.pending < 2 ^ 64
  lost : s.counts.overflow_operations < 2 ^ 64
  epochs : ∀ row ∈ s.epochs, ∀ covered, readEpoch (epochJson row covered) =
    .ok (epochOf row covered)
  operations : ∀ row ∈ s.operations, Readable row

theorem readCounts_countsJson (h : Legible s) :
    readCounts (countsJson s) = .ok (sourceOf s).counts := by
  have hcapacity : kOperationCapacity + 1 < 2 ^ 64 := by decide
  exact bind_ok.mpr ⟨(), need_ok.mpr rfl, bind_ok.mpr ⟨_, readNumber_number h.observed,
    bind_ok.mpr ⟨_, readNumber_number (h.stored.trans hcapacity),
    bind_ok.mpr ⟨_, readNumber_number h.completed, bind_ok.mpr ⟨_, readNumber_number h.pending,
    bind_ok.mpr ⟨_, readNumber_number h.lost, rfl⟩⟩⟩⟩⟩⟩

theorem mapM_lossJson (h : Legible s) : (lossJson s).mapM readLoss = .ok (lossOf s) := by
  unfold lossJson lossOf
  split
  · have hcapacity : kOperationCapacity + 1 < 2 ^ 64 := by decide
    have hfirst : readNumber (number (s.counts.stored_operations + 1)) =
        .ok (s.counts.stored_operations + 1) :=
      readNumber_number (Nat.lt_of_le_of_lt h.stored hcapacity)
    have hloss : readLoss (.obj [
        ("first_op_id", number (s.counts.stored_operations + 1)),
        ("last_op_id", number s.counts.observed_operations),
        ("entry_lower_bound_qpc", .null), ("kind", .str "overflow")]) = .ok {
          first_op_id := s.counts.stored_operations + 1
          last_op_id := s.counts.observed_operations
          kind := .overflow } :=
      bind_ok.mpr ⟨(), need_ok.mpr rfl, bind_ok.mpr ⟨_, hfirst,
        bind_ok.mpr ⟨_, readNumber_number h.observed, bind_ok.mpr ⟨none, rfl,
          bind_ok.mpr ⟨"overflow", rfl, rfl⟩⟩⟩⟩⟩
    rw [mapM_cons, hloss]
    rfl
  · rfl

/-- What is read of a document is the snapshot again. -/
theorem readSource_document (h : Legible s) : readSource s.document = .ok (sourceOf s) := by
  have hcapacity : kOperationCapacity < 2 ^ 64 := by decide
  have hflags : (FALSE_FLAGS.mapM fun key => readBool (s.document.field key)) =
    .ok (replicate 9 false) := rfl
  have hepochs : ((s.epochs.zip s.coverage).map fun (row, claim) =>
      epochJson row (covered claim)).mapM readEpoch = .ok (epochsOf s) :=
    mapM_map_ok fun pair hpair => h.epochs pair.1 (of_mem_zip hpair).1 (covered pair.2)
  have hoperations : (s.operations.map operationJson).mapM readOperation =
      .ok (s.operations.map operationOf) :=
    mapM_map_ok fun row hrow => readOperation_operationJson (h.operations row hrow)
  exact bind_ok.mpr ⟨(), need_ok.mpr rfl, bind_ok.mpr ⟨_, rfl, bind_ok.mpr ⟨_, rfl,
    bind_ok.mpr ⟨_, rfl, bind_ok.mpr ⟨_, readNumber_number h.frequency,
    bind_ok.mpr ⟨_, readNumber_number h.begin_qpc, bind_ok.mpr ⟨_, readNumber_number h.freeze,
    bind_ok.mpr ⟨_, readNumber_number hcapacity, bind_ok.mpr ⟨_, hflags,
    bind_ok.mpr ⟨_, rfl, bind_ok.mpr ⟨_, rfl, bind_ok.mpr ⟨_, rfl,
    bind_ok.mpr ⟨_, readCounts_countsJson h, bind_ok.mpr ⟨_, rfl, bind_ok.mpr ⟨_, hepochs,
    bind_ok.mpr ⟨_, rfl, bind_ok.mpr ⟨_, hoperations, bind_ok.mpr ⟨_, rfl,
    bind_ok.mpr ⟨_, mapM_lossJson h, rfl⟩⟩⟩⟩⟩⟩⟩⟩⟩⟩⟩⟩⟩⟩⟩⟩⟩⟩⟩

/-! ### The snapshot of a journal -/

/-- What a snapshot has from its journal and from the checks of `Capture`. -/
structure Faithful (s : Snapshot) : Prop where
  token : isToken s.token = true
  begin_pos : 1 ≤ s.window.begin_qpc
  begin_lt : s.window.begin_qpc < s.freeze
  freeze_le : s.freeze ≤ kMaxQpc
  frequency : 1 ≤ s.window.qpc_frequency ∧ s.window.qpc_frequency ≤ kMaxQpc
  nonempty : s.epochs ≠ []
  epochs_le : s.epochs.length ≤ kEpochCapacity
  coverage : s.coverage.length = s.epochs.length
  epoch_ids : Numbered Epoch.epoch_id s.epochs
  operation_ids : Numbered Operation.op_id s.operations
  stored : s.counts.stored_operations = s.operations.length
  stored_le : s.counts.stored_operations ≤ kOperationCapacity
  completed : s.counts.completed_operations = s.operations.countP (·.completed)
  pending : s.pending = s.operations.countP fun o => !o.completed
  observed : s.counts.observed_operations =
    s.counts.stored_operations + s.counts.overflow_operations
  observed_lt : s.counts.observed_operations < 2 ^ 64
  cookies : ∀ e ∈ s.epochs, e.object_cookie < 2 ^ 64
  typed : ∀ o ∈ s.operations, o.Typed

theorem length_of_mapM {α β : Type} {f : α → Option β} {l : List α} {m : List β}
    (h : l.mapM f = some m) : m.length = l.length := by
  induction l generalizing m with
  | nil =>
    obtain rfl := Option.some.inj h
    rfl
  | cons a l ih =>
    rw [mapM_cons] at h
    obtain ⟨b, -, h⟩ := Option.bind_eq_some_iff.mp h
    obtain ⟨rest, hrest, h⟩ := Option.bind_eq_some_iff.mp h
    obtain rfl := Option.some.inj h
    rw [length_cons, ih hrest, length_cons]

theorem faithful_of_capture {j : Journal} (hj : j.Inv) (htyped : j.Typed) {token : String}
    {coverage : AdmissionCoverage} {allocated : Bool}
    (h : capture j token coverage allocated = .ok s) : Faithful s := by
  unfold capture at h
  split at h
  · cases h
  rename_i htoken
  split at h
  · cases h
  rename_i cut hcut
  split at h
  · cases h
  rename_i hscope
  split at h
  · cases h
  split at h
  · cases h
  rename_i hcounts
  split at h
  · cases h
  split at h
  · cases h
  split at h
  · cases h
  rename_i bound hbound
  split at h
  · cases h
  obtain rfl := Except.ok.inj h
  simp only [not_or, not_not, not_le, ge_iff_le, gt_iff_lt, not_lt] at htoken hscope hcounts
  obtain ⟨htoken, -⟩ := htoken
  obtain ⟨-, -, -, -, hbegin, hlt, hend, hmax, hfrequency, hfrequencyMax⟩ := hscope
  obtain ⟨hnonempty, hepochs, -⟩ := hcounts
  exact {
    token := htoken
    begin_pos := Nat.one_le_iff_ne_zero.mpr hbegin
    begin_lt := hlt
    freeze_le := hend.le.trans hmax
    frequency := ⟨Nat.one_le_iff_ne_zero.mpr hfrequency, hfrequencyMax⟩
    nonempty := hnonempty
    epochs_le := hepochs
    coverage := length_of_mapM hbound
    epoch_ids := hj.epoch_ids
    operation_ids := hj.operation_ids
    stored := hj.stored
    stored_le := hj.stored_le
    completed := hj.completed
    pending := hj.pending
    observed := hj.observed
    observed_lt := hj.observed_lt
    cookies := htyped.epochs
    typed := htyped.operations }

/-! ### Rows that are representable -/

/-- An epoch that is not refused. -/
structure EpochFits (s : Snapshot) (row : Epoch) : Prop where
  epoch_id : 1 ≤ row.epoch_id
  object_cookie : 1 ≤ row.object_cookie
  creation : row.creation_qpc < s.freeze
  maximum : 1 ≤ row.maximum_count ∧ row.maximum_count ≤ kMaxCount
  initial : row.initial_count ≤ row.maximum_count
  origin : row.origin.nameless = false
  destroy : ∀ destroyed, row.destroy_qpc = some destroyed →
    row.creation_qpc < destroyed ∧ destroyed ≤ s.freeze

theorem any_eq_false {p : Nat → Bool} (h : value.any p = false) {n : Nat} (hn : value = some n) :
    p n = false := by
  rw [hn] at h
  exact h

theorem epochFits_of_representable (h : s.representable = true) :
    ∀ row ∈ s.epochs, EpochFits s row := by
  intro row hrow
  have hrefuses := all_eq_true.mp (of_decide_eq_true h).1 row hrow
  simp only [Bool.not_eq_true', refusesEpoch, decide_eq_false_iff_not, not_or, not_le, ge_iff_le,
    gt_iff_lt, not_lt, Bool.not_eq_true] at hrefuses
  obtain ⟨hid, hcookie, hcreation, hpos, hmaximum, hinitial, horigin, hdestroy⟩ := hrefuses
  refine ⟨Nat.one_le_iff_ne_zero.mpr hid, Nat.one_le_iff_ne_zero.mpr hcookie, hcreation,
    ⟨Nat.one_le_iff_ne_zero.mpr hpos, hmaximum⟩, hinitial, horigin, fun destroyed hd => ?_⟩
  have hlate := any_eq_false hdestroy hd
  simpa using hlate

/-- The epoch of an operation. -/
def epochAt (s : Snapshot) (row : Operation) : Epoch := s.epochs.getD (row.epoch_id - 1) {}

/-- An operation that is not refused. -/
structure OperationFits (s : Snapshot) (row : Operation) : Prop where
  epoch_id : 1 ≤ row.epoch_id ∧ row.epoch_id ≤ s.epochs.length
  native_thread_id : 1 ≤ row.native_thread_id
  guest_handle : ∀ n, row.guest_handle = some n → 1 ≤ n
  kind : row.kind.nameless = false
  entry_le : row.entry_qpc ≤ kMaxQpc
  exit_le : row.exit_qpc ≤ kMaxQpc
  entry : row.entry_qpc ≠ 0 → s.window.begin_qpc ≤ row.entry_qpc ∧ row.entry_qpc ≤ s.freeze ∧
    (epochAt s row).creation_qpc < row.entry_qpc ∧
    ∀ destroyed, (epochAt s row).destroy_qpc = some destroyed → row.entry_qpc < destroyed
  unfinished : row.completed = false → (epochAt s row).destroy_qpc = none
  finished : row.completed = true → row.exit_qpc ≤ s.freeze ∧ (row.exit_qpc ≠ 0 →
    (row.entry_qpc ≠ 0 → row.entry_qpc ≤ row.exit_qpc) ∧
    ∀ destroyed, (epochAt s row).destroy_qpc = some destroyed → row.exit_qpc < destroyed)
  release : row.kind = .kRelease → refusesRelease (epochAt s row) row = false
  wait : row.kind = .kWait → row.timeout_kind.nameless = false ∧ row.wait_result.nameless = false

theorem operationFits_of {i last_entry : Nat} {row : Operation}
    (h : refusesOperation s i last_entry row = false) : OperationFits s row ∧
      row.op_id = i + 1 ∧ (row.entry_qpc ≠ 0 → last_entry ≤ row.entry_qpc) := by
  simp only [refusesOperation, decide_eq_false_iff_not, not_or, not_le, ne_eq, ge_iff_le, gt_iff_lt,
    not_lt, Bool.not_eq_true, not_not, not_and] at h
  obtain ⟨hop, hid, hidLe, htid, hhandle, hkind, hentryLe, hexitLe, hentry, hpending, hdone,
    hrelease, hwait⟩ := h
  refine ⟨⟨⟨Nat.one_le_iff_ne_zero.mpr hid, hidLe⟩, Nat.one_le_iff_ne_zero.mpr htid,
    fun n hn => ?_, hkind, hentryLe, hexitLe, fun hne => ?_, fun hopen => ?_, fun hclosed => ?_,
    hrelease, hwait⟩, hop, fun hne => (hentry hne).2.2.2.1⟩
  · refine Nat.one_le_iff_ne_zero.mpr fun hzero => hhandle ?_
    rw [hn, hzero]
  · obtain ⟨hbegin, hfreeze, hcreation, -, hdestroy⟩ := hentry hne
    refine ⟨hbegin, hfreeze, hcreation, fun destroyed hd => ?_⟩
    have hlate := any_eq_false hdestroy hd
    simpa using hlate
  · exact Option.isSome_eq_false_iff.mp (hpending hopen).2 |> Option.isNone_iff_eq_none.mp
  · obtain ⟨hfreeze, hexit⟩ := hdone hclosed
    refine ⟨hfreeze, fun hne => ⟨(hexit hne).1, fun destroyed hd => ?_⟩⟩
    have hlate := any_eq_false (hexit hne).2 hd
    simpa using hlate

/-- The interval of an operation. -/
def intervalOf (row : Operation) : Interval := ⟨row.op_id, row.op_id, clockOf row.entry_qpc⟩

/-- The loop of the observer over the operations goes as that of the audit over their
intervals. -/
theorem checkPartition_rows {rows : List Operation} {i last_entry completed : Nat}
    (h : s.representableFrom i last_entry completed rows = true) :
    (∀ row ∈ rows, OperationFits s row) ∧ ∀ tail, ∃ last_clock,
      checkPartition (i + 1) (clockOf last_entry) (rows.map intervalOf ++ tail) =
        checkPartition (i + rows.length + 1) last_clock tail := by
  induction rows generalizing i last_entry completed with
  | nil => exact ⟨by simp, fun tail => ⟨clockOf last_entry, rfl⟩⟩
  | cons row rows ih =>
    obtain ⟨hrow, hrest⟩ := of_decide_eq_true h
    obtain ⟨hfits, hop, hentry⟩ := operationFits_of (Bool.not_eq_true' _ ▸ hrow)
    obtain ⟨hall, hpartition⟩ := ih hrest
    refine ⟨forall_mem_cons.mpr ⟨hfits, hall⟩, fun tail => ?_⟩
    obtain ⟨last_clock, htail⟩ := hpartition tail
    refine ⟨last_clock, ?_⟩
    have hnext : ((clockOf row.entry_qpc <|> clockOf last_entry) : Option Nat) =
        clockOf (if row.entry_qpc ≠ 0 then row.entry_qpc else last_entry) := by
      by_cases hne : row.entry_qpc ≠ 0
      · rw [if_pos hne]
        show (clockOf row.entry_qpc).orElse _ = clockOf row.entry_qpc
        rw [clockOf, if_pos hne]
        rfl
      · rw [if_neg hne]
        show (clockOf row.entry_qpc).orElse _ = _
        rw [clockOf, if_neg hne]
        rfl
    have hclock : ((clockOf row.entry_qpc).all fun clock =>
        (clockOf last_entry).all fun last => clock ≥ last) = true := by
      rw [Option.all_eq_true]
      intro clock hclock
      rw [Option.all_eq_true]
      intro last hlast
      obtain ⟨rfl, hne⟩ := clockOf_eq_some.mp hclock
      obtain ⟨rfl, -⟩ := clockOf_eq_some.mp hlast
      exact decide_eq_true (hentry hne)
    have hlength : i + (row :: rows).length + 1 = i + 1 + rows.length + 1 := by
      rw [length_cons]
      omega
    rw [hlength, ← htail, ← hnext]
    show checkPartition (i + 1) (clockOf last_entry)
      (⟨row.op_id, row.op_id, clockOf row.entry_qpc⟩ :: (rows.map intervalOf ++ tail)) = _
    rw [checkPartition]
    simp only [hop, hclock, decide_true, Credit.need, if_true]
    rfl

/-- The loss of a document, as an interval. -/
theorem checkPartition_loss (hf : Faithful s) (last_clock : Option Nat) :
    checkPartition (s.operations.length + 1) last_clock ((lossOf s).map fun loss =>
      ⟨loss.first_op_id, loss.last_op_id, loss.entry_lower_bound_qpc⟩) =
        .ok (s.counts.observed_operations + 1) := by
  have hobserved := hf.observed
  have hstored := hf.stored
  unfold lossOf
  split
  · simp only [map_cons, map_nil, checkPartition, hstored, decide_true, Credit.need, if_true,
      Option.all_none]
    rfl
  · rename_i hnone
    have hsame : s.operations.length = s.counts.observed_operations := by omega
    rw [hsame]
    rfl

/-- The intervals are in their order already. -/
theorem intervals_sorted (hf : Faithful s) :
    (intervals (sourceOf s)).insertionSort (fun a b => a.first < b.first ∨
      a.first = b.first ∧ a.last ≤ b.last) = s.operations.map intervalOf ++ (lossOf s).map fun loss =>
        ⟨loss.first_op_id, loss.last_op_id, loss.entry_lower_bound_qpc⟩ := by
  have heq : intervals (sourceOf s) = s.operations.map intervalOf ++ (lossOf s).map fun loss =>
      ⟨loss.first_op_id, loss.last_op_id, loss.entry_lower_bound_qpc⟩ := by
    show (s.operations.map operationOf).map _ ++ _ = _
    rw [map_map]
    rfl
  have hids := hf.operation_ids.map_eq
  have hpairs : s.operations.Pairwise fun a b => a.op_id < b.op_id := by
    rw [← pairwise_map, hids]
    exact pairwise_lt_range'
  rw [heq]
  refine List.Pairwise.insertionSort_eq (pairwise_append.mpr ⟨?_, ?_, ?_⟩)
  · exact pairwise_map.mpr (hpairs.imp fun h => .inl h)
  · unfold lossOf
    split
    · exact pairwise_singleton _ _
    · exact .nil
  · intro a ha b hb
    obtain ⟨row, hrow, rfl⟩ := mem_map.mp ha
    have hrange := hf.operation_ids.range hrow
    have hstored := hf.stored
    unfold lossOf at hb
    split at hb
    · obtain rfl := mem_singleton.mp hb
      left
      show row.op_id < s.counts.stored_operations + 1
      omega
    · cases hb

/-! ### The checks of the audit -/

theorem checkEpoch_epochOf (hf : Faithful s) {row : Epoch} (hrow : row ∈ s.epochs)
    (h : EpochFits s row) (covered : Bool) :
    checkEpoch (sourceOf s) (epochOf row covered) = .ok () := by
  have hid := (hf.epoch_ids.range hrow).2
  have hcapacity : kEpochCapacity = 64 := rfl
  have hU64 : Credit.U64 = 2 ^ 64 - 1 := rfl
  have hle := hf.epochs_le
  have hcookie := hf.cookies row hrow
  have hcreation := h.creation
  have hfreeze := hf.freeze_le
  have hcheck : Credit.checkEpoch (epochOf row covered) = .ok () := by
    refine Credit.checkEpoch_iff.mpr ⟨⟨h.epoch_id, ?_⟩, ⟨h.object_cookie, ?_⟩, ?_, fun n hn => ?_,
      h.maximum, h.initial, h.origin⟩
    · show row.epoch_id ≤ Credit.U64
      omega
    · show row.object_cookie ≤ Credit.U64
      omega
    · show row.creation_qpc ≤ kMaxQpc
      omega
    · exact (h.destroy n hn).2.trans hfreeze
  unfold checkEpoch
  rw [check_ok, check_ok, need_ok, need_ok]
  refine ⟨hcheck, decide_eq_true hcreation, ?_⟩
  rw [Option.all_eq_true]
  exact fun destroyed hd => decide_eq_true (h.destroy destroyed hd)

theorem map_fst_epochs (hf : Faithful s) : (s.epochs.zip s.coverage).map Prod.fst = s.epochs :=
  map_fst_zip hf.coverage.ge

theorem epochsOf_ids (hf : Faithful s) :
    (epochsOf s).map (·.epoch_id) = s.epochs.map (·.epoch_id) := by
  have hzip := congrArg (List.map Epoch.epoch_id) (map_fst_epochs hf)
  rw [map_map] at hzip
  rw [epochsOf, map_map]
  exact hzip

theorem epochsOf_nodup (hf : Faithful s) : ((epochsOf s).map (·.epoch_id)).Nodup := by
  rw [epochsOf_ids hf, hf.epoch_ids.map_eq]
  exact nodup_range'

/-- An operation refers to its epoch by number. -/
theorem epochAt_mem (hf : Faithful s) {row : Operation} (h : OperationFits s row) :
    epochAt s row ∈ s.epochs ∧ (epochAt s row).epoch_id = row.epoch_id := by
  obtain ⟨hpos, hle⟩ := h.epoch_id
  have hlt : row.epoch_id - 1 < s.epochs.length := by omega
  have hget : s.epochs[row.epoch_id - 1]? = some (epochAt s row) := by
    rw [epochAt, getD_eq_getElem?_getD, getElem?_eq_getElem hlt, Option.getD_some]
  refine ⟨mem_of_getElem? hget, ?_⟩
  rw [hf.epoch_ids _ _ hget]
  omega

theorem find_epochAt (hf : Faithful s) {row : Operation} (h : OperationFits s row) :
    ∃ covered, ((epochsOf s).find? fun epoch => epoch.epoch_id = row.epoch_id) =
      some (epochOf (epochAt s row) covered) := by
  obtain ⟨hmem, hid⟩ := epochAt_mem hf h
  have hzip := hmem
  rw [← map_fst_epochs hf] at hzip
  obtain ⟨⟨epoch, claim⟩, hpair, hfst⟩ := mem_map.mp hzip
  have hfound : epochOf (epochAt s row) (covered claim) ∈ epochsOf s :=
    mem_map.mpr ⟨(epoch, claim), hpair, congrArg (epochOf · (covered claim)) hfst⟩
  have hfind := find_epoch (epochsOf_nodup hf) hfound
  have hsame : (epochOf (epochAt s row) (covered claim)).epoch_id = row.epoch_id := hid
  rw [hsame] at hfind
  exact ⟨covered claim, hfind⟩

/-- A release that is not refused. -/
structure ReleaseFits (maximum : Nat) (row : Operation) : Prop where
  count : 1 ≤ row.release_count ∧ row.release_count ≤ kMaxCount
  kind : row.context.kind.nameless = false
  update : row.context.kind = .kUpdate → row.context.generation.valid = true
  previous : row.completed = true → row.release_success = true →
    ∃ n : Nat, row.previous_count = some (n : Int) ∧ n + row.release_count ≤ maximum
  none : row.completed = false ∨ row.release_success = false → row.previous_count = none

theorem releaseFits_of {epoch : Epoch} {row : Operation} (h : refusesRelease epoch row = false) :
    ReleaseFits epoch.maximum_count row := by
  simp only [refusesRelease, decide_eq_false_iff_not, not_or, ne_eq, gt_iff_lt, not_lt,
    Bool.not_eq_true, not_and] at h
  obtain ⟨hpos, hle, hkind, hgeneration, hprevious, hnone⟩ := h
  refine ⟨⟨Nat.one_le_iff_ne_zero.mpr hpos, hle⟩, hkind, fun hupdate => ?_, fun hdone hsuccess => ?_,
    fun hopen => ?_⟩
  · rw [if_pos hupdate] at hgeneration
    simpa using hgeneration
  · have hfits := hprevious hdone hsuccess
    unfold refusesPrevious at hfits
    split at hfits
    · cases hfits
    · rename_i n hn
      rw [decide_eq_false_iff_not, not_or, not_or, not_lt, gt_iff_lt, gt_iff_lt, not_lt, not_lt]
        at hfits
      obtain ⟨hnonneg, hmaximum, hroom⟩ := hfits
      refine ⟨n.toNat, ?_, by omega⟩
      rw [hn, Int.toNat_of_nonneg hnonneg]
  · exact Option.isNone_iff_eq_none.mp (Option.isSome_eq_false_iff.mp (hnone hopen))

theorem checkContext_contextOf {context : ReleaseContext} (hkind : context.kind.nameless = false)
    (hupdate : context.kind = .kUpdate → context.generation.valid = true)
    (htyped : context.generation.typed = true) :
    Credit.checkContext (contextOf context) = .ok () := by
  obtain ⟨hepoch, hserial⟩ := of_decide_eq_true htyped
  have hU64 : Credit.U64 = 2 ^ 64 - 1 := rfl
  unfold Credit.checkContext
  rw [check_ok, need_ok]
  have hsame : (contextOf context).kind = context.kind := rfl
  refine ⟨by simp [hsame, hkind], ?_⟩
  by_cases hkindUpdate : context.kind = .kUpdate
  · obtain ⟨hepochPos, hserialPos⟩ := of_decide_eq_true (hupdate hkindUpdate)
    have hgeneration : (contextOf context).generation = some context.generation :=
      if_pos hkindUpdate
    rw [hsame, if_pos hkindUpdate, hgeneration]
    dsimp only
    rw [check_ok, uint_ok, uint_ok]
    omega
  · have hgeneration : (contextOf context).generation = none := if_neg hkindUpdate
    rw [hsame, if_neg hkindUpdate, hgeneration]
    rfl

/-- The payload that the checks of the first version are run on. -/
def checkedPayload (row : Operation) : Credit.Payload :=
  if row.kind = .kRelease then
    .release row.release_count (row.completed && row.release_success)
      (row.previous_count.map Int.toNat) (contextOf row.context)
  else if row.kind = .kWait then
    .wait (if row.completed then row.wait_result else .kTimeout) row.timeout_kind
  else .unsupported row.kind.name

theorem scratchPayload_payloadOf {row : Operation} (h : OperationFits s row) :
    scratchPayload row.completed (payloadOf row) = .ok (checkedPayload row) := by
  unfold payloadOf checkedPayload
  by_cases hrelease : row.kind = .kRelease
  · rw [if_pos hrelease, if_pos hrelease]
    have hfits := releaseFits_of (h.release hrelease)
    cases hdone : row.completed with
    | false =>
      rw [hfits.none (.inl hdone)]
      rfl
    | true => rfl
  rw [if_neg hrelease, if_neg hrelease]
  by_cases hwait : row.kind = .kWait
  · rw [if_pos hwait, if_pos hwait]
    cases row.completed <;> rfl
  · rw [if_neg hwait, if_neg hwait]
    rfl

theorem boundedKind_name {kind : Kind} (hname : kind.nameless = false)
    (hrelease : kind ≠ .kRelease) (hwait : kind ≠ .kWait) : Credit.boundedKind kind.name = true := by
  cases kind with
  | kRelease => exact absurd rfl hrelease
  | kWait => exact absurd rfl hwait
  | other value => cases hname
  | _ => decide

theorem checkPayload_checkedPayload {row : Operation} (h : OperationFits s row) (htyped : row.Typed)
    :
    Credit.checkPayload (epochAt s row).maximum_count (checkedPayload row) = .ok () := by
  unfold checkedPayload
  by_cases hrelease : row.kind = .kRelease
  · rw [if_pos hrelease]
    have hfits := releaseFits_of (h.release hrelease)
    have hcontext := checkContext_contextOf hfits.kind hfits.update htyped.generation
    simp only [Credit.checkPayload, check_ok, uint_ok, uintOrNull_ok, need_ok]
    cases hsuccess : row.completed && row.release_success with
    | false =>
      have hnone := hfits.none (Bool.and_eq_false_iff.mp hsuccess)
      exact ⟨hfits.count, by simp [hnone], by simp, by simp [hnone], hcontext⟩
    | true =>
      obtain ⟨hdone, hreleased⟩ := Bool.and_eq_true_iff.mp hsuccess
      obtain ⟨n, hn, hroom⟩ := hfits.previous hdone hreleased
      refine ⟨hfits.count, fun m hm => ⟨Nat.zero_le _, ?_⟩, by simp [hn], by simp, hcontext⟩
      rw [hn, Option.map_some, Int.toNat_natCast] at hm
      obtain rfl := Option.some.inj hm
      omega
  rw [if_neg hrelease]
  by_cases hwait : row.kind = .kWait
  · rw [if_pos hwait]
    obtain ⟨htimeout, hresult⟩ := h.wait hwait
    have hscratch : (if row.completed then row.wait_result else .kTimeout : WaitResult).nameless =
        false := by
      cases row.completed with
      | false => rfl
      | true => exact hresult
    simp only [Credit.checkPayload, check_ok, need_ok, hscratch, htimeout]
    decide
  · rw [if_neg hwait]
    exact need_ok.mpr (boundedKind_name h.kind hrelease hwait)

theorem maximumOf_row (hf : Faithful s) {row : Operation} (h : OperationFits s row) :
    maximumOf (epochsOf s) (operationOf row) = (epochAt s row).maximum_count := by
  obtain ⟨covered, hfind⟩ := find_epochAt hf h
  have hsame : ((epochsOf s).find? fun epoch => epoch.epoch_id = (operationOf row).epoch_id) =
    some (epochOf (epochAt s row) covered) := hfind
  unfold maximumOf
  rw [hsame]
  rfl

/-- The clocks of a row are of the width that the audit allows. -/
theorem checkClock_clockOf {value : Nat} (h : value ≤ kMaxQpc) :
    checkClock (clockOf value) = .ok () := by
  refine uintOrNull_ok.mpr fun n hn => ?_
  obtain ⟨rfl, hne⟩ := clockOf_eq_some.mp hn
  exact ⟨Nat.one_le_iff_ne_zero.mpr hne, h⟩

theorem exit_eq_some {row : Operation} {n : Nat} (h : (operationOf row).exit_qpc = some n) :
    row.completed = true ∧ row.exit_qpc = n ∧ n ≠ 0 := by
  have h : (if row.completed then clockOf row.exit_qpc else none) = some n := h
  cases hdone : row.completed with
  | false =>
    rw [hdone] at h
    cases h
  | true =>
    rw [hdone] at h
    exact ⟨rfl, clockOf_eq_some.mp h⟩

theorem getD_le {high : Nat} (hhigh : 1 ≤ high) (h : ∀ n, value = some n → n ≤ high) :
    value.getD 1 ≤ high := by
  cases value with
  | none => exact hhigh
  | some n => exact h n rfl

/-- A successful release leaves room below the greatest count. -/
theorem room_checkedPayload (hf : Faithful s) {row : Operation} (h : OperationFits s row)
    {count previous : Nat} {context : Credit.Context}
    (hpayload : checkedPayload row = .release count true (some previous) context) :
    previous + count ≤ maximumOf (epochsOf s) (operationOf row) := by
  unfold checkedPayload at hpayload
  by_cases hrelease : row.kind = .kRelease
  · rw [if_pos hrelease] at hpayload
    obtain ⟨rfl, hsuccess, hprevious, -⟩ := Credit.Payload.release.inj hpayload
    obtain ⟨hdone, hreleased⟩ := Bool.and_eq_true_iff.mp hsuccess
    obtain ⟨n, hn, hroom⟩ := (releaseFits_of (h.release hrelease)).previous hdone hreleased
    rw [hn, Option.map_some, Int.toNat_natCast] at hprevious
    obtain rfl := Option.some.inj hprevious
    rw [maximumOf_row hf h]
    exact hroom
  · rw [if_neg hrelease] at hpayload
    split at hpayload <;> cases hpayload

theorem checkOperation_operationOf (hf : Faithful s) {row : Operation} (hrow : row ∈ s.operations)
    (h : OperationFits s row) : checkOperation (operationOf row) (epochsOf s) = .ok () := by
  have htyped := hf.typed row hrow
  obtain ⟨covered, hfind⟩ := find_epochAt hf h
  have hrange := hf.operation_ids.range hrow
  have hstored := hf.stored
  have hle := hf.stored_le
  have hepochs := hf.epochs_le
  have hcapacity : kOperationCapacity = 32768 := rfl
  have hepochCapacity : kEpochCapacity = 64 := rfl
  have hU64 : Credit.U64 = 2 ^ 64 - 1 := rfl
  have hU32 : Credit.U32 = 2 ^ 32 - 1 := rfl
  have hmax : kMaxQpc = 2 ^ 63 - 1 := rfl
  have hids := h.epoch_id
  have hexit : ∀ n, (operationOf row).exit_qpc = some n → 1 ≤ n ∧ n ≤ kMaxQpc := by
    intro n hn
    obtain ⟨-, rfl, hne⟩ := exit_eq_some hn
    exact ⟨Nat.one_le_iff_ne_zero.mpr hne, h.exit_le⟩
  have hentry : ∀ n, (operationOf row).entry_qpc = some n → n ≤ kMaxQpc := by
    intro n hn
    obtain ⟨rfl, -⟩ := clockOf_eq_some.mp hn
    exact h.entry_le
  have hchecked : Credit.checkOperation (toCredit (operationOf row) (checkedPayload row))
      (epochsOf s) = .ok () := by
    refine Credit.checkOperation_iff.mpr ⟨?_, ?_, _, hfind, ?_, fun n hn => ?_, ?_, ?_, ?_⟩
    · show 1 ≤ row.op_id ∧ row.op_id ≤ Credit.U64
      omega
    · show 1 ≤ row.epoch_id ∧ row.epoch_id ≤ Credit.U64
      omega
    · have htid := htyped.native_thread_id
      have hpos := h.native_thread_id
      show 1 ≤ row.native_thread_id ∧ row.native_thread_id ≤ Credit.U32
      omega
    · have hn : row.guest_handle = some n := hn
      have hall := htyped.guest_handle
      rw [hn] at hall
      have hlt : n < 2 ^ 32 := of_decide_eq_true hall
      have hpos := h.guest_handle n hn
      omega
    · exact getD_le (by omega) hentry
    · exact getD_le (by omega) fun n hn => (hexit n hn).2
    · exact checkPayload_checkedPayload h htyped
  unfold checkOperation
  rw [check_ok, check_ok, check_ok, need_ok]
  refine ⟨checkClock_clockOf h.entry_le, uintOrNull_ok.mpr hexit, ?_,
    bind_ok.mpr ⟨checkedPayload row, scratchPayload_payloadOf h, ?_⟩⟩
  · show decide (row.completed = true ∨
      (if row.completed then clockOf row.exit_qpc else none).isNone = true) = true
    cases row.completed <;> simp
  · rw [check_ok, check_ok, need_ok, need_ok]
    refine ⟨hchecked, ?_, ?_⟩
    swap
    · split
      · rename_i hpayload
        exact decide_eq_true (room_checkedPayload hf h hpayload)
      · rfl
    show decide (¬ row.completed = true ∨ ((clockOf row.entry_qpc).all fun entry =>
      (operationOf row).exit_qpc.all fun exit => entry ≤ exit) = true) = true
    cases hdone : row.completed with
    | false => rfl
    | true =>
      refine decide_eq_true (.inr ?_)
      rw [Option.all_eq_true]
      intro entry hentry
      rw [Option.all_eq_true]
      intro exit hexit
      obtain ⟨rfl, hne⟩ := clockOf_eq_some.mp hentry
      obtain ⟨-, rfl, hne'⟩ := exit_eq_some hexit
      exact decide_eq_true (((h.finished hdone).2 hne').1 hne)

theorem checkRow_operationOf (hf : Faithful s) {row : Operation} (hrow : row ∈ s.operations)
    (h : OperationFits s row) : checkRow (sourceOf s) (operationOf row) = .ok () := by
  obtain ⟨covered, hfind⟩ := find_epochAt hf h
  have hfind : ((sourceOf s).epochs.find? fun epoch =>
    epoch.epoch_id = (operationOf row).epoch_id) = some (epochOf (epochAt s row) covered) := hfind
  unfold checkRow
  rw [check_ok, hfind]
  refine ⟨checkOperation_operationOf hf hrow h, ?_⟩
  dsimp only
  unfold checkBracket
  simp only [check_ok, need_ok, Option.all_eq_true, decide_eq_true_eq]
  refine ⟨fun n hn => ?_, fun n hn destroyed hd => ?_, fun n hn => ?_, fun n hn destroyed hd => ?_, ?_⟩
  · obtain ⟨rfl, hne⟩ := clockOf_eq_some.mp hn
    obtain ⟨hbegin, hfreeze, hcreation, -⟩ := h.entry hne
    exact ⟨hbegin, hfreeze, hcreation⟩
  · obtain ⟨rfl, hne⟩ := clockOf_eq_some.mp hn
    exact (h.entry hne).2.2.2 destroyed hd
  · obtain ⟨hdone, rfl, -⟩ := exit_eq_some hn
    exact (h.finished hdone).1
  · obtain ⟨hdone, rfl, hne⟩ := exit_eq_some hn
    exact ((h.finished hdone).2 hne).2 destroyed hd
  · cases hdone : row.completed with
    | true => exact .inl hdone
    | false =>
      right
      show (epochAt s row).destroy_qpc.isNone = true
      rw [h.unfinished hdone]
      rfl

theorem lost_sourceOf (hf : Faithful s) : lost (sourceOf s) = s.counts.overflow_operations := by
  have hobserved := hf.observed
  show ((lossOf s).map fun loss => loss.last_op_id - loss.first_op_id + 1).sum = _
  unfold lossOf
  split
  · simp only [map_cons, map_nil, sum_cons, sum_nil]
    omega
  · rename_i hnone
    simp only [map_nil, sum_nil]
    omega

theorem pending_sourceOf (hf : Faithful s) : pending (sourceOf s) = s.pending := by
  show (s.operations.map operationOf).countP _ = _
  rw [countP_map, hf.pending]
  rfl

theorem checkLoss_lossOf (hf : Faithful s) :
    ∀ loss ∈ lossOf s, checkLoss (sourceOf s) loss = .ok () := by
  have hobserved := hf.observed
  have hlt := hf.observed_lt
  have hU64 : Credit.U64 = 2 ^ 64 - 1 := rfl
  intro loss hloss
  unfold lossOf at hloss
  split at hloss
  · obtain rfl := mem_singleton.mp hloss
    unfold checkLoss
    simp only [check_ok, need_ok, uint_ok, checkClock, uintOrNull_ok]
    refine ⟨by omega, by omega, decide_eq_true (by omega), rfl, by simp, rfl⟩
  · cases hloss

/-- Each check of the audit is met by a snapshot that the observer writes. -/
theorem validate_sourceOf (hf : Faithful s) (hs : s.representable = true) {size : Nat}
    (hpos : 0 < size) (hsize : size ≤ kMaxJsonBytes) :
    validate (sourceOf s) size s.token s.window.begin_qpc s.freeze s.window.qpc_frequency =
      .ok () := by
  have hrows := checkPartition_rows (of_decide_eq_true hs).2
  have hfits := epochFits_of_representable hs
  have hbegin := hf.begin_pos
  have hbeginLt := hf.begin_lt
  have hfreeze := hf.freeze_le
  have hobserved := hf.observed
  have hobservedLt := hf.observed_lt
  have hstored := hf.stored
  have hstoredLe := hf.stored_le
  have hcompleted := hf.completed
  have hpending := hf.pending
  have hcount : s.operations.length = s.operations.countP (·.completed) +
      s.operations.countP fun o => !o.completed := by
    rw [length_eq_countP_add_countP (·.completed)]
    simp
  have hlengths : (epochsOf s).length = s.epochs.length := by
    rw [epochsOf, length_map, length_zip, hf.coverage, min_self]
  have hids : ((s.operations.map operationOf).map (·.op_id)).Nodup := by
    rw [map_map]
    show (s.operations.map Operation.op_id).Nodup
    rw [hf.operation_ids.map_eq]
    exact nodup_range'
  have hcapacity : kOperationCapacity = 32768 := rfl
  have hU64 : Credit.U64 = 2 ^ 64 - 1 := rfl
  simp only [validate, check_ok, need_ok, uint_ok, forM_ok, lost_sourceOf hf,
    pending_sourceOf hf, intervals_sorted hf]
  have hlength : (sourceOf s).operations.length = s.operations.length := length_map _
  refine ⟨decide_eq_true ⟨hpos, hsize⟩, hf.token, by omega, by omega, hf.frequency,
    decide_eq_true hbeginLt, decide_eq_true ⟨rfl, rfl, rfl⟩, decide_eq_true rfl,
    decide_eq_true rfl, decide_eq_true rfl, rfl, rfl, decide_eq_true ?_, decide_eq_true ?_,
    decide_eq_true ?_, ?_, decide_eq_true (epochsOf_nodup hf), ?_, decide_eq_true hids,
    checkLoss_lossOf hf, ?_, ?_, ?_, ?_, ?_, ?_, decide_eq_true ?_, ?_⟩
  · have hepochs := hf.epochs_le
    have hne := length_pos_of_ne_nil hf.nonempty
    show 0 < (epochsOf s).length ∧ (epochsOf s).length ≤ 64
    rw [hlengths]
    exact ⟨hne, hepochs⟩
  · rw [hlength]
    show s.operations.length ≤ kOperationCapacity
    omega
  · show (lossOf s).length ≤ 4096
    unfold lossOf
    split <;> simp
  · intro epoch hepoch
    obtain ⟨⟨row, claim⟩, hpair, rfl⟩ := mem_map.mp hepoch
    have hrow := (of_mem_zip hpair).1
    exact checkEpoch_epochOf hf hrow (hfits row hrow) (covered claim)
  · intro operation hoperation
    obtain ⟨row, hrow, rfl⟩ := mem_map.mp hoperation
    exact checkRow_operationOf hf hrow (hrows.1 row hrow)
  · omega
  · show 0 ≤ s.counts.observed_operations ∧ s.counts.observed_operations ≤ Credit.U64
    omega
  · show 0 ≤ s.counts.stored_operations ∧ s.counts.stored_operations ≤ Credit.U64
    omega
  · show 0 ≤ s.counts.completed_operations ∧ s.counts.completed_operations ≤ Credit.U64
    omega
  · show 0 ≤ s.pending ∧ s.pending ≤ Credit.U64
    omega
  · show 0 ≤ s.counts.overflow_operations ∧ s.counts.overflow_operations ≤ Credit.U64
    omega
  · rw [hlength]
    show s.counts.stored_operations = s.operations.length ∧ s.pending = s.pending ∧
      s.counts.completed_operations = s.operations.length - s.pending ∧
      s.counts.overflow_operations = s.counts.overflow_operations ∧
      s.counts.observed_operations = s.operations.length + s.counts.overflow_operations
    omega
  · obtain ⟨last_clock, hpartition⟩ := hrows.2 ((lossOf s).map fun loss =>
      ⟨loss.first_op_id, loss.last_op_id, loss.entry_lower_bound_qpc⟩)
    have hnone : clockOf 0 = none := rfl
    rw [hnone, Nat.zero_add, Nat.zero_add, checkPartition_loss hf] at hpartition
    exact bind_ok.mpr ⟨_, hpartition, need_ok.mpr (decide_eq_true rfl)⟩

theorem legible (hf : Faithful s) (hs : s.representable = true) : Legible s := by
  have hrows := (checkPartition_rows (of_decide_eq_true hs).2).1
  have hfits := epochFits_of_representable hs
  have hbegin := hf.begin_lt
  have hfreeze := hf.freeze_le
  have hfrequency := hf.frequency
  have hobserved := hf.observed
  have hobservedLt := hf.observed_lt
  have hstored := hf.stored
  have hstoredLe := hf.stored_le
  have hepochsLe := hf.epochs_le
  have hcompleted := countP_le_length (p := fun o : Operation => o.completed)
    (l := s.operations)
  have hpending := countP_le_length (p := fun o : Operation => !o.completed)
    (l := s.operations)
  have hdone := hf.completed
  have hopen := hf.pending
  have hmax : kMaxQpc = 2 ^ 63 - 1 := rfl
  have hcapacity : kOperationCapacity = 32768 := rfl
  have hepochCapacity : kEpochCapacity = 64 := rfl
  have hcount : kMaxCount = 2 ^ 31 - 1 := rfl
  refine ⟨by omega, by omega, by omega, hobservedLt, by omega, by omega, by omega, by omega,
    fun row hrow covered => ?_, fun row hrow => ?_⟩
  · have h := hfits row hrow
    have hid := (hf.epoch_ids.range hrow).2
    have hcreation := h.creation
    have hmaximum := h.maximum
    have hinitial := h.initial
    refine readEpoch_epochJson covered (by omega) (hf.cookies row hrow) (by omega)
      (fun n hn => ?_) (by omega) (by omega) h.origin
    have hdestroy := (h.destroy n hn).2
    omega
  · have h := hrows row hrow
    have hop := (hf.operation_ids.range hrow).2
    have hepoch := h.epoch_id
    have hentry := h.entry_le
    have hexit := h.exit_le
    refine ⟨by omega, by omega, hf.typed row hrow, by omega, by omega, fun hrelease => ?_,
      fun hrelease n hn => ?_, fun hrelease => ?_, fun hwait => (h.wait hwait).2,
      fun hwait => (h.wait hwait).1⟩
    · have hle := (releaseFits_of (h.release hrelease)).count
      omega
    · have hfitsRelease := releaseFits_of (h.release hrelease)
      have hmaximum := (hfits _ (epochAt_mem hf h).1).maximum
      cases hsuccess : row.completed && row.release_success with
      | false =>
        rw [hfitsRelease.none (Bool.and_eq_false_iff.mp hsuccess)] at hn
        cases hn
      | true =>
        obtain ⟨hdone, hreleased⟩ := Bool.and_eq_true_iff.mp hsuccess
        obtain ⟨m, hm, hroom⟩ := hfitsRelease.previous hdone hreleased
        rw [hm] at hn
        obtain rfl := Option.some.inj hn
        omega
    · exact (releaseFits_of (h.release hrelease)).kind

/-- The audit accepts every document that the observer writes of a journal. -/
theorem auditDocument_of_prefixJson (self : Nat) (window : Window) (enabled : Bool) (last : Nat)
    (cs : List Call) (hcs : ∀ c ∈ cs, c.typed = true) (token : String)
    (coverage : AdmissionCoverage) (allocated : Bool) (s : Snapshot)
    (hcapture : capture ((Journal.init self window enabled last).calls cs) token coverage allocated =
      .ok s) (allocated' : Bool) (document : JsonTree)
    (hwritten : s.prefixJson allocated' = .ok document) :
    ∃ found, auditDocument document s.token s.window.begin_qpc s.freeze s.window.qpc_frequency =
      .ok found := by
  have hf := faithful_of_capture (Journal.run_inv self window enabled last cs)
    (Journal.run_typed self window enabled last hcs) hcapture
  unfold prefixJson at hwritten
  split at hwritten
  · cases hwritten
  rename_i hs
  split at hwritten
  · cases hwritten
  split at hwritten
  · cases hwritten
  rename_i hsize
  obtain rfl := Except.ok.inj hwritten
  have hs : s.representable = true := not_not.mp hs
  have hpos : 0 < s.document.text.length := JsonTree.text_length_pos _
  have hvalid := validate_sourceOf hf hs hpos (Nat.not_lt.mp hsize)
  obtain ⟨found, hfound⟩ := (audit_closed _ _ _ _ _ _ hvalid).1
  exact ⟨found, bind_ok.mpr ⟨_, readSource_document (legible hf hs), hfound⟩⟩

/-- A release that is pending when the journal is frozen: what is copied of its run. -/
def frozenRelease : Snapshot where
  token := "0123456789abcdef0123456789abcdef"
  window := ⟨10, 100, 1000⟩
  freeze := 50
  counts := ⟨1, 1, 0, 0⟩
  diagnostics := {}
  issues := Issue.kEarlyCut.bit ||| Issue.kIncompleteCut.bit
  pending := 1
  raw_history := false
  raw_failed := true
  coverage_gap := true
  coverage_failed := false
  raw_post_stop_mutated := false
  inventory := .kUnknown
  coverage := [{ epoch_id := 1, cookie := 7, creation_qpc := 20 }]
  epochs := [{
    epoch_id := 1, object_cookie := 7, creation_qpc := 20, maximum_count := 5
    pending_operations := 1, origin := .kFresh, history_complete := true }]
  operations := [{
    op_id := 1, epoch_id := 1, entry_qpc := 30, native_thread_id := 4, kind := .kRelease
    release_count := 1 }]

/-- The document of the release is audited. -/
theorem auditDocument_of_prefixJson_pending :
    ∃ found, auditDocument frozenRelease.document "0123456789abcdef0123456789abcdef" 10 50 1000 =
      .ok found :=
  auditDocument_of_prefixJson 1 ⟨10, 100, 1000⟩ true 0
    [.create 7 20 0 5 .kFresh, .begin_release 7 4 none 30 1 {}, .stop_admissions 50]
    (by decide) "0123456789abcdef0123456789abcdef"
    { token := "0123456789abcdef0123456789abcdef", observer_begin_qpc := 10
      qpc_frequency := 1000, freeze_qpc := 50
      epochs := [{ epoch_id := 1, cookie := 7, creation_qpc := 20 }] }
    true frozenRelease rfl true frozenRelease.document (by
      have hlength : ¬ frozenRelease.document.text.length > kMaxJsonBytes := by
        rw [JsonTree.length_text]
        decide
      rw [prefixJson, if_neg (by decide), if_neg (by decide), if_neg hlength])

end Mcla.Semaphore

import Mcla.Library.Decimal
import Mcla.Library.NestedRecorder
import Mcla.Semaphore.CreditAudit

/-! # The semaphore-credit audit: the size of a document

The number of bytes of `json.dumps`, with the separators `,` and `:`.  All texts of a document
are plain.  A document of as many operations as the capacity allows is well below the limit.
-/
namespace Mcla.Semaphore
open List

/-- `Name(value)`, empty for a value outside the names. -/
def Origin.name : Origin → String
  | .kFresh => "fresh" | .kNative => "native" | .kRestored => "restored" | .kUnknown => "unknown"
  | .other _ => ""

def ContextKind.name : ContextKind → String
  | .kUpdate => "update" | .kControl => "control" | .kUnknown => "unknown" | .other _ => ""

def TimeoutKind.name : TimeoutKind → String
  | .kZero => "zero" | .kFinite => "finite" | .kInfinite => "infinite" | .other _ => ""

def WaitResult.name : WaitResult → String
  | .kSuccess => "success" | .kTimeout => "timeout" | .kApc => "apc" | .kAlerted => "alerted"
  | .kAbandoned => "abandoned" | .kFailed => "failed" | .kUnknown => "unknown" | .other _ => ""

namespace Credit
open NestedRecorder (bind_ok check_ok forM_ok)

/-! ### Sizes -/

/-- The lengths of the written parts. -/
def numSize (n : Nat) : Nat := (Decimal.text n).length
def strSize (s : String) : Nat := s.length + 2
def boolSize (b : Bool) : Nat := if b then 4 else 5
def nullOr {α : Type} (size : α → Nat) (value : Option α) : Nat := (value.map size).getD 4

/-- An array of items of these sizes. -/
def arrSize (sizes : List Nat) : Nat := 2 + sizes.sum + (sizes.length - 1)

/-- The length of an object. -/
def objSize (fields : List (String × Nat)) : Nat :=
  arrSize (fields.map fun field => strSize field.1 + 1 + field.2)

def FrameId.size (id : FrameId) : Nat :=
  objSize [("serial", numSize id.serial), ("thread_epoch", numSize id.thread_epoch)]

def Context.size (context : Context) : Nat :=
  objSize [("generation", nullOr FrameId.size context.generation),
    ("kind", strSize context.kind.name)]

def Payload.kind : Payload → String
  | .release .. => "release" | .wait .. => "wait" | .unsupported kind => kind

def Payload.size : Payload → Nat
  | .release count success previous context => objSize [
    ("context", context.size), ("count", numSize count),
    ("previous_count", nullOr numSize previous), ("success", boolSize success)]
  | .wait result timeout => objSize [
    ("result", strSize result.name), ("timeout_kind", strSize timeout.name)]
  | .unsupported _ => objSize []

def Operation.size (row : Operation) : Nat := objSize [
  ("entry_qpc", numSize row.entry_qpc), ("epoch_id", numSize row.epoch_id),
  ("exit_qpc", numSize row.exit_qpc), ("guest_handle", nullOr numSize row.guest_handle),
  ("kind", strSize row.payload.kind), ("native_thread_id", numSize row.native_thread_id),
  ("op_id", numSize row.op_id), ("payload", row.payload.size)]

def Epoch.size (epoch : Epoch) : Nat := objSize [
  ("creation_qpc", numSize epoch.creation_qpc), ("destroy_qpc", nullOr numSize epoch.destroy_qpc),
  ("epoch_id", numSize epoch.epoch_id), ("history_complete", boolSize epoch.history_complete),
  ("initial_count", numSize epoch.initial_count), ("maximum_count", numSize epoch.maximum_count),
  ("object_cookie", numSize epoch.object_cookie), ("origin", strSize epoch.origin.name)]

def countsSize (counts : Counts) : Nat := objSize [
  ("completed_operations", numSize counts.completed_operations),
  ("observed_operations", numSize counts.observed_operations),
  ("overflow_operations", numSize counts.overflow_operations),
  ("stored_operations", numSize counts.stored_operations)]

/-- The proof flags, by name. -/
def falseFlags : List String := [
  "native_admitted", "simulation_proven", "render_proven", "fps_proven",
  "frame_to_step_mapping_proven", "object_identity_proven", "object_lifetime_proven"]

def Source.size (source : Source) : Nat := objSize ([
  ("begin_qpc", numSize source.begin_qpc), ("capacity", numSize source.capacity),
  ("clock", strSize source.clock), ("counts", countsSize source.counts),
  ("end_qpc_exclusive", numSize source.end_qpc_exclusive),
  ("epochs", arrSize (source.epochs.map Epoch.size)),
  ("history_complete", boolSize source.history_complete),
  ("observer_failed", boolSize source.observer_failed),
  ("operations", arrSize (source.operations.map Operation.size)),
  ("qpc_frequency", numSize source.qpc_frequency), ("schema", strSize source.schema),
  ("token", strSize source.token)] ++ falseFlags.zip (source.flags.map boolSize))

/-! ### Bounds -/

theorem numSize_le {n : Nat} (h : n ≤ U64) : numSize n ≤ 20 := by
  refine Decimal.text_length_le (by decide) (Nat.lt_of_le_of_lt h ?_)
  decide

theorem nullOr_le {α : Type} {size : α → Nat} {value : Option α} {k : Nat} (hk : 4 ≤ k)
    (h : ∀ a, value = some a → size a ≤ k) : nullOr size value ≤ k := by
  cases value with
  | none => exact hk
  | some a => exact h a rfl

theorem boolSize_le (b : Bool) : boolSize b ≤ 5 := by cases b <;> decide

/-- An array whose items are no longer than `k`. -/
theorem arrSize_le {sizes : List Nat} {k : Nat} (h : ∀ size ∈ sizes, size ≤ k) :
    arrSize sizes ≤ 2 + sizes.length * (k + 1) := by
  have hsum := sum_le_card_nsmul sizes k h
  rw [smul_eq_mul] at hsum
  unfold arrSize
  rw [Nat.mul_add]
  omega

theorem originName_le (origin : Origin) : strSize origin.name ≤ 10 := by
  cases origin with
  | other value => exact Nat.le_of_ble_eq_true rfl
  | _ => decide

theorem contextName_le (kind : ContextKind) : strSize kind.name ≤ 9 := by
  cases kind with
  | other value => exact Nat.le_of_ble_eq_true rfl
  | _ => decide

theorem timeoutName_le (kind : TimeoutKind) : strSize kind.name ≤ 10 := by
  cases kind with
  | other value => exact Nat.le_of_ble_eq_true rfl
  | _ => decide

theorem resultName_le (result : WaitResult) : strSize result.name ≤ 11 := by
  cases result with
  | other value => exact Nat.le_of_ble_eq_true rfl
  | _ => decide

/-! ### What the checks bound -/

theorem need_ok {ok : Bool} {reason : String} {u : Unit} : need ok reason = .ok u ↔ ok = true := by
  cases ok <;> simp [need]

theorem uint_ok {value high low : Nat} {u : Unit} :
    uint value high low = .ok u ↔ low ≤ value ∧ value ≤ high := by
  rw [uint, need_ok, decide_eq_true_eq]

theorem uintOrNull_ok {value : Option Nat} {high low : Nat} {u : Unit} :
    uintOrNull value high low = .ok u ↔ ∀ n, value = some n → low ≤ n ∧ n ≤ high := by
  cases value with
  | none => simp [uintOrNull]
  | some n => simp [uintOrNull, uint_ok]

/-- What the checks ask of an operation, with the epoch it is found in. -/
theorem checkOperation_iff {row : Operation} {epochs : List Epoch} :
    checkOperation row epochs = .ok () ↔ (1 ≤ row.op_id ∧ row.op_id ≤ U64) ∧
      (1 ≤ row.epoch_id ∧ row.epoch_id ≤ U64) ∧ ∃ epoch,
        (epochs.find? fun epoch => epoch.epoch_id = row.epoch_id) = some epoch ∧
        (1 ≤ row.native_thread_id ∧ row.native_thread_id ≤ U32) ∧
        (∀ n, row.guest_handle = some n → 1 ≤ n ∧ n ≤ U32) ∧ row.entry_qpc ≤ kMaxQpc ∧
        row.exit_qpc ≤ kMaxQpc ∧ checkPayload epoch.maximum_count row.payload = .ok () := by
  unfold checkOperation
  simp only [check_ok, uint_ok]
  cases epochs.find? fun epoch => epoch.epoch_id = row.epoch_id with
  | none => simp
  | some epoch => simp [check_ok, uint_ok, uintOrNull_ok]

theorem objSize_le (fields : List (String × Nat)) :
    objSize fields ≤ 2 + (fields.map fun field => strSize field.1 + 2 + field.2).sum := by
  have hsum : ∀ l : List (String × Nat), (l.map fun field => strSize field.1 + 1 + field.2).sum +
      l.length = (l.map fun field => strSize field.1 + 2 + field.2).sum := by
    intro l
    induction l with
    | nil => rfl
    | cons field l ih =>
      simp only [map_cons, sum_cons, length_cons]
      omega
  have hfields := hsum fields
  unfold objSize arrSize
  rw [length_map]
  omega

theorem contextSize_le {context : Context} (h : checkContext context = .ok ()) :
    context.size ≤ 110 := by
  have hkind := contextName_le context.kind
  have hgeneration : nullOr FrameId.size context.generation ≤ 70 := by
    unfold checkContext at h
    refine nullOr_le (by decide) fun id hid => ?_
    rw [hid] at h
    simp only [check_ok] at h
    obtain ⟨-, h⟩ := h
    split at h
    · simp only [check_ok, uint_ok] at h
      have hserial := numSize_le h.2.2
      have hepoch := numSize_le h.1.2
      have hnames : strSize "serial" = 8 ∧ strSize "thread_epoch" = 14 := by decide
      refine (objSize_le _).trans ?_
      simp only [map_cons, map_nil, sum_cons, sum_nil]
      omega
    · simp [need_ok] at h
  have hnames : strSize "generation" = 12 ∧ strSize "kind" = 6 := by decide
  refine (objSize_le _).trans ?_
  simp only [map_cons, map_nil, sum_cons, sum_nil]
  omega

theorem payloadSize_le {maximum : Nat} {payload : Payload} (hmaximum : maximum ≤ kMaxCount)
    (h : checkPayload maximum payload = .ok ()) :
    payload.size ≤ 220 ∧ strSize payload.kind ≤ 34 := by
  have hcap : kMaxCount ≤ U64 := by decide
  cases payload with
  | release count success previous context =>
    simp only [checkPayload, check_ok, uint_ok, uintOrNull_ok] at h
    obtain ⟨hcount, hprevious, -, -, hcontext⟩ := h
    have hcontext := contextSize_le hcontext
    have hcount := numSize_le (hcount.2.trans hcap)
    have hprevious : nullOr numSize previous ≤ 20 :=
      nullOr_le (by decide) fun n hn => numSize_le ((hprevious n hn).2.trans (hmaximum.trans hcap))
    have hsuccess := boolSize_le success
    have hnames : strSize "context" = 9 ∧ strSize "count" = 7 ∧ strSize "previous_count" = 16 ∧
      strSize "success" = 9 := by decide
    refine ⟨(objSize_le _).trans ?_, show strSize "release" ≤ 34 by decide⟩
    simp only [map_cons, map_nil, sum_cons, sum_nil]
    omega
  | wait result timeout =>
    have hresult := resultName_le result
    have htimeout := timeoutName_le timeout
    have hnames : strSize "result" = 8 ∧ strSize "timeout_kind" = 14 := by decide
    refine ⟨(objSize_le _).trans ?_, show strSize "wait" ≤ 34 by decide⟩
    simp only [map_cons, map_nil, sum_cons, sum_nil]
    omega
  | unsupported kind =>
    simp only [checkPayload, need_ok, boundedKind, decide_eq_true_eq] at h
    refine ⟨show objSize [] ≤ 220 by decide, ?_⟩
    have hlength : kind.length ≤ 32 := by
      rw [← String.length_toList]
      exact h.2.2.1
    show kind.length + 2 ≤ 34
    omega

/-- A checked operation. -/
theorem operationSize_le {row : Operation} {epochs : List Epoch}
    (hepochs : ∀ epoch ∈ epochs, epoch.maximum_count ≤ kMaxCount)
    (h : checkOperation row epochs = .ok ()) : row.size ≤ 500 := by
  obtain ⟨⟨-, hop⟩, ⟨-, hepoch⟩, epoch, hfind, ⟨-, htid⟩, hhandle, hentry, hexit, hpayload⟩ :=
    checkOperation_iff.mp h
  have hU32 : U32 ≤ U64 := by decide
  have hqpc : kMaxQpc ≤ U64 := by decide
  obtain ⟨hpayload, hkind⟩ := payloadSize_le (hepochs epoch (mem_of_find?_eq_some hfind)) hpayload
  have hop := numSize_le hop
  have hepoch := numSize_le hepoch
  have htid := numSize_le (htid.trans hU32)
  have hhandle : nullOr numSize row.guest_handle ≤ 20 :=
    nullOr_le (by decide) fun n hn => numSize_le ((hhandle n hn).2.trans hU32)
  have hentry := numSize_le (hentry.trans hqpc)
  have hexit := numSize_le (hexit.trans hqpc)
  have hnames : strSize "entry_qpc" = 11 ∧ strSize "epoch_id" = 10 ∧ strSize "exit_qpc" = 10 ∧
    strSize "guest_handle" = 14 ∧ strSize "kind" = 6 ∧ strSize "native_thread_id" = 18 ∧
    strSize "op_id" = 7 ∧ strSize "payload" = 9 := by decide
  refine (objSize_le _).trans ?_
  simp only [map_cons, map_nil, sum_cons, sum_nil]
  omega

/-- What the checks ask of an epoch. -/
theorem checkEpoch_iff {epoch : Epoch} : checkEpoch epoch = .ok () ↔
    (1 ≤ epoch.epoch_id ∧ epoch.epoch_id ≤ U64) ∧
      (1 ≤ epoch.object_cookie ∧ epoch.object_cookie ≤ U64) ∧ epoch.creation_qpc ≤ kMaxQpc ∧
      (∀ n, epoch.destroy_qpc = some n → n ≤ kMaxQpc) ∧
      (1 ≤ epoch.maximum_count ∧ epoch.maximum_count ≤ kMaxCount) ∧
      epoch.initial_count ≤ epoch.maximum_count ∧ epoch.origin.nameless = false := by
  unfold checkEpoch
  simp [check_ok, uint_ok, uintOrNull_ok, need_ok]

theorem epochSize_le {epoch : Epoch} (h : checkEpoch epoch = .ok ()) : epoch.size ≤ 400 := by
  obtain ⟨⟨-, hid⟩, ⟨-, hcookie⟩, hcreation, hdestroy, ⟨-, hmaximum⟩, hinitial, -⟩ :=
    checkEpoch_iff.mp h
  have hqpc : kMaxQpc ≤ U64 := by decide
  have hcap : kMaxCount ≤ U64 := by decide
  have hid := numSize_le hid
  have hcookie := numSize_le hcookie
  have hcreation := numSize_le (hcreation.trans hqpc)
  have hdestroy : nullOr numSize epoch.destroy_qpc ≤ 20 :=
    nullOr_le (by decide) fun n hn => numSize_le ((hdestroy n hn).trans hqpc)
  have hinitial := numSize_le (hinitial.trans (hmaximum.trans hcap))
  have hmaximum := numSize_le (hmaximum.trans hcap)
  have horigin := originName_le epoch.origin
  have hcomplete := boolSize_le epoch.history_complete
  have hnames : strSize "creation_qpc" = 14 ∧ strSize "destroy_qpc" = 13 ∧
    strSize "epoch_id" = 10 ∧ strSize "history_complete" = 18 ∧ strSize "initial_count" = 15 ∧
    strSize "maximum_count" = 15 ∧ strSize "object_cookie" = 15 ∧ strSize "origin" = 8 := by decide
  refine (objSize_le _).trans ?_
  simp only [map_cons, map_nil, sum_cons, sum_nil]
  omega

end Credit
end Mcla.Semaphore

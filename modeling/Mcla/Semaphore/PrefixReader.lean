import Mcla.Library.JsonTree
import Mcla.Semaphore.PrefixAudit

/-! # The prefix audit: reading a document

The schema: the exact keys of each object, and the types of their values.  A text that is none
of the names of an enumeration is read as `other`.
-/
namespace Mcla.Semaphore

/-- The value with a name. -/
def Origin.ofName (name : String) : Origin :=
  if name = "fresh" then .kFresh else if name = "native" then .kNative
  else if name = "restored" then .kRestored else if name = "unknown" then .kUnknown else .other 0

def ContextKind.ofName (name : String) : ContextKind :=
  if name = "update" then .kUpdate else if name = "control" then .kControl
  else if name = "unknown" then .kUnknown else .other 0

def TimeoutKind.ofName (name : String) : TimeoutKind :=
  if name = "zero" then .kZero else if name = "finite" then .kFinite
  else if name = "infinite" then .kInfinite else .other 0

def WaitResult.ofName (name : String) : WaitResult :=
  if name = "success" then .kSuccess else if name = "timeout" then .kTimeout
  else if name = "apc" then .kApc else if name = "alerted" then .kAlerted
  else if name = "abandoned" then .kAbandoned else if name = "failed" then .kFailed
  else if name = "unknown" then .kUnknown else .other 0

namespace Prefix
open Credit (need)

def LossKind.ofName (name : String) : LossKind :=
  if name = "overflow" then .overflow else if name = "coverage_gap" then .coverage_gap
  else if name = "unsupported_access" then .unsupported_access else .other name

def FALSE_FLAGS : List String := Credit.falseFlags ++ ["prefix_history_proven", "update_causality_proven"]

def TOP_KEYS : List String := FALSE_FLAGS ++ ["schema", "token", "clock", "qpc_frequency",
  "observer_begin_qpc", "freeze_qpc", "capacity", "admission_inventory_complete",
  "observer_failed", "unknown_coverage_gap", "counts", "epochs", "operations", "loss_ranges"]

def COUNT_KEYS : List String := ["observed_operations", "stored_operations",
  "completed_operations", "pending_operations", "lost_operations"]

def LOSS_KEYS : List String := ["first_op_id", "last_op_id", "entry_lower_bound_qpc", "kind"]

def EPOCH_KEYS : List String := ["epoch_id", "object_cookie", "creation_qpc", "destroy_qpc",
  "initial_count", "maximum_count", "origin", "history_complete"]

def OP_KEYS : List String := ["op_id", "epoch_id", "native_thread_id", "guest_handle",
  "entry_qpc", "exit_qpc", "kind", "payload", "completed"]

variable (value : JsonTree)

/-- `exact` -/
def exact (keys : List String) (label : String) : Except String Unit :=
  need (value.hasKeys keys) label

/-- A number, of at most twenty digits. -/
def readNumber : JsonTree → Except String Nat
  | .num value => if 0 ≤ value ∧ value < 10 ^ 20 then .ok value.toNat
    else .error "bounded unsigned JSON integer"
  | _ => .error "bounded exact integer"

/-- `boolean` -/
def readBool : JsonTree → Except String Bool
  | .bool value => .ok value
  | _ => .error "exact boolean"

def readText (label : String) : JsonTree → Except String String
  | .str value => .ok value
  | _ => .error label

def readItems (label : String) : JsonTree → Except String (List JsonTree)
  | .arr items => .ok items
  | _ => .error label

/-- A value that may be null. -/
def readOrNull {α : Type} (read : JsonTree → Except String α) : JsonTree → Except String (Option α)
  | .null => .ok none
  | value => some <$> read value

/-- One epoch is read. -/
def readEpoch : Except String Credit.Epoch := do
  exact value EPOCH_KEYS "exact object epoch schema"
  return {
    epoch_id := ← readNumber (value.field "epoch_id")
    object_cookie := ← readNumber (value.field "object_cookie")
    creation_qpc := ← readNumber (value.field "creation_qpc")
    destroy_qpc := ← readOrNull readNumber (value.field "destroy_qpc")
    initial_count := ← readNumber (value.field "initial_count")
    maximum_count := ← readNumber (value.field "maximum_count")
    origin := Origin.ofName (← readText "epoch origin" (value.field "origin"))
    history_complete := ← readBool (value.field "history_complete") }

def readGeneration : Except String FrameId := do
  exact value ["thread_epoch", "serial"] "exact update ID pair"
  return {
    thread_epoch := ← readNumber (value.field "thread_epoch")
    serial := ← readNumber (value.field "serial") }

/-- A context is read. -/
def readContext : Except String Credit.Context := do
  exact value ["kind", "generation"] "exact release context"
  return {
    kind := ContextKind.ofName (← readText "release context kind" (value.field "kind"))
    generation := ← readOrNull readGeneration (value.field "generation") }

/-- The payload of an operation of this kind. -/
def readPayload (kind : String) (value : JsonTree) : Except String Payload := do
  if kind = "release" then
    exact value ["count", "success", "previous_count", "context"] "exact release schema"
    return .release (← readNumber (value.field "count"))
      (← readOrNull readBool (value.field "success"))
      (← readOrNull readNumber (value.field "previous_count"))
      (← readContext (value.field "context"))
  else if kind = "wait" then
    exact value ["result", "timeout_kind"] "exact single-wait schema"
    let result ← readOrNull (readText "single-wait result") (value.field "result")
    let timeout ← readText "wait timeout kind" (value.field "timeout_kind")
    return .wait (result.map WaitResult.ofName) (TimeoutKind.ofName timeout)
  else
    exact value [] "unsupported operation carries no interpreted payload"
    return .unsupported kind

/-- One operation is read. -/
def readOperation : Except String Operation := do
  exact value OP_KEYS "exact prefix operation schema"
  let kind ← readText "bounded operation kind" (value.field "kind")
  return {
    op_id := ← readNumber (value.field "op_id")
    epoch_id := ← readNumber (value.field "epoch_id")
    native_thread_id := ← readNumber (value.field "native_thread_id")
    guest_handle := ← readOrNull readNumber (value.field "guest_handle")
    entry_qpc := ← readOrNull readNumber (value.field "entry_qpc")
    exit_qpc := ← readOrNull readNumber (value.field "exit_qpc")
    completed := ← readBool (value.field "completed")
    payload := ← readPayload kind (value.field "payload") }

/-- A loss is read. -/
def readLoss : Except String Loss := do
  exact value LOSS_KEYS "exact admission loss interval"
  return {
    first_op_id := ← readNumber (value.field "first_op_id")
    last_op_id := ← readNumber (value.field "last_op_id")
    entry_lower_bound_qpc := ← readOrNull readNumber (value.field "entry_lower_bound_qpc")
    kind := LossKind.ofName (← readText "loss kind" (value.field "kind")) }

/-- The counters are read. -/
def readCounts : Except String Counts := do
  exact value COUNT_KEYS "exact inventory counters"
  return {
    observed_operations := ← readNumber (value.field "observed_operations")
    stored_operations := ← readNumber (value.field "stored_operations")
    completed_operations := ← readNumber (value.field "completed_operations")
    pending_operations := ← readNumber (value.field "pending_operations")
    lost_operations := ← readNumber (value.field "lost_operations") }

/-- The journal is read. -/
def readSource : Except String Source := do
  exact value TOP_KEYS "exact prefix journal schema"
  return {
    schema := ← readText "prefix journal identity" (value.field "schema")
    token := ← readText "prefix journal identity" (value.field "token")
    clock := ← readText "prefix journal identity" (value.field "clock")
    qpc_frequency := ← readNumber (value.field "qpc_frequency")
    observer_begin_qpc := ← readNumber (value.field "observer_begin_qpc")
    freeze_qpc := ← readNumber (value.field "freeze_qpc")
    capacity := ← readNumber (value.field "capacity")
    flags := ← FALSE_FLAGS.mapM fun key => readBool (value.field key)
    admission_inventory_complete := ← readBool (value.field "admission_inventory_complete")
    observer_failed := ← readBool (value.field "observer_failed")
    unknown_coverage_gap := ← readBool (value.field "unknown_coverage_gap")
    counts := ← readCounts (value.field "counts")
    epochs := ← (← readItems "bounded nonempty epochs" (value.field "epochs")).mapM readEpoch
    operations := ← (← readItems "bounded operations" (value.field "operations")).mapM readOperation
    loss_ranges := ← (← readItems "bounded loss ranges" (value.field "loss_ranges")).mapM readLoss }

/-- `audit`, of the bytes of a document. -/
def auditDocument (token : String) (observer_begin_qpc freeze_qpc qpc_frequency : Nat) :
    Except String Result := do
  let source ← readSource value
  audit source value.text.length token observer_begin_qpc freeze_qpc qpc_frequency

end Prefix
end Mcla.Semaphore

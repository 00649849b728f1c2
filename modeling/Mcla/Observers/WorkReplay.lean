import Mcla.Library.CompactReplay
import Mcla.Observers.VirtualReplay
import Mcla.Observers.WorkEmission

/-! # Reading a work journal back

A lane of the journal has its entries in a table and its events after one another; each event is
compared with the entry it names, and changes the frame of that entry.  The stages and the kinds
of events are the numbers of the recorder's enumerations, and counters are integers.

What the journal says of clocks, of native threads, of accessors and of the lexical parent is not
modelled, nor are the other lanes.
-/
namespace Mcla.WorkEmission
open NestedRecorder
open CompactReplay BitVec
open RouterDispatch (InvocationId UpdateBinding U32 low_eq)
open ConsumerDetail (checkId)

/-! ### The decoder -/

def BODY : BitVec 32 := 0x82588490
def TAIL : BitVec 32 := 0x82741010
def CALLER : BitVec 64 := 0x8258D1E8

/-- Where each call comes from. -/
def SITES : EventKind → Option (BitVec 64)
  | .kScalarPre => some 0x825885AC
  | .kCleanupPre => some 0x825885CC
  | .kJobPre => some 0x8258866C
  | .kWaitPre => some 0x82588694
  | .kVectorPre => some 0x825886F4
  | _ => none

/-- An entry, as it may be written. -/
def checkEntry (e : Entry) (admitted : Bool) : Except String Unit := do
  checkId e.invocation admitted
  VirtualDetail.checkEntry e.virtual_entry admitted
  let c := e.active_call0
  need (c.state = .kAbsent → c = {}) "absent call is wholly zero"
  need (admitted = true → c.state = .kActive ∧ c.caller_lr = CALLER ∧ c.requested_target = TAIL ∧
    c.indirect_ctr &&& U32 = TAIL.setWidth 64 ∧ e.actual_target = BODY ∧ e.caller_lr = CALLER ∧
    e.r3 = c.r3 ∧ e.f1_bits = c.f1_bits) "actual body and immutable active call0 operands"

/-- A frame of the replay, whose counters are not bounded. -/
structure FrameRow where
  entry_index : Nat := 0
  parent : InvocationId := {}
  stage : Stage := .kEntered
  (main_observed scalar_count_observed mode_observed job_bound_observed
    vector_count_observed : Bool := false)
  (main_raw mode_raw scalar_count scalar_upper scalar_index scalar_return : BitVec 64 := 0)
  next_job : Nat := 0
  (job_bound job_return vector_count : BitVec 64 := 0)
  (next_vector scalar_emissions cleanup_emissions job_emissions wait_emissions
    vector_emissions : Nat := 0)

/-- How many fields a kind of event uses. -/
def used : EventKind → Nat
  | .kMainGate | .kScalarCount | .kScalarReturn | .kModeGate | .kJobInitialBound | .kJobReturn
  | .kJobReloadBound | .kVectorCount => 1
  | .kScalarPre => 6
  | .kCleanupPre => 3
  | .kJobPre => 9
  | .kWaitPre => 4
  | .kVectorPre => 5
  | _ => 0

/-- A raw bound as a signed number. -/
def boundOf (a : BitVec 64) : Int := if a &&& 0x80000000 ≠ 0 then a.toNat - 2 ^ 32 else a.toNat

/-- An exception, which needs an active emission. -/
def raised (f : FrameRow) (active : Stage) : Except String FrameRow := do
  need (f.stage = active) "exception requires active emission"
  return { f with stage := .kEmissionException }

/-- A bound that is loaded. -/
def loaded (f : FrameRow) (before : Stage) (a : BitVec 64) : Except String FrameRow := do
  need (f.stage = before ∧ a ≤ U32) "exact initial/reloaded raw u32 job bound"
  let bound := boundOf a
  return { f with
    job_bound_observed := true, job_bound := a
    stage := if 0 < bound ∧ f.next_job < bound then .kJobReady else .kWaitRequired }

/-- What an event asks of the frame and makes of it. -/
def transition (f : FrameRow) (k : EventKind) (a : Nat → BitVec 64) : Except String FrameRow :=
  match k with
  | .kMainGate => do
    need (f.stage = .kEntered ∧ a 0 ≤ 255) "main loaded u8 gate"
    return { f with
      main_observed := true, main_raw := a 0
      stage := if a 0 ≠ 0 then .kScalarCount else .kComplete }
  | .kScalarCount => do
    need (f.stage = .kScalarCount ∧ a 0 ≤ 65535) "scalar loaded u16 count"
    return { f with
      scalar_count_observed := true, scalar_count := a 0, scalar_upper := a 0
      stage := .kScalarReady }
  | .kScalarPre => do
    need (f.stage = .kScalarReady ∧ a 1 < f.scalar_upper)
      "filtered scalar indices strictly decrease"
    return { f with
      scalar_index := a 1, scalar_upper := a 1, stage := .kScalarActive
      scalar_emissions := f.scalar_emissions + 1 }
  | .kScalarReturn => do
    need (f.stage = .kScalarActive) "scalar return requires active emission"
    return { f with
      scalar_return := a 0
      stage := if a 0 &&& 255 = 0 then .kCleanupRequired else .kScalarReady }
  | .kScalarException => raised f .kScalarActive
  | .kCleanupPre => do
    need (f.stage = .kCleanupRequired) "cleanup only after low-byte-zero scalar return"
    return { f with cleanup_emissions := f.cleanup_emissions + 1, stage := .kCleanupActive }
  | .kCleanupReturn => do
    need (f.stage = .kCleanupActive) "cleanup return requires active emission"
    return { f with stage := .kScalarReady }
  | .kCleanupException => raised f .kCleanupActive
  | .kModeGate => do
    need (f.stage = .kScalarReady ∧ a 0 ≤ 255) "mode gate after scalar branch"
    return { f with
      mode_observed := true, mode_raw := a 0
      stage := if a 0 ≠ 0 then .kVectorCount else .kJobInitialBound }
  | .kJobInitialBound => loaded f .kJobInitialBound (a 0)
  | .kJobReloadBound => loaded f .kJobReloadBound (a 0)
  | .kJobPre => do
    need (f.stage = .kJobReady ∧ (a 1).toNat = f.next_job ∧ a 8 ≤ U32)
      "ordinal job and raw descriptor f32 bits"
    return { f with job_emissions := f.job_emissions + 1, stage := .kJobActive }
  | .kJobReturn => do
    need (f.stage = .kJobActive) "job return requires active emission"
    return { f with job_return := a 0, next_job := f.next_job + 1, stage := .kJobReloadBound }
  | .kJobException => raised f .kJobActive
  | .kWaitPre => do
    need (f.stage = .kWaitRequired ∧ a 1 = f.job_bound ∧ a 3 = 1)
      "mandatory wait with last raw bound and r5=1"
    return { f with wait_emissions := f.wait_emissions + 1, stage := .kWaitActive }
  | .kWaitReturn => do
    need (f.stage = .kWaitActive) "wait return requires active emission"
    return { f with stage := .kComplete }
  | .kWaitException => raised f .kWaitActive
  | .kVectorCount => do
    need (f.stage = .kVectorCount ∧ a 0 ≤ 65535) "vector loaded u16 count"
    return { f with
      vector_count_observed := true, vector_count := a 0, next_vector := (a 0).toNat - 1
      stage := if a 0 ≠ 0 then .kVectorReady else .kComplete }
  | .kVectorPre => do
    need (f.stage = .kVectorReady ∧ (a 1).toNat = f.next_vector) "exact reverse vector index"
    return { f with vector_emissions := f.vector_emissions + 1, stage := .kVectorActive }
  | .kVectorReturn => do
    need (f.stage = .kVectorActive) "vector return requires active emission"
    return { f with
      stage := if f.next_vector ≠ 0 then .kVectorReady else .kComplete
      next_vector := f.next_vector - 1 }
  | .kVectorException => raised f .kVectorActive
  | .kNormalExit => do
    need (f.stage = .kComplete) "normal body exit requires selected branch metadata complete"
    return f
  | .kExceptionalExit => return f
  | .kEntry => .error "entry handled only by admission replay"

/-- `_step`: the frame after an event. -/
def step (f : FrameRow) (event : Event) : Except String FrameRow := do
  let a := fun i => event.payload.fields.getD i 0
  need (AllZero (event.payload.fields.drop (used event.kind)) ∧
    (event.kind = .kVectorPre ∨ event.payload.vector = List.replicate 4 0))
    "unused payload fields are zero, not sampled operands"
  need (∀ site ∈ SITES event.kind, a 0 = site) "exact emission callsite"
  transition f event.kind a

def Event.isExit (event : Event) : Bool :=
  event.kind = .kNormalExit || event.kind = .kExceptionalExit

/-- A lane, as far as its entries are compared with it. -/
structure Lane where
  (thread_epoch parent_virtual_thread_epoch parent_detail_thread_epoch
    parent_router_thread_epoch : BitVec 64)

/-- What the replay keeps of the entries. -/
structure Kept where
  (own virtual detail router : BitVec 64 := 0)
  (virtuals details routers : List InvocationId := [])

/-- The frames that may be open at once are 8 in the journals that the decoder reads.  A journal
is `healthy` when it counts no dropped entry and no error. -/
def format (lane : Lane) (nesting : Nat) (healthy : Bool) :
    Format Entry InvocationId Event Kept FrameRow String where
  idOf e := e.invocation
  eventId event := event.invocation
  indexOf event := event.entry_index
  isEntry event := event.kind = .kEntry
  isExit event := event.isExit
  absent := {}
  common e := do
    let v := e.virtual_entry
    let p := v.parent_entry
    checkId e.invocation true
    checkId v.invocation true
    checkId p.invocation true
    checkId p.router true
    need (e.invocation.thread_epoch = lane.thread_epoch ∧
      v.invocation.thread_epoch = lane.parent_virtual_thread_epoch ∧
      p.invocation.thread_epoch = lane.parent_detail_thread_epoch ∧
      p.router.thread_epoch = lane.parent_router_thread_epoch)
      "exact entry index and separate stable parent lifetimes"
  plain event := need (event.payload = {}) "entry has no manufactured payload"
  enter kept e := do
    let v := e.virtual_entry
    let p := v.parent_entry
    need (kept.own < e.invocation.serial ∧ kept.virtual < v.invocation.serial ∧
      kept.detail < p.invocation.serial ∧ kept.router < p.router.serial)
      "strict nonwrapping own and parent serials"
    need (v.invocation ∉ kept.virtuals ∧ p.invocation ∉ kept.details ∧ p.router ∉ kept.routers)
      "one body per parent call0 and no parent alias across lanes"
    need (healthy = true → e.invocation.serial.toNat = kept.own.toNat + 1)
      "healthy allocation ordinal"
    return {
      own := e.invocation.serial
      virtual := v.invocation.serial
      detail := p.invocation.serial
      router := p.router.serial
      virtuals := v.invocation :: kept.virtuals
      details := p.invocation :: kept.details
      routers := p.router :: kept.routers }
  fresh index parent := { entry_index := index, parent := parent }
  place f := f.entry_index
  step f event _ := step f event
  nesting := nesting
  notThere := "entry index exists"
  notSame := "exact entry index and separate stable parent lifetimes"
  notNext := "ordered admitted entry and fresh tail"
  notTop := "exact LIFO identity and immutable lexical flag"

/-- The pending frames, from the innermost one, of a lane that is accepted. -/
def replay (lane : Lane) (nesting : Nat) (healthy : Bool) (entries : List Entry)
    (events : List Event) : Except String (List FrameRow) := do
  entries.forM fun e => checkEntry e true
  let r ← (format lane nesting healthy).replay entries {} events
  need (r.entered = entries.length) "all immutable entries have exactly one admission event"
  return r.stack

/-! ### Entries -/

theorem checkId_iff {id : InvocationId} :
    checkId id true = .ok () ↔ id.thread_epoch ≠ 0 ∧ id.serial ≠ 0 := by
  unfold checkId
  rw [need_ok]
  simp only [RouterDispatch.pos_iff, forall_const]

theorem checkEntry_iff {e : Entry} : checkEntry e true = .ok () ↔
    checkId e.invocation true = .ok () ∧
      VirtualDetail.checkEntry e.virtual_entry true = .ok () ∧ e.Called := by
  have hctr : e.active_call0.indirect_ctr &&& U32 = TAIL.setWidth 64 ↔
      e.active_call0.indirect_ctr.setWidth 32 = kTail :=
    eq_comm.trans (VirtualDetail.low32_eq.trans eq_comm)
  unfold checkEntry
  rw [check_ok, check_ok, check_ok, need_ok, need_ok, hctr]
  constructor
  · rintro ⟨h1, h2, -, h3⟩
    obtain ⟨h4, h5, h6, h7, h8, h9, h10, h11⟩ := h3 rfl
    exact ⟨h1, h2, h4, h5, h6, h7, h8, h9, h10, h11⟩
  · rintro ⟨h1, h2, h⟩
    -- the call is active, so nothing is asked of an absent one
    exact ⟨h1, h2, fun habsent => (by rw [h.state] at habsent; cases habsent),
      fun _ => ⟨h.state, h.call_caller, h.requested, h.ctr, h.target, h.caller, h.r3, h.f1_bits⟩⟩

/-- The identities that an entry is compared by are positive. -/
structure Entry.Positive (e : Entry) : Prop where
  own : checkId e.invocation true = .ok ()
  virtual : checkId e.virtual_entry.invocation true = .ok ()
  detail : checkId e.virtual_entry.parent_entry.invocation true = .ok ()
  router : checkId e.virtual_entry.parent_entry.router true = .ok ()

theorem positive_of_check {e : Entry} (h : checkEntry e true = .ok ()) : e.Positive := by
  obtain ⟨hown, hvirtual, -⟩ := checkEntry_iff.mp h
  obtain ⟨h1, h2, hparent, -⟩ := VirtualDetail.checkEntry_iff.mp hvirtual
  obtain ⟨h3, h4, h5, h6, -⟩ := ConsumerDetail.checkEntry_iff.mp hparent
  exact ⟨hown, checkId_iff.mpr ⟨h1, h2⟩, checkId_iff.mpr ⟨h3, h4⟩, checkId_iff.mpr ⟨h5, h6⟩⟩

/-- An entry that the recorder admits passes the check, if its update binding is bound. -/
theorem checkEntry_admitted {a : Admission} {e : Entry} (h : a.Admits e) (hepoch : a.epoch ≠ 0)
    (hupdate : e.virtual_entry.parent_entry.update.bound) : checkEntry e true = .ok () := by
  have hparent : ConsumerDetail.checkEntry e.virtual_entry.parent_entry true = .ok () :=
    ConsumerDetail.checkEntry_iff.mpr ⟨h.detail_epoch, h.detail_positive, h.router_epoch,
      h.router_positive, hupdate, h.parent_target, h.parent_caller⟩
  have hvirtual : VirtualDetail.checkEntry e.virtual_entry true = .ok () :=
    VirtualDetail.checkEntry_iff.mpr ⟨h.virtual_epoch, h.virtual_positive, hparent,
      h.virtual_called⟩
  refine checkEntry_iff.mpr ⟨checkId_iff.mpr ⟨?_, h.positive⟩, hvirtual, h.called⟩
  rw [h.epoch]
  exact hepoch

/-! ### Frames -/

/-- A frame, as the journal writes it. -/
def Frame.row (f : Frame) : FrameRow where
  entry_index := f.entry_index
  parent := f.parent
  stage := f.stage
  main_observed := f.main_observed
  scalar_count_observed := f.scalar_count_observed
  mode_observed := f.mode_observed
  job_bound_observed := f.job_bound_observed
  vector_count_observed := f.vector_count_observed
  main_raw := f.main_raw
  mode_raw := f.mode_raw
  scalar_count := f.scalar_count
  scalar_upper := f.scalar_upper
  scalar_index := f.scalar_index
  scalar_return := f.scalar_return
  next_job := f.next_job.toNat
  job_bound := f.job_bound
  job_return := f.job_return
  vector_count := f.vector_count
  next_vector := f.next_vector.toNat
  scalar_emissions := f.scalar_emissions.toNat
  cleanup_emissions := f.cleanup_emissions.toNat
  job_emissions := f.job_emissions.toNat
  wait_emissions := f.wait_emissions.toNat
  vector_emissions := f.vector_emissions.toNat

/-- The counters of a frame count events, so they do not wrap. -/
structure Frame.Few (n : Nat) (f : Frame) : Prop where
  next_job : f.next_job.toNat ≤ n
  scalar : f.scalar_emissions.toNat ≤ n
  cleanup : f.cleanup_emissions.toNat ≤ n
  job : f.job_emissions.toNat ≤ n
  wait : f.wait_emissions.toNat ≤ n
  vector : f.vector_emissions.toNat ≤ n

theorem Frame.Few.mono (n : Nat) (f : Frame) (h : f.Few n) : f.Few (n + 1) :=
  ⟨Nat.le_succ_of_le h.next_job, Nat.le_succ_of_le h.scalar, Nat.le_succ_of_le h.cleanup,
    Nat.le_succ_of_le h.job, Nat.le_succ_of_le h.wait, Nat.le_succ_of_le h.vector⟩

theorem toNat_succ {w n : Nat} {x : BitVec w} (h : x.toNat ≤ n) (hn : n + 1 < 2 ^ w) :
    (x + 1).toNat = x.toNat + 1 := by
  have hone : (1 : BitVec w).toNat = 1 % 2 ^ w := toNat_ofNat 1 w
  rw [toNat_add, hone, Nat.add_mod_mod, Nat.mod_eq_of_lt (by omega)]

theorem toNat_pred {x : BitVec 64} (h : x ≠ 0) : (x - 1).toNat = x.toNat - 1 := by
  have hne : x.toNat ≠ 0 := fun hzero => h (eq_of_toNat_eq hzero)
  have hlt := x.isLt
  rw [toNat_sub]
  have hone : (1 : BitVec 64).toNat = 1 := rfl
  omega

theorem toNat_eq_zero {x : BitVec 64} : x.toNat ≠ 0 ↔ x ≠ 0 :=
  not_iff_not.mpr ⟨fun h => eq_of_toNat_eq h, fun h => by rw [h]; rfl⟩

/-- A bound of the source asks for the next job where the signed number of the decoder does. -/
theorem moreJobs_bound {raw next : BitVec 64} (hraw : raw ≤ UINT32_MAX) :
    moreJobs raw next = true ↔ 0 < boundOf raw ∧ (next.toNat : Int) < boundOf raw := by
  have hlt : raw.toNat ≤ 0xffffffff := hraw
  rw [moreJobs_iff hraw]
  unfold boundOf
  by_cases hsign : raw &&& 0x80000000 ≠ 0
  · have hge := (signBit_iff hraw).mp hsign
    rw [if_pos hsign]
    omega
  · have hge := mt (signBit_iff hraw).mpr hsign
    rw [if_neg hsign]
    omega

theorem low8_eq (r3 : BitVec 64) : r3.setWidth 8 = (0 : BitVec 8) ↔ r3 &&& 255 = 0 := by
  have hlow := low_eq (by omega : 8 ≤ 64) (0 : BitVec 8) r3
  constructor
  · intro h
    exact (hlow.mpr h.symm).symm
  · intro h
    exact (hlow.mp h.symm).symm

/-- What a payload made of the first fields passes. -/
theorem unused_of {fields : List (BitVec 64)} {n : Nat} (h : fields.length = n) :
    AllZero ((Payload.of fields).fields.drop n) := by
  intro v hv
  have hdrop : (Payload.of fields).fields.drop n = List.replicate (10 - fields.length) 0 := by
    unfold Payload.of
    rw [List.drop_append, h, List.drop_of_length_le (by omega), Nat.sub_self]
    rfl
  rw [hdrop] at hv
  exact List.eq_of_mem_replicate hv

/-- The operands of a job, after the call site and the index. -/
theorem job_fields (index : BitVec 64) (r3_to_r8 : Vector (BitVec 64) 6) (d : BitVec 32) :
    (kJobLr :: index :: (r3_to_r8.toList ++ [d.setWidth 64])).length = 9 ∧
      (Payload.of (kJobLr :: index :: (r3_to_r8.toList ++ [d.setWidth 64]))).fields.getD 8 0 =
        d.setWidth 64 := by
  have hlength : r3_to_r8.toList.length = 6 := by simp
  constructor
  · simp [hlength]
  · unfold Payload.of
    simp [List.getD_eq_getElem?_getD, hlength]

variable {kind : EventKind}

/-- A call on the innermost frame counts at most one event more, and leaves its place. -/
theorem moves_few {n : Nat} {f f' : Frame} {p : Payload} (h : Moves f kind p f') (hn : n < 65536)
    (hfew : f.Few n) : f'.Few (n + 1) ∧ f'.entry_index = f.entry_index := by
  obtain ⟨hjob, hscalar, hcleanup, hjobs, hwait, hvector⟩ := hfew.mono
  have hone : ∀ {w : Nat} {x : BitVec w}, n + 1 < 2 ^ w → x.toNat ≤ n → (x + 1).toNat ≤ n + 1 := by
    intro w x hw hx
    rw [toNat_succ hx hw]
    omega
  cases h with
  | scalarPre =>
    exact ⟨⟨hjob, hone (by omega) hfew.scalar, hcleanup, hjobs, hwait, hvector⟩, rfl⟩
  | cleanupPre =>
    exact ⟨⟨hjob, hscalar, hone (by omega) hfew.cleanup, hjobs, hwait, hvector⟩, rfl⟩
  | jobPre =>
    exact ⟨⟨hjob, hscalar, hcleanup, hone (by omega) hfew.job, hwait, hvector⟩, rfl⟩
  | jobReturn =>
    exact ⟨⟨hone (by omega) hfew.next_job, hscalar, hcleanup, hjobs, hwait, hvector⟩, rfl⟩
  | waitPre =>
    exact ⟨⟨hjob, hscalar, hcleanup, hjobs, hone (by omega) hfew.wait, hvector⟩, rfl⟩
  | vectorPre =>
    exact ⟨⟨hjob, hscalar, hcleanup, hjobs, hwait, hone (by omega) hfew.vector⟩, rfl⟩
  | _ => exact ⟨⟨hjob, hscalar, hcleanup, hjobs, hwait, hvector⟩, rfl⟩

/-- An event whose operands are the first fields passes the checks that come before those of its
kind. -/
theorem step_of {f g : FrameRow} {event : Event} (fields : List (BitVec 64))
    (hfields : event.payload.fields = (Payload.of fields).fields)
    (hused : fields.length = used event.kind)
    (hvector : event.kind = .kVectorPre ∨ event.payload.vector = List.replicate 4 0)
    (hsite : ∀ site ∈ SITES event.kind, (Payload.of fields).fields.getD 0 0 = site)
    (h : transition f event.kind (fun i => (Payload.of fields).fields.getD i 0) = .ok g) :
    step f event = .ok g := by
  unfold step
  rw [hfields, check_ok, check_ok, need_ok, need_ok]
  exact ⟨⟨unused_of hused, hvector⟩, hsite, h⟩

theorem no_site (x : BitVec 64) (h : SITES kind = none) : ∀ site ∈ SITES kind, x = site := by
  intro site hsite
  rw [h] at hsite
  cases hsite

theorem one_site {x : BitVec 64} (h : SITES kind = some x) : ∀ site ∈ SITES kind, x = site := by
  intro site hsite
  rw [h] at hsite
  exact Option.some.inj hsite

/-- An event without operands. -/
theorem step_bare {f g : FrameRow} {event : Event} (hp : event.payload = {})
    (hused : used event.kind = 0) (hsite : SITES event.kind = none)
    (h : transition f event.kind (fun i => (Payload.of []).fields.getD i 0) = .ok g) :
    step f event = .ok g :=
  step_of [] (by rw [hp]; rfl) hused.symm (Or.inr (by rw [hp])) (no_site _ hsite) h

/-- **One call on the innermost frame** is one step of the replay. -/
theorem moves_step {n : Nat} {f f' : Frame} {p : Payload} (h : Moves f kind p f') (hn : n < 65536)
    (hfew : f.Few n) (id : InvocationId) (index : Nat) :
    step f.row ⟨id, index, kind, p⟩ = .ok f'.row := by
  have hcount : ∀ {w : Nat} {x : BitVec w}, n + 1 < 2 ^ w → x.toNat ≤ n →
      x.toNat + 1 = (x + 1).toNat := fun hw hx => (toNat_succ hx hw).symm
  cases h with
  | mainGate hstage hgate =>
    refine step_of [_] rfl rfl (Or.inr rfl) (no_site _ rfl) ?_
    show transition f.row .kMainGate _ = _
    rw [transition, need_pure_ok]
    exact ⟨⟨hstage, hgate⟩, rfl⟩
  | scalarCount hstage hcount =>
    refine step_of [_] rfl rfl (Or.inr rfl) (no_site _ rfl) ?_
    show transition f.row .kScalarCount _ = _
    rw [transition, need_pure_ok]
    exact ⟨⟨hstage, hcount⟩, rfl⟩
  | scalarPre hstage hindex r3 f1 f2 ctr =>
    refine step_of [kScalarLr, _, r3, f1, f2, ctr] rfl rfl (Or.inr rfl)
      (one_site rfl) ?_
    show transition f.row .kScalarPre _ = _
    rw [transition, need_pure_ok]
    refine ⟨⟨hstage, hindex⟩, ?_⟩
    unfold Frame.row
    rw [← hcount (by omega) hfew.scalar]
    rfl
  | scalarReturn hstage raw_r3 =>
    refine step_of [raw_r3] rfl rfl (Or.inr rfl) (no_site _ rfl) ?_
    show transition f.row .kScalarReturn _ = _
    rw [transition, need_pure_ok]
    refine ⟨hstage, ?_⟩
    unfold Frame.row
    simp only [low8_eq]
    rfl
  | cleanupPre hstage r3 ctr =>
    refine step_of [kCleanupLr, r3, ctr] rfl rfl (Or.inr rfl) (one_site rfl) ?_
    show transition f.row .kCleanupPre _ = _
    rw [transition, need_pure_ok]
    refine ⟨hstage, ?_⟩
    unfold Frame.row
    rw [← hcount (by omega) hfew.cleanup]
  | cleanupReturn hstage =>
    refine step_bare rfl rfl rfl ?_
    show transition f.row .kCleanupReturn _ = _
    rw [transition, need_pure_ok]
    exact ⟨hstage, rfl⟩
  | modeGate hstage hgate =>
    refine step_of [_] rfl rfl (Or.inr rfl) (no_site _ rfl) ?_
    show transition f.row .kModeGate _ = _
    rw [transition, need_pure_ok]
    exact ⟨⟨hstage, hgate⟩, rfl⟩
  | initialBound hstage hbound =>
    refine step_of [_] rfl rfl (Or.inr rfl) (no_site _ rfl) ?_
    show loaded f.row .kJobInitialBound _ = _
    rw [loaded, need_pure_ok]
    refine ⟨⟨hstage, hbound⟩, ?_⟩
    unfold Frame.row
    simp only [moreJobs_bound hbound]
    rfl
  | reloadBound hstage hbound =>
    refine step_of [_] rfl rfl (Or.inr rfl) (no_site _ rfl) ?_
    show loaded f.row .kJobReloadBound _ = _
    rw [loaded, need_pure_ok]
    refine ⟨⟨hstage, hbound⟩, ?_⟩
    unfold Frame.row
    simp only [moreJobs_bound hbound]
    rfl
  | jobPre hstage r3_to_r8 descriptor =>
    obtain ⟨hlength, hdescriptor⟩ := job_fields f.next_job r3_to_r8 descriptor
    refine step_of _ rfl hlength (Or.inr rfl) (one_site rfl) ?_
    show transition f.row .kJobPre _ = _
    rw [transition, need_pure_ok, hdescriptor]
    refine ⟨⟨hstage, rfl, ?_⟩, ?_⟩
    · rw [le_def, toNat_setWidth]
      have := descriptor.isLt
      show _ ≤ 0xffffffff
      omega
    · unfold Frame.row
      rw [← hcount (by omega) hfew.job]
  | jobReturn hstage raw_r3 =>
    refine step_of [raw_r3] rfl rfl (Or.inr rfl) (no_site _ rfl) ?_
    show transition f.row .kJobReturn _ = _
    rw [transition, need_pure_ok]
    refine ⟨hstage, ?_⟩
    unfold Frame.row
    rw [← hcount (by omega) hfew.next_job]
    rfl
  | waitPre hstage r4 =>
    refine step_of [kWaitLr, f.job_bound, r4, 1] rfl rfl (Or.inr rfl)
      (one_site rfl) ?_
    show transition f.row .kWaitPre _ = _
    rw [transition, need_pure_ok]
    refine ⟨⟨hstage, rfl, rfl⟩, ?_⟩
    unfold Frame.row
    rw [← hcount (by omega) hfew.wait]
  | waitReturn hstage =>
    refine step_bare rfl rfl rfl ?_
    show transition f.row .kWaitReturn _ = _
    rw [transition, need_pure_ok]
    exact ⟨hstage, rfl⟩
  | @vectorCount hstage r10 hcount =>
    refine step_of [r10] rfl rfl (Or.inr rfl) (no_site _ rfl) ?_
    show transition f.row .kVectorCount _ = _
    rw [transition, need_pure_ok]
    refine ⟨⟨hstage, hcount⟩, ?_⟩
    have hnext : r10.toNat - 1 = (if r10 ≠ 0 then r10 - 1 else 0).toNat := by
      split
      · rename_i hne
        exact (toNat_pred hne).symm
      · rename_i heq
        rw [not_not.mp heq]
        rfl
    unfold Frame.row
    rw [← hnext]
    rfl
  | vectorPre hstage r3 f1 ctr v1 =>
    refine step_of [kVectorLr, f.next_vector, r3, f1, ctr] rfl rfl (Or.inl rfl)
      (one_site rfl) ?_
    show transition f.row .kVectorPre _ = _
    rw [transition, need_pure_ok]
    refine ⟨⟨hstage, rfl⟩, ?_⟩
    unfold Frame.row
    rw [← hcount (by omega) hfew.vector]
  | vectorReturn hstage =>
    refine step_bare rfl rfl rfl ?_
    show transition f.row .kVectorReturn _ = _
    rw [transition, need_pure_ok]
    refine ⟨hstage, ?_⟩
    have hnext : f.next_vector.toNat - 1 =
        (if f.next_vector ≠ 0 then f.next_vector - 1 else f.next_vector).toNat := by
      split
      · rename_i hne
        exact (toNat_pred hne).symm
      · rename_i heq
        rw [not_not.mp heq]
        rfl
    unfold Frame.row
    simp only [toNat_eq_zero, hnext]
  | scalarException hstage =>
    exact step_bare rfl rfl rfl (check_ok.mpr ⟨need_ok.mpr hstage, rfl⟩)
  | cleanupException hstage =>
    exact step_bare rfl rfl rfl (check_ok.mpr ⟨need_ok.mpr hstage, rfl⟩)
  | jobException hstage =>
    exact step_bare rfl rfl rfl (check_ok.mpr ⟨need_ok.mpr hstage, rfl⟩)
  | waitException hstage =>
    exact step_bare rfl rfl rfl (check_ok.mpr ⟨need_ok.mpr hstage, rfl⟩)
  | vectorException hstage =>
    exact step_bare rfl rfl rfl (check_ok.mpr ⟨need_ok.mpr hstage, rfl⟩)

/-! ### Recorder and replay side by side -/

/-- What the replay knows of the entries. -/
structure Admission.Known (lane : Lane) (a : Admission) (kept : Kept) : Prop where
  epoch : a.epoch = lane.thread_epoch
  own : kept.own = a.last_serial
  virtual : kept.virtual = a.last_virtual_serial
  detail : kept.detail = a.last_detail_serial
  router : kept.router = a.last_router_serial
  virtuals : ∀ id ∈ kept.virtuals, id.serial ≤ kept.virtual
  details : ∀ id ∈ kept.details, id.serial ≤ kept.detail
  routers : ∀ id ∈ kept.routers, id.serial ≤ kept.router

/-- What is asked of the recorder: its parent epochs are not bound, or those of the lane. -/
structure Admission.Good (lane : Lane) (a : Admission) : Prop where
  virtual : a.virtual_epoch = lane.parent_virtual_thread_epoch ∨ a.virtual_epoch = 0
  detail : a.detail_epoch = lane.parent_detail_thread_epoch ∨ a.detail_epoch = 0
  router : a.router_epoch = lane.parent_router_thread_epoch ∨ a.router_epoch = 0

section Simulation
variable {lane : Lane} {entries : List Entry} {nesting entryCapacity capacity depth : Nat}
  {m m' : Model} {r : State Kept FrameRow} {kept kept' : Kept} {e : Entry}

theorem common_ok : (format lane nesting false).common e = .ok () ↔
    e.Positive ∧ e.invocation.thread_epoch = lane.thread_epoch ∧
      e.virtual_entry.invocation.thread_epoch = lane.parent_virtual_thread_epoch ∧
      e.virtual_entry.parent_entry.invocation.thread_epoch = lane.parent_detail_thread_epoch ∧
      e.virtual_entry.parent_entry.router.thread_epoch = lane.parent_router_thread_epoch := by
  show (checkId _ true >>= fun _ => checkId _ true >>= fun _ => checkId _ true >>= fun _ =>
    checkId _ true >>= fun _ => need _ _) = _ ↔ _
  rw [check_ok, check_ok, check_ok, check_ok, need_ok]
  constructor
  · rintro ⟨h1, h2, h3, h4, hepochs⟩
    exact ⟨⟨h1, h2, h3, h4⟩, hepochs⟩
  · rintro ⟨h, hepochs⟩
    exact ⟨h.own, h.virtual, h.detail, h.router, hepochs⟩

theorem enter_ok : (format lane nesting false).enter kept e = .ok kept' ↔
    (kept.own < e.invocation.serial ∧ kept.virtual < e.virtual_entry.invocation.serial ∧
      kept.detail < e.virtual_entry.parent_entry.invocation.serial ∧
      kept.router < e.virtual_entry.parent_entry.router.serial) ∧
      (e.virtual_entry.invocation ∉ kept.virtuals ∧
        e.virtual_entry.parent_entry.invocation ∉ kept.details ∧
        e.virtual_entry.parent_entry.router ∉ kept.routers) ∧
      { own := e.invocation.serial
        virtual := e.virtual_entry.invocation.serial
        detail := e.virtual_entry.parent_entry.invocation.serial
        router := e.virtual_entry.parent_entry.router.serial
        virtuals := e.virtual_entry.invocation :: kept.virtuals
        details := e.virtual_entry.parent_entry.invocation :: kept.details
        routers := e.virtual_entry.parent_entry.router :: kept.routers } = kept' := by
  show (need _ _ >>= fun _ => need _ _ >>= fun _ => need _ _ >>= fun _ => pure _) = _ ↔ _
  rw [check_ok, check_ok, check_ok, need_ok, need_ok, need_ok, pure_ok]
  simp only [Bool.false_eq_true, false_implies, true_and]

/-- The decoder follows the model. -/
abbrev WorkRel (lane : Lane) (nesting : Nat) (entries : List Entry) (depth capacity : Nat) :
    Model → State Kept FrameRow → Prop :=
  Rel (format lane nesting false) entries Admission.entries Frame.row Frame.Few
    (Admission.Known lane) depth capacity

/-- The entry of an open frame is the one that its events name. -/
theorem invocation_eq {f : Frame} (h : m.admission.entries[f.entry_index]? = some e) :
    m.invocation f = e.invocation := by
  unfold Model.invocation
  rw [List.getD_eq_getElem?_getD, h]
  rfl

theorem exit_step {f : Frame} {normal : Bool} (hnormal : normal = true → f.stage = .kComplete)
    (id : InvocationId) :
    step f.row ⟨id, f.entry_index, if normal then .kNormalExit else .kExceptionalExit, {}⟩ =
      .ok f.row := by
  cases normal with
  | true =>
    refine step_bare rfl rfl rfl ?_
    show transition f.row .kNormalExit _ = _
    rw [transition, need_pure_ok]
    exact ⟨hnormal rfl, rfl⟩
  | false => exact step_bare rfl rfl rfl rfl

theorem plain_entry (id : InvocationId) (index : Nat) :
    (format lane nesting false).plain ⟨id, index, .kEntry, {}⟩ = .ok () := by
  show need (({} : Payload) = {}) "entry has no manufactured payload" = .ok ()
  exact need_ok.mpr rfl

/-- An entry that the recorder admits, as the replay sees it. -/
theorem opening (h : WorkRel lane nesting entries depth capacity m r)
    (hbound : ∀ e ∈ entries, checkEntry e true = .ok ())
    (hadmits : m.admission.Admits e) (hgood : (m.admission.after e).Good lane)
    (hentries : (m.admission.after e).entries <+: entries) :
    ∃ kept, Opening (format lane nesting false) entries Admission.entries Frame.row
      (Frame.Few (m.events.length + 1)) (Admission.Known lane) m.admission.entries r
      (m.admission.after e) m.frame ⟨e.invocation, m.admission.entries.length, .kEntry, {}⟩ e
      kept := by
  have hthere : entries[r.entered]? = some e := h.next_entry hentries
  have hlength : m.admission.entries.length = r.entered := h.length_entries
  have hknown := h.admission
  obtain ⟨hvirtual, -⟩ :=
    VirtualDetail.bound_eq hadmits.virtual_epoch hadmits.virtual_bound hgood.virtual
  obtain ⟨hdetail, -⟩ :=
    VirtualDetail.bound_eq hadmits.detail_epoch hadmits.detail_bound hgood.detail
  obtain ⟨hrouter, -⟩ :=
    VirtualDetail.bound_eq hadmits.router_epoch hadmits.router_bound hgood.router
  have hserial := hadmits.serial
  have hserials := hadmits.virtual_serial
  have hdetails := hadmits.detail_serial
  have hrouters := hadmits.router_serial
  rw [← hknown.own] at hserial
  rw [← hknown.virtual] at hserials
  rw [← hknown.detail] at hdetails
  rw [← hknown.router] at hrouters
  have hcheck := hbound e (List.mem_of_getElem? hthere)
  refine ⟨_, rfl, hthere, rfl, hlength, rfl, common_ok.mpr ⟨positive_of_check hcheck,
    hadmits.epoch.trans hknown.epoch, hvirtual, hdetail, hrouter⟩, plain_entry _ _,
    enter_ok.mpr ⟨⟨hserial, hserials, hdetails, hrouters⟩,
      ⟨VirtualDetail.notMem_of_serial_lt hknown.virtuals hserials,
        VirtualDetail.notMem_of_serial_lt hknown.details hdetails,
        VirtualDetail.notMem_of_serial_lt hknown.routers hrouters⟩, rfl⟩, ?_, hlength, ?_, ?_⟩
  · have hparent := h.parent_eq fun f entry hown => invocation_eq hown
    show m.frame.row = { entry_index := r.entered, parent := _ }
    rw [hparent, ← hlength]
    unfold Model.frame
    cases m.stack with
    | nil => rfl
    | cons top rest => rfl
  · exact ⟨Nat.zero_le _, Nat.zero_le _, Nat.zero_le _, Nat.zero_le _, Nat.zero_le _, Nat.zero_le _⟩
  · exact ⟨hknown.epoch, rfl, rfl, rfl, rfl, VirtualDetail.serial_le_cons hknown.virtuals hserials,
      VirtualDetail.serial_le_cons hknown.details hdetails,
      VirtualDetail.serial_le_cons hknown.routers hrouters⟩

/-- **Every call that leaves no fault** is followed by the replay. -/
theorem effect_emits (hdepth : depth ≤ nesting) (hcapacity : capacity ≤ 65536)
    (hbound : ∀ e ∈ entries, checkEntry e true = .ok ()) {ok : Bool}
    (heffect : Effect entryCapacity capacity depth m m' ok) (hsound : m'.fault = none)
    (hentries : m'.admission.entries <+: entries) (hgood : m'.admission.Good lane) :
    Emits Recorder.events ((format lane nesting false).event entries) (fun _ => True)
      (WorkRel lane nesting entries depth capacity) m m' := by
  cases heffect with
  | refused => exact Or.inl ⟨rfl, fun r h => h⟩
  | faults => cases hsound
  | @enters hw e hadmits hfull hcount hroom =>
    right
    refine ⟨_, rfl, fun _ r h => ?_⟩
    obtain ⟨kept, ho⟩ := opening h hbound hadmits hgood hentries
    have hopens := h.opens Frame.Few.mono (lt_of_le_of_ne h.depth hfull) hdepth hroom ho
    exact ⟨_, hopens⟩
  | @moves hw f rest hstack hroom kind p f' hmoves =>
    right
    refine ⟨_, rfl, fun _ r h => ?_⟩
    have hf : f ∈ m.stack := by rw [hstack]; exact List.mem_cons_self
    obtain ⟨hentry, hnormal, hexceptional⟩ := moves_kind hmoves
    have hlt : m.events.length < 65536 := by omega
    have hfew := (h.ok f hf).2
    obtain ⟨hfew', hindex⟩ := moves_few hmoves hlt hfew
    refine h.amends (some f') Frame.Few.mono hstack hroom fun entry hown => ?_
    refine ⟨decide_eq_false hentry, ?_, invocation_eq hown, rfl, f'.row,
      moves_step hmoves hlt hfew _ _, ?_⟩
    · show false = (decide (kind = .kNormalExit) || decide (kind = .kExceptionalExit))
      rw [decide_eq_false hnormal, decide_eq_false hexceptional]
      rfl
    · intro g hg
      cases hg
      exact ⟨rfl, hindex, hfew'⟩
  | @exits hw f rest hstack hroom normal hnormal =>
    right
    refine ⟨_, rfl, fun _ r h => ?_⟩
    refine h.amends none Frame.Few.mono hstack hroom fun entry hown => ?_
    refine ⟨?_, ?_, invocation_eq hown, rfl, f.row, exit_step hnormal _, fun g hg => (by cases hg)⟩
    · cases normal <;> rfl
    · cases normal <;> rfl

/-- One call. -/
def Model.step (entryCapacity capacity depth : Nat) (m : Model) (call : Call) : Model :=
  (m.call entryCapacity capacity depth call).1

/-- What is asked of a model holds of it before the call as well. -/
theorem effect_before {ok : Bool} (heffect : Effect entryCapacity capacity depth m m' ok)
    (hsound : m'.fault = none) (hentries : m'.admission.entries <+: entries)
    (hgood : m'.admission.Good lane) :
    m.fault = none ∧ m.admission.entries <+: entries ∧ m.admission.Good lane := by
  cases heffect with
  | refused => exact ⟨hsound, hentries, hgood⟩
  | faults => cases hsound
  | enters hw =>
    refine ⟨(Recorder.writable_iff.mp hw).2, ?_, ?_⟩
    · exact (List.prefix_append _ _).trans hentries
    · exact ⟨VirtualDetail.good_before hgood.virtual, VirtualDetail.good_before hgood.detail,
        VirtualDetail.good_before hgood.router⟩
  | moves hw => exact ⟨(Recorder.writable_iff.mp hw).2, hentries, hgood⟩
  | exits hw => exact ⟨(Recorder.writable_iff.mp hw).2, hentries, hgood⟩

theorem work_follows (entryCapacity : Nat) (hdepth : depth ≤ nesting) (hcapacity : capacity ≤ 65536)
    (hbound : ∀ e ∈ entries, checkEntry e true = .ok ()) :
    Follows (Model.step entryCapacity capacity depth) Recorder.events
      (fun m => m.fault = none ∧ m.admission.entries <+: entries ∧ m.admission.Good lane)
      ((format lane nesting false).event entries) (fun _ => True)
      (WorkRel lane nesting entries depth capacity) where
  sticky := by
    rintro m call ⟨hsound, hentries, hgood⟩
    by_cases hcall : call = .Freeze
    · subst hcall
      exact ⟨hsound, hentries, hgood⟩
    · exact effect_before (call_effect call hcall) hsound hentries hgood
  emits := by
    rintro m call ⟨hsound, hentries, hgood⟩
    by_cases hcall : call = .Freeze
    · subst hcall
      exact Or.inl ⟨rfl, fun r h => h.frozen⟩
    · exact effect_emits hdepth hcapacity hbound (call_effect call hcall) hsound hentries hgood

end Simulation

/-! ### Every run is read back -/

/-- What the entries of a run pass, and the epoch they are compared with. -/
structure Model.Sound (own_epoch : BitVec 64) (m : Model) : Prop where
  epoch : m.admission.epoch = own_epoch
  bound : own_epoch = 0 → m.fault ≠ none
  checked : ∀ e ∈ m.admission.entries, e.virtual_entry.parent_entry.update.bound →
    checkEntry e true = .ok ()

section Runs
variable {entryCapacity capacity depth : Nat} {own_epoch : BitVec 64} {m m' : Model}

theorem sound_effect {ok : Bool} (h : m.Sound own_epoch)
    (heffect : Effect entryCapacity capacity depth m m' ok) : m'.Sound own_epoch := by
  have hlive : m.writable = true → own_epoch ≠ 0 :=
    fun hw hzero => h.bound hzero (Recorder.writable_iff.mp hw).2
  cases heffect with
  | refused => exact h
  | faults hw fault => exact ⟨h.epoch, fun _ => Option.some_ne_none fault, h.checked⟩
  | moves hw hstack hroom hmoves => exact ⟨h.epoch, h.bound, h.checked⟩
  | exits hw hstack hroom hnormal => exact ⟨h.epoch, h.bound, h.checked⟩
  | @enters hw e hadmits hdepth hentries hroom =>
    refine ⟨h.epoch, h.bound, fun e' he' hbound => ?_⟩
    have hepoch : m.admission.epoch ≠ 0 := by
      rw [h.epoch]
      exact hlive hw
    rcases List.mem_append.mp he' with hold | hnew
    · exact h.checked e' hold hbound
    · obtain rfl := List.mem_singleton.mp hnew
      exact checkEntry_admitted hadmits hepoch hbound

theorem sound_run (parent_virtual_epoch : BitVec 64) (calls : List Call) :
    (run entryCapacity capacity depth own_epoch parent_virtual_epoch calls).Sound own_epoch := by
  unfold run
  induction calls using List.reverseRecOn with
  | nil =>
    refine ⟨rfl, fun hzero => ?_, fun e he => (by cases he)⟩
    unfold Model.new
    rw [if_pos hzero]
    exact Option.some_ne_none _
  | append_singleton calls call ih =>
    rw [List.foldl_append]
    simp only [List.foldl_cons, List.foldl_nil]
    by_cases hcall : call = .Freeze
    · subst hcall
      exact ⟨ih.epoch, ih.bound, ih.checked⟩
    · exact sound_effect ih (call_effect call hcall)

end Runs

/-- The lane that a model is written to. -/
def Model.lane (m : Model) : Lane where
  thread_epoch := m.admission.epoch
  parent_virtual_thread_epoch := m.admission.virtual_epoch
  parent_detail_thread_epoch := m.admission.detail_epoch
  parent_router_thread_epoch := m.admission.router_epoch

theorem work_numbers (lane : Lane) (nesting : Nat) :
    Numbers (format lane nesting false) (fun e => e.invocation.serial.toNat)
      (fun kept => kept.own.toNat) := by
  intro kept e kept' h
  obtain ⟨-, -, rfl⟩ := enter_ok.mp h
  rfl

theorem work_numbering (lane : Lane) (nesting : Nat) :
    Numbering (format lane nesting false) (format lane nesting true)
      (fun e => e.invocation.serial.toNat) (fun kept => kept.own.toNat) where
  same := rfl
  enter := by
    intro kept e kept'
    rw [enter_ok]
    show (need _ _ >>= fun _ => need _ _ >>= fun _ => need _ _ >>= fun _ => pure _) = _ ↔ _
    rw [check_ok, check_ok, check_ok, need_ok, need_ok, need_ok, pure_ok]
    simp only [forall_const]
    tauto

/-- The serials of the entries, in the order of the table. -/
def entrySerials (entries : List Entry) : List Nat := entries.map fun e => e.invocation.serial.toNat

/-- **Every journal is read back**: after every run without a fault whose entries have their update
bound, the replay accepts each event and ends with the frames that are pending.  A healthy journal
is asked moreover for serials that leave none out. -/
theorem run_replays (entryCapacity capacity depth nesting : Nat) (hdepth : depth ≤ nesting)
    (hcapacity : capacity ≤ 65536) (own_epoch parent_virtual_epoch : BitVec 64)
    (calls : List Call) (healthy : Bool) :
    let m := run entryCapacity capacity depth own_epoch parent_virtual_epoch calls
    m.fault = none → (∀ e ∈ m.admission.entries, e.virtual_entry.parent_entry.update.bound) →
      (healthy = true → Consecutive (entrySerials m.admission.entries)) →
      replay m.lane nesting healthy m.admission.entries m.events = .ok (m.stack.map Frame.row) := by
  intro m hfault hbound hhealthy
  have hsound : m.Sound own_epoch := sound_run parent_virtual_epoch calls
  have hlive : own_epoch ≠ 0 := fun hzero => hsound.bound hzero hfault
  have hchecked : ∀ e ∈ m.admission.entries, checkEntry e true = .ok () :=
    fun e he => hsound.checked e he (hbound e he)
  have hstart : Model.new own_epoch parent_virtual_epoch =
      { admission := { epoch := own_epoch, virtual_epoch := parent_virtual_epoch } } := by
    unfold Model.new
    rw [if_neg hlive]
  have hknown : Admission.Known m.lane
      { epoch := own_epoch, virtual_epoch := parent_virtual_epoch } {} :=
    ⟨hsound.epoch.symm, rfl, rfl, rfl, rfl, fun _ h => (by cases h), fun _ h => (by cases h),
      fun _ h => (by cases h)⟩
  have hrel : WorkRel m.lane nesting m.admission.entries depth capacity
      (Model.new own_epoch parent_virtual_epoch) ⟨[], 0, {}⟩ := by
    rw [hstart]
    exact rel_new rfl hknown
  obtain ⟨r, haccept, hr⟩ := (work_follows entryCapacity hdepth hcapacity
    hchecked).run hrel rfl calls ⟨hfault, List.prefix_refl _, Or.inl rfl, Or.inl rfl, Or.inl rfl⟩
    fun _ _ => trivial
  have hwhole : r.entered = m.admission.entries.length := by
    have htaken := congrArg List.length hr.taken
    rw [List.length_take, Nat.min_eq_left hr.entered] at htaken
    exact htaken.symm
  have hreplay : (format m.lane nesting healthy).replay m.admission.entries {} m.events = .ok r :=
    ((work_numbering m.lane nesting).replay_of (work_numbers m.lane nesting) rfl healthy _
      hwhole).mpr ⟨haccept, hhealthy⟩
  unfold replay
  rw [check_ok, forM_ok, bind_ok]
  exact ⟨hchecked, r, hreplay, check_ok.mpr ⟨need_ok.mpr hwhole, pure_ok.mpr hr.stack⟩⟩

/-- An entry of the lane that is numbered 1, called by a body of the virtual lane that is numbered
1 as well. -/
def entryOf (serial virtual detail router r3 : BitVec 64) : Entry where
  invocation := ⟨1, serial⟩
  virtual_entry := VirtualDetail.entryOf virtual detail router 0 0
  active_call0 := ⟨0x8258D1E8, r3, 0x32, 0x1f82741010, 0x82741010, .kActive⟩
  actual_target := 0x82588490
  caller_lr := 0x8258D1E8
  r3 := r3
  f1_bits := 0x32

/-- A body with one scalar emission and one job, and one in it that selects nothing. -/
def nestedCalls : List Call :=
  [.Enter (entryOf 1 1 1 1 0x20), .MainGate ⟨1, 1⟩ 1, .ScalarCount ⟨1, 1⟩ 3,
    .ScalarPre ⟨1, 1⟩ 2 0x30 0 0 0 kScalarLr, .Enter (entryOf 2 2 2 2 0x40), .MainGate ⟨1, 2⟩ 0,
    .Exit ⟨1, 2⟩ true, .ScalarReturn ⟨1, 1⟩ 0x100, .CleanupPre ⟨1, 1⟩ 0x30 0 kCleanupLr,
    .CleanupReturn ⟨1, 1⟩, .ModeGate ⟨1, 1⟩ 0, .JobBound ⟨1, 1⟩ 1,
    .JobPre ⟨1, 1⟩ 0 #v[1, 2, 3, 4, 5, 6] 0x3f800000 kJobLr, .JobReturn ⟨1, 1⟩ 7,
    .JobBound ⟨1, 1⟩ 0xffffffff, .WaitPre ⟨1, 1⟩ 0xffffffff 0 1 kWaitLr]

theorem run_replays_nested :
    replay ⟨1, 1, 1, 5⟩ 8 true (run 2048 65536 8 1 0 nestedCalls).admission.entries
      (run 2048 65536 8 1 0 nestedCalls).events =
        .ok ((run 2048 65536 8 1 0 nestedCalls).stack.map Frame.row) :=
  run_replays 2048 65536 8 8 le_rfl le_rfl 1 0 nestedCalls true (by decide)
    (by decide) (fun _ => by decide)

end Mcla.WorkEmission

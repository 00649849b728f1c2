import Mcla.Semaphore.CreditSound
import Mcla.Semaphore.PrefixAgreement

/-! # The credits of a frozen journal

A semaphore lives on when its journal is frozen: what was pending ends, what was lost has taken
place, and more begins.  All of it begins after the last row that the audit accepts has ended, so
that any order of the whole history starts with an order of the accepted rows.
-/
namespace Mcla.Semaphore.Prefix
open Intervals (components Before exists_split)
open Credit (Match CreditId Linearisation Explains)
open NestedRecorder (bind_ok check_ok)
open List

/-! ### The whole history -/

/-- An operation that a row is a record of.  One that is pending there may end in any way. -/
structure Records (row : Operation) (op : Credit.Operation) : Prop where
  op_id : op.op_id = row.op_id
  epoch_id : op.epoch_id = row.epoch_id
  entry : ∀ entry, row.entry_qpc = some entry → op.entry_qpc = entry
  completed : row.completed = true → op = row.closed

/-- An operation without a row: it began when the journal was frozen, or it was lost, and began
at the bound of its range or later. -/
def Unrecorded (source : Source) (op : Credit.Operation) : Prop :=
  source.freeze_qpc ≤ op.entry_qpc ∨ ∃ loss ∈ source.loss_ranges,
    ∀ bound, loss.entry_lower_bound_qpc = some bound → bound ≤ op.entry_qpc

/-- A whole history that a frozen journal is a record of. -/
structure Continues (source : Source) (whole : Credit.Source) : Prop where
  rows : ∃ outcome others, whole.operations.Perm (source.operations.map outcome ++ others) ∧
    (∀ row ∈ source.operations, Records row (outcome row)) ∧ ∀ op ∈ others, Unrecorded source op
  numbers : (whole.operations.map (·.op_id)).Nodup

/-- In every order of every such history, the wait of the match takes the credit of its release. -/
def Holds (source : Source) (found : Match) : Prop :=
  ∀ epoch ∈ source.epochs, epoch.epoch_id = found.epoch_id → ∀ whole, Continues source whole →
    ∀ order, Linearisation whole epoch order → Explains order found

/-! ### What comes after the prefix -/

theorem entry_known {source : Source} (hissues : issues source = []) {row : Operation}
    (hrow : row ∈ source.operations) : row.entry_qpc = some (entryOf row) := by
  simp only [issues, append_eq_nil_iff, flatMap_eq_nil_iff] at hissues
  have hclock := hissues.1.2 row hrow
  unfold entryOf
  cases hentry : row.entry_qpc with
  | none => simp [ifRaised, hentry] at hclock
  | some entry => rfl

theorem barrier_le_unrecorded {source : Source} (hissues : issues source = [])
    {op : Credit.Operation} (h : Unrecorded source op) : barrier source ≤ op.entry_qpc := by
  rcases h with hfreeze | ⟨loss, hloss, hbound⟩
  · exact (barrier_le_freeze source).trans hfreeze
  · simp only [issues, append_eq_nil_iff, flatMap_eq_nil_iff] at hissues
    have hknown := hissues.2 loss hloss
    cases hlower : loss.entry_lower_bound_qpc with
    | none => simp [ifRaised, hlower] at hknown
    | some bound =>
      refine le_trans ((foldl_min_le _ _).2 bound (mem_filterMap.mpr ⟨_,
        mem_append_right _ (mem_map_of_mem hloss), hlower⟩)) (hbound bound hlower)

section
variable {source : Source} {token : String} {observer_begin_qpc freeze_qpc qpc_frequency : Nat}
  {whole : Credit.Source} {epoch : Credit.Epoch} {groups : List (List Operation)} {stop : Nat}

/-- Each row of the prefix is in the history as it is recorded. -/
theorem Continues.closed_mem (h : Continues source whole)
    (hproject : Projects source epoch groups.flatten stop) {op : Credit.Operation}
    (hop : op ∈ groups.flatten.map Operation.closed) :
    op ∈ whole.operations ∧ op.epoch_id = epoch.epoch_id := by
  obtain ⟨row, hrow, rfl⟩ := mem_map.mp hop
  have hsettled := hproject.settled row hrow
  have hlisted := (epochRows_perm source epoch).subset (hproject.part.subset hrow)
  have hmem := (mem_filter.mp hlisted).1
  obtain ⟨outcome, others, hperm, hrecords, -⟩ := h.rows
  refine ⟨hperm.mem_iff.mpr (mem_append_left _ ?_), hsettled.own⟩
  rw [← (hrecords row hmem).completed hsettled.completed]
  exact mem_map_of_mem hmem

section
variable (h : Continues source whole) (hissues : issues source = [])
  (hfirst : groups <+: components entryOf exitOf (epochRows source epoch))
  (hproject : Projects source epoch groups.flatten stop) (hstop : stop ≤ barrier source)
include h hissues hfirst hproject hstop

/-- Everything else on the object begins after the prefix has ended. -/
theorem Continues.later {op : Credit.Operation} (hop : op ∈ whole.operations) (hown : op.epoch_id = epoch.epoch_id)
    (hout : op ∉ groups.flatten.map Operation.closed) {done : Credit.Operation}
    (hdone : done ∈ groups.flatten.map Operation.closed) : done.exit_qpc < op.entry_qpc := by
  obtain ⟨ended, hended, rfl⟩ := mem_map.mp hdone
  rw [(hproject.settled ended hended).closed_exit]
  obtain ⟨outcome, others, hperm, hrecords, hothers⟩ := h.rows
  rcases mem_append.mp (hperm.subset hop) with hop | hop
  · -- The row of the operation is in a later component of the epoch.
    obtain ⟨row, hrow, rfl⟩ := mem_map.mp hop
    have hrecord := hrecords row hrow
    rw [hrecord.entry _ (entry_known hissues hrow)]
    have hlisted : row ∈ epochRows source epoch := (epochRows_perm source epoch).mem_iff.mpr
      (mem_filter.mpr ⟨hrow, decide_eq_true (hrecord.epoch_id.symm.trans hown)⟩)
    obtain ⟨rest, hsplit⟩ := hfirst
    rw [← @Intervals.components_flatten _ entryOf exitOf (epochRows source epoch), ← hsplit,
      flatten_append, mem_append] at hlisted
    rcases hlisted with hlisted | hlisted
    · rw [hrecord.completed (hproject.settled row hlisted).completed] at hout
      exact absurd (mem_map_of_mem hlisted) hout
    · have hsorted : (epochRows source epoch).Pairwise fun a b => entryOf a ≤ entryOf b :=
        (epochRows_sorted source epoch).imp fun {a b} hab => by
          unfold rowBefore at hab
          omega
      have hbefore := @Intervals.components_pairwise _ entryOf exitOf _ hsorted
      rw [← hsplit] at hbefore
      obtain ⟨group, hgroup, hin⟩ := mem_flatten.mp hended
      obtain ⟨group', hgroup', hin'⟩ := mem_flatten.mp hlisted
      exact (pairwise_append.mp hbefore).2.2 group hgroup group' hgroup' ended hin row hin'
  · exact (hproject.ended ended hended).trans_le
      (hstop.trans (barrier_le_unrecorded hissues (hothers op hop)))

/-- An order of the whole history begins with an order of the prefix. -/
theorem Continues.split (hnodup : (source.operations.map (·.op_id)).Nodup)
    {order : List (Credit.Operation × Option CreditId)} (horder : Linearisation whole epoch order) :
    ∃ first second, order = first ++ second ∧
      (first.map Prod.fst).Perm (groups.flatten.map Operation.closed) ∧
      ∀ pair ∈ second, pair.1 ∉ groups.flatten.map Operation.closed := by
  have hsplit : order.Pairwise fun a b => b.1 ∈ groups.flatten.map Operation.closed →
      a.1 ∈ groups.flatten.map Operation.closed := by
    refine horder.respects.imp_of_mem fun {a b} ha _ hle hb => ?_
    by_contra hout
    obtain ⟨ha, hown⟩ := mem_filter.mp (horder.rows.subset (mem_map_of_mem ha))
    exact absurd hle (Nat.not_le.mpr
      (h.later hissues hfirst hproject hstop ha (of_decide_eq_true hown) hout hb))
  obtain ⟨first, second, rfl, hin, hout⟩ := exists_split hsplit
  refine ⟨first, second, rfl, ?_, hout⟩
  have hwhole : ((first ++ second).map Prod.fst).Nodup :=
    horder.rows.nodup_iff.mpr ((List.Nodup.of_map _ h.numbers).filter _)
  rw [map_append, nodup_append] at hwhole
  have hclosed : ((groups.flatten.map Operation.closed).map (·.op_id)).Nodup := by
    rw [map_map]
    exact hproject.op_ids hnodup
  refine (perm_ext_iff_of_nodup hwhole.1 (List.Nodup.of_map _ hclosed)).mpr
    fun op => ⟨fun hop => ?_, fun hop => ?_⟩
  · obtain ⟨pair, hpair, rfl⟩ := mem_map.mp hop
    exact hin pair hpair
  · obtain ⟨hmem, hown⟩ := h.closed_mem hproject hop
    have hlisted := horder.rows.mem_iff.mpr (mem_filter.mpr ⟨hmem, decide_eq_true hown⟩)
    rw [map_append] at hlisted
    refine (mem_append.mp hlisted).resolve_right fun hlast => ?_
    obtain ⟨pair, hpair, rfl⟩ := mem_map.mp hlast
    exact hout pair hpair hop

end

/-- The matches of an epoch: those of the ledger of its projection. -/
def matchesOf (source : Source) (epoch : Credit.Epoch) : List Match :=
  let s := sweepEpoch source epoch
  (Credit.evaluate (projection source epoch s.prefix_rows s.stop_qpc) source.observer_begin_qpc
    s.stop_qpc).unique_credit_consumptions

/-- The wait of each match is a row of the prefix, and the ledger tells whose credit it took. -/
theorem matches_hold (hvalid : Valid source token observer_begin_qpc freeze_qpc qpc_frequency)
    (hissues : issues source = []) (hepoch : epoch ∈ source.epochs)
    (hsome : (sweepEpoch source epoch).prefix_rows ≠ []) {found : Match}
    (hfound : found ∈ matchesOf source epoch) : found.epoch_id = epoch.epoch_id ∧
      ∀ whole, Continues source whole → ∀ order, Linearisation whole epoch order →
        Explains order found := by
  unfold matchesOf at hfound
  dsimp only at hfound
  obtain ⟨groups, hrows, hfirst, hbalance, hprojects⟩ := exists_projects hvalid hissues hepoch
  rw [hrows] at hsome hfound
  have hproject := hprojects hsome
  have hstop : (sweepEpoch source epoch).stop_qpc ≤ barrier source :=
    (exists_closed source epoch).choose_spec.stop_le
  generalize (sweepEpoch source epoch).stop_qpc = stop at hproject hstop hfound
  have hclean := hproject.issues hfirst hbalance hissues hepoch (hvalid.epochs epoch hepoch)
  obtain ⟨hbegin, -, -, hinitial⟩ := epoch_of_issues hissues hepoch
  obtain ⟨-, hids, hchecked⟩ := Credit.validate_ok (projection_valid hvalid hepoch hproject hbegin)
  unfold Credit.evaluate at hfound
  simp only [hclean, ne_eq, not_true_eq_false, if_false] at hfound
  obtain ⟨_, hsame, hfound⟩ := mem_flatMap.mp hfound
  obtain rfl := mem_singleton.mp hsame
  simp only [Credit.issues, append_eq_nil_iff, flatMap_eq_nil_iff] at hclean
  obtain ⟨hsound, honce⟩ := @Credit.epoch_sound _ _ _ (projectedEpoch epoch stop)
    (fun row hrow => Credit.modelled_of_check (hchecked row hrow)) hids hinitial
    (hclean.2 _ (mem_singleton_self _))
  refine ⟨honce.own found hfound, fun whole hwhole order horder => ?_⟩
  obtain ⟨first, second, rfl, hbefore, hafter⟩ :=
    hwhole.split hissues hfirst hproject hstop hvalid.op_ids horder
  obtain ⟨instant, hbracket, hsorted⟩ := horder.instants
  obtain ⟨rest, hruns⟩ := horder.runs
  obtain ⟨between, hruns, -⟩ := Credit.runs_append hruns
  rw [map_append] at hbracket hsorted
  have hperm := Credit.epochRows_perm (projection source epoch groups.flatten stop)
    (projectedEpoch epoch stop)
  have hseen := honce.waits_seen found hfound
  rw [hproject.epochRows_eq] at hseen hperm
  have hlinear : Linearisation (projection source epoch groups.flatten stop)
      (projectedEpoch epoch stop) first :=
    ⟨hbefore.trans hperm, ⟨instant, fun row hrow => hbracket row (mem_append_left _ hrow),
      (pairwise_append.mp hsorted).1⟩, between, hruns⟩
  intro pair hpair hwait
  rcases mem_append.mp hpair with hpair | hpair
  · exact hsound found hfound first hlinear pair hpair hwait
  · -- The wait of the match is a row of the prefix, and no other operation has its number.
    obtain ⟨op, hop, hid⟩ := mem_map.mp hseen
    have hlisted : pair.1 ∈ whole.operations := (mem_filter.mp (horder.rows.subset
      (mem_map_of_mem (mem_append_right _ hpair)))).1
    obtain rfl := inj_on_of_nodup_map hwhole.numbers hlisted (hwhole.closed_mem hproject hop).1
      (hwait.trans hid.symm)
    exact absurd hop (hafter pair hpair)

/-! ### The audit -/

/-- An epoch adds the matches of its projection, if any rows are projected. -/
theorem auditEpoch_matches (hvalid : Valid source token observer_begin_qpc freeze_qpc qpc_frequency)
    {e e' : Evidence} (h : auditEpoch source token observer_begin_qpc qpc_frequency e epoch = .ok e')
    {found : Match} (hfound : found ∈ e'.unique_credit_consumptions) :
    found ∈ e.unique_credit_consumptions ∨
      (sweepEpoch source epoch).prefix_rows ≠ [] ∧ found ∈ matchesOf source epoch := by
  unfold auditEpoch at h
  dsimp only at h
  split at h
  · rename_i hcut
    obtain ⟨checked, hchecked, h⟩ := bind_ok.mp h
    obtain rfl := Except.ok.inj h
    refine (mem_append.mp hfound).imp_right fun hfound => ⟨hcut.1, ?_⟩
    unfold auditProjection at hchecked
    dsimp only at hchecked
    rw [check_ok] at hchecked
    obtain ⟨checked', haudit, hchecked⟩ := bind_ok.mp hchecked.2
    obtain rfl := Except.ok.inj (check_ok.mp hchecked).2
    unfold Credit.audit at haudit
    rw [check_ok, check_ok] at haudit
    rw [← Except.ok.inj haudit.2.2, ← hvalid.own_begin] at hfound
    exact hfound
  · obtain rfl := Except.ok.inj h
    exact .inl hfound

theorem auditEpochs_matches
    (hvalid : Valid source token observer_begin_qpc freeze_qpc qpc_frequency)
    {epochs : List Credit.Epoch} {e e' : Evidence}
    (h : epochs.foldlM (auditEpoch source token observer_begin_qpc qpc_frequency) e = .ok e')
    {found : Match} (hfound : found ∈ e'.unique_credit_consumptions) :
    found ∈ e.unique_credit_consumptions ∨ ∃ epoch ∈ epochs,
      (sweepEpoch source epoch).prefix_rows ≠ [] ∧ found ∈ matchesOf source epoch := by
  induction epochs generalizing e with
  | nil =>
    obtain rfl := Except.ok.inj h
    exact .inl hfound
  | cons epoch epochs ih =>
    rw [foldlM_cons] at h
    obtain ⟨next, hnext, h⟩ := bind_ok.mp h
    rcases ih h with hmem | ⟨epoch', hepoch', hmem⟩
    · exact (auditEpoch_matches hvalid hnext hmem).imp_right
        fun hmem => ⟨epoch, mem_cons_self, hmem⟩
    · exact .inr ⟨epoch', mem_cons_of_mem _ hepoch', hmem⟩

/-- A match that is reported holds. -/
theorem audit_matches {size : Nat} {result : Result}
    (h : audit source size token observer_begin_qpc freeze_qpc qpc_frequency = .ok result)
    {found : Match} (hfound : found ∈ result.unique_credit_consumptions) : Holds source found := by
  unfold audit at h
  obtain ⟨hvalidate, h⟩ := check_ok.mp h
  have hvalid := valid_of_validate hvalidate
  dsimp only at h
  split at h
  · rename_i hissues
    obtain ⟨e, he, h⟩ := bind_ok.mp h
    obtain rfl := Except.ok.inj h
    obtain ⟨-, hfound⟩ := mem_ite_nil_right.mp hfound
    obtain hmem | ⟨epoch, hepoch, hsome, hmem⟩ := auditEpochs_matches hvalid he hfound
    · cases hmem
    · obtain ⟨hown, hholds⟩ := matches_hold hvalid hissues hepoch hsome hmem
      intro epoch' hepoch' hsame
      obtain rfl := inj_on_of_nodup_map hvalid.epoch_ids hepoch' hepoch (hsame.trans hown)
      exact hholds
  · rename_i hissues
    obtain rfl := Except.ok.inj h
    exact absurd (mem_ite_nil_right.mp hfound).1 hissues

end

/-- **The matches of a recorded run hold.**  The audit accepts every document that the observer
writes of a journal, and whatever the operations that are pending, lost or not yet begun turn out
to be, in every order in which all of them may have taken effect each match that it reports is the
credit that its wait took. -/
theorem recorded_matches_hold (self : Nat) (window : Window) (enabled : Bool) (last : Nat)
    (cs : List Call) (hcs : ∀ c ∈ cs, c.typed = true) (token : String)
    (coverage : AdmissionCoverage) (allocated : Bool) (s : Snapshot)
    (hcapture : capture ((Journal.init self window enabled last).calls cs) token coverage allocated =
      .ok s) (allocated' : Bool) (document : JsonTree)
    (hwritten : s.prefixJson allocated' = .ok document) :
    ∃ result, auditDocument document s.token s.window.begin_qpc s.freeze s.window.qpc_frequency =
        .ok result ∧ ∀ found ∈ result.unique_credit_consumptions, Holds (sourceOf s) found := by
  have hf := faithful_of_capture (Journal.run_inv self window enabled last cs)
    (Journal.run_typed self window enabled last hcs) hcapture
  unfold Snapshot.prefixJson at hwritten
  split_ifs at hwritten with hs _ hsize
  obtain rfl := Except.ok.inj hwritten
  have hpos : 0 < s.document.text.length := JsonTree.text_length_pos _
  have hvalidate := validate_sourceOf hf hs hpos (Nat.not_lt.mp hsize)
  have hvalid := valid_of_validate hvalidate
  obtain ⟨result, hresult⟩ : ∃ result, audit (sourceOf s) s.document.text.length s.token
      s.window.begin_qpc s.freeze s.window.qpc_frequency = .ok result := by
    unfold audit
    rw [hvalidate]
    by_cases hissues : issues (sourceOf s) = []
    · obtain ⟨e, he⟩ := foldlM_ok (fun epoch hepoch e => auditEpoch_ok hvalid hissues hepoch e)
        ({ issues := issues (sourceOf s) } : Evidence)
      exact ⟨_, (if_pos hissues).trans (bind_ok.mpr ⟨e, he, rfl⟩)⟩
    · exact ⟨_, if_neg hissues⟩
  exact ⟨result, bind_ok.mpr ⟨_, readSource_document (legible hf hs), hresult⟩,
    fun found hfound => audit_matches hresult hfound⟩

/-- A wait that a release wakes, and a release that is pending when the journal is frozen. -/
def frozenMatch : Snapshot where
  token := "0123456789abcdef0123456789abcdef"
  window := ⟨10, 100, 1000⟩
  freeze := 50
  counts := ⟨3, 3, 2, 0⟩
  diagnostics := {}
  issues := Issue.kEarlyCut.bit ||| Issue.kIncompleteCut.bit
  pending := 1
  raw_history := false
  raw_failed := true
  coverage_gap := false
  coverage_failed := false
  raw_post_stop_mutated := false
  inventory := .kCompleteThroughFreeze
  coverage := [⟨1, 7, 20, .kCompleteThroughFreeze, .kCompleteThroughFreeze⟩]
  epochs := [{
    epoch_id := 1, object_cookie := 7, creation_qpc := 20, maximum_count := 5
    pending_operations := 1, origin := .kFresh, history_complete := true }]
  operations := [
    { op_id := 1, epoch_id := 1, entry_qpc := 30, exit_qpc := 34, native_thread_id := 4
      kind := .kWait, completed := true, wait_result := .kSuccess },
    { op_id := 2, epoch_id := 1, entry_qpc := 31, exit_qpc := 33, native_thread_id := 5
      kind := .kRelease, completed := true, release_count := 1, context := ⟨.kUpdate, 1, 1⟩
      release_success := true, previous_count := some 0 },
    { op_id := 3, epoch_id := 1, entry_qpc := 40, native_thread_id := 5, kind := .kRelease
      release_count := 1 }]

/-- The match of the wait and the release is reported. -/
theorem recorded_matches_hold_pair : ∃ result,
    auditDocument frozenMatch.document "0123456789abcdef0123456789abcdef" 10 50 1000 =
      .ok result ∧
      (result.unique_credit_consumptions.map fun found =>
        (found.release_op_id, found.wait_op_id)) = [(2, 1)] ∧
      ∀ found ∈ result.unique_credit_consumptions, Holds (sourceOf frozenMatch) found := by
  have hsize : frozenMatch.document.text.length = 1541 := by
    rw [JsonTree.length_text]
    decide +kernel
  obtain ⟨result, hresult, hholds⟩ := recorded_matches_hold 1 ⟨10, 100, 1000⟩ true 0
    [.create 7 20 0 5 .kFresh, .begin_wait 7 4 none 30 .kInfinite,
      .begin_release 7 5 none 31 1 ⟨.kUpdate, 1, 1⟩,
      .end_release ⟨some 1, 1, 2, 1⟩ 33 true (some 0), .end_wait ⟨some 1, 1, 1, 1⟩ 34 .kSuccess,
      .begin_release 7 5 none 40 1 {}, .stop_admissions 50]
    (by decide) "0123456789abcdef0123456789abcdef"
    { token := "0123456789abcdef0123456789abcdef", observer_begin_qpc := 10
      qpc_frequency := 1000, freeze_qpc := 50, inventory := .kCompleteThroughFreeze
      unknown_coverage_gap := false
      epochs := [⟨1, 7, 20, .kCompleteThroughFreeze, .kCompleteThroughFreeze⟩] }
    true frozenMatch (by decide +kernel) true frozenMatch.document (by
      rw [Snapshot.prefixJson, if_neg (by decide), if_neg (by decide), if_neg (by rw [hsize]; decide)])
  have hread : readSource frozenMatch.document = .ok (sourceOf frozenMatch) := by decide +kernel
  have haudit : audit (sourceOf frozenMatch) 1541 "0123456789abcdef0123456789abcdef" 10 50 1000 =
      .ok result := by
    have haccepted := hresult
    rw [auditDocument, hread, hsize] at haccepted
    exact haccepted
  have hmatch : (audit (sourceOf frozenMatch) 1541 "0123456789abcdef0123456789abcdef" 10 50 1000).map
      (fun result => result.unique_credit_consumptions.map fun found =>
        (found.release_op_id, found.wait_op_id)) = .ok [(2, 1)] := by decide +kernel
  rw [haudit] at hmatch
  exact ⟨result, hresult, Except.ok.inj hmatch, hholds⟩

end Mcla.Semaphore.Prefix

import Mcla.Semaphore.JournalRows

/-! # The semaphore observer: the snapshot at the freeze

`Capture` copies the tables of a stopped journal.  It is called some time after the stop; it
refuses a journal to which anything was done in between.  So what it copies are the tables as
they were when admissions stopped.
-/
namespace Mcla.Semaphore
open List

/-- How far a coverage reaches. -/
inductive Coverage where
  | kUnknown | kCompleteThroughFreeze
  | other (value : Nat)
  deriving DecidableEq

/-- What is attested of one epoch. -/
structure EpochCoverage where
  (epoch_id cookie creation_qpc : Nat := 0)
  (creation operations : Coverage := .kUnknown)
  deriving DecidableEq

/-- What is attested of the admissions. -/
structure AdmissionCoverage where
  token : String := ""
  (observer_begin_qpc qpc_frequency freeze_qpc : Nat := 0)
  inventory : Coverage := .kUnknown
  unknown_coverage_gap : Bool := true
  observer_failed : Bool := false
  epochs : List EpochCoverage := []

/-- Why a capture fails. -/
inductive Error where
  | kToken | kScopeBinding | kCoverageBinding | kCounts
  | kNotFreezeSnapshot | kUnrepresentable | kTooLarge | kAllocation
  deriving DecidableEq

/-- `detail::Token`: 32 lower-case hexadecimal digits. -/
def isToken (token : String) : Bool :=
  token.toList.length = 32 ∧ token.toList.all fun c => ('0' ≤ c ∧ c ≤ '9') ∨ ('a' ≤ c ∧ c ≤ 'f')

/-- `detail::Valid` -/
def Coverage.isValid : Coverage → Bool | .other _ => false | _ => true

/-- A journal, as it was captured. -/
structure Snapshot where
  token : String
  window : Window
  freeze : Nat
  counts : Counts
  diagnostics : Diagnostics
  (issues pending : Nat)
  (raw_history raw_failed coverage_gap coverage_failed raw_post_stop_mutated : Bool)
  inventory : Coverage
  coverage : List EpochCoverage
  epochs : List Epoch
  operations : List Operation
  deriving DecidableEq

/-- The loop over the claims, for one epoch: the claim that is bound to it. -/
def bindClaim (epoch : Epoch) : List EpochCoverage → Option EpochCoverage → Option EpochCoverage
  | [], found => found
  | claim :: claims, found =>
    if ¬ claim.creation.isValid ∨ ¬ claim.operations.isValid then none
    else if claim.epoch_id ≠ epoch.epoch_id then bindClaim epoch claims found
    else if found.isSome ∨ claim.cookie ≠ epoch.object_cookie ∨
        claim.creation_qpc ≠ epoch.creation_qpc then none
    else bindClaim epoch claims (some claim)

/-- `Snapshot::Capture`.  `allocated` says whether the memory for the snapshot is there. -/
def capture (j : Journal) (expected_token : String) (coverage : AdmissionCoverage)
    (allocated : Bool) : Except Error Snapshot :=
  if ¬ isToken expected_token ∨ coverage.token ≠ expected_token then .error .kToken
  else
    match j.cut_qpc with
    | none => .error .kScopeBinding
    | some cut =>
      if ¬ j.stopped ∨ cut ≠ coverage.freeze_qpc ∨
          coverage.observer_begin_qpc ≠ j.window.begin_qpc ∨
          coverage.qpc_frequency ≠ j.window.qpc_frequency ∨ j.window.begin_qpc = 0 ∨
          j.window.begin_qpc ≥ cut ∨ cut ≥ j.window.end_qpc_exclusive ∨
          j.window.end_qpc_exclusive > kMaxQpc ∨ j.window.qpc_frequency = 0 ∨
          j.window.qpc_frequency > kMaxQpc then .error .kScopeBinding
      else if j.post_stop_mutated then .error .kNotFreezeSnapshot
      else if j.epochs = [] ∨ j.epochs.length > kEpochCapacity ∨
          j.operations.length > kOperationCapacity ∨
          j.counts.stored_operations ≠ j.operations.length ∨
          j.counts.completed_operations > j.counts.stored_operations ∨
          j.counts.observed_operations < j.counts.stored_operations ∨
          j.counts.observed_operations - j.counts.stored_operations ≠ j.counts.overflow_operations ∨
          j.counts.stored_operations - j.counts.completed_operations ≠ j.pending then
        .error .kCounts
      else if j.has .kIncompleteCut ≠ decide (j.pending ≠ 0) then .error .kNotFreezeSnapshot
      else if ¬ coverage.inventory.isValid ∨ coverage.epochs.length ≠ j.epochs.length then
        .error .kCoverageBinding
      else
        match j.epochs.mapM fun epoch => bindClaim epoch coverage.epochs none with
        | none => .error .kCoverageBinding
        | some bound =>
          if ¬ allocated then .error .kAllocation
          else .ok {
            token := expected_token, window := j.window, freeze := cut, counts := j.counts,
            diagnostics := j.diagnostics, issues := j.issues, pending := j.pending,
            raw_history := j.history_complete, raw_failed := j.observer_failed,
            coverage_gap := coverage.unknown_coverage_gap,
            coverage_failed := coverage.observer_failed,
            raw_post_stop_mutated := j.post_stop_mutated, inventory := coverage.inventory,
            coverage := bound, epochs := j.epochs, operations := j.operations }

namespace Journal
variable {j j' : Journal}

theorem capture_ok {token : String} {coverage : AdmissionCoverage} {allocated : Bool}
    {snapshot : Snapshot} (h : capture j token coverage allocated = .ok snapshot) :
    j.stopped = true ∧ j.post_stop_mutated = false ∧ snapshot.epochs = j.epochs ∧
      snapshot.operations = j.operations ∧ snapshot.counts = j.counts ∧
      snapshot.pending = j.pending := by
  unfold capture at h
  split at h
  · cases h
  split at h
  · cases h
  split at h
  · cases h
  rename_i hscope
  split at h
  · cases h
  rename_i hmutated
  split at h
  · cases h
  split at h
  · cases h
  split at h
  · cases h
  split at h
  · cases h
  split at h
  · cases h
  obtain rfl := Except.ok.inj h
  rw [not_or, not_not] at hscope
  exact ⟨hscope.1, by simpa using hmutated, rfl, rfl, rfl, rfl⟩

/-! ### After the stop -/

/-- What a change leaves alone. -/
theorem Change.frame (h : Change j j') : j'.stopped = j.stopped ∧ j'.enabled = j.enabled ∧
    (j.post_stop_mutated = true → j'.post_stop_mutated = true) := by
  cases h with
  | noted h => exact ⟨h.stopped, h.enabled, h.mutated⟩
  | created row h => exact ⟨h.stopped, h.enabled, h.mutated⟩
  | destroyed e qpc f h => exact ⟨h.stopped, h.enabled, h.mutated⟩
  | overflowed id f h => exact ⟨h.stopped, h.enabled, h.mutated⟩
  | begun e row f h => exact ⟨h.noted.stopped, h.noted.enabled, h.noted.mutated⟩
  | completed o e qpc f g h => exact ⟨h.noted.stopped, h.noted.enabled, h.noted.mutated⟩

/-- A stopped journal is left as it is, or it is marked as changed. -/
theorem call_stopped (hj : j.Inv) (hstopped : j.stopped = true) (henabled : j.enabled = true)
    (c : Call) : j.call c = j ∨ (j.call c).post_stop_mutated = true := by
  rcases call_change hj c with ⟨qpc, rfl⟩ | hchange
  · left
    rcases stop_cases j qpc with heq | ⟨-, hopen, -⟩
    · exact heq
    · rw [hstopped] at hopen
      cases hopen
  · right
    have hnote : j.note_mutation.post_stop_mutated = true := by
      rw [note_mutation, if_pos ⟨henabled, hstopped⟩]
    exact hchange.frame.2.2 hnote

theorem call_mutated (hj : j.Inv) (c : Call) (h : j.post_stop_mutated = true) :
    (j.call c).post_stop_mutated = true := by
  rcases call_change hj c with ⟨qpc, rfl⟩ | hchange
  · rcases stop_cases j qpc with heq | ⟨-, -, hnoted⟩
    · rwa [Journal.call, heq]
    · exact hnoted.mutated h
  · exact hchange.frame.2.2 ((noted_note_mutation j).mutated h)

theorem calls_mutated (hj : j.Inv) (cs : List Call) (h : j.post_stop_mutated = true) :
    (j.calls cs).post_stop_mutated = true := by
  induction cs generalizing j with
  | nil => exact h
  | cons c cs ih => exact ih (call_inv hj c) (call_mutated hj c h)

/-- A journal that was not changed since it stopped is the journal that stopped. -/
theorem calls_stopped (hj : j.Inv) (hstopped : j.stopped = true) (henabled : j.enabled = true)
    (cs : List Call) (h : (j.calls cs).post_stop_mutated = false) : j.calls cs = j := by
  induction cs with
  | nil => rfl
  | cons c cs ih =>
    rcases call_stopped hj hstopped henabled c with heq | hmutated
    · have hstep : j.calls (c :: cs) = j.calls cs := congrArg (·.calls cs) heq
      rw [hstep] at h ⊢
      exact ih h
    · have := calls_mutated (call_inv hj c) cs hmutated
      rw [Journal.calls, foldl_cons] at h
      rw [Journal.calls, h] at this
      cases this

/-- A run that ends stopped and not changed since has one call that stopped it. -/
theorem calls_split (hj : j.Inv) (hopen : j.stopped = false) (cs : List Call)
    (hstopped : (j.calls cs).stopped = true) (h : (j.calls cs).post_stop_mutated = false) :
    ∃ before qpc after, cs = before ++ .stop_admissions qpc :: after ∧
      (j.calls before).stopped = false ∧
      j.calls cs = (j.calls before).stop_admissions qpc ∧
      ((j.calls before).stop_admissions qpc).tables = (j.calls before).tables := by
  induction cs generalizing j with
  | nil =>
    rw [Journal.calls, foldl_nil, hopen] at hstopped
    cases hstopped
  | cons c cs ih =>
    cases hnext : (j.call c).stopped with
    | false =>
      obtain ⟨before, qpc, after, rfl, hbefore, heq, htables⟩ := ih (call_inv hj c) hnext hstopped h
      exact ⟨c :: before, qpc, after, rfl, hbefore, heq, htables⟩
    | true =>
      rcases call_change hj c with ⟨qpc, rfl⟩ | hchange
      · rcases stop_cases j qpc with heq | ⟨henabled, -, hnoted⟩
        · rw [Journal.call, heq, hopen] at hnext
          cases hnext
        · refine ⟨[], qpc, cs, rfl, hopen, ?_, hnoted.tables⟩
          exact calls_stopped (call_inv hj _) hnext (hnoted.enabled.trans henabled) cs h
      · have hframe := hchange.frame.1
        rw [(noted_note_mutation j).stopped, hopen] at hframe
        rw [hframe] at hnext
        cases hnext

/-- With admissions stopped and nothing pending no call changes a table. -/
theorem call_tables (hj : j.Inv) (hstopped : j.stopped = true) (hnone : j.pending = 0) (c : Call) :
    (j.call c).tables = j.tables ∧ (j.call c).stopped = true ∧ (j.call c).pending = 0 := by
  have hpending : (j.call c).tables = j.tables → (j.call c).pending = j.pending := fun h =>
    congrArg (fun t => t.2.2.2) h
  rcases call_change hj c with ⟨qpc, rfl⟩ | hchange
  · rcases stop_cases j qpc with heq | ⟨-, hopen, -⟩
    · rw [Journal.call, heq]
      exact ⟨rfl, hstopped, hnone⟩
    · rw [hstopped] at hopen
      cases hopen
  · have hnoted := noted_note_mutation j
    have hstill := hnoted.stopped.trans hstopped
    have hclosed : ∀ {p : Prop}, j.note_mutation.stopped = false → p := by
      intro p hopen
      rw [hstill] at hopen
      cases hopen
    have htables : (j.call c).tables = j.tables := by
      cases hchange with
      | noted h => exact h.tables.trans hnoted.tables
      | created row h hopen => exact hclosed hopen
      | destroyed e qpc f h hopen => exact hclosed hopen
      | overflowed id f h hopen => exact hclosed hopen
      | begun e row f h => exact hclosed h.running
      | completed o e qpc f g h =>
        have hmem := h.mem
        rw [hnoted.operations] at hmem
        rw [hj.pending, countP_eq_zero] at hnone
        have hdone := hnone o hmem
        rw [h.pending] at hdone
        exact absurd rfl hdone
    exact ⟨htables, hchange.frame.1.trans hstill, (hpending htables).trans hnone⟩

theorem calls_tables (hj : j.Inv) (hstopped : j.stopped = true) (hnone : j.pending = 0)
    (cs : List Call) : (j.calls cs).tables = j.tables := by
  induction cs generalizing j with
  | nil => rfl
  | cons c cs ih =>
    obtain ⟨htables, hstill, hdrained⟩ := call_tables hj hstopped hnone c
    exact (ih (call_inv hj c) hstill hdrained).trans htables

/-- Whatever calls are made, a snapshot holds the tables as they were when admissions stopped;
and once they have stopped with nothing pending no further call changes a table. -/
theorem capture_at_stop (self : Nat) (window : Window) (enabled : Bool) (last : Nat)
    (cs : List Call) :
    (∀ token coverage allocated snapshot,
      capture ((init self window enabled last).calls cs) token coverage allocated = .ok snapshot →
        ∃ before qpc after, cs = before ++ .stop_admissions qpc :: after ∧
          ((init self window enabled last).calls before).stopped = false ∧
          ((init self window enabled last).calls (before ++ [.stop_admissions qpc])).stopped = true ∧
          (snapshot.epochs, snapshot.operations, snapshot.counts, snapshot.pending) =
            ((init self window enabled last).calls before).tables) ∧
      (((init self window enabled last).calls cs).stopped = true →
        ((init self window enabled last).calls cs).pending = 0 →
          ∀ more, ((init self window enabled last).calls (cs ++ more)).tables =
            ((init self window enabled last).calls cs).tables) := by
  have hinit := init_inv self window enabled last
  obtain ⟨-, -, -, -, hopen, -⟩ := init_rows self window enabled last
  refine ⟨fun token coverage allocated snapshot hok => ?_, fun hstopped hnone more => ?_⟩
  · obtain ⟨hstopped, hmutated, hepochs, hoperations, hcounts, hpending⟩ := capture_ok hok
    obtain ⟨before, qpc, after, hsplit, hbefore, heq, htables⟩ :=
      calls_split hinit hopen cs hstopped hmutated
    refine ⟨before, qpc, after, hsplit, hbefore, ?_, ?_⟩
    · rw [heq] at hstopped
      rw [Journal.calls, foldl_append]
      exact hstopped
    · rw [hepochs, hoperations, hcounts, hpending, ← htables, ← heq]
      rfl
  · have htail := calls_tables (calls_inv hinit cs) hstopped hnone more
    rw [calls, calls, ← foldl_append] at htail
    exact htail

end Journal
end Mcla.Semaphore

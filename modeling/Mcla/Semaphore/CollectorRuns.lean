import Mcla.Semaphore.JournalTickets
import Mcla.Semaphore.Collector

/-! # The semaphore collector: runs

A run is a list of events, in the order in which the mutex is taken: scopes are entered and
left on their threads, the registry calls back, a handle is bound, the collector is frozen.
Beside the run stands what the run is about: for each scope that is open, the admissions of
its dynamic extent, on its thread, from the entry on.
-/
namespace Mcla.Semaphore

/-- What may happen to a collector. -/
inductive Event where
  | enter_create (tid owner : Nat) (intent : CreateIntent)
  | leave_create (tid : Nat)
  | enter_operation (tid owner : Nat) (intent : OperationIntent)
  | leave_operation (tid : Nat)
  | on_create (tid : Nat) (value : Witness.Creation) (reading : Option Nat)
  | on_destroy (cookie : Nat) (reading : Option Nat)
  | on_begin (tid : Nat) (value : Witness.Admission) (reading : Option Nat)
  | on_end (tid : Nat) (value : Witness.Completion) (reading : Option Nat)
  /-- A handle is bound, with a scope of a thread, so many entries below the innermost one. -/
  | bind_returned_handle (tid thread position resolved_cookie handle : Nat)
  | freeze (attestation : CoverageAttestation) (registry_failed admitting : Bool)
      (reading : Option Nat) (captured allocated : Bool)

/-- The collector, with the scopes of each thread, innermost first. -/
structure World where
  collector : Collector
  creates : Nat → List ScopedCreate := fun _ => []
  operations : Nat → List ScopedOperation := fun _ => []

/-- An event, with the ticket it returns. -/
def World.step (w : World) : Event → World × Nat
  | .enter_create tid owner intent =>
    ({ w with creates := Function.update w.creates tid (⟨owner, intent, 0, 0⟩ :: w.creates tid) }, 0)
  | .leave_create tid =>
    ({ w with creates := Function.update w.creates tid (w.creates tid).tail }, 0)
  | .enter_operation tid owner intent =>
    ({ w with
      operations := Function.update w.operations tid ({ owner, intent } :: w.operations tid) }, 0)
  | .leave_operation tid =>
    ({ w with operations := Function.update w.operations tid (w.operations tid).tail }, 0)
  | .on_create tid value reading =>
    let (collector, scopes) := w.collector.onCreate (w.creates tid) value reading
    ({ w with collector, creates := Function.update w.creates tid scopes }, 0)
  | .on_destroy cookie reading =>
    ({ w with collector := w.collector.onDestroy cookie reading }, 0)
  | .on_begin tid value reading =>
    let (collector, scopes, ticket) := w.collector.onBegin (w.operations tid) value tid reading
    ({ w with collector, operations := Function.update w.operations tid scopes }, ticket)
  | .on_end tid value reading =>
    let (collector, scopes) := w.collector.onEnd (w.operations tid) value tid reading
    ({ w with collector, operations := Function.update w.operations tid scopes }, 0)
  | .bind_returned_handle tid thread position resolved_cookie handle =>
    match (w.creates thread)[position]? with
    | none => (w, 0)
    | some scope =>
      ({ w with collector := (w.collector.bindReturnedHandle scope
          (thread = tid ∧ position = 0) resolved_cookie handle).1 }, 0)
  | .freeze attestation registry_failed admitting reading captured allocated =>
    ({ w with collector := (w.collector.freeze attestation registry_failed admitting reading
        captured allocated).1 }, 0)

/-- An admission of a scope's extent: whether it came when the collector was frozen, whether
the scope was the innermost one, and the ticket it was given. -/
structure Admitted where
  value : Witness.Admission
  (late helper : Bool)
  ticket : Nat
  deriving DecidableEq

/-- The extents of the open scopes of each thread, innermost first. -/
def extend (extents : Nat → List (List Admitted)) (late : Bool) (ticket : Nat) :
    Event → Nat → List (List Admitted)
  | .enter_operation tid _ _ => Function.update extents tid ([] :: extents tid)
  | .leave_operation tid => Function.update extents tid (extents tid).tail
  | .on_begin tid value _ =>
    Function.update extents tid ((extents tid).mapIdx fun position extent =>
      extent ++ [⟨value, late, position = 0, ticket⟩])
  | _ => extents

/-- An event of a run that is watched. -/
def watch (run : World × (Nat → List (List Admitted))) (event : Event) :
    World × (Nat → List (List Admitted)) :=
  let (w, ticket) := run.1.step event
  (w, extend run.2 run.1.collector.frozen ticket event)

/-- The world after some events, and the extents. -/
def watched (c : Collector) (events : List Event) : World × (Nat → List (List Admitted)) :=
  events.foldl watch ({ collector := c }, fun _ => [])

/-- The admissions that came before the freeze. -/
def live (extent : List Admitted) : List Admitted := extent.filter fun a => !a.late

namespace Collector
variable {c c' c'' : Collector}

/-! ### What no callback undoes -/

/-- A ticket that is kept is that of its row. -/
structure Inv (c : Collector) : Prop where
  journal : c.journal.Inv
  enabled : c.journal.enabled = true
  tickets : ∀ i, (c.tickets i).op_id = 0 ∨ (c.tickets i).op_id = i + 1

/-- A failure is on record, in the counters and in the raw history. -/
def Failed (c : Collector) : Prop := c.counters.failures ≠ 0 ∧ c.journal.issues ≠ 0

/-- What a call leaves as it was. -/
structure Kept (c c' : Collector) : Prop where
  self : c'.self = c.self
  inv : c'.Inv
  journal : Journal.Grown c.journal c'.journal
  failures : c.counters.failures ≠ 0 → c'.counters.failures ≠ 0

theorem Kept.refl (hc : c.Inv) : Kept c c := ⟨rfl, hc, .refl _, id⟩

theorem Kept.trans (h : Kept c c') (h' : Kept c' c'') : Kept c c'' where
  self := h'.self.trans h.self
  inv := h'.inv
  journal := h.journal.trans h'.journal
  failures hfailed := h'.failures (h.failures hfailed)

theorem Kept.failed (h : Kept c c') (hfailed : c.Failed) : c'.Failed :=
  ⟨h.failures hfailed.1, fun hzero => hfailed.2 (h.journal.issues hzero)⟩

/-- The journal is called, or left alone, and the tickets and the failures stand. -/
theorem kept_of_call (hc : c.Inv) (hself : c'.self = c.self)
    (hjournal : c'.journal = c.journal ∨ ∃ call, c'.journal = c.journal.call call)
    (htickets : c'.tickets = c.tickets)
    (hfailures : c.counters.failures ≠ 0 → c'.counters.failures ≠ 0) : Kept c c' := by
  have hgrown : c'.journal.Inv ∧ Journal.Grown c.journal c'.journal := by
    rcases hjournal with heq | ⟨call, heq⟩
    · rw [heq]
      exact ⟨hc.journal, .refl _⟩
    · rw [heq]
      exact ⟨Journal.call_inv hc.journal call, Journal.call_grown hc.journal call⟩
  exact ⟨hself, ⟨hgrown.1, hgrown.2.enabled.trans hc.enabled, by rw [htickets]; exact hc.tickets⟩,
    hgrown.2, hfailures⟩

theorem kept_of_same (hc : c.Inv) (hself : c'.self = c.self) (hjournal : c'.journal = c.journal)
    (htickets : c'.tickets = c.tickets) (hfailures : c'.counters.failures = c.counters.failures) :
    Kept c c' :=
  kept_of_call hc hself (.inl hjournal) htickets (by rw [hfailures]; exact id)

theorem bump_ne_zero (n : Nat) : bump n ≠ 0 := by
  unfold bump
  split <;> omega

theorem failLocked_kept (hc : c.Inv) : Kept c c.failLocked := by
  refine kept_of_call hc rfl ?_ rfl fun _ => bump_ne_zero _
  have hjournal : c.failLocked.journal = if c.frozen = true then c.journal else c.journal.fail := rfl
  by_cases hfrozen : c.frozen = true
  · rw [if_pos hfrozen] at hjournal
    exact .inl hjournal
  · rw [if_neg hfrozen] at hjournal
    exact .inr ⟨.fail, hjournal⟩

/-- A collector that is not frozen puts a failure on record. -/
theorem failLocked_failed (hc : c.Inv) (hopen : c.frozen = false) : c.failLocked.Failed := by
  refine ⟨bump_ne_zero _, ?_⟩
  have henabled : c.journal.note_mutation.enabled = true :=
    (Journal.noted_note_mutation c.journal).enabled.trans hc.enabled
  have hjournal : c.failLocked.journal = c.journal.note_mutation.mark .kExternalFailure := by
    show (if c.frozen = true then c.journal else c.journal.fail) = _
    rw [hopen, if_neg Bool.false_ne_true]
    show (if _ then _ else _) = _
    rw [if_pos henabled]
  rw [hjournal]
  exact Journal.issues_mark_ne _ _

theorem late_kept (hc : c.Inv) : Kept c c.late := kept_of_same hc rfl rfl rfl rfl

theorem readClockLocked_kept (hc : c.Inv) (reading : Option Nat) :
    Kept c (c.readClockLocked reading).1 := by
  unfold readClockLocked
  split
  · split
    · exact .refl hc
    · exact failLocked_kept hc
  · exact failLocked_kept hc

theorem bindReturnedHandle_kept (hc : c.Inv) (scope : ScopedCreate) (innermost : Bool)
    (resolved_cookie handle : Nat) :
    Kept c (c.bindReturnedHandle scope innermost resolved_cookie handle).1 := by
  unfold bindReturnedHandle
  split
  · exact late_kept hc
  split
  · exact failLocked_kept hc
  · exact kept_of_same hc rfl rfl rfl rfl

theorem freeze_kept (hc : c.Inv) (attestation : CoverageAttestation)
    (registry_failed admitting : Bool) (reading : Option Nat) (captured allocated : Bool) :
    Kept c (c.freeze attestation registry_failed admitting reading captured allocated).1 := by
  unfold freeze
  split
  · exact .refl hc
  have hfirst : Kept c (if registry_failed ∨ ¬ admitting then c.failLocked else c) := by
    split
    · exact failLocked_kept hc
    · exact .refl hc
  generalize (if registry_failed ∨ ¬ admitting then c.failLocked else c) = c₁ at hfirst
  have hread := readClockLocked_kept hfirst.inv reading
  dsimp only
  generalize c₁.readClockLocked reading = run at hread
  obtain ⟨c₂, cut⟩ := run
  have hstop : Kept c { c₂ with frozen := true, journal := c₂.journal.stop_admissions cut } :=
    (hfirst.trans hread).trans
      (kept_of_call hread.inv rfl (.inr ⟨.stop_admissions cut, rfl⟩) rfl id)
  dsimp only
  split
  · exact hstop
  split
  · exact hstop
  split
  · exact hstop
  split
  · exact hstop.trans (kept_of_call hstop.inv rfl (.inl rfl) rfl fun _ => bump_ne_zero _)
  · exact hstop

theorem onCreate_kept (hc : c.Inv) (scopes : List ScopedCreate) (value : Witness.Creation)
    (reading : Option Nat) : Kept c (c.onCreate scopes value reading).1 := by
  unfold onCreate
  split
  · exact late_kept hc
  dsimp only
  generalize (scopes.head?.any fun scope =>
    decide (scope.owner = c.self ∧ scope.intent.outer_lr = kCreationLR)) = selected
  split
  · have hfail : Kept c { c.failLocked with bound := false } :=
      (failLocked_kept hc).trans (kept_of_same (failLocked_kept hc).inv rfl rfl rfl rfl)
    split
    · have hread := readClockLocked_kept hfail.inv reading
      exact (hfail.trans hread).trans
        (kept_of_call hread.inv rfl (.inr ⟨.create _ _ _ _ _, rfl⟩) rfl id)
    · exact hfail
  split
  · exact kept_of_same hc rfl rfl rfl rfl
  split
  · exact kept_of_same hc rfl rfl rfl rfl
  split
  · exact failLocked_kept hc
  have hread := readClockLocked_kept hc reading
  generalize c.readClockLocked reading = run at hread
  obtain ⟨c₁, qpc⟩ := run
  dsimp only
  generalize hcreated : c₁.journal.create value.cookie qpc value.initial_count value.maximum_count
    value.origin.toCore = made
  obtain ⟨journal, created⟩ := made
  have hcall : journal = c₁.journal.call (.create value.cookie qpc value.initial_count
      value.maximum_count value.origin.toCore) := (congrArg Prod.fst hcreated).symm
  have hkept : ∀ cookie epoch owner_guest : Nat,
      Kept c { c₁ with journal, cookie, epoch, owner_guest } := fun _ _ _ =>
    hread.trans (kept_of_call hread.inv rfl (.inr ⟨_, hcall⟩) rfl id)
  split
  · exact (hkept _ _ _).trans (failLocked_kept (hkept _ _ _).inv)
  split
  · exact (hkept _ _ _).trans (failLocked_kept (hkept _ _ _).inv)
  · exact hkept _ _ _

theorem onDestroy_kept (hc : c.Inv) (cookie : Nat) (reading : Option Nat) :
    Kept c (c.onDestroy cookie reading) := by
  unfold onDestroy
  split
  · exact late_kept hc
  split
  · exact kept_of_same hc rfl rfl rfl rfl
  · have hread := readClockLocked_kept hc reading
    exact hread.trans (kept_of_call hread.inv rfl (.inr ⟨.destroy _ _, rfl⟩) rfl id)

end Collector
end Mcla.Semaphore

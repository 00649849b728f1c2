import Mcla.Library.NumberedTable
import Mcla.Semaphore.Journal

/-! # The semaphore observer: what a call can do to the tables

Every call of the journal either only takes notes (issues, diagnostics), or makes one of six
changes: an epoch is created or destroyed, an operation overflows, begins or is completed,
or admissions stop.  The counters follow from that list.
-/
namespace Mcla.Semaphore
open NumberedTable List
namespace Journal

/-! ### Notes -/

/-- `j'` is `j` with more notes taken. -/
structure Noted (j j' : Journal) : Prop where
  self : j'.self = j.self
  window : j'.window = j.window
  generation : j'.generation = j.generation
  enabled : j'.enabled = j.enabled
  configured : j'.configured = j.configured
  stopped : j'.stopped = j.stopped
  pending : j'.pending = j.pending
  cut_qpc : j'.cut_qpc = j.cut_qpc
  counts : j'.counts = j.counts
  last_completed_exit : j'.last_completed_exit = j.last_completed_exit
  epochs : j'.epochs = j.epochs
  operations : j'.operations = j.operations
  issues : j'.issues = 0 → j.issues = 0
  mutated : j.post_stop_mutated = true → j'.post_stop_mutated = true

variable {j j₁ j₂ : Journal}

theorem Noted.refl (j : Journal) : Noted j j :=
  ⟨rfl, rfl, rfl, rfl, rfl, rfl, rfl, rfl, rfl, rfl, rfl, rfl, id, id⟩

theorem Noted.trans (h : Noted j j₁) (h' : Noted j₁ j₂) : Noted j j₂ where
  self := h'.self.trans h.self
  window := h'.window.trans h.window
  generation := h'.generation.trans h.generation
  enabled := h'.enabled.trans h.enabled
  configured := h'.configured.trans h.configured
  stopped := h'.stopped.trans h.stopped
  pending := h'.pending.trans h.pending
  cut_qpc := h'.cut_qpc.trans h.cut_qpc
  counts := h'.counts.trans h.counts
  last_completed_exit := h'.last_completed_exit.trans h.last_completed_exit
  epochs := h'.epochs.trans h.epochs
  operations := h'.operations.trans h.operations
  issues hzero := h.issues (h'.issues hzero)
  mutated hmutated := h'.mutated (h.mutated hmutated)

theorem noted_mark (j : Journal) (issue : Issue) : Noted j (j.mark issue) :=
  ⟨rfl, rfl, rfl, rfl, rfl, rfl, rfl, rfl, rfl, rfl, rfl, rfl, fun h => (Nat.or_eq_zero_iff.mp h).1,
    id⟩

theorem issues_mark_ne (j : Journal) (issue : Issue) : (j.mark issue).issues ≠ 0 := by
  intro h
  have hbit := (Nat.or_eq_zero_iff.mp h).2
  cases issue <;> exact absurd hbit (by decide)

theorem Noted.mark (h : Noted j j₁) (issue : Issue) : Noted j (j₁.mark issue) :=
  h.trans (noted_mark j₁ issue)

theorem noted_note_mutation (j : Journal) : Noted j j.note_mutation := by
  unfold note_mutation
  split
  · exact ⟨rfl, rfl, rfl, rfl, rfl, rfl, rfl, rfl, rfl, rfl, rfl, rfl, id, fun _ => rfl⟩
  · exact .refl j

theorem noted_increment (j : Journal) (value : Nat) (next : Diagnostics) :
    Noted j (j.increment value next) := by
  unfold increment
  split
  · exact noted_mark j _
  · exact ⟨rfl, rfl, rfl, rfl, rfl, rfl, rfl, rfl, rfl, rfl, rfl, rfl, id, id⟩

theorem noted_reject_argument (j : Journal) : Noted j j.reject_argument := by
  have hfield : Noted j { j with malformed_fields := true } :=
    ⟨rfl, rfl, rfl, rfl, rfl, rfl, rfl, rfl, rfl, rfl, rfl, rfl, id, id⟩
  exact (hfield.mark _).trans (noted_increment _ _ _)

theorem noted_unknown (j : Journal) : Noted j j.unknown := (noted_increment _ _ _).mark _

/-- A tick of the window. -/
def InWindow (j : Journal) (qpc : Nat) : Prop :=
  j.window.begin_qpc ≤ qpc ∧ qpc < j.window.end_qpc_exclusive

theorem noted_clock (j : Journal) (qpc : Nat) : Noted j (j.clock qpc).1 := by
  unfold clock
  by_cases hvalid : ¬ valid_clock qpc
  · rw [if_pos hvalid]
    by_cases hlarge : qpc > kMaxQpc
    · simp only [if_pos hlarge]
      exact (noted_mark j .kInvalidClock).trans
        ⟨rfl, rfl, rfl, rfl, rfl, rfl, rfl, rfl, rfl, rfl, rfl, rfl, id, id⟩
    · simp only [if_neg hlarge]
      exact noted_mark j _
  · rw [if_neg hvalid]
    split
    · exact noted_mark j _
    · exact .refl j

variable {qpc : Nat} {e : Epoch} {f : Epoch → Epoch} {j' : Journal} {g : Operation → Operation}
  {ticket : Ticket}

theorem inWindow_of_clock (h : (j.clock qpc).2 = true) : j.InWindow qpc := by
  unfold clock at h
  by_cases hvalid : ¬ valid_clock qpc
  · rw [if_pos hvalid] at h
    cases h
  · rw [if_neg hvalid] at h
    split at h
    · cases h
    · rename_i hwindow
      rw [not_or, Nat.not_lt, Nat.not_le] at hwindow
      exact hwindow

/-- A tick outside the window is noted. -/
theorem clock_of_issues (h : (j.clock qpc).1.issues = 0) : (j.clock qpc).2 = true := by
  unfold clock at h ⊢
  by_cases hvalid : ¬ valid_clock qpc
  · rw [if_pos hvalid] at h
    refine absurd ?_ (issues_mark_ne j .kInvalidClock)
    by_cases hlarge : qpc > kMaxQpc
    · simpa only [if_pos hlarge] using h
    · simpa only [if_neg hlarge] using h
  · rw [if_neg hvalid] at h ⊢
    split at h
    · exact absurd h (issues_mark_ne _ _)
    · rename_i hwindow
      rw [if_neg hwindow]

theorem noted_admission (j : Journal) (qpc : Nat) : Noted j (j.admission qpc).1 := by
  unfold admission
  split
  · exact .refl j
  split
  · exact .refl j
  split
  · exact .refl j
  split
  · dsimp only
    split
    · exact (noted_increment _ _ _).mark _
    · exact noted_increment _ _ _
  · exact .refl j

/-- An admission that is not refused takes no note. -/
theorem admission_none (h : j.admission qpc = (j₁, none)) :
    j₁ = j ∧ j.stopped = false ∧ j.enabled = true ∧ j.generation ≠ 0 := by
  unfold admission at h
  split at h
  · cases h
  rename_i henabled
  split at h
  · cases h
  split at h
  · cases h
  rename_i hgeneration
  split at h
  · cases h
  rename_i hstopped
  exact ⟨(Prod.mk.inj h).1.symm, by simpa using hstopped, by simpa using henabled, hgeneration⟩

theorem Noted.setEpoch (h : Noted j j₁) (id : Nat) (f : Epoch → Epoch) :
    Noted (j.setEpoch id f) (j₁.setEpoch id f) :=
  { h with epochs := congrArg (·.modify (id - 1) f) h.epochs }

theorem Noted.setOperation (h : Noted j j₁) (id : Nat) (f : Operation → Operation) :
    Noted (j.setOperation id f) (j₁.setOperation id f) :=
  { h with operations := congrArg (·.modify (id - 1) f) h.operations }

theorem decrement_eq {n : Nat} (hpos : 0 < n) (hn : n ≤ kOperationCapacity) :
    decrement n = n - 1 := by
  have hcapacity : kOperationCapacity = 32768 := rfl
  unfold decrement
  omega

/-! ### The invariant -/

/-- Where `e'` is of the same cookie, `e` had ended before it was created. -/
def Follows (e e' : Epoch) : Prop := e.object_cookie = e'.object_cookie →
  ∃ d, e.destroy_qpc = some d ∧ e.creation_qpc < d ∧ d < e'.creation_qpc

/-- The counters count the rows, the rows know their numbers, and the lifetimes of one cookie
follow one another. -/
structure Inv (j : Journal) : Prop where
  operation_ids : Numbered Operation.op_id j.operations
  epoch_ids : Numbered Epoch.epoch_id j.epochs
  operation_epoch : ∀ o ∈ j.operations, 1 ≤ o.epoch_id ∧ o.epoch_id ≤ j.epochs.length
  epoch_pending : ∀ e ∈ j.epochs, e.pending_operations =
    j.operations.countP fun o => o.epoch_id = e.epoch_id ∧ !o.completed
  stored : j.counts.stored_operations = j.operations.length
  completed : j.counts.completed_operations = j.operations.countP (·.completed)
  pending : j.pending = j.operations.countP fun o => !o.completed
  observed : j.counts.observed_operations =
    j.counts.stored_operations + j.counts.overflow_operations
  observed_lt : j.counts.observed_operations < 2 ^ 64
  overflow : j.counts.stored_operations < kOperationCapacity → j.counts.overflow_operations = 0
  stored_le : j.counts.stored_operations ≤ kOperationCapacity
  epochs_le : j.epochs.length ≤ kEpochCapacity
  lifetimes : j.epochs.Pairwise Follows

/-- Of one cookie at most one epoch is live. -/
theorem Inv.live (hj : j.Inv) {e e' : Epoch} (he : e ∈ j.epochs) (he' : e' ∈ j.epochs)
    (hcookie : e.object_cookie = e'.object_cookie) (hlive : e.destroy_qpc = none)
    (hlive' : e'.destroy_qpc = none) : e = e' := by
  rcases Nat.lt_trichotomy e.epoch_id e'.epoch_id with hlt | heq | hlt
  · obtain ⟨d, hd, -⟩ := hj.epoch_ids.of_pairwise hj.lifetimes he he' hlt hcookie
    exact absurd (hd.symm.trans hlive) (by simp)
  · exact hj.epoch_ids.inj he he' heq
  · obtain ⟨d, hd, -⟩ := hj.epoch_ids.of_pairwise hj.lifetimes he' he hlt hcookie.symm
    exact absurd (hd.symm.trans hlive') (by simp)

theorem Noted.inv (h : Noted j j₁) (hj : j.Inv) : j₁.Inv where
  operation_ids := by rw [h.operations]; exact hj.operation_ids
  epoch_ids := by rw [h.epochs]; exact hj.epoch_ids
  operation_epoch := by rw [h.operations, h.epochs]; exact hj.operation_epoch
  epoch_pending := by rw [h.operations, h.epochs]; exact hj.epoch_pending
  stored := by rw [h.counts, h.operations]; exact hj.stored
  completed := by rw [h.counts, h.operations]; exact hj.completed
  pending := by rw [h.pending, h.operations]; exact hj.pending
  observed := by rw [h.counts]; exact hj.observed
  observed_lt := by rw [h.counts]; exact hj.observed_lt
  overflow := by rw [h.counts]; exact hj.overflow
  stored_le := by rw [h.counts]; exact hj.stored_le
  epochs_le := by rw [h.epochs]; exact hj.epochs_le
  lifetimes := by rw [h.epochs]; exact hj.lifetimes

/-- An epoch that is looked up is a live row of the cookie. -/
theorem find_some (hj : j.Inv) {cookie : Nat} (h : j.find cookie = some e) :
    e ∈ j.epochs ∧ e.object_cookie = cookie ∧ e.destroy_qpc = none := by
  unfold find lookup at h
  cases hfind : j.epochs.reverse.find? fun e => e.object_cookie = cookie ∧ e.destroy_qpc = none with
  | none =>
    simp only [hfind, if_true] at h
    cases h
  | some row =>
    have hmem := mem_reverse.mp (mem_of_find?_eq_some hfind)
    have hlive : row.object_cookie = cookie ∧ row.destroy_qpc = none := by
      simpa using find?_some hfind
    have hget : j.epoch row.epoch_id = row := by
      rw [epoch, getD_eq_getElem?_getD, hj.epoch_ids.get hmem, Option.getD_some]
    have hid : row.epoch_id ≠ 0 := by
      have hrange := hj.epoch_ids.range hmem
      omega
    simp only [hfind, if_neg hid, hget] at h
    obtain rfl := Option.some.inj h
    exact ⟨hmem, hlive⟩

/-- Where nothing stands in the way of a creation, the epochs of the cookie have ended. -/
theorem follows_of_reuse (hj : j.Inv) {cookie qpc : Nat} (h : j.reuse cookie qpc = none)
    (he : e ∈ j.epochs) (hcookie : e.object_cookie = cookie) :
    ∃ d, e.destroy_qpc = some d ∧ e.creation_qpc < d ∧ d < qpc := by
  unfold reuse at h
  cases hfind : j.epochs.reverse.find? fun e => e.object_cookie = cookie with
  | none =>
    have hnone := find?_eq_none.mp hfind e (mem_reverse.mpr he)
    simp [hcookie] at hnone
  | some old =>
    have hold : old.object_cookie = cookie := by simpa using find?_some hfind
    rw [hfind] at h
    cases hdestroyed : old.destroy_qpc with
    | none =>
      simp only [hdestroyed] at h
      cases h
    | some destroyed =>
      simp only [hdestroyed] at h
      split at h
      · cases h
      rename_i hclock
      rw [not_or, not_or, Nat.not_le, Nat.not_le] at hclock
      obtain ⟨-, after, before, hsplit, hafter⟩ := find?_eq_some_iff_append.mp hfind
      have hpairs : (after ++ old :: before).Pairwise fun e' e => Follows e e' := by
        rw [← hsplit]
        exact pairwise_reverse.mpr hj.lifetimes
      have hmem : e ∈ after ++ old :: before := by
        rw [← hsplit]
        exact mem_reverse.mpr he
      rcases mem_append.mp hmem with hmem | hmem
      · have hno := hafter e hmem
        simp [hcookie] at hno
      rcases mem_cons.mp hmem with rfl | hmem
      · exact ⟨destroyed, hdestroyed, hclock.2.1, hclock.2.2⟩
      · have hfollows := (pairwise_cons.mp (pairwise_append.mp hpairs).2.1).1 e hmem
        obtain ⟨d, hd, hlong, hbefore⟩ := hfollows (hcookie.trans hold.symm)
        exact ⟨d, hd, hlong, hbefore.trans (hclock.2.1.trans hclock.2.2)⟩

/-! ### Changes -/

/-- What is never changed of an epoch once it is there. -/
structure SameEpoch (e e' : Epoch) : Prop where
  epoch_id : e'.epoch_id = e.epoch_id
  object_cookie : e'.object_cookie = e.object_cookie
  creation_qpc : e'.creation_qpc = e.creation_qpc
  initial_count : e'.initial_count = e.initial_count
  origin : e'.origin = e.origin

/-- What is never changed of an operation once it is there. -/
structure SameOperation (o o' : Operation) : Prop where
  op_id : o'.op_id = o.op_id
  epoch_id : o'.epoch_id = o.epoch_id
  entry_qpc : o'.entry_qpc = o.entry_qpc
  native_thread_id : o'.native_thread_id = o.native_thread_id
  guest_handle : o'.guest_handle = o.guest_handle
  kind : o'.kind = o.kind
  release_count : o'.release_count = o.release_count
  context : o'.context = o.context
  timeout_kind : o'.timeout_kind = o.timeout_kind

/-- An operation begins on a live epoch. -/
structure Begun (j : Journal) (e : Epoch) (row : Operation) (f : Epoch → Epoch) (j' : Journal) :
    Prop where
  noted : Noted { j with
    counts := { j.counts with
      observed_operations := j.counts.observed_operations + 1
      stored_operations := j.counts.stored_operations + 1 }
    pending := j.pending + 1
    operations := j.operations ++ [row]
    epochs := j.epochs.modify (e.epoch_id - 1) f } j'
  running : j.stopped = false
  room : j.counts.stored_operations < kOperationCapacity
  mem : e ∈ j.epochs
  live : e.destroy_qpc = none
  op_id : row.op_id = j.counts.observed_operations + 1
  epoch_id : row.epoch_id = e.epoch_id
  pending : row.completed = false
  epoch : ∀ e, SameEpoch e (f e) ∧ (f e).destroy_qpc = e.destroy_qpc ∧
    (f e).pending_operations = (e.pending_operations + 1) % 2 ^ 32
  good : j'.issues = 0 → j.InWindow row.entry_qpc ∧ e.creation_qpc < row.entry_qpc

/-- An operation is completed. -/
structure Completed (j : Journal) (o : Operation) (e : Epoch) (qpc : Nat) (f : Epoch → Epoch)
    (g : Operation → Operation) (j' : Journal) : Prop where
  noted : Noted { j with
    counts := { j.counts with completed_operations := j.counts.completed_operations + 1 }
    pending := decrement j.pending
    last_completed_exit := Function.update j.last_completed_exit (e.epoch_id - 1)
      (max (j.last_completed_exit (e.epoch_id - 1)) qpc)
    operations := j.operations.modify (o.op_id - 1) g
    epochs := j.epochs.modify (e.epoch_id - 1) f } j'
  mem : o ∈ j.operations
  pending : o.completed = false
  mem_epoch : e ∈ j.epochs
  own : o.epoch_id = e.epoch_id
  epoch : ∀ e, SameEpoch e (f e) ∧ (f e).destroy_qpc = e.destroy_qpc ∧
    (f e).pending_operations = decrement e.pending_operations
  operation : ∀ o, SameOperation o (g o) ∧ (g o).completed = true ∧ (g o).exit_qpc = qpc
  good : j'.issues = 0 → j.InWindow qpc ∧ o.entry_qpc ≤ qpc ∧ ∀ d, e.destroy_qpc = some d → qpc < d

/-- What a call can do, beside taking notes. -/
inductive Change (j : Journal) : Journal → Prop where
  | noted {j' : Journal} (h : Noted j j') : Change j j'
  | created {j' : Journal} (row : Epoch) (h : Noted { j with epochs := j.epochs ++ [row] } j')
      (hopen : j.stopped = false) (hid : row.epoch_id = j.epochs.length + 1)
      (hpending : row.pending_operations = 0) (hdestroy : row.destroy_qpc = none)
      (hroom : j.epochs.length < kEpochCapacity)
      (hreuse : j.reuse row.object_cookie row.creation_qpc = none)
      (hgood : j'.issues = 0 →
        j.InWindow row.creation_qpc ∧ row.origin = .kFresh ∧ row.initial_count = 0) : Change j j'
  | destroyed {j' : Journal} (e : Epoch) (qpc : Nat) (f : Epoch → Epoch)
      (h : Noted (j.setEpoch e.epoch_id f) j') (hopen : j.stopped = false) (he : e ∈ j.epochs)
      (hlive : e.destroy_qpc = none)
      (hf : ∀ e, SameEpoch e (f e) ∧ (f e).destroy_qpc = some qpc ∧
        (f e).pending_operations = e.pending_operations)
      (hgood : j'.issues = 0 → j.InWindow qpc ∧ e.creation_qpc < qpc ∧ e.pending_operations = 0 ∧
        j.last_completed_exit (e.epoch_id - 1) < qpc) : Change j j'
  | overflowed {j' : Journal} (id : Nat) (f : Epoch → Epoch)
      (h : Noted ({ j with counts := { j.counts with
        observed_operations := j.counts.observed_operations + 1
        overflow_operations := j.counts.overflow_operations + 1 } }.setEpoch id f) j')
      (hopen : j.stopped = false) (hroom : j.counts.observed_operations + 1 < 2 ^ 64)
      (hfull : j.counts.stored_operations = kOperationCapacity)
      (hf : ∀ e, SameEpoch e (f e) ∧ (f e).destroy_qpc = e.destroy_qpc ∧
        (f e).pending_operations = e.pending_operations)
      (hbad : j'.issues ≠ 0) : Change j j'
  | begun {j' : Journal} (e : Epoch) (row : Operation) (f : Epoch → Epoch)
      (h : Begun j e row f j') : Change j j'
  | completed {j' : Journal} (o : Operation) (e : Epoch) (qpc : Nat) (f : Epoch → Epoch)
      (g : Operation → Operation) (h : Completed j o e qpc f g j') : Change j j'

/-- The rows of the epochs after one of them was changed but for its end and its pending
count. -/
theorem Inv.lifetimes_modify (hj : j.Inv) (id : Nat) (hf : ∀ e, SameEpoch e (f e))
    (hdestroy : ∀ e ∈ j.epochs, e.epoch_id - 1 = id →
      e.destroy_qpc = none ∨ (f e).destroy_qpc = e.destroy_qpc) :
    (j.epochs.modify id f).Pairwise Follows := by
  refine pairwise_modify hj.lifetimes fun e he => ⟨fun b _ h hcookie => ?_, fun b _ h hcookie => ?_⟩
  · rw [(hf e).creation_qpc]
    exact h (hcookie.trans (hf e).object_cookie)
  · obtain ⟨d, hd, hlong, hbefore⟩ := h ((hf e).object_cookie.symm.trans hcookie)
    have hid : e.epoch_id - 1 = id := by
      rw [hj.epoch_ids id e he]
      rfl
    rcases hdestroy e (mem_of_getElem? he) hid with hnone | hsame
    · exact absurd (hd.symm.trans hnone) (by simp)
    · exact ⟨d, hsame.trans hd, by rwa [(hf e).creation_qpc], hbefore⟩

/-- A new epoch is added to the rows. -/
theorem Inv.addEpoch (hj : j.Inv) {row : Epoch} (hid : row.epoch_id = j.epochs.length + 1)
    (hpending : row.pending_operations = 0) (hroom : j.epochs.length < kEpochCapacity)
    (hreuse : j.reuse row.object_cookie row.creation_qpc = none) :
    ({ j with epochs := j.epochs ++ [row] } : Journal).Inv := by
  refine { hj with
    epoch_ids := hj.epoch_ids.append hid
    operation_epoch := ?_
    epoch_pending := ?_
    epochs_le := ?_
    lifetimes := ?_ }
  · intro o ho
    have hrange := hj.operation_epoch o ho
    rw [length_append]
    omega
  · intro e he
    rcases mem_append.mp he with he | he
    · exact hj.epoch_pending e he
    · obtain rfl := mem_singleton.mp he
      rw [hpending, eq_comm, countP_eq_zero]
      intro o ho
      have hrange := hj.operation_epoch o ho
      have hne : o.epoch_id ≠ e.epoch_id := by omega
      simp [hne]
  · rw [length_append, length_singleton]
    omega
  · refine pairwise_append.mpr ⟨hj.lifetimes, pairwise_singleton _ _, ?_⟩
    intro e he e' he' hcookie
    obtain rfl := mem_singleton.mp he'
    exact follows_of_reuse hj hreuse he hcookie

/-- An epoch is changed, but for its pending count. -/
theorem Inv.setEpoch (hj : j.Inv) (id : Nat)
    (hf : ∀ e, SameEpoch e (f e) ∧ (f e).pending_operations = e.pending_operations)
    (hdestroy : ∀ e ∈ j.epochs, e.epoch_id - 1 = id - 1 →
      e.destroy_qpc = none ∨ (f e).destroy_qpc = e.destroy_qpc) : (j.setEpoch id f).Inv := by
  refine { hj with
    epoch_ids := hj.epoch_ids.modify (fun e => (hf e).1.epoch_id) _
    operation_epoch := ?_
    epoch_pending := ?_
    epochs_le := ?_
    lifetimes := hj.lifetimes_modify _ (fun e => (hf e).1) hdestroy }
  · show ∀ o ∈ j.operations, _ ∧ _ ≤ (j.epochs.modify _ f).length
    rw [length_modify]
    exact hj.operation_epoch
  · intro e' he'
    rcases mem_modify he' with he' | ⟨a, ha, rfl⟩
    · exact hj.epoch_pending e' he'
    · rw [(hf a).2, (hf a).1.epoch_id]
      exact hj.epoch_pending a (mem_of_getElem? ha)
  · show (j.epochs.modify _ f).length ≤ _
    rw [length_modify]
    exact hj.epochs_le

/-- An operation that finds no room is counted. -/
theorem Inv.overflowing (hj : j.Inv) (hroom : j.counts.observed_operations + 1 < 2 ^ 64)
    (hfull : j.counts.stored_operations = kOperationCapacity) :
    ({ j with counts := { j.counts with
      observed_operations := j.counts.observed_operations + 1
      overflow_operations := j.counts.overflow_operations + 1 } } : Journal).Inv := by
  have hobserved := hj.observed
  refine { hj with
    observed := ?_
    observed_lt := hroom
    overflow := fun hlt => absurd hfull (Nat.ne_of_lt hlt) }
  show j.counts.observed_operations + 1 =
    j.counts.stored_operations + (j.counts.overflow_operations + 1)
  omega

theorem Begun.inv {row : Operation} (hj : j.Inv) (h : Begun j e row f j') : j'.Inv := by
  obtain ⟨h, hopen, hroom, he, hlive, hid, hepoch, hfresh, hf, hgood⟩ := h
  have hobserved := hj.observed
  have hstored := hj.stored
  have hnone := hj.overflow hroom
  have hcapacity : kOperationCapacity = 32768 := rfl
  have hrange := hj.epoch_ids.range he
  refine h.inv { hj with
    operation_ids := hj.operation_ids.append (by omega)
    epoch_ids := hj.epoch_ids.modify (fun e => (hf e).1.epoch_id) _
    operation_epoch := ?_
    epoch_pending := ?_
    stored := ?_
    completed := ?_
    pending := ?_
    observed := ?_
    observed_lt := ?_
    overflow := fun _ => hnone
    stored_le := ?_
    epochs_le := ?_
    lifetimes := hj.lifetimes_modify _ (fun e => (hf e).1) fun e' he' hid => .inr (hf e').2.1 }
  · show ∀ o ∈ j.operations ++ [row], 1 ≤ o.epoch_id ∧ o.epoch_id ≤ (j.epochs.modify _ f).length
    rw [length_modify]
    refine forall_mem_append.mpr ⟨hj.operation_epoch, forall_mem_singleton.mpr ?_⟩
    rw [hepoch]
    exact hrange
  · show ∀ e' ∈ j.epochs.modify (e.epoch_id - 1) f, e'.pending_operations =
      (j.operations ++ [row]).countP fun o => o.epoch_id = e'.epoch_id ∧ !o.completed
    intro e' he'
    rw [countP_append, countP_singleton, hepoch, hfresh]
    rcases hj.epoch_ids.mem_modify.mp he' with ⟨he', hne⟩ | ⟨a, ha, rfl⟩
    · have hother : e.epoch_id ≠ e'.epoch_id := by omega
      rw [hj.epoch_pending e' he']
      simp [hother]
    · obtain rfl : a = e := by
        rw [hj.epoch_ids.get he] at ha
        exact (Option.some.inj ha).symm
      have hcount := hj.epoch_pending a he
      have hle := countP_le_length (p := fun o : Operation =>
        o.epoch_id = a.epoch_id ∧ !o.completed) (l := j.operations)
      rw [(hf a).2.2, (hf a).1.epoch_id, hcount, Nat.mod_eq_of_lt (by omega)]
      simp
  · show j.counts.stored_operations + 1 = (j.operations ++ [row]).length
    rw [length_append, length_singleton, hstored]
  · show j.counts.completed_operations = (j.operations ++ [row]).countP (·.completed)
    rw [countP_append, countP_singleton, hfresh, hj.completed]
    rfl
  · show j.pending + 1 = (j.operations ++ [row]).countP fun o => !o.completed
    rw [countP_append, countP_singleton, hfresh, hj.pending]
    rfl
  · show j.counts.observed_operations + 1 =
      j.counts.stored_operations + 1 + j.counts.overflow_operations
    omega
  · show j.counts.observed_operations + 1 < 2 ^ 64
    omega
  · show j.counts.stored_operations + 1 ≤ kOperationCapacity
    omega
  · show (j.epochs.modify _ f).length ≤ _
    rw [length_modify]
    exact hj.epochs_le

theorem Completed.inv {o : Operation} (hj : j.Inv) (h : Completed j o e qpc f g j') : j'.Inv := by
  obtain ⟨h, ho, hopen, he, heo, hf, hg, hgood⟩ := h
  have hget := hj.operation_ids.get ho
  have hlength : (j.operations.modify (o.op_id - 1) g).length = j.operations.length :=
    length_modify ..
  have hdone := countP_modify (f := g) (fun o => o.completed) hget
  have hpending := countP_modify (f := g) (fun o => !o.completed) hget
  simp only [hopen, (hg o).2.1, Bool.not_false, Bool.not_true, if_true, Bool.false_eq_true,
    if_false, Nat.add_zero] at hdone hpending
  have hstored := hj.stored
  have hle := hj.stored_le
  have hcapacity : kOperationCapacity = 32768 := rfl
  have hbound := countP_le_length (p := fun o : Operation => !o.completed) (l := j.operations)
  have hids : Numbered Operation.op_id (j.operations.modify (o.op_id - 1) g) :=
    hj.operation_ids.modify (fun o => (hg o).1.op_id) _
  have hepochs : Numbered Epoch.epoch_id (j.epochs.modify (e.epoch_id - 1) f) :=
    hj.epoch_ids.modify (fun e => (hf e).1.epoch_id) _
  have hlifetimes : (j.epochs.modify (e.epoch_id - 1) f).Pairwise Follows :=
    hj.lifetimes_modify _ (fun e => (hf e).1) fun e' _ _ => .inr (hf e').2.1
  refine h.inv {
    operation_ids := hids
    epoch_ids := hepochs
    operation_epoch := ?_
    epoch_pending := ?_
    stored := ?_
    completed := ?_
    pending := ?_
    observed := hj.observed
    observed_lt := ?_
    overflow := ?_
    stored_le := ?_
    epochs_le := ?_
    lifetimes := hlifetimes }
  · show ∀ o' ∈ j.operations.modify (o.op_id - 1) g,
      1 ≤ o'.epoch_id ∧ o'.epoch_id ≤ (j.epochs.modify _ f).length
    rw [length_modify]
    intro o' ho'
    rcases mem_modify ho' with ho' | ⟨a, ha, rfl⟩
    · exact hj.operation_epoch o' ho'
    · rw [(hg a).1.epoch_id]
      exact hj.operation_epoch a (mem_of_getElem? ha)
  · show ∀ e' ∈ j.epochs.modify (e.epoch_id - 1) f, e'.pending_operations =
      (j.operations.modify (o.op_id - 1) g).countP fun o =>
        o.epoch_id = e'.epoch_id ∧ !o.completed
    have hrange := hj.epoch_ids.range he
    intro e' he'
    have hcount := countP_modify (f := g)
      (fun o => decide (o.epoch_id = e'.epoch_id ∧ (!o.completed) = true)) hget
    simp only [hopen, (hg o).2.1, Bool.not_false, Bool.not_true, and_true, and_false,
      Bool.false_eq_true, decide_false, if_false, Nat.add_zero, decide_eq_true_eq] at hcount
    rcases hj.epoch_ids.mem_modify.mp he' with ⟨he', hne⟩ | ⟨a, ha, rfl⟩
    · have hother : ¬ o.epoch_id = e'.epoch_id := by omega
      rw [if_neg hother] at hcount
      rw [hj.epoch_pending e' he']
      omega
    · obtain rfl : a = e := by
        rw [hj.epoch_ids.get he] at ha
        exact (Option.some.inj ha).symm
      have hown : o.epoch_id = (f a).epoch_id := heo.trans (hf a).1.epoch_id.symm
      have hle' := countP_le_length (p := fun o : Operation =>
        o.epoch_id = a.epoch_id ∧ !o.completed) (l := j.operations)
      have hold := hj.epoch_pending a he
      rw [if_pos hown] at hcount
      rw [(hf a).1.epoch_id] at hcount
      rw [(hf a).2.2, (hf a).1.epoch_id, hold]
      rw [decrement_eq (by omega) (by omega)]
      omega
  · show j.counts.stored_operations = (j.operations.modify (o.op_id - 1) g).length
    rw [hlength, hstored]
  · show j.counts.completed_operations + 1 =
      (j.operations.modify (o.op_id - 1) g).countP (·.completed)
    rw [hdone, hj.completed]
  · show decrement j.pending = (j.operations.modify (o.op_id - 1) g).countP fun o => !o.completed
    rw [hj.pending, decrement_eq (by omega) (by omega)]
    omega
  · exact hj.observed_lt
  · exact hj.overflow
  · exact hj.stored_le
  · show (j.epochs.modify _ f).length ≤ _
    rw [length_modify]
    exact hj.epochs_le

/-- What the counters say survives a change. -/
theorem Change.inv (hj : j.Inv) (h : Change j j') : j'.Inv := by
  cases h with
  | noted h => exact h.inv hj
  | created row h hopen hid hpending hdestroy hroom hreuse hgood =>
    exact h.inv (hj.addEpoch hid hpending hroom hreuse)
  | destroyed e qpc f h hopen he hlive hf hgood =>
    refine h.inv (hj.setEpoch _ (fun e => ⟨(hf e).1, (hf e).2.2⟩) fun e' he' hid => .inl ?_)
    have hrange := hj.epoch_ids.range he
    have hrange' := hj.epoch_ids.range he'
    rw [hj.epoch_ids.inj he' he (by omega)]
    exact hlive
  | overflowed id f h hopen hroom hfull hf hbad =>
    exact h.inv ((hj.overflowing hroom hfull).setEpoch _ (fun e => ⟨(hf e).1, (hf e).2.2⟩)
      fun e' _ _ => .inr (hf e').2.1)
  | begun e row f h => exact h.inv hj
  | completed o e qpc f g h => exact h.inv hj

/-! ### The methods -/

theorem Noted.addEpoch (h : Noted j j₁) (row : Epoch) :
    Noted { j with epochs := j.epochs ++ [row] } { j₁ with epochs := j₁.epochs ++ [row] } :=
  { h with epochs := congrArg (· ++ [row]) h.epochs }

/-- A note that is taken only under a condition. -/
theorem Noted.ite (h : Noted j j₁) {p : Prop} [Decidable p] (h' : Noted j₁ j₂) :
    Noted j (if p then j₂ else j₁) := by
  split
  · exact h.trans h'
  · exact h

theorem create_change (hj : j.Inv) (cookie qpc initial maximum : Nat) (origin : Origin) :
    Change j.note_mutation (j.create cookie qpc initial maximum origin).1 := by
  unfold create
  have hk := (noted_note_mutation j).inv hj
  generalize j.note_mutation = k at hk
  dsimp only
  cases hadmission : k.admission qpc with
  | mk k₁ rejected =>
    have hnoted := noted_admission k qpc
    rw [hadmission] at hnoted
    cases rejected with
    | some disposition => exact .noted hnoted
    | none =>
      obtain ⟨rfl, hopen, -, -⟩ := admission_none hadmission
      dsimp only
      split
      · exact .noted (noted_reject_argument _)
      cases hreuse : k₁.reuse cookie qpc with
      | some issue => exact .noted (noted_mark _ _)
      | none =>
        dsimp only
        split
        · exact .noted (noted_mark _ _)
        rename_i hfull
        have hclock := noted_clock k₁ qpc
        have hlength : (k₁.clock qpc).1.epochs.length = k₁.epochs.length := by rw [hclock.epochs]
        have hle := hk.epochs_le
        let row : Epoch := {
          epoch_id := (k₁.clock qpc).1.epochs.length + 1, object_cookie := cookie,
          creation_qpc := qpc, initial_count := initial, maximum_count := maximum, origin,
          history_complete := (k₁.clock qpc).2 ∧ origin = .kFresh }
        have hadded := hclock.addEpoch row
        refine .created row ((hadded.ite (noted_mark _ _)).ite (noted_mark _ _)) hopen
          (congrArg (· + 1) hlength) rfl rfl (by omega) hreuse fun hzero => ?_
        by_cases hinitial : initial ≠ 0
        · rw [if_pos hinitial] at hzero
          exact absurd hzero (issues_mark_ne _ _)
        rw [if_neg hinitial] at hzero
        by_cases horigin : origin ≠ .kFresh
        · rw [if_pos horigin] at hzero
          exact absurd hzero (issues_mark_ne _ _)
        rw [if_neg horigin] at hzero
        exact ⟨inWindow_of_clock (clock_of_issues hzero), not_not.mp horigin, not_not.mp hinitial⟩

theorem destroy_change (hj : j.Inv) (cookie qpc : Nat) :
    Change j.note_mutation (j.destroy cookie qpc).1 := by
  unfold destroy
  have hk := (noted_note_mutation j).inv hj
  generalize j.note_mutation = k at hk
  dsimp only
  cases hadmission : k.admission qpc with
  | mk k₁ rejected =>
    have hnoted := noted_admission k qpc
    rw [hadmission] at hnoted
    cases rejected with
    | some disposition => exact .noted hnoted
    | none =>
      obtain ⟨rfl, hopen, -, -⟩ := admission_none hadmission
      dsimp only
      cases hfind : k₁.find cookie with
      | none => exact .noted (noted_unknown _)
      | some e =>
        obtain ⟨he, -, hlive⟩ := find_some hk hfind
        dsimp only
        have hclock := noted_clock (k₁.setEpoch e.epoch_id fun e => { e with destroy_qpc := some qpc })
          qpc
        split
        · have hset := (hclock.setEpoch e.epoch_id fun e => { e with history_complete := false }).mark
            .kLifetimeBoundary
          have hmerge : ∀ g : Epoch → Epoch,
              (k₁.setEpoch e.epoch_id fun e => { e with destroy_qpc := some qpc }).setEpoch
                e.epoch_id g = k₁.setEpoch e.epoch_id
                  (g ∘ fun e => { e with destroy_qpc := some qpc }) := by
            intro g
            simp only [setEpoch, modify_modify_eq]
          rw [hmerge] at hset
          exact .destroyed e qpc _ hset hopen he hlive
            (fun e => ⟨⟨rfl, rfl, rfl, rfl, rfl⟩, rfl, rfl⟩)
            fun hzero => absurd hzero (issues_mark_ne _ _)
        · rename_i hgood
          rw [not_or, not_or, not_or, not_not, Nat.not_le, not_not, Nat.not_le,
            hclock.last_completed_exit] at hgood
          have hinside : k₁.InWindow qpc := (inWindow_of_clock hgood.1 : InWindow (k₁.setEpoch _ _) qpc)
          exact .destroyed e qpc _ hclock hopen he hlive
            (fun e => ⟨⟨rfl, rfl, rfl, rfl, rfl⟩, rfl, rfl⟩)
            fun _ => ⟨hinside, hgood.2⟩

/-- A change of an epoch's flag only. -/
def FlagOnly (f : Epoch → Epoch) : Prop := ∀ e, SameEpoch e (f e) ∧
  (f e).destroy_qpc = e.destroy_qpc ∧ (f e).pending_operations = e.pending_operations

theorem flagOnly_id : FlagOnly id := fun _ => ⟨⟨rfl, rfl, rfl, rfl, rfl⟩, rfl, rfl⟩

theorem flagOnly_incomplete : FlagOnly fun e => { e with history_complete := false } :=
  fun _ => ⟨⟨rfl, rfl, rfl, rfl, rfl⟩, rfl, rfl⟩

theorem setEpoch_id (j : Journal) (n : Nat) : j.setEpoch n id = j := by
  rw [Journal.setEpoch, modify_id]

theorem noteEntry_noted (j : Journal) (e : Epoch) (qpc : Nat) :
    ∃ f, FlagOnly f ∧ Noted (j.setEpoch e.epoch_id f) (j.noteEntry e qpc) ∧
      ((j.noteEntry e qpc).issues = 0 → j.InWindow qpc ∧ e.creation_qpc < qpc) := by
  unfold noteEntry
  have hclock := noted_clock j qpc
  dsimp only
  split
  · exact ⟨_, flagOnly_incomplete, (hclock.setEpoch e.epoch_id _).mark _,
      fun hzero => absurd hzero (issues_mark_ne _ _)⟩
  · rename_i hgood
    rw [not_or, not_not, Nat.not_le] at hgood
    refine ⟨id, flagOnly_id, ?_, fun _ => ⟨inWindow_of_clock hgood.1, hgood.2⟩⟩
    rw [setEpoch_id]
    exact hclock

theorem Noted.addPending (h : Noted j j₁) (id : Nat) : Noted (j.addPending id) (j₁.addPending id) :=
  { h with
    pending := congrArg (fun n => (n + 1) % 2 ^ 32) h.pending
    epochs := by
      show j₁.epochs.modify _ _ = j.epochs.modify _ _
      rw [h.epochs] }

theorem Begun.after {row : Operation} (h : Begun j e row f j₁) (h' : Noted j₁ j') :
    Begun j e row f j' :=
  { h with noted := h.noted.trans h', good := fun hzero => h.good (h'.issues hzero) }

/-- The row of an operation that has begun is filled in. -/
theorem Begun.setOperation (hj : j.Inv) {row : Operation} (h : Begun j e row f j₁)
    (hid : (g row).op_id = row.op_id) (hepoch : (g row).epoch_id = row.epoch_id)
    (hentry : (g row).entry_qpc = row.entry_qpc) (hpending : (g row).completed = row.completed) :
    Begun j e (g row) f (j₁.setOperation row.op_id g) := by
  have hindex : row.op_id - 1 = j.operations.length := by
    have hobserved := hj.observed
    have hnone := hj.overflow h.room
    have hstored := hj.stored
    rw [h.op_id]
    omega
  have hlast : (j.operations ++ [row]).modify (row.op_id - 1) g = j.operations ++ [g row] := by
    rw [hindex, modify_eq_take_cons_drop (by simp)]
    simp
  have hset := h.noted.setOperation row.op_id g
  exact { h with
    noted := by
      rw [← hlast]
      exact hset
    op_id := hid.trans h.op_id
    epoch_id := hepoch.trans h.epoch_id
    pending := hpending.trans h.pending
    good := by
      rw [hentry]
      exact h.good }

theorem Begun.setEpoch {row : Operation} (h : Begun j e row f j₁) {g : Epoch → Epoch}
    (hg : ∀ e, SameEpoch e (g e) ∧ (g e).destroy_qpc = e.destroy_qpc ∧
      (g e).pending_operations = e.pending_operations) :
    Begun j e row (g ∘ f) (j₁.setEpoch e.epoch_id g) := by
  have hset := h.noted.setEpoch e.epoch_id g
  exact { h with
    noted := by
      rw [← modify_modify_eq]
      exact hset
    epoch := fun a => by
      obtain ⟨hsame, hdestroy, hpending⟩ := hg (f a)
      obtain ⟨hsame', hdestroy', hpending'⟩ := h.epoch a
      exact ⟨⟨hsame.epoch_id.trans hsame'.epoch_id, hsame.object_cookie.trans hsame'.object_cookie,
        hsame.creation_qpc.trans hsame'.creation_qpc, hsame.initial_count.trans hsame'.initial_count,
        hsame.origin.trans hsame'.origin⟩, hdestroy.trans hdestroy', hpending.trans hpending'⟩ }

/-- What is stored of an operation that begins. -/
theorem begun_noted (hj : j.Inv) (hroom : j.counts.stored_operations < kOperationCapacity)
    {row : Operation} {id : Nat} (h : Noted ((({ j with
      counts.observed_operations := j.counts.observed_operations + 1 } : Journal).addOperation
        row).setEpoch id f |>.addPending id) j') :
    Noted { j with
      counts := { j.counts with
        observed_operations := j.counts.observed_operations + 1
        stored_operations := j.counts.stored_operations + 1 }
      pending := j.pending + 1
      operations := j.operations ++ [row]
      epochs := j.epochs.modify (id - 1) ((fun e =>
        { e with pending_operations := (e.pending_operations + 1) % 2 ^ 32 }) ∘ f) } j' := by
  have hbound := countP_le_length (p := fun o : Operation => !o.completed) (l := j.operations)
  have hpending := hj.pending
  have hrows := hj.stored
  have hcapacity : kOperationCapacity = 32768 := rfl
  have hone : (j.pending + 1) % 2 ^ 32 = j.pending + 1 := Nat.mod_eq_of_lt (by omega)
  have hstored : (j.counts.stored_operations + 1) % 2 ^ 64 = j.counts.stored_operations + 1 :=
    Nat.mod_eq_of_lt (by omega)
  rw [← modify_modify_eq, ← hone, ← hstored]
  exact h

/-- An operation begins, with the ticket of its row, or none does. -/
theorem beginOperation_change (hj : j.Inv) (cookie tid : Nat) (handle : Option Nat) (qpc : Nat)
    (kind : Kind) :
    ((j.beginOperation cookie tid handle qpc kind).2.ticket.valid = false ∧
      Change j (j.beginOperation cookie tid handle qpc kind).1) ∨
    ∃ e row f, Begun j e row f (j.beginOperation cookie tid handle qpc kind).1 ∧
      e.object_cookie = cookie ∧
      row = {
        op_id := j.counts.observed_operations + 1, epoch_id := e.epoch_id, kind,
        native_thread_id := tid, guest_handle := handle, entry_qpc := qpc } ∧
      (j.beginOperation cookie tid handle qpc kind).2 =
        ⟨.kRecorded, ⟨some j.self, j.generation, row.op_id, row.epoch_id⟩⟩ ∧
      (j.beginOperation cookie tid handle qpc kind).2.ticket.valid = true := by
  unfold beginOperation
  cases hadmission : j.admission qpc with
  | mk j₁ rejected =>
    have hnoted := noted_admission j qpc
    rw [hadmission] at hnoted
    cases rejected with
    | some disposition => exact .inl ⟨rfl, .noted hnoted⟩
    | none =>
      obtain ⟨rfl, hopen, -, hgeneration⟩ := admission_none hadmission
      dsimp only
      cases hfind : j₁.find cookie with
      | none => exact .inl ⟨rfl, .noted (noted_unknown _)⟩
      | some e =>
        obtain ⟨he, hcookie, hlive⟩ := find_some hj hfind
        dsimp only
        split
        · exact .inl ⟨rfl, .noted (noted_mark _ _)⟩
        rename_i hcount
        have hlt := hj.observed_lt
        have hobserved := hj.observed
        have hword : (j₁.counts.observed_operations + 1) % 2 ^ 64 =
            j₁.counts.observed_operations + 1 := Nat.mod_eq_of_lt (by omega)
        have hoverflow : (j₁.counts.overflow_operations + 1) % 2 ^ 64 =
            j₁.counts.overflow_operations + 1 := Nat.mod_eq_of_lt (by omega)
        rw [hword, hoverflow]
        split
        · rename_i hfull
          exact .inl ⟨rfl, .overflowed e.epoch_id _ (noted_mark _ _) hopen (by omega) hfull
            flagOnly_incomplete (issues_mark_ne _ _)⟩
        · rename_i hfull
          right
          have hid : e.epoch_id ≠ 0 := by
            have hrange := hj.epoch_ids.range he
            omega
          have hroom : j₁.counts.stored_operations < kOperationCapacity :=
            Nat.lt_of_le_of_ne hj.stored_le hfull
          let counted : Journal := { j₁ with
            counts.observed_operations := j₁.counts.observed_operations + 1 }
          let row : Operation := {
            op_id := j₁.counts.observed_operations + 1, epoch_id := e.epoch_id, kind,
            native_thread_id := tid, guest_handle := handle, entry_qpc := qpc }
          have hrow := (Noted.refl (counted.addOperation row)).ite
            (noted_reject_argument _) (p := tid = 0 ∨ handle = some 0)
          obtain ⟨f, hf, hentry, hgood⟩ := noteEntry_noted
            (if tid = 0 ∨ handle = some 0 then (counted.addOperation row).reject_argument
              else counted.addOperation row) e qpc
          have hall := ((hrow.setEpoch e.epoch_id f).trans hentry).addPending e.epoch_id
          have hresult : ∀ r : BeginResult, r = ⟨.kRecorded, ⟨some j₁.self, j₁.generation, row.op_id,
              row.epoch_id⟩⟩ → r.ticket.valid = true := by
            rintro r rfl
            simp [Ticket.valid, row, hgeneration, hid]
          have hissued := congrArg₂ (fun self generation =>
            (⟨.kRecorded, ⟨some self, generation, row.op_id, row.epoch_id⟩⟩ : BeginResult)) hall.self
            hall.generation
          refine ⟨e, row, _, ⟨begun_noted hj hroom hall, hopen, hroom, he, hlive, rfl, rfl, rfl,
            fun a => ?_, fun hzero => ?_⟩, hcookie, rfl, hissued, hresult _ hissued⟩
          · obtain ⟨hsame, hdestroy, hpending⟩ := hf a
            exact ⟨⟨hsame.epoch_id, hsame.object_cookie, hsame.creation_qpc, hsame.initial_count,
              hsame.origin⟩, hdestroy, congrArg (fun n => (n + 1) % 2 ^ 32) hpending⟩
          · obtain ⟨hinside, hafter⟩ := hgood hzero
            rw [InWindow, hrow.window] at hinside
            exact ⟨hinside, hafter⟩

theorem begin_release_change (hj : j.Inv) (cookie tid : Nat) (handle : Option Nat) (qpc count : Nat)
    (context : ReleaseContext) :
    Change j.note_mutation (j.begin_release cookie tid handle qpc count context).1 := by
  unfold begin_release
  have hk := (noted_note_mutation j).inv hj
  have hbegin := beginOperation_change hk cookie tid handle qpc .kRelease
  generalize j.note_mutation = k at hk hbegin
  dsimp only
  generalize k.beginOperation cookie tid handle qpc .kRelease = run at hbegin
  rcases hbegin with ⟨hinvalid, hchange⟩ | ⟨e, row, f, hbegun, -, -, hresult, hvalid⟩
  · rw [if_neg (by simp [hinvalid])]
    exact hchange
  · have hop : run.2.ticket.op_id = row.op_id := by rw [hresult]
    rw [if_pos hvalid, hop]
    dsimp only
    have hfilled := hbegun.setOperation hk
      (g := fun row => { row with release_count := count, context }) rfl rfl rfl rfl
    exact .begun e _ f (hfilled.after ((Noted.refl _).ite (noted_reject_argument _)))

theorem begin_wait_change (hj : j.Inv) (cookie tid : Nat) (handle : Option Nat) (qpc : Nat)
    (timeout : TimeoutKind) :
    Change j.note_mutation (j.begin_wait cookie tid handle qpc timeout).1 := by
  unfold begin_wait
  have hk := (noted_note_mutation j).inv hj
  have hbegin := beginOperation_change hk cookie tid handle qpc .kWait
  generalize j.note_mutation = k at hk hbegin
  dsimp only
  generalize k.beginOperation cookie tid handle qpc .kWait = run at hbegin
  rcases hbegin with ⟨hinvalid, hchange⟩ | ⟨e, row, f, hbegun, -, -, hresult, hvalid⟩
  · rw [if_neg (by simp [hinvalid])]
    exact hchange
  · have hop : run.2.ticket.op_id = row.op_id := by rw [hresult]
    rw [if_pos hvalid, hop]
    dsimp only
    have hfilled := hbegun.setOperation hk
      (g := fun row => { row with timeout_kind := timeout }) rfl rfl rfl rfl
    exact .begun e _ f (hfilled.after ((Noted.refl _).ite (noted_reject_argument _)))

theorem begin_unsupported_change (hj : j.Inv) (cookie tid : Nat) (handle : Option Nat) (qpc : Nat)
    (kind : Kind) : Change j.note_mutation (j.begin_unsupported cookie tid handle qpc kind).1 := by
  unfold begin_unsupported
  have hk := (noted_note_mutation j).inv hj
  have hbegin := beginOperation_change hk cookie tid handle qpc kind
  generalize j.note_mutation = k at hk hbegin
  dsimp only
  split
  · exact .noted (.refl k)
  split
  · exact .noted (noted_reject_argument k)
  generalize k.beginOperation cookie tid handle qpc kind = run at hbegin
  rcases hbegin with ⟨hinvalid, hchange⟩ | ⟨e, row, f, hbegun, -, -, hresult, hvalid⟩
  · rw [if_neg (by simp [hinvalid])]
    exact hchange
  · have hepoch : run.2.ticket.epoch_id = e.epoch_id := by rw [hresult, hbegun.epoch_id]
    rw [if_pos hvalid, hepoch]
    exact .begun e row _ ((hbegun.setEpoch flagOnly_incomplete).after (noted_mark _ _))

/-- A ticket that the journal owns is that of a row. -/
theorem operation_of_owns (hj : j.Inv) (h : j.owns ticket = true) :
    j.operation ticket.op_id ∈ j.operations ∧ (j.operation ticket.op_id).op_id = ticket.op_id := by
  obtain ⟨-, -, -, hne, hle, -⟩ := of_decide_eq_true h
  rw [hj.stored] at hle
  have hlt : ticket.op_id - 1 < j.operations.length := by omega
  have hget : j.operations[ticket.op_id - 1]? = some (j.operation ticket.op_id) := by
    rw [operation, getD_eq_getElem?_getD, getElem?_eq_getElem hlt, Option.getD_some]
  refine ⟨mem_of_getElem? hget, ?_⟩
  rw [hj.operation_ids _ _ hget]
  omega

theorem Completed.after {o : Operation} (h : Completed j o e qpc f g j₁) (h' : Noted j₁ j') :
    Completed j o e qpc f g j' :=
  { h with noted := h.noted.trans h', good := fun hzero => h.good (h'.issues hzero) }

/-- The result of a completed operation is filled in. -/
theorem Completed.setOperation {o : Operation} (h : Completed j o e qpc f g j₁)
    {k : Operation → Operation} (hk : ∀ o, SameOperation o (k o) ∧ (k o).completed = o.completed ∧
      (k o).exit_qpc = o.exit_qpc) : Completed j o e qpc f (k ∘ g) (j₁.setOperation o.op_id k) := by
  have hset := h.noted.setOperation o.op_id k
  exact { h with
    noted := by
      rw [← modify_modify_eq]
      exact hset
    operation := fun a => by
      obtain ⟨hsame, hdone, hexit⟩ := hk (g a)
      obtain ⟨hsame', hdone', hexit'⟩ := h.operation a
      exact ⟨⟨hsame.op_id.trans hsame'.op_id, hsame.epoch_id.trans hsame'.epoch_id,
        hsame.entry_qpc.trans hsame'.entry_qpc,
        hsame.native_thread_id.trans hsame'.native_thread_id,
        hsame.guest_handle.trans hsame'.guest_handle, hsame.kind.trans hsame'.kind,
        hsame.release_count.trans hsame'.release_count, hsame.context.trans hsame'.context,
        hsame.timeout_kind.trans hsame'.timeout_kind⟩, hdone.trans hdone', hexit.trans hexit'⟩ }

theorem noteExit_noted (j : Journal) (row : Operation) (e : Epoch) (qpc : Nat) :
    ∃ f, FlagOnly f ∧ Noted (j.setEpoch row.epoch_id f) (j.noteExit row e qpc) ∧
      ((j.noteExit row e qpc).issues = 0 → j.InWindow qpc ∧ row.entry_qpc ≤ qpc ∧
        ∀ d, e.destroy_qpc = some d → qpc < d) := by
  unfold noteExit
  have hclock := noted_clock j qpc
  dsimp only
  by_cases hgood : ¬ (j.clock qpc).2 = true ∨ qpc < row.entry_qpc ∨
      ∃ destroyed ∈ e.destroy_qpc, qpc ≥ destroyed
  · rw [if_pos hgood]
    have hmarked := ((hclock.setEpoch row.epoch_id fun e =>
      { e with history_complete := false }).mark .kLifetimeBoundary).ite
        (noted_mark _ .kInvalidClock) (p := qpc < row.entry_qpc)
    refine ⟨_, flagOnly_incomplete, hmarked, fun hzero => ?_⟩
    exact absurd (((Noted.refl _).ite (noted_mark _ .kInvalidClock)).issues hzero)
      (issues_mark_ne _ _)
  · rw [if_neg hgood]
    rw [not_or, not_or, not_not, Nat.not_lt] at hgood
    obtain ⟨hinside, hentry, hdestroy⟩ := hgood
    refine ⟨id, flagOnly_id, ?_, fun _ => ⟨inWindow_of_clock hinside, hentry, fun d hd => ?_⟩⟩
    · rw [setEpoch_id]
      exact hclock
    · by_contra hle
      exact hdestroy ⟨d, hd, Nat.not_lt.mp hle⟩

theorem epoch_of_range (hj : j.Inv) {id : Nat} (h : 1 ≤ id ∧ id ≤ j.epochs.length) :
    j.epoch id ∈ j.epochs ∧ (j.epoch id).epoch_id = id := by
  have hlt : id - 1 < j.epochs.length := by omega
  have hget : j.epochs[id - 1]? = some (j.epoch id) := by
    rw [epoch, getD_eq_getElem?_getD, getElem?_eq_getElem hlt, Option.getD_some]
  refine ⟨mem_of_getElem? hget, ?_⟩
  rw [hj.epoch_ids _ _ hget]
  omega

theorem closeOperation_noted (hj : j.Inv) (o : Operation) (qpc : Nat) :
    Noted { j with
      counts := { j.counts with completed_operations := j.counts.completed_operations + 1 }
      pending := decrement j.pending
      last_completed_exit := Function.update j.last_completed_exit (o.epoch_id - 1)
        (max (j.last_completed_exit (o.epoch_id - 1)) qpc)
      operations := j.operations.modify (o.op_id - 1) fun row =>
        { row with completed := true, exit_qpc := qpc }
      epochs := j.epochs.modify (o.epoch_id - 1) fun e =>
        { e with pending_operations := decrement e.pending_operations } }
      (j.closeOperation o.op_id o.epoch_id qpc) := by
  have hbound := countP_le_length (p := fun o : Operation => o.completed) (l := j.operations)
  have hcompleted := hj.completed
  have hstored := hj.stored
  have hle := hj.stored_le
  have hcapacity : kOperationCapacity = 32768 := rfl
  have hword : (j.counts.completed_operations + 1) % 2 ^ 64 =
      j.counts.completed_operations + 1 := Nat.mod_eq_of_lt (by omega)
  have hlast : (if qpc > j.last_completed_exit (o.epoch_id - 1) then
      Function.update j.last_completed_exit (o.epoch_id - 1) qpc else j.last_completed_exit) =
        Function.update j.last_completed_exit (o.epoch_id - 1)
          (max (j.last_completed_exit (o.epoch_id - 1)) qpc) := by
    split
    · rename_i hlate
      rw [max_eq_right (le_of_lt hlate)]
    · rename_i hearly
      rw [max_eq_left (Nat.not_lt.mp hearly), Function.update_eq_self]
  unfold closeOperation
  rw [hword, hlast]
  exact .refl _

/-- A completion takes a note, or completes the operation of its ticket. -/
theorem completion_change (hj : j.Inv) (ticket : Ticket) (qpc : Nat) (kind : Kind) :
    (∃ d, (j.completion ticket qpc kind).2 = some d ∧ d ≠ .kRecorded ∧
      Noted j (j.completion ticket qpc kind).1) ∨
    (j.completion ticket qpc kind).2 = none ∧ j.owns ticket = true ∧
      (j.operation ticket.op_id).kind = kind ∧
      ∃ e f g, Completed j (j.operation ticket.op_id) e qpc f g (j.completion ticket qpc kind).1 := by
  unfold completion
  split
  · exact .inl ⟨_, rfl, by decide, noted_mark _ _⟩
  rename_i howns
  rw [not_or, not_not, not_not] at howns
  obtain ⟨howns, hkind⟩ := howns
  obtain ⟨ho, hid⟩ := operation_of_owns hj howns
  dsimp only
  split
  · exact .inl ⟨_, rfl, by decide, noted_mark _ _⟩
  rename_i hpending
  obtain ⟨he, heid⟩ := epoch_of_range hj (hj.operation_epoch _ ho)
  have hclose := closeOperation_noted hj (j.operation ticket.op_id) qpc
  rw [hid] at hclose
  obtain ⟨f, hf, hexit, hgood⟩ := noteExit_noted
    (j.closeOperation ticket.op_id (j.operation ticket.op_id).epoch_id qpc)
    (j.operation ticket.op_id) (j.epoch (j.operation ticket.op_id).epoch_id) qpc
  have hall := (hclose.setEpoch (j.operation ticket.op_id).epoch_id f).trans hexit
  refine .inr ⟨rfl, howns, hkind, _, f ∘ fun e =>
    { e with pending_operations := decrement e.pending_operations },
    fun row => { row with completed := true, exit_qpc := qpc },
    { noted := ?_, mem := ho, pending := by simpa using hpending, mem_epoch := he,
      own := heid.symm, epoch := fun a => ?_, operation := fun a => ?_, good := fun hzero => ?_ }⟩
  · rw [heid, hid, ← modify_modify_eq]
    exact hall
  · obtain ⟨hsame, hdestroy, hpending⟩ := hf
      { a with pending_operations := decrement a.pending_operations }
    exact ⟨⟨hsame.epoch_id, hsame.object_cookie, hsame.creation_qpc, hsame.initial_count,
      hsame.origin⟩, hdestroy, hpending⟩
  · exact ⟨⟨rfl, rfl, rfl, rfl, rfl, rfl, rfl, rfl, rfl⟩, rfl, rfl⟩
  · obtain ⟨hinside, hrest⟩ := hgood hzero
    rw [InWindow, hclose.window] at hinside
    exact ⟨hinside, hrest⟩

/-- What an `end` method can do: it completes the operation of a ticket that the journal owns,
which was not completed, or it only takes notes. -/
inductive Ended (j : Journal) (ticket : Ticket) : Journal → Disposition → Prop where
  | refused {j' : Journal} {d : Disposition} (h : Noted j j') (hd : d ≠ .kRecorded) :
      Ended j ticket j' d
  | recorded {j' : Journal} (e : Epoch) (qpc : Nat) (f : Epoch → Epoch) (g : Operation → Operation)
      (howns : j.owns ticket = true)
      (h : Completed j (j.operation ticket.op_id) e qpc f g j') : Ended j ticket j' .kRecorded

theorem Ended.change {d : Disposition} (h : Ended j ticket j' d) : Change j j' := by
  cases h with
  | refused h hd => exact .noted h
  | recorded e qpc f g howns h => exact .completed _ e qpc f g h

theorem end_release_ended (hj : j.Inv) (ticket : Ticket) (qpc : Nat) (success : Bool)
    (previous : Option Int) :
    Ended j.note_mutation ticket (j.end_release ticket qpc success previous).1
      (j.end_release ticket qpc success previous).2 := by
  unfold end_release
  have hk := (noted_note_mutation j).inv hj
  generalize j.note_mutation = k at hk
  have hcompletion := completion_change hk ticket qpc .kRelease
  dsimp only
  split
  · exact .refused (.refl k) (by simp)
  generalize k.completion ticket qpc .kRelease = run at hcompletion
  obtain ⟨k₁, disposition⟩ := run
  rcases hcompletion with ⟨d, hd, hne, hnoted⟩ | ⟨hnone, howns, -, e, f, g, h⟩
  · obtain rfl : disposition = some d := hd
    exact .refused hnoted hne
  · obtain rfl : disposition = none := hnone
    have hid := (operation_of_owns hk howns).2
    have hfilled := h.setOperation (k := fun row => { row with
      release_success := success, previous_count := if success then previous else none })
      fun _ => ⟨⟨rfl, rfl, rfl, rfl, rfl, rfl, rfl, rfl, rfl⟩, rfl, rfl⟩
    rw [hid] at hfilled
    exact .recorded e qpc f _ howns (hfilled.after ((Noted.refl _).ite (noted_reject_argument _)))

theorem end_wait_ended (hj : j.Inv) (ticket : Ticket) (qpc : Nat) (result : WaitResult) :
    Ended j.note_mutation ticket (j.end_wait ticket qpc result).1
      (j.end_wait ticket qpc result).2 := by
  unfold end_wait
  have hk := (noted_note_mutation j).inv hj
  generalize j.note_mutation = k at hk
  have hcompletion := completion_change hk ticket qpc .kWait
  dsimp only
  split
  · exact .refused (.refl k) (by simp)
  generalize k.completion ticket qpc .kWait = run at hcompletion
  obtain ⟨k₁, disposition⟩ := run
  rcases hcompletion with ⟨d, hd, hne, hnoted⟩ | ⟨hnone, howns, -, e, f, g, h⟩
  · obtain rfl : disposition = some d := hd
    exact .refused hnoted hne
  · obtain rfl : disposition = none := hnone
    have hid := (operation_of_owns hk howns).2
    have hfilled := h.setOperation (k := fun row => { row with wait_result := result })
      fun _ => ⟨⟨rfl, rfl, rfl, rfl, rfl, rfl, rfl, rfl, rfl⟩, rfl, rfl⟩
    rw [hid] at hfilled
    exact .recorded e qpc f _ howns (hfilled.after
      (((Noted.refl _).ite (noted_reject_argument _)).ite (noted_mark _ _)))

theorem end_unsupported_ended (hj : j.Inv) (ticket : Ticket) (qpc : Nat) :
    Ended j.note_mutation ticket (j.end_unsupported ticket qpc).1
      (j.end_unsupported ticket qpc).2 := by
  unfold end_unsupported
  have hk := (noted_note_mutation j).inv hj
  generalize j.note_mutation = k at hk
  dsimp only
  split
  · exact .refused (.refl k) (by simp)
  split
  · exact .refused (noted_mark _ _) (by simp)
  have hcompletion := completion_change hk ticket qpc (k.operation ticket.op_id).kind
  generalize k.completion ticket qpc (k.operation ticket.op_id).kind = run at hcompletion
  obtain ⟨k₁, disposition⟩ := run
  rcases hcompletion with ⟨d, hd, hne, hnoted⟩ | ⟨hnone, howns, -, e, f, g, h⟩
  · obtain rfl : disposition = some d := hd
    exact .refused hnoted hne
  · obtain rfl : disposition = none := hnone
    exact .recorded e qpc f g howns h

theorem noted_fail (j : Journal) : Noted j.note_mutation j.fail := by
  unfold fail
  exact (Noted.refl _).ite (noted_mark _ _)

/-- Admissions stop, or were stopped, or are never made. -/
theorem stop_cases (j : Journal) (qpc : Nat) : j.stop_admissions qpc = j ∨
    j.enabled = true ∧ j.stopped = false ∧
      Noted { j with stopped := true, cut_qpc := some qpc } (j.stop_admissions qpc) := by
  unfold stop_admissions
  split
  · exact .inl rfl
  rename_i henabled
  split
  · exact .inl rfl
  rename_i hopen
  exact .inr ⟨by simpa using henabled, by simpa using hopen,
    (((Noted.refl _).ite (noted_mark _ _)).ite (noted_mark _ _)).ite (noted_mark _ _)⟩

/-- Every call but a stop takes its note and makes one change. -/
theorem call_change (hj : j.Inv) (c : Call) :
    (∃ qpc, c = .stop_admissions qpc) ∨ Change j.note_mutation (j.call c) := by
  cases c with
  | create cookie qpc initial maximum origin =>
    exact .inr (create_change hj cookie qpc initial maximum origin)
  | destroy cookie qpc => exact .inr (destroy_change hj cookie qpc)
  | begin_release cookie tid handle qpc count context =>
    exact .inr (begin_release_change hj cookie tid handle qpc count context)
  | begin_wait cookie tid handle qpc timeout =>
    exact .inr (begin_wait_change hj cookie tid handle qpc timeout)
  | begin_unsupported cookie tid handle qpc kind =>
    exact .inr (begin_unsupported_change hj cookie tid handle qpc kind)
  | end_release ticket qpc success previous =>
    exact .inr (end_release_ended hj ticket qpc success previous).change
  | end_wait ticket qpc result => exact .inr (end_wait_ended hj ticket qpc result).change
  | end_unsupported ticket qpc => exact .inr (end_unsupported_ended hj ticket qpc).change
  | fail => exact .inr (.noted (noted_fail j))
  | stop_admissions qpc => exact .inl ⟨qpc, rfl⟩

theorem call_inv (hj : j.Inv) (c : Call) : (j.call c).Inv := by
  rcases call_change hj c with ⟨qpc, rfl⟩ | hchange
  · rcases stop_cases j qpc with heq | ⟨-, -, hnoted⟩
    · show (j.stop_admissions qpc).Inv
      rwa [heq]
    · exact hnoted.inv { hj with }
  · exact hchange.inv ((noted_note_mutation j).inv hj)

theorem init_rows (self : Nat) (window : Window) (enabled : Bool) (last : Nat) :
    (init self window enabled last).epochs = [] ∧ (init self window enabled last).operations = [] ∧
      (init self window enabled last).counts = {} ∧ (init self window enabled last).pending = 0 ∧
      (init self window enabled last).stopped = false ∧
      (init self window enabled last).window = window := by
  unfold init
  dsimp only
  split <;> split <;> (try split) <;> exact ⟨rfl, rfl, rfl, rfl, rfl, rfl⟩

theorem init_inv (self : Nat) (window : Window) (enabled : Bool) (last : Nat) :
    (init self window enabled last).Inv := by
  obtain ⟨hepochs, hoperations, hcounts, hpending, -⟩ := init_rows self window enabled last
  constructor <;> simp [hepochs, hoperations, hcounts, hpending, numbered_nil, kOperationCapacity]

theorem calls_inv (hj : j.Inv) (cs : List Call) : (j.calls cs).Inv := by
  induction cs generalizing j with
  | nil => exact hj
  | cons c cs ih => exact ih (call_inv hj c)

theorem run_inv (self : Nat) (window : Window) (enabled : Bool) (last : Nat) (cs : List Call) :
    ((init self window enabled last).calls cs).Inv :=
  calls_inv (init_inv self window enabled last) cs

/-- A ticket that an `end` method refuses changes no row and no counter. -/
theorem Ended.frame {d : Disposition} (h : Ended j ticket j' d)
    (hstale : ¬ (j.owns ticket = true ∧ (j.operation ticket.op_id).completed = false)) :
    Noted j j' := by
  cases h with
  | refused h hd => exact h
  | recorded e qpc f g howns h => exact absurd ⟨howns, h.pending⟩ hstale

/-- A ticket of another journal, of another life of this one, of no row, or of an operation
that was completed already. -/
def Spent (j : Journal) (ticket : Ticket) : Prop :=
  ticket.owner ≠ some j.self ∨ ticket.generation ≠ j.generation ∨ ticket.op_id = 0 ∨
    j.counts.stored_operations < ticket.op_id ∨ (j.operation ticket.op_id).completed = true

theorem Spent.stale (h : j.Spent ticket) : ¬ (j.note_mutation.owns ticket = true ∧
    (j.note_mutation.operation ticket.op_id).completed = false) := by
  rintro ⟨howns, hpending⟩
  have hnoted := noted_note_mutation j
  obtain ⟨howner, -, hgeneration, hrow, hstored, -⟩ := of_decide_eq_true howns
  rw [hnoted.self] at howner
  rw [hnoted.generation] at hgeneration
  rw [hnoted.counts] at hstored
  rw [operation, hnoted.operations] at hpending
  rcases h with h | h | h | h | h
  · exact h howner
  · exact h hgeneration
  · exact hrow h
  · exact Nat.not_lt.mpr hstored h
  · rw [operation] at h
    rw [h] at hpending
    cases hpending

/-- The tables and their counters. -/
def tables (j : Journal) : List Epoch × List Operation × Counts × Nat :=
  (j.epochs, j.operations, j.counts, j.pending)

theorem Noted.tables (h : Noted j j₁) : j₁.tables = j.tables := by
  unfold Journal.tables
  rw [h.epochs, h.operations, h.counts, h.pending]

theorem end_frame (hj : j.Inv) (h : j.Spent ticket) (qpc : Nat) :
    (∀ success previous, (j.end_release ticket qpc success previous).1.tables = j.tables) ∧
      (∀ result, (j.end_wait ticket qpc result).1.tables = j.tables) ∧
      (j.end_unsupported ticket qpc).1.tables = j.tables := by
  have hnote := (noted_note_mutation j).tables
  refine ⟨fun success previous => ?_, fun result => ?_, ?_⟩
  · exact ((end_release_ended hj ticket qpc success previous).frame h.stale).tables.trans hnote
  · exact ((end_wait_ended hj ticket qpc result).frame h.stale).tables.trans hnote
  · exact ((end_unsupported_ended hj ticket qpc).frame h.stale).tables.trans hnote

/-- The counters agree with the tables, and a spent ticket changes neither. -/
structure Accounted (j : Journal) : Prop where
  observed : j.counts.observed_operations =
    j.counts.stored_operations + j.counts.overflow_operations
  stored : j.counts.stored_operations = j.operations.length
  completed : j.counts.completed_operations = j.operations.countP (·.completed)
  stored_eq : j.counts.stored_operations = j.counts.completed_operations + j.pending
  epochs_operations : j.counts.stored_operations =
    (j.epochs.map fun e => j.operations.countP fun o => o.epoch_id = e.epoch_id).sum
  epochs_pending : j.pending = (j.epochs.map Epoch.pending_operations).sum
  epoch_pending : ∀ e ∈ j.epochs, e.pending_operations =
    j.operations.countP fun o => o.epoch_id = e.epoch_id ∧ !o.completed
  operation_ids : ∀ i o, j.operations[i]? = some o → o.op_id = i + 1
  epoch_ids : ∀ i e, j.epochs[i]? = some e → e.epoch_id = i + 1
  operation_epoch : ∀ o ∈ j.operations, 1 ≤ o.epoch_id ∧ o.epoch_id ≤ j.epochs.length
  operations_le : j.operations.length ≤ kOperationCapacity
  epochs_le : j.epochs.length ≤ kEpochCapacity
  live : ∀ e ∈ j.epochs, ∀ e' ∈ j.epochs, e.object_cookie = e'.object_cookie →
    e.destroy_qpc = none → e'.destroy_qpc = none → e = e'
  spent : ∀ ticket, j.Spent ticket → ∀ qpc,
    (∀ success previous, (j.end_release ticket qpc success previous).1.tables = j.tables) ∧
      (∀ result, (j.end_wait ticket qpc result).1.tables = j.tables) ∧
      (j.end_unsupported ticket qpc).1.tables = j.tables

/-- After any calls of a journal its counters agree with its tables. -/
theorem counters (self : Nat) (window : Window) (enabled : Bool) (last : Nat) (cs : List Call) :
    ((init self window enabled last).calls cs).Accounted := by
  have hj := run_inv self window enabled last cs
  generalize (init self window enabled last).calls cs = j at hj
  exact {
    observed := hj.observed
    stored := hj.stored
    completed := hj.completed
    stored_eq := by
      rw [hj.stored, hj.completed, hj.pending]
      have hsplit := length_eq_countP_add_countP Operation.completed (l := j.operations)
      simpa using hsplit
    epochs_operations := by
      have hsum := hj.epoch_ids.sum_countP Operation.epoch_id (fun _ => true) j.operations
        hj.operation_epoch
      rw [hj.stored]
      simpa using hsum.symm
    epochs_pending := by
      have hsum := hj.epoch_ids.sum_countP Operation.epoch_id (fun o => !o.completed) j.operations
        hj.operation_epoch
      rw [hj.pending, ← hsum]
      congr 1
      exact (map_congr_left hj.epoch_pending).symm
    epoch_pending := hj.epoch_pending
    operation_ids := hj.operation_ids
    epoch_ids := hj.epoch_ids
    operation_epoch := hj.operation_epoch
    operations_le := by
      rw [← hj.stored]
      exact hj.stored_le
    epochs_le := hj.epochs_le
    live := fun e he e' he' => hj.live he he'
    spent := fun ticket h qpc => end_frame hj h qpc }

end Journal
end Mcla.Semaphore

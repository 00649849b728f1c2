import Mcla.Semaphore.JournalRows

/-! # The semaphore observer: rows and their tickets

A row is never taken back, and once completed it is fixed.  A valid ticket is that of the row
its call has stored.
-/
namespace Mcla.Semaphore
open NumberedTable List
namespace Journal
variable {j j' j'' : Journal}

/-- What no call undoes. -/
structure Grown (j j' : Journal) : Prop where
  enabled : j'.enabled = j.enabled
  issues : j'.issues = 0 → j.issues = 0
  rows : ∀ (i : Nat) row, j.operations[i]? = some row → ∃ row', j'.operations[i]? = some row' ∧
    SameOperation row row' ∧ (row.completed = true → row' = row)

theorem SameOperation.refl (o : Operation) : SameOperation o o :=
  ⟨rfl, rfl, rfl, rfl, rfl, rfl, rfl, rfl, rfl⟩

theorem SameOperation.trans {o o' o'' : Operation} (h : SameOperation o o')
    (h' : SameOperation o' o'') : SameOperation o o'' where
  op_id := h'.op_id.trans h.op_id
  epoch_id := h'.epoch_id.trans h.epoch_id
  entry_qpc := h'.entry_qpc.trans h.entry_qpc
  native_thread_id := h'.native_thread_id.trans h.native_thread_id
  guest_handle := h'.guest_handle.trans h.guest_handle
  kind := h'.kind.trans h.kind
  release_count := h'.release_count.trans h.release_count
  context := h'.context.trans h.context
  timeout_kind := h'.timeout_kind.trans h.timeout_kind

theorem Grown.trans (h : Grown j j') (h' : Grown j' j'') : Grown j j'' where
  enabled := h'.enabled.trans h.enabled
  issues hzero := h.issues (h'.issues hzero)
  rows i row hrow := by
    obtain ⟨row', hrow', hsame, hfixed⟩ := h.rows i row hrow
    obtain ⟨row'', hrow'', hsame', hfixed'⟩ := h'.rows i row' hrow'
    refine ⟨row'', hrow'', hsame.trans hsame', fun hdone => ?_⟩
    obtain rfl := hfixed hdone
    exact hfixed' hdone

theorem Grown.of_rows (henabled : j'.enabled = j.enabled) (hissues : j'.issues = 0 → j.issues = 0)
    (hrows : j'.operations = j.operations) : Grown j j' where
  enabled := henabled
  issues := hissues
  rows i row hrow := ⟨row, by rw [hrows]; exact hrow, .refl row, fun _ => rfl⟩

theorem Grown.refl (j : Journal) : Grown j j := .of_rows rfl id rfl

theorem Noted.grown (h : Noted j j') : Grown j j' := .of_rows h.enabled h.issues h.operations

theorem Change.grown (hj : j.Inv) (h : Change j j') : Grown j j' := by
  cases h with
  | noted h => exact h.grown
  | created row h => exact .of_rows h.enabled h.issues h.operations
  | destroyed e qpc f h => exact .of_rows h.enabled h.issues h.operations
  | overflowed id f h => exact .of_rows h.enabled h.issues h.operations
  | begun e row f h =>
    refine ⟨h.noted.enabled, h.noted.issues, fun i row' hrow => ⟨row', ?_, .refl row', fun _ => rfl⟩⟩
    have hlt : i < j.operations.length := (List.getElem?_eq_some_iff.mp hrow).1
    rw [h.noted.operations]
    show (j.operations ++ [row])[i]? = some row'
    rw [getElem?_append_left hlt]
    exact hrow
  | completed o e qpc f g h =>
    have hget := hj.operation_ids.get h.mem
    refine ⟨h.noted.enabled, h.noted.issues, fun i row hrow => ?_⟩
    rw [h.noted.operations]
    show ∃ row', (j.operations.modify (o.op_id - 1) g)[i]? = some row' ∧ _
    rw [getElem?_modify, hrow]
    by_cases hi : o.op_id - 1 = i
    · subst hi
      obtain rfl : o = row := Option.some.inj (hget.symm.trans hrow)
      refine ⟨g o, by simp, (h.operation o).1, fun hdone => ?_⟩
      rw [h.pending] at hdone
      cases hdone
    · exact ⟨row, by simp [hi], .refl row, fun _ => rfl⟩

theorem call_grown (hj : j.Inv) (c : Call) : Grown j (j.call c) := by
  rcases call_change hj c with ⟨qpc, rfl⟩ | hchange
  · rcases stop_cases j qpc with heq | ⟨-, -, hnoted⟩
    · show Grown j (j.stop_admissions qpc)
      rw [heq]
      exact .refl j
    · exact .of_rows hnoted.enabled hnoted.issues hnoted.operations
  · have hnoted := noted_note_mutation j
    exact hnoted.grown.trans (hchange.grown (hnoted.inv hj))

/-- The index of the row that an operation has begun with. -/
theorem Begun.index (hj : j.Inv) {e : Epoch} {row : Operation} {f : Epoch → Epoch}
    (h : Begun j e row f j') : j'.operations[row.op_id - 1]? = some row := by
  have hobserved := hj.observed
  have hnone := hj.overflow h.room
  have hstored := hj.stored
  have hid := h.op_id
  have hindex : row.op_id - 1 = j.operations.length := by omega
  rw [h.noted.operations, hindex]
  exact getElem?_concat_length

/-- What a `begin` method answers: no ticket, or that of the row it has stored. -/
inductive Issued (context : ReleaseContext) (j' : Journal) (result : BeginResult) : Prop where
  | refused (hinvalid : result.ticket.valid = false)
  | recorded (row : Operation) (hrow : j'.operations[result.ticket.op_id - 1]? = some row)
      (hcontext : row.context = context)

theorem begin_release_issued (hj : j.Inv) (cookie tid : Nat) (handle : Option Nat) (qpc count : Nat)
    (context : ReleaseContext) : Issued context (j.begin_release cookie tid handle qpc count context).1
      (j.begin_release cookie tid handle qpc count context).2 := by
  unfold begin_release
  have hk := (noted_note_mutation j).inv hj
  have hbegin := beginOperation_change hk cookie tid handle qpc .kRelease
  generalize j.note_mutation = k at hk hbegin
  dsimp only
  generalize k.beginOperation cookie tid handle qpc .kRelease = run at hbegin
  rcases hbegin with ⟨hinvalid, -⟩ | ⟨e, row, f, hbegun, -, -, hresult, hvalid⟩
  · rw [if_neg (by simp [hinvalid])]
    exact .refused hinvalid
  · have hop : run.2.ticket.op_id = row.op_id := by rw [hresult]
    rw [if_pos hvalid, hop]
    dsimp only
    have hfilled := hbegun.setOperation hk
      (g := fun row => { row with release_count := count, context }) rfl rfl rfl rfl
    refine .recorded { row with release_count := count, context } ?_ rfl
    rw [hop]
    exact (hfilled.after ((Noted.refl _).ite (noted_reject_argument _))).index hk

theorem begin_wait_issued (hj : j.Inv) (cookie tid : Nat) (handle : Option Nat) (qpc : Nat)
    (timeout : TimeoutKind) : Issued {} (j.begin_wait cookie tid handle qpc timeout).1
      (j.begin_wait cookie tid handle qpc timeout).2 := by
  unfold begin_wait
  have hk := (noted_note_mutation j).inv hj
  have hbegin := beginOperation_change hk cookie tid handle qpc .kWait
  generalize j.note_mutation = k at hk hbegin
  dsimp only
  generalize k.beginOperation cookie tid handle qpc .kWait = run at hbegin
  rcases hbegin with ⟨hinvalid, -⟩ | ⟨e, row, f, hbegun, -, hrow, hresult, hvalid⟩
  · rw [if_neg (by simp [hinvalid])]
    exact .refused hinvalid
  · have hop : run.2.ticket.op_id = row.op_id := by rw [hresult]
    have hcontext : row.context = {} := by rw [hrow]
    rw [if_pos hvalid, hop]
    dsimp only
    have hfilled := hbegun.setOperation hk
      (g := fun row => { row with timeout_kind := timeout }) rfl rfl rfl rfl
    refine .recorded { row with timeout_kind := timeout } ?_ hcontext
    rw [hop]
    exact (hfilled.after ((Noted.refl _).ite (noted_reject_argument _))).index hk

theorem begin_unsupported_issued (hj : j.Inv) (cookie tid : Nat) (handle : Option Nat) (qpc : Nat)
    (kind : Kind) : Issued {} (j.begin_unsupported cookie tid handle qpc kind).1
      (j.begin_unsupported cookie tid handle qpc kind).2 := by
  unfold begin_unsupported
  have hk := (noted_note_mutation j).inv hj
  have hbegin := beginOperation_change hk cookie tid handle qpc kind
  generalize j.note_mutation = k at hk hbegin
  dsimp only
  split
  · exact .refused rfl
  split
  · exact .refused rfl
  generalize k.beginOperation cookie tid handle qpc kind = run at hbegin
  rcases hbegin with ⟨hinvalid, -⟩ | ⟨e, row, f, hbegun, -, hrow, hresult, hvalid⟩
  · rw [if_neg (by simp [hinvalid])]
    exact .refused hinvalid
  · have hop : run.2.ticket.op_id = row.op_id := by rw [hresult]
    have hcontext : row.context = {} := by rw [hrow]
    have hepoch : run.2.ticket.epoch_id = e.epoch_id := by rw [hresult, hbegun.epoch_id]
    rw [if_pos hvalid, hepoch]
    refine .recorded row ?_ hcontext
    rw [hop]
    exact ((hbegun.setEpoch flagOnly_incomplete).after (noted_mark _ _)).index hk

/-- The row that a recorded end of a wait has completed. -/
theorem end_wait_row (hj : j.Inv) {ticket : Ticket} {qpc : Nat} {result : WaitResult}
    (h : (j.end_wait ticket qpc result).2 = .kRecorded) :
    ticket.op_id ≠ 0 ∧ ∃ row, (j.end_wait ticket qpc result).1.operations[ticket.op_id - 1]? =
      some row ∧ row.completed = true ∧ row.kind = .kWait ∧ row.wait_result = result := by
  unfold end_wait at h ⊢
  have hk := (noted_note_mutation j).inv hj
  generalize j.note_mutation = k at hk h ⊢
  have hcompletion := completion_change hk ticket qpc .kWait
  dsimp only at h ⊢
  split at h
  · cases h
  rename_i henabled
  rw [if_neg henabled]
  generalize k.completion ticket qpc .kWait = run at hcompletion h ⊢
  obtain ⟨k₁, disposition⟩ := run
  rcases hcompletion with ⟨d, hd, hne, -⟩ | ⟨hnone, howns, hkind, e, f, g, hcompleted⟩
  · obtain rfl : disposition = some d := hd
    exact absurd h hne
  · obtain rfl : disposition = none := hnone
    obtain ⟨ho, hid⟩ := operation_of_owns hk howns
    have hget := hk.operation_ids.get ho
    obtain ⟨-, -, -, hne, -⟩ := of_decide_eq_true howns
    have hfilled := hcompleted.setOperation (k := fun row => { row with wait_result := result })
      fun _ => ⟨⟨rfl, rfl, rfl, rfl, rfl, rfl, rfl, rfl, rfl⟩, rfl, rfl⟩
    rw [hid] at hfilled hget
    obtain ⟨hsame, hdone, -⟩ := hfilled.operation (k.operation ticket.op_id)
    have hrow : ∀ j', Noted (k₁.setOperation ticket.op_id fun row =>
        { row with wait_result := result }) j' → j'.operations[ticket.op_id - 1]? =
          some { g (k.operation ticket.op_id) with wait_result := result } := by
      intro j' hnoted
      rw [(hfilled.after hnoted).noted.operations, hid]
      show (k.operations.modify _ _)[_]? = _
      rw [getElem?_modify, hget]
      simp
    exact ⟨hne, _, hrow _ (((Noted.refl _).ite (noted_reject_argument _)).ite (noted_mark _ _)),
      hdone, hsame.kind.trans hkind, rfl⟩

end Journal
end Mcla.Semaphore

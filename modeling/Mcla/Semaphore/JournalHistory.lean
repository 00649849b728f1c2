import Mcla.Semaphore.JournalRows

/-! # The semaphore observer: complete histories

A journal without an issue has seen only well-ordered rows: that is carried through every
change, and a complete history is one without an issue whose operations have all ended.
-/
namespace Mcla.Semaphore
open NumberedTable List
namespace Journal
variable {j j' : Journal}

/-- What the rows of a journal without an issue are like. -/
structure Ordered (j : Journal) : Prop where
  epoch : ∀ e ∈ j.epochs, j.InWindow e.creation_qpc ∧ e.origin = .kFresh ∧ e.initial_count = 0 ∧
    ∀ d, e.destroy_qpc = some d → j.InWindow d ∧ e.creation_qpc < d
  entry : ∀ o ∈ j.operations, ∀ e ∈ j.epochs, o.epoch_id = e.epoch_id →
    j.InWindow o.entry_qpc ∧ e.creation_qpc < o.entry_qpc
  exit : ∀ o ∈ j.operations, o.completed = true → ∀ e ∈ j.epochs, o.epoch_id = e.epoch_id →
    j.InWindow o.exit_qpc ∧ o.entry_qpc ≤ o.exit_qpc ∧
      o.exit_qpc ≤ j.last_completed_exit (e.epoch_id - 1) ∧
      ∀ d, e.destroy_qpc = some d → o.exit_qpc < d

theorem Noted.ordered (h : Noted j j') (hj : j.Ordered) : j'.Ordered where
  epoch := by
    simp only [h.epochs, InWindow, h.window]
    exact hj.epoch
  entry := by
    simp only [h.epochs, h.operations, InWindow, h.window]
    exact hj.entry
  exit := by
    simp only [h.epochs, h.operations, h.last_completed_exit, InWindow, h.window]
    exact hj.exit

theorem Change.issues (h : Change j j') (hzero : j'.issues = 0) : j.issues = 0 := by
  cases h with
  | noted h => exact h.issues hzero
  | created row h => exact h.issues hzero
  | destroyed e qpc f h => exact h.issues hzero
  | overflowed id f h => exact h.issues hzero
  | begun e row f h => exact h.noted.issues hzero
  | completed o e qpc f g h => exact h.noted.issues hzero

theorem le_update_max (last : Nat → Nat) (i qpc k : Nat) :
    last k ≤ Function.update last i (max (last i) qpc) k := by
  by_cases hk : k = i
  · subst hk
    rw [Function.update_self]
    exact le_max_left _ _
  · rw [Function.update_of_ne hk]

theorem le_update_max_self (last : Nat → Nat) (i qpc : Nat) :
    qpc ≤ Function.update last i (max (last i) qpc) i := by
  rw [Function.update_self]
  exact le_max_right _ _

variable {f : Epoch → Epoch}

/-- An epoch of the rows after one of them was changed but for its pending count. -/
theorem old_epoch {rows : List Epoch} {i : Nat}
    (hf : ∀ e, SameEpoch e (f e) ∧ (f e).destroy_qpc = e.destroy_qpc) {e' : Epoch}
    (he' : e' ∈ rows.modify i f) : ∃ a ∈ rows, SameEpoch a e' ∧ e'.destroy_qpc = a.destroy_qpc := by
  rcases mem_modify he' with he' | ⟨a, ha, rfl⟩
  · exact ⟨e', he', ⟨rfl, rfl, rfl, rfl, rfl⟩, rfl⟩
  · exact ⟨a, mem_of_getElem? ha, hf a⟩

theorem Ordered.created (hj : j.Inv) (ho : j.Ordered) {row : Epoch}
    (hid : row.epoch_id = j.epochs.length + 1) (hdestroy : row.destroy_qpc = none)
    (hinside : j.InWindow row.creation_qpc) (hfresh : row.origin = .kFresh)
    (hinitial : row.initial_count = 0) :
    ({ j with epochs := j.epochs ++ [row] } : Journal).Ordered := by
  refine ⟨?_, ?_, ?_⟩
  · refine forall_mem_append.mpr ⟨ho.epoch, forall_mem_singleton.mpr ?_⟩
    refine ⟨hinside, hfresh, hinitial, fun d hd => ?_⟩
    rw [hdestroy] at hd
    cases hd
  · intro o hmem e he hown
    have hrange := hj.operation_epoch o hmem
    rcases mem_append.mp he with he | he
    · exact ho.entry o hmem e he hown
    · obtain rfl := mem_singleton.mp he
      omega
  · intro o hmem hdone e he hown
    have hrange := hj.operation_epoch o hmem
    rcases mem_append.mp he with he | he
    · exact ho.exit o hmem hdone e he hown
    · obtain rfl := mem_singleton.mp he
      omega

theorem Ordered.destroyed (hj : j.Inv) (ho : j.Ordered) {e : Epoch} {qpc : Nat} (he : e ∈ j.epochs)
    (hf : ∀ e, SameEpoch e (f e) ∧ (f e).destroy_qpc = some qpc ∧
      (f e).pending_operations = e.pending_operations) (hinside : j.InWindow qpc)
    (hlong : e.creation_qpc < qpc) (hlast : j.last_completed_exit (e.epoch_id - 1) < qpc) :
    (j.setEpoch e.epoch_id f).Ordered := by
  have hget := hj.epoch_ids.get he
  refine ⟨?_, ?_, ?_⟩
  · intro e' he'
    rcases mem_modify he' with he' | ⟨a, ha, rfl⟩
    · exact ho.epoch e' he'
    · obtain rfl : a = e := Option.some.inj (ha.symm.trans hget)
      obtain ⟨hsame, hdestroy, -⟩ := hf a
      obtain ⟨hcreated, hfresh, hinitial, -⟩ := ho.epoch a he
      refine ⟨?_, hsame.origin.trans hfresh, hsame.initial_count.trans hinitial, fun d hd => ?_⟩
      · rw [hsame.creation_qpc]
        exact hcreated
      · obtain rfl : qpc = d := Option.some.inj (hdestroy.symm.trans hd)
        exact ⟨hinside, by rwa [hsame.creation_qpc]⟩
  · intro o hmem e' he' hown
    rcases mem_modify he' with he' | ⟨a, ha, rfl⟩
    · exact ho.entry o hmem e' he' hown
    · obtain ⟨hsame, -⟩ := hf a
      rw [hsame.epoch_id] at hown
      rw [hsame.creation_qpc]
      exact ho.entry o hmem a (mem_of_getElem? ha) hown
  · intro o hmem hdone e' he' hown
    rcases mem_modify he' with he' | ⟨a, ha, rfl⟩
    · exact ho.exit o hmem hdone e' he' hown
    · obtain rfl : a = e := Option.some.inj (ha.symm.trans hget)
      obtain ⟨hsame, hdestroy, -⟩ := hf a
      rw [hsame.epoch_id] at hown
      obtain ⟨hexit, hordered, hle, -⟩ := ho.exit o hmem hdone a he hown
      rw [hsame.epoch_id]
      refine ⟨hexit, hordered, hle, fun d hd => ?_⟩
      obtain rfl : qpc = d := Option.some.inj (hdestroy.symm.trans hd)
      exact Nat.lt_of_le_of_lt hle hlast

theorem Begun.ordered {e : Epoch} {row : Operation} (hj : j.Inv) (ho : j.Ordered)
    (h : Begun j e row f j') (hzero : j'.issues = 0) : j'.Ordered := by
  obtain ⟨hinside, hafter⟩ := h.good hzero
  have hepoch := fun e => And.intro (h.epoch e).1 (h.epoch e).2.1
  have hget := hj.epoch_ids.get h.mem
  refine h.noted.ordered ⟨?_, ?_, ?_⟩
  · intro e' he'
    obtain ⟨a, ha, hsame, hdestroy⟩ := old_epoch hepoch he'
    rw [hsame.creation_qpc, hsame.origin, hsame.initial_count, hdestroy]
    exact ho.epoch a ha
  · intro o hmem e' he' hown
    obtain ⟨a, ha, hsame, -⟩ := old_epoch hepoch he'
    rw [hsame.epoch_id] at hown
    rw [hsame.creation_qpc]
    rcases mem_append.mp hmem with hmem | hmem
    · exact ho.entry o hmem a ha hown
    · obtain rfl := mem_singleton.mp hmem
      obtain rfl : a = e := hj.epoch_ids.inj ha h.mem (hown.symm.trans h.epoch_id)
      exact ⟨hinside, hafter⟩
  · intro o hmem hdone e' he' hown
    obtain ⟨a, ha, hsame, hdestroy⟩ := old_epoch hepoch he'
    rw [hsame.epoch_id] at hown
    rw [hdestroy, hsame.epoch_id]
    rcases mem_append.mp hmem with hmem | hmem
    · exact ho.exit o hmem hdone a ha hown
    · obtain rfl := mem_singleton.mp hmem
      rw [h.pending] at hdone
      cases hdone

theorem Completed.ordered {o : Operation} {e : Epoch} {qpc : Nat} {g : Operation → Operation}
    (hj : j.Inv) (ho : j.Ordered) (h : Completed j o e qpc f g j') (hzero : j'.issues = 0) :
    j'.Ordered := by
  obtain ⟨hinside, hordered, hbefore⟩ := h.good hzero
  have hepoch := fun e => And.intro (h.epoch e).1 (h.epoch e).2.1
  have hget := hj.operation_ids.get h.mem
  have hwindow : j'.window = j.window := h.noted.window
  have hepochs : j'.epochs = j.epochs.modify (e.epoch_id - 1) f := h.noted.epochs
  have hoperations : j'.operations = j.operations.modify (o.op_id - 1) g := h.noted.operations
  have hlast : j'.last_completed_exit = Function.update j.last_completed_exit (e.epoch_id - 1)
    (max (j.last_completed_exit (e.epoch_id - 1)) qpc) := h.noted.last_completed_exit
  constructor <;> simp only [hepochs, hoperations, hlast, InWindow, hwindow]
  · intro e' he'
    obtain ⟨a, ha, hsame, hdestroy⟩ := old_epoch hepoch he'
    rw [hsame.creation_qpc, hsame.origin, hsame.initial_count, hdestroy]
    exact ho.epoch a ha
  · intro o' hmem e' he' hown
    obtain ⟨a, ha, hsame, -⟩ := old_epoch hepoch he'
    rw [hsame.epoch_id] at hown
    rw [hsame.creation_qpc]
    rcases mem_modify hmem with hmem | ⟨b, hb, rfl⟩
    · exact ho.entry o' hmem a ha hown
    · obtain ⟨hrow, -⟩ := h.operation b
      rw [hrow.epoch_id] at hown
      rw [hrow.entry_qpc]
      exact ho.entry b (mem_of_getElem? hb) a ha hown
  · intro o' hmem hdone e' he' hown
    obtain ⟨a, ha, hsame, hdestroy⟩ := old_epoch hepoch he'
    rw [hsame.epoch_id] at hown
    rw [hdestroy, hsame.epoch_id]
    rcases mem_modify hmem with hmem | ⟨b, hb, rfl⟩
    · obtain ⟨hexit, horder, hle, hend⟩ := ho.exit o' hmem hdone a ha hown
      exact ⟨hexit, horder, hle.trans (le_update_max _ _ _ _), hend⟩
    · obtain rfl : b = o := Option.some.inj (hb.symm.trans hget)
      obtain ⟨hrow, -, hexit⟩ := h.operation b
      rw [hrow.epoch_id] at hown
      obtain rfl : a = e := hj.epoch_ids.inj ha h.mem_epoch (hown.symm.trans h.own)
      rw [hexit, hrow.entry_qpc]
      exact ⟨hinside, hordered, le_update_max_self _ _ _, hbefore⟩

/-- The rows stay well ordered as long as no issue is raised. -/
theorem Change.ordered (hj : j.Inv) (ho : j.Ordered) (h : Change j j') (hzero : j'.issues = 0) :
    j'.Ordered := by
  cases h with
  | noted h => exact h.ordered ho
  | overflowed id f h hopen hroom hfull hf hbad => exact absurd hzero hbad
  | created row h hopen hid hpending hdestroy hroom hreuse hgood =>
    obtain ⟨hinside, hfresh, hinitial⟩ := hgood hzero
    exact h.ordered (ho.created hj hid hdestroy hinside hfresh hinitial)
  | destroyed e qpc f h hopen he hlive hf hgood =>
    obtain ⟨hinside, hlong, -, hlast⟩ := hgood hzero
    exact h.ordered (ho.destroyed hj he hf hinside hlong hlast)
  | begun e row f h => exact h.ordered hj ho hzero
  | completed o e qpc f g h => exact h.ordered hj ho hzero

theorem call_ordered (hj : j.Inv) (ho : j.Ordered) (c : Call) (hzero : (j.call c).issues = 0) :
    (j.call c).Ordered := by
  rcases call_change hj c with ⟨qpc, rfl⟩ | hchange
  · rcases stop_cases j qpc with heq | ⟨-, -, hnoted⟩
    · show (j.stop_admissions qpc).Ordered
      rwa [heq]
    · exact hnoted.ordered ⟨ho.epoch, ho.entry, ho.exit⟩
  · have hnoted := noted_note_mutation j
    exact hchange.ordered (hnoted.inv hj) (hnoted.ordered ho) hzero

theorem call_issues (hj : j.Inv) (c : Call) (hzero : (j.call c).issues = 0) : j.issues = 0 := by
  rcases call_change hj c with ⟨qpc, rfl⟩ | hchange
  · rcases stop_cases j qpc with heq | ⟨-, -, hnoted⟩
    · rw [Journal.call, heq] at hzero
      exact hzero
    · exact hnoted.issues hzero
  · exact (noted_note_mutation j).issues (hchange.issues hzero)

theorem calls_issues (hj : j.Inv) (cs : List Call) (hzero : (j.calls cs).issues = 0) :
    j.issues = 0 := by
  induction cs generalizing j with
  | nil => exact hzero
  | cons c cs ih => exact call_issues hj c (ih (call_inv hj c) hzero)

theorem calls_ordered (hj : j.Inv) (ho : j.Ordered) (cs : List Call)
    (hzero : (j.calls cs).issues = 0) : (j.calls cs).Ordered := by
  induction cs generalizing j with
  | nil => exact ho
  | cons c cs ih =>
    have hnext := call_inv hj c
    exact ih hnext (call_ordered hj ho c (calls_issues hnext cs hzero)) hzero

theorem init_ordered (self : Nat) (window : Window) (enabled : Bool) (last : Nat) :
    (init self window enabled last).Ordered := by
  obtain ⟨hepochs, hoperations, -⟩ := init_rows self window enabled last
  constructor <;> simp [hepochs, hoperations]

theorem run_ordered (self : Nat) (window : Window) (enabled : Bool) (last : Nat) (cs : List Call)
    (hzero : ((init self window enabled last).calls cs).issues = 0) :
    ((init self window enabled last).calls cs).Ordered :=
  calls_ordered (init_inv self window enabled last) (init_ordered self window enabled last) cs hzero

/-- What a complete history is: every operation has ended within its epoch's life and within
the window, every epoch was created fresh and without credits, and the lives of two epochs of
one cookie do not meet. -/
structure Complete (j : Journal) : Prop where
  operations : ∀ o ∈ j.operations, o.completed = true ∧ o.entry_qpc ≤ o.exit_qpc ∧
    j.InWindow o.entry_qpc ∧ j.InWindow o.exit_qpc ∧
    ∃ e ∈ j.epochs, e.epoch_id = o.epoch_id ∧ e.creation_qpc < o.entry_qpc ∧
      ∀ d, e.destroy_qpc = some d → o.exit_qpc < d
  epochs : ∀ e ∈ j.epochs, e.origin = .kFresh ∧ e.initial_count = 0 ∧
    j.InWindow e.creation_qpc ∧ ∀ d, e.destroy_qpc = some d → j.InWindow d ∧ e.creation_qpc < d
  lifetimes : ∀ e ∈ j.epochs, ∀ e' ∈ j.epochs, e.object_cookie = e'.object_cookie → e ≠ e' →
    (∃ d, e.destroy_qpc = some d ∧ d < e'.creation_qpc) ∨
      ∃ d, e'.destroy_qpc = some d ∧ d < e.creation_qpc

/-- A journal that says its history is complete has a complete history. -/
theorem complete_of_history_complete (self : Nat) (window : Window) (enabled : Bool) (last : Nat)
    (cs : List Call) (h : ((init self window enabled last).calls cs).history_complete = true) :
    ((init self window enabled last).calls cs).Complete := by
  obtain ⟨-, -, -, -, hdrained, hzero⟩ := of_decide_eq_true h
  have hj := run_inv self window enabled last cs
  have hordered := run_ordered self window enabled last cs hzero
  have hnone := of_decide_eq_true hdrained
  generalize (init self window enabled last).calls cs = j at hj hordered hnone
  have hcompleted : ∀ o ∈ j.operations, o.completed = true := by
    rw [hj.pending, countP_eq_zero] at hnone
    intro o ho
    simpa using hnone o ho
  refine ⟨fun o ho => ?_, fun e he => ?_, fun e he e' he' hcookie hne => ?_⟩
  · obtain ⟨he, hid⟩ := epoch_of_range hj (hj.operation_epoch o ho)
    obtain ⟨hentry, hafter⟩ := hordered.entry o ho _ he hid.symm
    obtain ⟨hexit, hle, -, hbefore⟩ := hordered.exit o ho (hcompleted o ho) _ he hid.symm
    exact ⟨hcompleted o ho, hle, hentry, hexit, _, he, hid, hafter, hbefore⟩
  · obtain ⟨hcreated, hfresh, hinitial, hdestroyed⟩ := hordered.epoch e he
    exact ⟨hfresh, hinitial, hcreated, hdestroyed⟩
  · rcases Nat.lt_trichotomy e.epoch_id e'.epoch_id with hlt | heq | hlt
    · obtain ⟨d, hd, -, hbefore⟩ := hj.epoch_ids.of_pairwise hj.lifetimes he he' hlt hcookie
      exact .inl ⟨d, hd, hbefore⟩
    · exact absurd (hj.epoch_ids.inj he he' heq) hne
    · obtain ⟨d, hd, -, hbefore⟩ := hj.epoch_ids.of_pairwise hj.lifetimes he' he hlt hcookie.symm
      exact .inr ⟨d, hd, hbefore⟩

/-- A release and a wait, one after the other, on one semaphore. -/
theorem complete_of_history_complete_pair :
    ((init 1 ⟨10, 100, 1000⟩ true 0).calls
      [.create 7 20 0 5 .kFresh, .begin_release 7 1 none 30 1 {}, .begin_wait 7 2 none 31 .kInfinite,
        .end_release ⟨some 1, 1, 1, 1⟩ 32 true (some 0), .end_wait ⟨some 1, 1, 2, 1⟩ 33 .kSuccess,
        .destroy 7 40, .stop_admissions 100]).Complete :=
  complete_of_history_complete 1 ⟨10, 100, 1000⟩ true 0 _ (by decide +kernel)

end Journal
end Mcla.Semaphore

import Mcla.Semaphore.CollectorRuns

/-! # The semaphore collector: what a helper's scope witnesses

A scope that is not ambiguous has seen one admission at most, of its own cookie and kind.
That is kept through every callback, and with it what the scope says about its ticket.
-/
namespace Mcla.Semaphore
open Journal (Grown)
open List Option
namespace Collector
variable {c c' : Collector} {s : ScopedOperation} {extent : List Admitted}

/-- What the raw history says of a scope's ticket and of its extent. -/
structure Labels (c : Collector) (s : ScopedOperation) (extent : List Admitted) : Prop where
  failed : s.ticket ≠ 0 → ∃ row, c.journal.operations[s.ticket - 1]? = some row ∧
    (s.ambiguous = true → row.context.kind = .kUpdate → c.Failed)
  labelled : ∀ a ∈ extent, a.ticket ≠ 0 → ∃ row, c.journal.operations[a.ticket - 1]? = some row ∧
    (a.helper = true → row.context.kind = .kUpdate → s.ticket = a.ticket)

theorem Labels.mono (h : Labels c s extent) (hkept : Kept c c') : Labels c' s extent where
  failed hticket := by
    obtain ⟨row, hrow, hfailed⟩ := h.failed hticket
    obtain ⟨row', hrow', hsame, -⟩ := hkept.journal.rows _ _ hrow
    refine ⟨row', hrow', fun hambiguous hupdate => hkept.failed (hfailed hambiguous ?_)⟩
    rw [← hsame.context]
    exact hupdate
  labelled a ha hticket := by
    obtain ⟨row, hrow, hlabel⟩ := h.labelled a ha hticket
    obtain ⟨row', hrow', hsame, -⟩ := hkept.journal.rows _ _ hrow
    refine ⟨row', hrow', fun hhelper hupdate => hlabel hhelper ?_⟩
    rw [← hsame.context]
    exact hupdate

/-- What a scope of the collector says about its extent. -/
structure Ok (c : Collector) (s : ScopedOperation) (extent : List Admitted) : Prop where
  labels : Labels c s extent
  counted : s.ambiguous = false → s.begin_attempts = (live extent).length ∧
    (live extent).length ≤ 1 ∧ ∀ a ∈ live extent,
      a.value.cookie = s.intent.cookie ∧ a.value.kind = s.intent.expected_kind
  admitted : s.ambiguous = false → s.ticket ≠ 0 → ∃ a, live extent = [a] ∧ a.ticket = s.ticket
  waited : s.ambiguous = false → ∀ w, s.wait = some w → w.op_id = s.ticket ∧ s.ticket ≠ 0 ∧
    ∃ row, c.journal.operations[s.ticket - 1]? = some row ∧ row.completed = true ∧
      row.kind = .kWait ∧ row.wait_result = w.outcome

theorem Ok.mono (h : Ok c s extent) (hkept : Kept c c') : Ok c' s extent where
  labels := h.labels.mono hkept
  counted := h.counted
  admitted := h.admitted
  waited hclear w hw := by
    obtain ⟨hid, hticket, row, hrow, hdone, hkind, hresult⟩ := h.waited hclear w hw
    obtain ⟨row', hrow', -, hfixed⟩ := hkept.journal.rows _ _ hrow
    obtain rfl := hfixed hdone
    exact ⟨hid, hticket, row', hrow', hdone, hkind, hresult⟩

/-- A scope that has just been entered. -/
theorem ok_enter (c : Collector) (owner : Nat) (intent : OperationIntent) :
    Ok c { owner, intent } [] where
  labels := ⟨fun hticket => absurd rfl hticket, by simp⟩
  counted _ := ⟨rfl, Nat.zero_le 1, by simp [live]⟩
  admitted _ hticket := absurd rfl hticket
  waited _ _ hw := by cases hw

theorem live_append (extent : List Admitted) (a : Admitted) :
    live (extent ++ [a]) = if a.late then live extent else live extent ++ [a] := by
  unfold live
  rw [filter_append]
  cases hlate : a.late <;> simp [hlate]

/-- An admission that came too late is not counted. -/
theorem Ok.late (h : Ok c s extent) (value : Witness.Admission) (helper : Bool) :
    Ok c s (extent ++ [⟨value, true, helper, 0⟩]) := by
  have hlive : live (extent ++ [⟨value, true, helper, 0⟩]) = live extent := by
    rw [live_append, if_pos rfl]
  refine ⟨⟨h.labels.failed, ?_⟩, by rw [hlive]; exact h.counted, by rw [hlive]; exact h.admitted,
    h.waited⟩
  intro a ha hticket
  rcases mem_append.mp ha with ha | ha
  · exact h.labels.labelled a ha hticket
  · obtain rfl := mem_singleton.mp ha
    exact absurd rfl hticket

/-! ### The loop over the active scopes -/

/-- A scope after an admission was counted, before the admission has its ticket. -/
structure Counted (c : Collector) (s : ScopedOperation) (extent : List Admitted)
    (value : Witness.Admission) : Prop where
  labels : Labels c s extent
  fresh : s.ambiguous = false → s.ticket = 0 ∧ s.wait = none ∧ live extent = [] ∧
    s.begin_attempts = 1 ∧ value.cookie = s.intent.cookie ∧ value.kind = s.intent.expected_kind

variable {value : Witness.Admission} {extents : List (List Admitted)}
  {scopes : List ScopedOperation}

theorem Counted.mono (h : Counted c s extent value) (hkept : Kept c c') :
    Counted c' s extent value := ⟨h.labels.mono hkept, h.fresh⟩

/-- The admission gets a ticket, and the helper takes it as its own. -/
theorem Counted.ok (h : Counted c s extent value) (helper : Bool) {ticket own : Nat}
    (hrow : ticket ≠ 0 → ∃ row, c.journal.operations[ticket - 1]? = some row ∧
      (helper = true → row.context.kind = .kUpdate → s.ambiguous = false))
    (hown : own = if helper = true ∧ s.ticket = 0 then ticket else s.ticket) :
    Ok c { s with ticket := own } (extent ++ [⟨value, false, helper, ticket⟩]) := by
  have hlive : live (extent ++ [⟨value, false, helper, ticket⟩]) =
      live extent ++ [⟨value, false, helper, ticket⟩] := by
    rw [live_append, if_neg Bool.false_ne_true]
  refine ⟨⟨fun hticket => ?_, fun a ha hticket => ?_⟩, fun hclear => ?_, fun hclear hticket => ?_,
    fun hclear w hw => ?_⟩
  · by_cases htaken : helper = true ∧ s.ticket = 0
    · rw [if_pos htaken] at hown
      subst hown
      obtain ⟨row, hget, hlabel⟩ := hrow hticket
      refine ⟨row, hget, fun hambiguous hupdate => ?_⟩
      exact absurd ((hlabel htaken.1 hupdate).symm.trans hambiguous) Bool.false_ne_true
    · rw [if_neg htaken] at hown
      subst hown
      exact h.labels.failed hticket
  · rcases mem_append.mp ha with ha | ha
    · obtain ⟨row, hget, hlabel⟩ := h.labels.labelled a ha hticket
      refine ⟨row, hget, fun hhelper hupdate => ?_⟩
      have hsame := hlabel hhelper hupdate
      rw [← hsame] at hticket
      rw [if_neg fun htaken => hticket htaken.2] at hown
      exact hown.trans hsame
    · obtain rfl := mem_singleton.mp ha
      obtain ⟨row, hget, hlabel⟩ := hrow hticket
      refine ⟨row, hget, fun hhelper hupdate => ?_⟩
      obtain ⟨hzero, -⟩ := h.fresh (hlabel hhelper hupdate)
      exact hown.trans (if_pos ⟨hhelper, hzero⟩)
  · obtain ⟨-, -, hnone, hone, hcookie, hkind⟩ := h.fresh hclear
    rw [hlive, hnone]
    exact ⟨hone, Nat.le_refl 1, forall_mem_singleton.mpr ⟨hcookie, hkind⟩⟩
  · obtain ⟨hzero, -, hnone, -⟩ := h.fresh hclear
    rw [hlive, hnone]
    refine ⟨_, rfl, ?_⟩
    by_cases htaken : helper = true ∧ s.ticket = 0
    · rw [if_pos htaken] at hown
      exact hown.symm
    · rw [if_neg htaken] at hown
      exact absurd (hown.trans hzero) hticket
  · obtain ⟨-, hnone, -⟩ := h.fresh hclear
    exact absurd (hw.symm.trans hnone) (by simp)

/-- One round of the loop. -/
theorem countAdmission_spec (hc : c.Inv) (hopen : c.frozen = false) (value : Witness.Admission)
    (h : s.owner = c.self → Ok c s extent) :
    Kept c (c.countAdmission value s).1 ∧ (c.countAdmission value s).1.frozen = false ∧
      (c.countAdmission value s).2.owner = s.owner ∧
      (s.owner = c.self → Counted (c.countAdmission value s).1 (c.countAdmission value s).2 extent
        value) := by
  unfold countAdmission
  by_cases howner : s.owner ≠ c.self
  · rw [if_pos howner]
    exact ⟨.refl hc, hopen, rfl, fun hself => absurd hself howner⟩
  rw [if_neg howner]
  have hok := h (not_not.mp howner)
  dsimp only
  -- What was counted before and is still not ambiguous is counted now.
  generalize hactive : (if s.begin_attempts ≠ 2 ^ 64 - 1 then
    { s with begin_attempts := s.begin_attempts + 1 } else { s with ambiguous := true }) = active
  have hsame : active.owner = s.owner ∧ active.intent = s.intent ∧ active.ticket = s.ticket ∧
      active.wait = s.wait ∧ (active.ambiguous = false → s.ambiguous = false ∧
        active.begin_attempts = s.begin_attempts + 1) ∧
      (active.begin_attempts = 1 → active.ambiguous = s.ambiguous) := by
    subst hactive
    split
    · exact ⟨rfl, rfl, rfl, rfl, fun hclear => ⟨hclear, rfl⟩, fun _ => rfl⟩
    · rename_i hfull
      refine ⟨rfl, rfl, rfl, rfl, (by intro hclear; cases hclear), fun hone => ?_⟩
      have hmany : s.begin_attempts = 2 ^ 64 - 1 := not_not.mp hfull
      exact absurd (hmany.symm.trans hone) (by decide)
  obtain ⟨hown, hintent, hticket, hwait, hclear, hone⟩ := hsame
  split
  · rename_i hambiguous
    have hlost : ∀ c' : Collector, Kept c c' → (active.ticket ≠ 0 →
        (c.journal.operation active.ticket).context.kind = .kUpdate → c'.Failed) →
        Counted c' { active with ambiguous := true, wait := none } extent value := by
      intro c' hkept hfailed
      have hlabels := hok.labels.mono hkept
      refine ⟨⟨fun hne => ?_, fun a ha hne => ?_⟩, fun hfalse => by cases hfalse⟩
      · obtain ⟨row, hrow, -⟩ := hok.labels.failed (hticket ▸ hne)
        rw [← hticket] at hrow
        obtain ⟨row', hrow', hsame, -⟩ := hkept.journal.rows _ _ hrow
        refine ⟨row', hrow', fun _ hupdate => hfailed hne ?_⟩
        rw [Journal.operation, getD_eq_getElem?_getD, hrow, getD_some, ← hsame.context]
        exact hupdate
      · rw [hticket]
        exact hlabels.labelled a ha hne
    split
    · by_cases hupdate : (c.journal.operation active.ticket).context.kind = .kUpdate
      · rw [if_pos hupdate]
        have hfail := failLocked_kept hc
        refine ⟨hfail.trans (kept_of_same hfail.inv rfl rfl rfl rfl), hopen, hown, fun _ => ?_⟩
        exact hlost _ (hfail.trans (kept_of_same hfail.inv rfl rfl rfl rfl))
          fun _ _ => failLocked_failed hc hopen
      · rw [if_neg hupdate]
        refine ⟨kept_of_same hc rfl rfl rfl rfl, hopen, hown, fun _ => ?_⟩
        exact hlost _ (kept_of_same hc rfl rfl rfl rfl) fun _ hlabel => absurd hlabel hupdate
    · rename_i hzero
      exact ⟨.refl hc, hopen, hown, fun _ => hlost _ (.refl hc) fun hne => absurd hne hzero⟩
  · rename_i hmatches
    rw [not_or, not_or, not_not, not_not, not_not, hintent] at hmatches
    obtain ⟨hfirst, hcookie, hkind⟩ := hmatches
    refine ⟨.refl hc, hopen, hown, fun _ => ⟨⟨fun hne => ?_, fun a ha hne => ?_⟩, fun hfalse => ?_⟩⟩
    · rw [hticket, hone hfirst]
      rw [hticket] at hne
      exact hok.labels.failed hne
    · rw [hticket]
      exact hok.labels.labelled a ha hne
    · obtain ⟨hbefore, hcount⟩ := hclear hfalse
      obtain ⟨hattempts, -⟩ := hok.counted hbefore
      have hlive : live extent = [] := length_eq_zero_iff.mp (by omega)
      have hzero : s.ticket = 0 := by
        by_contra hne
        obtain ⟨a, ha, -⟩ := hok.admitted hbefore hne
        rw [hlive] at ha
        cases ha
      have hnone : s.wait = none := by
        cases hw : s.wait with
        | none => rfl
        | some w => exact absurd hzero (hok.waited hbefore w hw).2.1
      rw [hticket, hwait, hintent]
      exact ⟨hzero, hnone, hlive, hfirst, hcookie.symm, hkind.symm⟩

/-- The scopes of a thread and their extents. -/
def Held (c : Collector) (s : ScopedOperation) (extent : List Admitted) : Prop :=
  s.owner = c.self → Ok c s extent

theorem held_mono (h : Forall₂ (Held c) scopes extents) (hkept : Kept c c') :
    Forall₂ (Held c') scopes extents :=
  h.imp fun _ _ hheld howner => (hheld (howner.trans hkept.self)).mono hkept

/-- The loop: induction on the scopes, each round on what the rounds before have left. -/
theorem countAdmissions_spec (hc : c.Inv) (hopen : c.frozen = false) (value : Witness.Admission)
    (h : Forall₂ (Held c) scopes extents) :
    Kept c (c.countAdmissions value scopes).1 ∧ (c.countAdmissions value scopes).1.frozen = false ∧
      Forall₂ (fun s extent => s.owner = c.self →
        Counted (c.countAdmissions value scopes).1 s extent value)
        (c.countAdmissions value scopes).2 extents := by
  induction scopes generalizing c extents with
  | nil =>
    cases h
    exact ⟨.refl hc, hopen, .nil⟩
  | cons s outer ih =>
    obtain _ | ⟨hhead, htail⟩ := h
    obtain ⟨hkept, hopen', howner, hcounted⟩ := countAdmission_spec hc hopen value hhead
    obtain ⟨hkept', hopen'', hrest⟩ := ih hkept.inv hopen' (held_mono htail hkept)
    refine ⟨hkept.trans hkept', hopen'', .cons (fun hself => ?_) (hrest.imp fun s extent hs hself =>
      hs (hself.trans hkept.self.symm))⟩
    exact (hcounted (howner.symm.trans hself)).mono hkept'

/-! ### Admissions and completions -/

theorem callBegin_kept (hc : c.Inv) (value : Witness.Admission) (tid : Nat) (handle : Option Nat)
    (qpc : Nat) (context : ReleaseContext) :
    Kept c { c with journal := (callBegin c.journal value tid handle qpc context).1 } ∧
      ∃ used, (used = {} ∨ used = context) ∧
        Journal.Issued used (callBegin c.journal value tid handle qpc context).1
          (callBegin c.journal value tid handle qpc context).2 := by
  unfold callBegin
  split
  · exact ⟨kept_of_call hc rfl (.inr ⟨.begin_release _ _ _ _ _ _, rfl⟩) rfl id, context, .inr rfl,
      Journal.begin_release_issued hc.journal _ _ _ _ _ _⟩
  · exact ⟨kept_of_call hc rfl (.inr ⟨.begin_wait _ _ _ _ _, rfl⟩) rfl id, {}, .inl rfl,
      Journal.begin_wait_issued hc.journal _ _ _ _ _⟩
  · exact ⟨kept_of_call hc rfl (.inr ⟨.begin_unsupported _ _ _ _ _, rfl⟩) rfl id, {}, .inl rfl,
      Journal.begin_unsupported_issued hc.journal _ _ _ _ _⟩

/-- The extents of a thread after an admission. -/
def admitTo (extents : List (List Admitted)) (value : Witness.Admission) (late : Bool)
    (ticket : Nat) : List (List Admitted) :=
  extents.mapIdx fun position extent => extent ++ [⟨value, late, position = 0, ticket⟩]

theorem admitTo_cons (extent : List Admitted) (outer : List (List Admitted))
    (value : Witness.Admission) (late : Bool) (ticket : Nat) :
    admitTo (extent :: outer) value late ticket = (extent ++ [⟨value, late, true, ticket⟩]) ::
      outer.map fun extent => extent ++ [⟨value, late, false, ticket⟩] := by
  unfold admitTo
  rw [mapIdx_cons]
  refine congrArg₂ List.cons rfl (ext_getElem? fun i => ?_)
  simp

/-- All scopes of a thread get the admission, the innermost one as its helper. -/
theorem counted_admitted {self : Nat} {ticket : Nat}
    (h : Forall₂ (fun s extent => s.owner = self → Counted c s extent value) scopes extents)
    (hself : c.self = self) (hrow : ticket ≠ 0 → ∃ row,
      c.journal.operations[ticket - 1]? = some row ∧ (row.context.kind = .kUpdate →
        ∀ s ∈ scopes.head?, s.ambiguous = false)) :
    Forall₂ (Held c) (scopes.modifyHead fun s =>
      if s.owner = self ∧ s.ticket = 0 then { s with ticket := ticket } else s)
      (admitTo extents value false ticket) := by
  cases h with
  | nil => exact .nil
  | @cons s extent scopes extents hhead htail =>
    rw [admitTo_cons]
    refine .cons (fun howner => ?_) ?_
    · have hs : s.owner = self := by
        dsimp only at howner
        split at howner <;> exact howner.trans hself
      have hown : ticket ≠ 0 → ∃ row, c.journal.operations[ticket - 1]? = some row ∧
          (true = true → row.context.kind = .kUpdate → s.ambiguous = false) := by
        intro hne
        obtain ⟨row, hget, hlabel⟩ := hrow hne
        exact ⟨row, hget, fun _ hupdate => hlabel hupdate s rfl⟩
      have hok := (hhead hs).ok true hown rfl
      dsimp only
      by_cases hzero : s.ticket = 0
      · rw [if_pos ⟨hs, hzero⟩]
        rw [if_pos ⟨rfl, hzero⟩] at hok
        exact hok
      · rw [if_neg fun h => hzero h.2]
        rw [if_neg fun h => hzero h.2] at hok
        exact hok
    · rw [forall₂_map_right_iff]
      refine htail.imp fun s extent hs howner => ?_
      exact (hs (howner.trans hself)).ok false (fun hne => by
        obtain ⟨row, hget, -⟩ := hrow hne
        exact ⟨row, hget, fun hfalse => by cases hfalse⟩) (by simp)

/-- An admission without a ticket leaves the scopes as they were counted. -/
theorem counted_refused {self : Nat}
    (h : Forall₂ (fun s extent => s.owner = self → Counted c s extent value) scopes extents)
    (hself : c.self = self) : Forall₂ (Held c) scopes (admitTo extents value false 0) := by
  have hadmitted := counted_admitted h hself fun hne => absurd rfl hne
  have hsame : (scopes.modifyHead fun s =>
      if s.owner = self ∧ s.ticket = 0 then { s with ticket := 0 } else s) = scopes := by
    cases scopes with
    | nil => rfl
    | cons s outer =>
      show _ :: outer = s :: outer
      dsimp only
      split
      · rename_i hzero
        rw [← hzero.2]
      · rfl
  rwa [hsame] at hadmitted

/-- A helper's scope without a ticket is not ambiguous, so nothing is left to spoil. -/
theorem unannotated_spec (hc : c.Inv) (annotated : Bool)
    (h : Forall₂ (fun s extent => s.owner = c.self → Counted c s extent value) scopes extents) :
    Kept c (c.unannotated annotated scopes).1 ∧ (c.unannotated annotated scopes).2 = scopes := by
  unfold unannotated
  split
  · exact ⟨.refl hc, rfl⟩
  refine ⟨kept_of_same hc rfl rfl rfl rfl, ?_⟩
  cases h with
  | nil => rfl
  | @cons s extent outer extents hhead htail =>
    show _ :: outer = s :: outer
    dsimp only
    split
    · rename_i howned
      have hambiguous : s.ambiguous = true := by
        by_contra hclear
        exact howned.2 ((hhead howned.1).fresh (by simpa using hclear)).1
      rw [← hambiguous]
    · rfl

/-- Only an annotated release is labelled. -/
theorem label_spec (hc : c.Inv) (annotated : Bool) (kind : Witness.Kind) (intent : OperationIntent) :
    Kept c (c.label annotated kind intent).1 ∧
      ((c.label annotated kind intent).2.2 = {} ∨ annotated = true) := by
  unfold label
  split
  · rename_i hannotated
    split
    · exact ⟨.refl hc, .inr hannotated.1⟩
    · exact ⟨kept_of_same hc rfl rfl rfl rfl, .inl rfl⟩
  · exact ⟨.refl hc, .inl rfl⟩

theorem admitSelected_spec (hc : c.Inv) (value : Witness.Admission) (tid : Nat)
    (reading : Option Nat)
    (h : Forall₂ (fun s extent => s.owner = c.self → Counted c s extent value) scopes extents) :
    Kept c (c.admitSelected scopes value tid reading).1 ∧
      Forall₂ (Held (c.admitSelected scopes value tid reading).1)
        (c.admitSelected scopes value tid reading).2.1
        (admitTo extents value false (c.admitSelected scopes value tid reading).2.2) := by
  unfold admitSelected
  have hhelper : scopes.head?.any (c.annotates value) = true →
      ∀ s ∈ scopes.head?, s.ambiguous = false := by
    intro hany s hs
    rw [hs, any_some] at hany
    obtain ⟨-, -, hclear, -⟩ := of_decide_eq_true hany
    simpa using hclear
  generalize scopes.head?.any (c.annotates value) = annotated at hhelper
  generalize (scopes.head?.map (·.intent)).getD {} = intent
  obtain ⟨hkept₁, hscopes⟩ := unannotated_spec hc annotated h
  dsimp only
  rw [hscopes]
  generalize (c.unannotated annotated scopes).1 = c₁ at hkept₁
  obtain ⟨hkept₂, hlabel⟩ := label_spec hkept₁.inv annotated value.kind intent
  generalize c₁.label annotated value.kind intent = labelled at hkept₂ hlabel
  obtain ⟨c₂, noted, context⟩ := labelled
  have hkept₃ := readClockLocked_kept hkept₂.inv reading
  dsimp only at hkept₃ hlabel ⊢
  generalize c₂.readClockLocked reading = run at hkept₃
  obtain ⟨c₃, qpc⟩ := run
  dsimp only at hkept₃ ⊢
  obtain ⟨hkept₄, used, hused, hissued⟩ := callBegin_kept hkept₃.inv value tid
    (if noted = true then intent.handle else none) qpc context
  generalize callBegin c₃.journal value tid (if noted = true then intent.handle else none) qpc
    context = made at hkept₄ hissued
  obtain ⟨journal, admitted⟩ := made
  have hall := ((hkept₁.trans hkept₂).trans hkept₃).trans hkept₄
  have hunlabelled : used.kind = .kUpdate → annotated = true := by
    intro hupdate
    rcases hused with rfl | rfl
    · cases hupdate
    · rcases hlabel with rfl | hannotated
      · cases hupdate
      · exact hannotated
  have hself : c₃.self = c.self := ((hkept₁.trans hkept₂).trans hkept₃).self
  have hcounted : ∀ c', Kept c c' → Forall₂ (fun s extent => s.owner = c₃.self →
      Counted c' s extent value) scopes extents := fun c' hkept =>
    h.imp fun s extent hs howner => (hs (howner.trans hself)).mono hkept
  dsimp only at hissued ⊢
  split
  · exact ⟨hall, counted_refused (hcounted _ hall) rfl⟩
  rename_i hvalid
  have hvalid : admitted.ticket.valid = true := by simpa using hvalid
  obtain ⟨-, -, hid, -⟩ := of_decide_eq_true hvalid
  have htickets : ∀ annotations, Kept c { c₃ with
      journal, annotations
      tickets := Function.update c₃.tickets (admitted.ticket.op_id - 1) admitted.ticket } := by
    refine fun annotations => ⟨hall.self, ⟨hall.inv.journal, hall.inv.enabled, fun i => ?_⟩,
      hall.journal, hall.failures⟩
    dsimp only
    by_cases hi : i = admitted.ticket.op_id - 1
    · rw [hi, Function.update_self]
      exact .inr (by omega)
    · rw [Function.update_of_ne hi]
      exact hall.inv.tickets i
  refine ⟨htickets _, counted_admitted (hcounted _ (htickets _)) rfl fun _ => ?_⟩
  cases hissued with
  | refused hinvalid => exact absurd (hinvalid.symm.trans hvalid) Bool.false_ne_true
  | recorded row hrow hcontext =>
    refine ⟨row, hrow, fun hupdate => hhelper (hunlabelled ?_)⟩
    rw [← hcontext]
    exact hupdate

/-- Scopes that an admission reaches too late. -/
theorem held_late (h : Forall₂ (Held c) scopes extents) (value : Witness.Admission) :
    Forall₂ (Held c) scopes (admitTo extents value true 0) := by
  cases h with
  | nil => exact .nil
  | cons hhead htail =>
    rw [admitTo_cons]
    refine .cons (fun howner => (hhead howner).late value true) ?_
    rw [forall₂_map_right_iff]
    exact htail.imp fun _ _ hs howner => (hs howner).late value false

/-- An admission, at any time. -/
theorem onBegin_spec (hc : c.Inv) (value : Witness.Admission) (tid : Nat) (reading : Option Nat)
    (h : Forall₂ (Held c) scopes extents) :
    Kept c (c.onBegin scopes value tid reading).1 ∧
      Forall₂ (Held (c.onBegin scopes value tid reading).1)
        (c.onBegin scopes value tid reading).2.1
        (admitTo extents value c.frozen (c.onBegin scopes value tid reading).2.2) := by
  unfold onBegin
  by_cases hfrozen : c.frozen = true
  · rw [if_pos hfrozen, hfrozen]
    exact ⟨late_kept hc, held_late (held_mono h (late_kept hc)) value⟩
  · rw [if_neg hfrozen]
    have hopen : c.frozen = false := by simpa using hfrozen
    rw [hopen]
    obtain ⟨hkept, -, hcounted⟩ := countAdmissions_spec hc hopen value h
    generalize c.countAdmissions value scopes = run at hkept hcounted
    obtain ⟨c₁, counted⟩ := run
    rw [← hkept.self] at hcounted
    dsimp only
    split
    · have hsame : Kept c₁ { c₁ with
          counters.ignored_operations := bump c₁.counters.ignored_operations } :=
        kept_of_same hkept.inv rfl rfl rfl rfl
      exact ⟨hkept.trans hsame, counted_refused
        (hcounted.imp fun s extent hs howner => (hs howner).mono hsame) rfl⟩
    · obtain ⟨hselected, hheld⟩ := admitSelected_spec hkept.inv value tid reading hcounted
      exact ⟨hkept.trans hselected, hheld⟩

/-- What is recorded of a wait is that the row of its ticket is completed. -/
theorem complete_spec (hc : c.Inv) (value : Witness.Completion) (reading : Option Nat)
    (hticket : value.ticket ≠ 0) :
    Kept c (c.complete value reading).1 ∧
      ((c.complete value reading).2 = some .kRecorded → value.kind = .kWait → ∃ row,
        (c.complete value reading).1.journal.operations[value.ticket - 1]? = some row ∧
          row.completed = true ∧ row.kind = .kWait ∧ row.wait_result = value.result.outcome) := by
  have hread := readClockLocked_kept hc reading
  have htickets := hc.tickets (value.ticket - 1)
  unfold complete
  dsimp only
  generalize c.tickets (value.ticket - 1) = ticket at htickets
  split
  · rename_i hkind
    exact ⟨hread.trans (kept_of_call hread.inv rfl (.inr ⟨.end_release _ _ _ _, rfl⟩) rfl id),
      fun _ hwait => by rw [hkind] at hwait; cases hwait⟩
  · refine ⟨hread.trans (kept_of_call hread.inv rfl (.inr ⟨.end_wait _ _ _, rfl⟩) rfl id),
      fun hrecorded _ => ?_⟩
    obtain ⟨hne, row, hrow, hrest⟩ :=
      Journal.end_wait_row hread.inv.journal (some.inj hrecorded)
    have hid : ticket.op_id = value.ticket := by omega
    rw [hid] at hrow
    exact ⟨row, hrow, hrest⟩
  · rename_i hother
    split
    · exact ⟨.refl hc, fun hrecorded => by cases hrecorded⟩
    · exact ⟨hread.trans (kept_of_call hread.inv rfl (.inr ⟨.end_unsupported _ _, rfl⟩) rfl id),
        fun _ hwait => absurd hwait hother⟩

/-- A completion of a wait is seen by the scope whose ticket it has. -/
theorem onEnd_spec (hc : c.Inv) (value : Witness.Completion) (tid : Nat) (reading : Option Nat)
    (h : Forall₂ (Held c) scopes extents) :
    Kept c (c.onEnd scopes value tid reading).1 ∧
      Forall₂ (Held (c.onEnd scopes value tid reading).1)
        (c.onEnd scopes value tid reading).2 extents := by
  have hfail : Kept c c.failLocked ∧ Forall₂ (Held c.failLocked) scopes extents :=
    ⟨failLocked_kept hc, held_mono h (failLocked_kept hc)⟩
  unfold onEnd
  split
  · exact ⟨late_kept hc, held_mono h (late_kept hc)⟩
  split
  · exact hfail
  rename_i hticket
  split
  · exact hfail
  have hne : value.ticket ≠ 0 := fun hzero => hticket (.inl hzero)
  obtain ⟨hkept, hrow⟩ := complete_spec hc value reading hne
  generalize c.complete value reading = run at hkept hrow
  obtain ⟨c₁, result⟩ := run
  dsimp only at hkept hrow ⊢
  have hheld := held_mono h hkept
  split
  · exact ⟨hkept.trans (failLocked_kept hkept.inv), held_mono hheld (failLocked_kept hkept.inv)⟩
  rename_i hrecorded
  refine ⟨hkept, ?_⟩
  cases hheld with
  | nil => exact .nil
  | cons hhead htail =>
    refine .cons (fun howner => ?_) htail
    dsimp only at howner ⊢
    split
    · rename_i hseen
      obtain ⟨hwait, hself, hown, hclear⟩ := hseen
      have hok := hhead hself
      obtain ⟨row, hget, hrest⟩ := hrow (not_not.mp hrecorded) hwait
      refine ⟨⟨hok.labels.failed, hok.labels.labelled⟩, hok.counted, hok.admitted, fun _ w hw => ?_⟩
      obtain rfl := some.inj hw
      dsimp only
      rw [hown]
      exact ⟨rfl, hne, row, hget, hrest⟩
    · rename_i hunseen
      rw [if_neg hunseen] at howner
      exact hhead howner

/-! ### Runs -/

/-- What holds along a watched run. -/
structure Watched (run : World × (Nat → List (List Admitted))) : Prop where
  collector : run.1.collector.Inv
  scopes : ∀ tid, Forall₂ (Held run.1.collector) (run.1.operations tid) (run.2 tid)

/-- The scopes of one thread change, those of the others stand. -/
theorem forall₂_update {operations : Nat → List ScopedOperation}
    {extents : Nat → List (List Admitted)} (tid : Nat) {own : List (List Admitted)}
    (h : ∀ t, Forall₂ (Held c) (operations t) (extents t))
    (hown : Forall₂ (Held c) scopes own) (t : Nat) :
    Forall₂ (Held c) (Function.update operations tid scopes t)
      (Function.update extents tid own t) := by
  by_cases ht : t = tid
  · subst ht
    rw [Function.update_self, Function.update_self]
    exact hown
  · rw [Function.update_of_ne ht, Function.update_of_ne ht]
    exact h t

/-- An event, one case for each. -/
theorem watch_spec {run : World × (Nat → List (List Admitted))} (h : Watched run) (event : Event) :
    Watched (watch run event) ∧ Kept run.1.collector (watch run event).1.collector := by
  obtain ⟨hc, hscopes⟩ := h
  obtain ⟨w, extents⟩ := run
  have hsame : ∀ {c' : Collector}, Kept w.collector c' →
      ∀ tid, Forall₂ (Held c') (w.operations tid) (extents tid) :=
    fun hkept tid => held_mono (hscopes tid) hkept
  cases event with
  | enter_create tid owner intent => exact ⟨⟨hc, hscopes⟩, .refl hc⟩
  | leave_create tid => exact ⟨⟨hc, hscopes⟩, .refl hc⟩
  | enter_operation tid owner intent =>
    refine ⟨⟨hc, forall₂_update tid hscopes (.cons (fun _ => ?_) (hscopes tid))⟩, .refl hc⟩
    exact ok_enter w.collector owner intent
  | leave_operation tid =>
    refine ⟨⟨hc, forall₂_update tid hscopes ?_⟩, .refl hc⟩
    have hown := hscopes tid
    dsimp only at hown ⊢
    generalize w.operations tid = scopes at hown ⊢
    generalize extents tid = own at hown ⊢
    cases hown with
    | nil => exact .nil
    | cons hhead htail => exact htail
  | on_create tid value reading =>
    have hkept := onCreate_kept hc (w.creates tid) value reading
    exact ⟨⟨hkept.inv, hsame hkept⟩, hkept⟩
  | on_destroy cookie reading =>
    have hkept := onDestroy_kept hc cookie reading
    exact ⟨⟨hkept.inv, hsame hkept⟩, hkept⟩
  | on_begin tid value reading =>
    obtain ⟨hkept, hown⟩ := onBegin_spec hc value tid reading (hscopes tid)
    exact ⟨⟨hkept.inv, forall₂_update tid (hsame hkept) hown⟩, hkept⟩
  | on_end tid value reading =>
    obtain ⟨hkept, hown⟩ := onEnd_spec hc value tid reading (hscopes tid)
    refine ⟨⟨hkept.inv, fun t => ?_⟩, hkept⟩
    have hall := forall₂_update tid (hsame hkept) hown t
    rwa [Function.update_eq_self] at hall
  | bind_returned_handle tid thread position resolved_cookie handle =>
    cases hscope : (w.creates thread)[position]? with
    | none =>
      simp only [watch, World.step, hscope]
      exact ⟨⟨hc, hscopes⟩, .refl hc⟩
    | some scope =>
      have hkept := bindReturnedHandle_kept hc scope (thread = tid ∧ position = 0) resolved_cookie
        handle
      simp only [watch, World.step, hscope]
      exact ⟨⟨hkept.inv, hsame hkept⟩, hkept⟩
  | freeze attestation registry_failed admitting reading captured allocated =>
    have hkept := freeze_kept hc attestation registry_failed admitting reading captured allocated
    exact ⟨⟨hkept.inv, hsame hkept⟩, hkept⟩

theorem watched_from {run : World × (Nat → List (List Admitted))} (h : Watched run)
    (events : List Event) : Watched (events.foldl watch run) ∧
      Kept run.1.collector (events.foldl watch run).1.collector := by
  induction events generalizing run with
  | nil => exact ⟨h, .refl h.collector⟩
  | cons event events ih =>
    obtain ⟨hnext, hkept⟩ := watch_spec h event
    obtain ⟨hrun, hrest⟩ := ih hnext
    exact ⟨hrun, hkept.trans hrest⟩

theorem configured_inv (self address : Nat) (window : Window) (token : String) (last : Nat) :
    (configured self address window token last).Inv where
  journal := Journal.init_inv address window true last
  enabled := by
    show (Journal.init address window true last).enabled = true
    unfold Journal.init
    dsimp only
    split <;> split <;> (try split) <;> rfl
  tickets _ := .inl rfl

theorem watched_run (self address : Nat) (window : Window) (token : String) (last : Nat)
    (events : List Event) :
    Watched (watched (configured self address window token last) events) := by
  have hstart : Watched ({ collector := configured self address window token last }, fun _ => []) :=
    ⟨configured_inv self address window token last, fun _ => .nil⟩
  exact (watched_from hstart events).1

/-- A frozen collector stays so, and leaves its journal alone. -/
theorem watch_frozen {run : World × (Nat → List (List Admitted))}
    (hfrozen : run.1.collector.frozen = true) (event : Event) :
    (watch run event).1.collector.frozen = true ∧
      (watch run event).1.collector.journal = run.1.collector.journal := by
  cases event with
  | bind_returned_handle tid thread position resolved_cookie handle =>
    simp only [watch, World.step]
    split
    · exact ⟨hfrozen, rfl⟩
    · simp only [bindReturnedHandle, if_pos hfrozen]
      exact ⟨hfrozen, rfl⟩
  | _ =>
    simp only [watch, World.step, onCreate, onDestroy, onBegin, onEnd, freeze, if_pos hfrozen]
    exact ⟨hfrozen, by trivial⟩

theorem watched_frozen {run : World × (Nat → List (List Admitted))}
    (hfrozen : run.1.collector.frozen = true) (events : List Event) :
    (events.foldl watch run).1.collector.journal = run.1.collector.journal := by
  induction events generalizing run with
  | nil => rfl
  | cons event events ih =>
    obtain ⟨hnext, hsame⟩ := watch_frozen hfrozen event
    exact (ih hnext).trans hsame

/-- The scope `s` of the collector is open on the thread, with this extent. -/
def Open (run : World × (Nat → List (List Admitted))) (tid : Nat) (s : ScopedOperation)
    (extent : List Admitted) : Prop :=
  s.owner = run.1.collector.self ∧
    ∃ i : Nat, (run.1.operations tid)[i]? = some s ∧ (run.2 tid)[i]? = some extent

theorem Watched.ok {run : World × (Nat → List (List Admitted))} (h : Watched run) {tid : Nat}
    (hopen : Open run tid s extent) : Ok run.1.collector s extent := by
  obtain ⟨howner, i, hs, hextent⟩ := hopen
  obtain ⟨hi, rfl⟩ := List.getElem?_eq_some_iff.mp hs
  obtain ⟨hj, rfl⟩ := List.getElem?_eq_some_iff.mp hextent
  exact (h.scopes tid).get hi hj howner

/-- What a run of the collector promises to its helpers.  An admission that reaches the
collector when it is frozen is refused, so it is the others that are counted. -/
structure Witnessed (run : World × (Nat → List (List Admitted))) : Prop where
  extents : ∀ tid, (run.1.operations tid).length = (run.2 tid).length
  wait : ∀ tid s extent, Open run tid s extent → ∀ w, s.wait_observation = some w →
    ∃ a, live extent = [a] ∧ a.value.cookie = s.intent.cookie ∧
      a.value.kind = s.intent.expected_kind ∧ a.ticket = w.op_id ∧ a.ticket ≠ 0 ∧
      ∃ row, run.1.collector.journal.operations[w.op_id - 1]? = some row ∧ row.completed = true ∧
        row.kind = .kWait ∧ row.wait_result = w.outcome
  label : ∀ tid s extent, Open run tid s extent → s.ambiguous = true → ∀ a ∈ extent,
    a.helper = true → a.ticket ≠ 0 →
    (run.1.collector.journal.operation a.ticket).context.kind = .kUpdate →
    ∀ events : List Event, (events.foldl watch run).1.collector.Failed
  frozen : run.1.collector.frozen = true → ∀ events : List Event,
    (events.foldl watch run).1.collector.journal = run.1.collector.journal

/-- After any events, what a scope observes is its one admission, a lost label is on record,
and a freeze is final. -/
theorem helpers_witnessed (self address : Nat) (window : Window) (token : String) (last : Nat)
    (events : List Event) :
    Witnessed (watched (configured self address window token last) events) := by
  have h := watched_run self address window token last events
  generalize watched (configured self address window token last) events = run at h
  refine ⟨fun tid => (h.scopes tid).length_eq, fun tid s extent hopen w hw => ?_,
    fun tid s extent hopen hambiguous a ha hhelper hticket hupdate later => ?_,
    fun hfrozen later => watched_frozen hfrozen later⟩
  · have hok := h.ok hopen
    unfold ScopedOperation.wait_observation at hw
    split at hw
    · cases hw
    rename_i hambiguous
    have hclear : s.ambiguous = false := by simpa using hambiguous
    obtain ⟨hid, hticket, row, hrow, hrest⟩ := hok.waited hclear w hw
    obtain ⟨a, ha, hown⟩ := hok.admitted hclear hticket
    obtain ⟨-, -, hmatches⟩ := hok.counted hclear
    obtain ⟨hcookie, hkind⟩ := hmatches a (by rw [ha]; exact mem_singleton_self a)
    refine ⟨a, ha, hcookie, hkind, hown.trans hid.symm, by rwa [hown], row, ?_, hrest⟩
    rw [hid]
    exact hrow
  · have hok := h.ok hopen
    obtain ⟨row, hrow, hlabel⟩ := hok.labels.labelled a ha hticket
    rw [Journal.operation, getD_eq_getElem?_getD, hrow, getD_some] at hupdate
    have hown := hlabel hhelper hupdate
    obtain ⟨row', hrow', hfailed⟩ := hok.labels.failed (by rwa [hown])
    rw [hown, hrow] at hrow'
    obtain rfl := some.inj hrow'
    exact (watched_from h later).2.failed (hfailed hambiguous hupdate)

/-- A semaphore is created in a scope, and its handle is bound. -/
def opened : List Event :=
  [.enter_create 5 1 { outer_lr := kCreationLR, owner_guest := 9, lane := ⟨1, 1⟩ },
    .on_create 5 ⟨7, 0, 32767, .kFresh⟩ (some 20), .bind_returned_handle 5 5 0 7 3, .leave_create 5]

/-- A helper that expects an operation of the kind. -/
def helper (kind : Witness.Kind) : OperationIntent :=
  { cookie := 7, handle := some 3, lane := ⟨1, 1⟩, outer_lr := kReleaseLR, expected_kind := kind
    release_context := { kind := .kUpdate, generation := ⟨1, 1⟩ } }

/-- Two runs.  A wait is seen, the collector is frozen, and another wait is admitted in the same
scope.  A release is labelled by a helper inside another, which has no ticket of its own; when that
one is left, the other gets a second admission, and no failure is put on record. -/
theorem late_and_outer_admission :
    (¬ ∀ (self address : Nat) (window : Window) (token : String) (last : Nat)
      (events : List Event) (tid : Nat) (s : ScopedOperation) (extent : List Admitted),
      Open (watched (configured self address window token last) events) tid s extent →
      s.wait_observation ≠ none → extent.length = 1) ∧
    ¬ ∀ (self address : Nat) (window : Window) (token : String) (last : Nat)
      (events : List Event) (tid : Nat) (s : ScopedOperation) (extent : List Admitted),
      let run := watched (configured self address window token last) events
      Open run tid s extent → s.ambiguous = true → ∀ a ∈ extent, a.ticket ≠ 0 →
        (run.1.collector.journal.operation a.ticket).context.kind = .kUpdate →
        run.1.collector.Failed := by
  constructor
  · intro h
    have htwo := h 1 2 ⟨10, 100, 1000⟩ "" 0
      (opened ++ [.enter_operation 5 1 (helper .kWait),
        .on_begin 5 { cookie := 7, timeout := .kInfinite } (some 30),
        .on_end 5 { ticket := 1, result := .kSuccess } (some 31),
        .freeze {} false true (some 50) true true,
        .on_begin 5 { cookie := 7, timeout := .kInfinite } (some 60)])
      5
      { owner := 1, intent := helper .kWait, ticket := 1, begin_attempts := 1
        wait := some ⟨1, 0, .kSuccess, true⟩ }
      [⟨{ cookie := 7, timeout := .kInfinite }, false, true, 1⟩,
        ⟨{ cookie := 7, timeout := .kInfinite }, true, true, 0⟩]
      ⟨by decide +kernel, 0, by decide +kernel, by decide +kernel⟩ (by decide)
    exact absurd htwo (by decide)
  · intro h
    have hfailed := h 1 2 ⟨10, 100, 1000⟩ "" 0
      (opened ++ [.enter_operation 5 1 (helper .kRelease), .enter_operation 5 1 (helper .kRelease),
        .on_begin 5 { cookie := 7, kind := .kRelease, count := 1 } (some 30), .leave_operation 5,
        .on_begin 5 { cookie := 7, kind := .kRelease, count := 1 } (some 40)])
      5
      { owner := 1, intent := helper .kRelease, ticket := 2, begin_attempts := 2, ambiguous := true }
      [⟨{ cookie := 7, kind := .kRelease, count := 1 }, false, false, 1⟩,
        ⟨{ cookie := 7, kind := .kRelease, count := 1 }, false, true, 2⟩]
      ⟨by decide +kernel, 0, by decide +kernel, by decide +kernel⟩ rfl _ mem_cons_self
      (by decide) (by decide +kernel)
    exact absurd hfailed.1 (by decide +kernel)

end Collector
end Mcla.Semaphore

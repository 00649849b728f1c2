import Mcla.Observers.TimerRows
import Mcla.Observers.TimerDecoder

/-! # The decoder and the journal: records against each other

The journal raises flags on its records as observations arrive; the decoder adds issues to its rows,
first those of each row alone, then those of pairs.  When both go by the same order, the row and the
record of one observation have the same issues after each turn.
-/
namespace Mcla.TimerDecode
open TimerJournal (Observation Window Journal Record Issues observeAll valid_clock placed raised
  raise carries union carries_or carries_raise carries_none carries_union)
open List

/-! ### Issues and flags -/

/-- The flag of the journal that says the same as an issue. -/
def Diagnostic.flag : Diagnostic → Option Issues
  | .invalidClock => some TimerJournal.kInvalidClock
  | .missingIdentity => some TimerJournal.kMissingIdentity
  | .missingState => some TimerJournal.kMissingState
  | .straddlesBegin => some TimerJournal.kStraddlesBegin
  | .straddlesEnd => some TimerJournal.kStraddlesEnd
  | .overlap => some TimerJournal.kWitnessIntervalsOverlapOrTouch
  | .sharedAddress => some TimerJournal.kSharedAddressOverlapOrTouch
  | .entryRegressed => some TimerJournal.kEntryOrderRegressed
  | .exitRegressed => some TimerJournal.kExitOrderRegressed
  | _ => none

/-- The issues and the flags say the same, as far as issues have flags. -/
def Agree (issues : Finset Diagnostic) (flags : Issues) : Prop :=
  ∀ d flag, d.flag = some flag → (d ∈ issues ↔ carries flags flag = true)

theorem carries_flag {d e : Diagnostic} {f g : Issues} (hd : d.flag = some f)
    (he : e.flag = some g) : carries f g = decide (e = d) := by
  cases d <;> cases hd <;> cases e <;> cases he <;> decide

theorem Agree.raised {issues : Finset Diagnostic} {flags flag : Issues} {d : Diagnostic}
    (h : Agree issues flags) (hd : d.flag = some flag) (c : Bool) :
    Agree (add issues c d) (TimerJournal.raise flags c flag) := by
  intro e f he
  rw [mem_add, carries_raise, h e f he, carries_flag hd he]
  simp

/-- An issue without a flag changes nothing. -/
theorem Agree.added {issues : Finset Diagnostic} {flags : Issues} {d : Diagnostic}
    (h : Agree issues flags) (hd : d.flag = none) (c : Bool) :
    Agree (TimerDecode.add issues c d) flags := by
  intro e f he
  rw [mem_add, h e f he]
  refine or_iff_left ?_
  rintro ⟨-, rfl⟩
  cases hd.symm.trans he

/-- A flag that no issue has changes nothing. -/
theorem Agree.flagged {issues : Finset Diagnostic} {flags flag : Issues} (h : Agree issues flags)
    (hflag : ∀ d f, Diagnostic.flag d = some f → carries flag f = false) (c : Bool) :
    Agree issues (TimerJournal.raise flags c flag) := by
  intro e f he
  rw [carries_raise, h e f he, hflag e f he, Bool.and_false, Bool.or_false]

theorem agree_none : Agree ∅ TimerJournal.kNone := by
  intro d flag _
  simp

/-! ### One row and one observation -/

/-- The row is that of the observation, as far as rows are compared. -/
structure Of (r : Row) (o : Observation) : Prop where
  entry_qpc : r.entry_qpc = o.entry_qpc
  exit_qpc : r.exit_qpc = o.exit_qpc
  timer_address : r.timer_address = o.identity.timer_address
  identity_valid : r.identity_valid = o.identity.valid
  before : r.before.isNone = !o.before_available
  after : r.after.isNone = !o.after_available

theorem Of.clock {r : Row} {o : Observation} (h : Of r o) : r.clock_witness_valid = valid_clock o := by
  unfold Row.clock_witness_valid valid_clock
  rw [h.entry_qpc, h.exit_qpc]
  simp only [Nat.pos_iff_ne_zero]
  rfl

/-- The issues of a row alone are the flags that come from its observation. -/
theorem own_agree {r : Row} {o : Observation} {window : Window} (h : Of r o)
    (hwindow : window.valid = true) :
    Agree (r.own window.begin_qpc window.end_qpc) (placed window o) := by
  have hbase : Agree (add (add (add ∅ (!valid_clock o) .invalidClock) (!o.identity.valid)
      .missingIdentity) (!o.before_available || !o.after_available) .missingState)
      (raise (raise (raise (raise TimerJournal.kNone (!window.valid) TimerJournal.kInvalidWindow)
        (!valid_clock o) TimerJournal.kInvalidClock) (!o.identity.valid)
        TimerJournal.kMissingIdentity) (!o.before_available || !o.after_available)
        TimerJournal.kMissingState) := by
    rw [hwindow]
    exact ((agree_none.raised rfl _).raised rfl _).raised rfl _
  unfold Row.own placed
  dsimp only
  rw [h.clock, h.identity_valid, h.before, h.after, h.entry_qpc, h.exit_qpc, hwindow]
  rw [hwindow] at hbase
  have hfailed := @Agree.added _ _ .callbackFailure hbase rfl (decide (r.callback_issues ≠ 0))
  cases hclock : valid_clock o with
  | false =>
    rw [hclock] at hfailed
    exact hfailed
  | true =>
    rw [hclock] at hfailed
    refine Agree.added ?_ rfl _
    refine Agree.raised (Agree.raised ?_ rfl _) rfl _
    refine Agree.flagged (Agree.flagged hfailed ?_ _) ?_ _
    · intro d f hd
      cases d <;> cases hd <;> decide
    · intro d f hd
      cases d <;> cases hd <;> decide

/-! ### Rows that gain issues -/

def Row.bare (r : Row) : Row := { r with diagnostic_issues := ∅ }

/-- The rows gain issues and keep everything else. -/
structure Gains (rows rows' : List Row) (gained : Nat → Diagnostic → Prop) : Prop where
  length : rows'.length = rows.length
  bare : ∀ i : Nat, (rows'.getD i {}).bare = (rows.getD i {}).bare
  issues : ∀ i < rows.length, ∀ d, d ∈ (rows'.getD i {}).diagnostic_issues ↔
    d ∈ (rows.getD i {}).diagnostic_issues ∨ gained i d

section Gains
variable {rows rows' rows'' : List Row} {G H : Nat → Diagnostic → Prop} {index : Nat}

theorem Gains.refl (rows : List Row) : Gains rows rows fun _ _ => False where
  length := rfl
  bare _ := rfl
  issues _ _ _ := ⟨Or.inl, fun h => h.elim id False.elim⟩

theorem Gains.trans (h : Gains rows rows' G) (h' : Gains rows' rows'' H) :
    Gains rows rows'' fun i d => G i d ∨ H i d where
  length := h'.length.trans h.length
  bare i := (h'.bare i).trans (h.bare i)
  issues i hi d := by
    rw [h'.issues i (by rw [h.length]; exact hi) d, h.issues i hi d, or_assoc]

theorem Gains.congr (h : Gains rows rows' G) (hG : ∀ i d, G i d ↔ H i d) : Gains rows rows' H where
  length := h.length
  bare := h.bare
  issues i hi d := (h.issues i hi d).trans (or_congr_right (hG i d))

theorem mark_gains (rows : List Row) (index : Nat) (c : Bool) (d : Diagnostic) :
    Gains rows (mark rows index c d) fun i e => i = index ∧ c = true ∧ e = d := by
  have hget : ∀ i : Nat, (mark rows index c d).getD i {} = if i = index ∧ i < rows.length then
      { rows.getD i {} with
        diagnostic_issues := add (rows.getD i {}).diagnostic_issues c d }
      else rows.getD i {} := by
    intro i
    unfold mark
    rw [getD_eq_getElem?_getD, getElem?_modify, getD_eq_getElem?_getD]
    by_cases hi : i < rows.length
    · rw [getElem?_eq_getElem hi]
      by_cases hsame : index = i <;> simp [hsame, hi, eq_comm]
    · rw [getElem?_eq_none (by omega)]
      simp [hi]
  constructor
  · unfold mark
    rw [length_modify]
  · intro i
    rw [hget]
    split <;> rfl
  · intro i hi e
    rw [hget]
    by_cases hsame : i = index
    · rw [if_pos ⟨hsame, hi⟩, mem_add]
      simp [hsame]
    · rw [if_neg fun h => hsame h.1]
      simp [hsame]

/-- The issues that two rows give each other. -/
def Shared (row old : Row) (d : Diagnostic) : Prop :=
  old.clock_witness_valid = true ∧ (row.entry_qpc ≤ old.exit_qpc ∧ old.entry_qpc ≤ row.exit_qpc) ∧
    (d = .overlap ∨ d = .sharedAddress ∧ row.timer_address ≠ 0 ∧
      row.timer_address = old.timer_address)

theorem shared_congr {row row' old old' : Row} (hrow : row'.bare = row.bare)
    (hold : old'.bare = old.bare) (d : Diagnostic) : Shared row' old' d ↔ Shared row old d := by
  unfold Row.bare at hrow hold
  injection hrow with _ _ h1 _ _ h2 h3
  injection hold with _ _ g1 _ _ g2 g3
  unfold Shared Row.clock_witness_valid
  rw [h1, h2, h3, g1, g2, g3]

/-- One turn of the inner loop. -/
theorem compareRows_gains (index old_index : Nat) (s : Sweep) :
    Gains s.rows (compareRows index s old_index).rows (fun i d => (i = index ∨ i = old_index) ∧
      Shared (s.rows.getD index {}) (s.rows.getD old_index {}) d) := by
  unfold compareRows Shared
  dsimp only
  split
  · rename_i hinvalid
    refine (Gains.refl _).congr fun i d => ?_
    rw [Bool.not_eq_true'] at hinvalid
    simp only [hinvalid, Bool.false_eq_true, false_and, and_false]
  · rename_i hvalid
    rw [Bool.not_eq_true, Bool.not_eq_false'] at hvalid
    split
    · rename_i hmeet
      rw [Bool.and_eq_true, decide_eq_true_eq, decide_eq_true_eq] at hmeet
      refine ((((mark_gains _ _ _ _).trans (mark_gains _ _ _ _)).trans (mark_gains _ _ _ _)).trans
        (mark_gains _ _ _ _)).congr fun i d => ?_
      simp only [hvalid, hmeet, Bool.and_eq_true, decide_eq_true_eq]
      tauto
    · rename_i hmeet
      refine (Gains.refl _).congr fun i d => ?_
      rw [Bool.and_eq_true, decide_eq_true_eq, decide_eq_true_eq] at hmeet
      tauto

theorem compareRows_previous (index old_index : Nat) (s : Sweep) :
    (compareRows index s old_index).previous_valid = s.previous_valid := by
  unfold compareRows
  dsimp only
  split
  · rfl
  · split <;> rfl

/-- The inner loop. -/
theorem foldl_compareRows (index : Nat) (olds : List Nat) (s : Sweep) :
    Gains s.rows (olds.foldl (compareRows index) s).rows (fun i d => ∃ old ∈ olds,
      (i = index ∨ i = old) ∧ Shared (s.rows.getD index {}) (s.rows.getD old {}) d) ∧
    (olds.foldl (compareRows index) s).previous_valid = s.previous_valid := by
  induction olds generalizing s with
  | nil => exact ⟨(Gains.refl _).congr fun i d => by simp, rfl⟩
  | cons old olds ih =>
    have hone := compareRows_gains index old s
    obtain ⟨hmore, hprevious⟩ := ih (compareRows index s old)
    refine ⟨(hone.trans hmore).congr fun i d => ?_,
      hprevious.trans (compareRows_previous index old s)⟩
    simp only [mem_cons, exists_eq_or_imp, shared_congr (hone.bare index) (hone.bare _)]

/-- What the last valid row before it adds to a row. -/
def Regressed (previous : Option Row) (row : Row) (d : Diagnostic) : Prop :=
  ∃ p, previous = some p ∧
    (d = .entryRegressed ∧ row.entry_qpc < p.entry_qpc ∨
      d = .exitRegressed ∧ row.exit_qpc < p.exit_qpc)

/-- One turn of the outer loop, for a row with valid clocks. -/
theorem sweepRow_gains (olds : List Nat) (s : Sweep) (index : Nat)
    (hvalid : (s.rows.getD index {}).clock_witness_valid = true) :
    Gains s.rows (sweepRow olds s index).rows (fun i d =>
      i = index ∧ Regressed s.previous_valid (s.rows.getD index {}) d ∨
      ∃ old ∈ olds, (i = index ∨ i = old) ∧ Shared (s.rows.getD index {}) (s.rows.getD old {}) d) ∧
    (sweepRow olds s index).previous_valid = some (s.rows.getD index {}) := by
  unfold sweepRow
  dsimp only
  rw [hvalid, Bool.not_true, if_neg Bool.false_ne_true]
  have hgains : Gains s.rows (compareOrder s.rows index (s.rows.getD index {}) s.previous_valid)
      fun i d => i = index ∧ Regressed s.previous_valid (s.rows.getD index {}) d := by
    cases s.previous_valid with
    | none => exact (Gains.refl _).congr fun i d => by simp [Regressed]
    | some previous =>
      refine ((mark_gains _ _ _ _).trans (mark_gains _ _ _ _)).congr fun i d => ?_
      simp only [Regressed, Option.some.injEq, exists_eq_left', decide_eq_true_eq]
      tauto
  obtain ⟨hpairs, hprevious⟩ := foldl_compareRows index olds { s with
    rows := compareOrder s.rows index (s.rows.getD index {}) s.previous_valid
    previous_valid := some (s.rows.getD index {}) }
  refine ⟨(hgains.trans hpairs).congr fun i d => ?_, hprevious⟩
  simp only [shared_congr (hgains.bare index) (hgains.bare _)]

end Gains

/-! ### The loop and the journal -/

section Run
variable {window : Window} {capacity : Nat} {rows : List Row} {obs : Nat → Observation}
  {olds : List Nat} {s : Sweep} {j : Journal}

theorem shared_iff {row old : Row} {o p : Observation} (hrow : Of row o) (hold : Of old p)
    {d : Diagnostic} {flag : Issues} (hd : d.flag = some flag) :
    Shared row old d ↔ carries (raised o p) flag = true := by
  have hoverlap := carries_flag (d := .overlap) rfl hd
  have hshared := carries_flag (d := .sharedAddress) rfl hd
  unfold Shared raised
  rw [hold.clock, hrow.entry_qpc, hrow.exit_qpc, hold.entry_qpc, hold.exit_qpc,
    hrow.timer_address, hold.timer_address]
  split
  · rename_i hmeet
    simp only [Bool.and_eq_true, decide_eq_true_eq] at hmeet
    rw [carries_raise, hoverlap, hshared]
    simp only [hmeet, Bool.or_eq_true, Bool.and_eq_true, decide_eq_true_eq]
    tauto
  · rename_i hmeet
    simp only [Bool.and_eq_true, decide_eq_true_eq] at hmeet
    rw [carries_none]
    tauto

/-- The last row with valid clocks is the one whose clocks the journal remembers. -/
def Remembers (j : Journal) : Option Row → Prop
  | none => j.have_previous_clock = false
  | some p => j.have_previous_clock = true ∧ p.entry_qpc = j.previous_entry ∧
    p.exit_qpc = j.previous_exit

/-- The rows and the records after the rows at `olds`. -/
structure Follows (window : Window) (obs : Nat → Observation) (size : Nat) (olds : List Nat)
    (s : Sweep) (j : Journal) : Prop where
  length : s.rows.length = size
  olds_lt : ∀ i ∈ olds, i < size
  rows : ∀ i < size, Of (s.rows.getD i {}) (obs i)
  same_window : j.window = window
  marked : Forall₂ (fun i (r : Record) => r.observation = obs i ∧
    Agree (s.rows.getD i {}).diagnostic_issues r.issues) olds j.records
  unmarked : ∀ i < size, i ∉ olds →
    Agree (s.rows.getD i {}).diagnostic_issues (placed window (obs i))
  previous : Remembers j s.previous_valid

variable {size index : Nat}

/-- The flags of a record with clocks that are not valid. -/
theorem rowIssues_invalid {input : Observation} (hclock : valid_clock input = false) :
    j.rowIssues input = placed j.window input := by
  unfold Journal.rowIssues
  rw [hclock]
  rfl

/-- What the last valid clocks before it add to a record. -/
theorem regressed_iff {row : Row} {input : Observation} {previous : Option Row}
    (hrow : Of row input) (hprevious : Remembers j previous) {d : Diagnostic} {flag : Issues}
    (hd : d.flag = some flag) :
    Regressed previous row d ↔
      (j.have_previous_clock = true ∧ input.entry_qpc < j.previous_entry) ∧
        carries TimerJournal.kEntryOrderRegressed flag = true ∨
      (j.have_previous_clock = true ∧ input.exit_qpc < j.previous_exit) ∧
        carries TimerJournal.kExitOrderRegressed flag = true := by
  have hentry := carries_flag (d := .entryRegressed) rfl hd
  have hexit := carries_flag (d := .exitRegressed) rfl hd
  rw [hentry, hexit]
  cases previous with
  | none =>
    have hnone : j.have_previous_clock = false := hprevious
    simp [Regressed, hnone]
  | some p =>
    obtain ⟨hhave, hpentry, hpexit⟩ := hprevious
    simp only [Regressed, Option.some.injEq, exists_eq_left', hhave, hpentry, hpexit,
      hrow.entry_qpc, hrow.exit_qpc, decide_eq_true_eq]
    tauto

theorem Follows.observations (h : Follows window obs size olds s j) :
    j.records.map (·.observation) = olds.map obs := by
  have hmarked := h.marked
  clear h
  generalize j.records = records at hmarked ⊢
  induction hmarked with
  | nil => rfl
  | cons hone _ ih => rw [map_cons, map_cons, hone.1, ih]

/-- What the old rows add to a row, and the old records to its record. -/
theorem Follows.pairs (h : Follows window obs size olds s j) (hindex : index < size)
    {d : Diagnostic} {flag : Issues} (hd : d.flag = some flag) :
    (∃ old ∈ olds, Shared (s.rows.getD index {}) (s.rows.getD old {}) d) ↔
      carries (union (j.records.map fun r => raised (obs index) r.observation)) flag = true := by
  have hmap : (j.records.map fun r => raised (obs index) r.observation) =
      olds.map fun old => raised (obs index) (obs old) := by
    calc (j.records.map fun r => raised (obs index) r.observation)
        = (j.records.map (·.observation)).map (raised (obs index)) := by
          rw [map_map, Function.comp_def]
      _ = olds.map fun old => raised (obs index) (obs old) := by
          rw [h.observations, map_map, Function.comp_def]
  rw [hmap, carries_union, any_map, any_eq_true]
  refine exists_congr fun old => and_congr_right fun hold => ?_
  exact shared_iff (h.rows index hindex) (h.rows old (h.olds_lt old hold)) hd

/-- The issues of the new row, and the flags of the new record. -/
theorem Follows.newest (h : Follows window obs size olds s j) (hindex : index < size)
    (hnew : index ∉ olds) (hclock : valid_clock (obs index) = true) :
    Agree ((sweepRow olds s index).rows.getD index {}).diagnostic_issues
      (j.rowIssues (obs index)) := by
  have hof := h.rows index hindex
  obtain ⟨hgains, -⟩ := sweepRow_gains olds s index (hof.clock.trans hclock)
  intro d flag hd
  rw [hgains.issues index (h.length.symm ▸ hindex) d, h.unmarked index hindex hnew d flag hd]
  unfold Journal.rowIssues
  simp only [hclock, if_true, true_or, true_and, carries_raise, carries_or, Bool.true_and,
    Bool.or_eq_true, Bool.and_eq_true, decide_eq_true_eq]
  rw [regressed_iff hof h.previous hd, h.pairs hindex hd, h.same_window]
  tauto

/-- The issues of an old row, and the flags of its record, after a new one. -/
theorem Follows.older (h : Follows window obs size olds s j) (hindex : index < size)
    (hnew : index ∉ olds) (hclock : valid_clock (obs index) = true) {i : Nat} (hi : i ∈ olds)
    {flags : Issues} (hagree : Agree (s.rows.getD i {}).diagnostic_issues flags) :
    Agree ((sweepRow olds s index).rows.getD i {}).diagnostic_issues
      (flags ||| raised (obs index) (obs i)) := by
  have hlt := h.olds_lt i hi
  obtain ⟨hgains, -⟩ := sweepRow_gains olds s index ((h.rows index hindex).clock.trans hclock)
  have hne : i ≠ index := by
    rintro rfl
    exact hnew hi
  intro d flag hd
  rw [hgains.issues i (h.length.symm ▸ hlt) d, hagree d flag hd, carries_or, Bool.or_eq_true,
    ← shared_iff (h.rows index hindex) (h.rows i hlt) hd]
  apply or_congr_right
  constructor
  · rintro (⟨hself, -⟩ | ⟨old, hold, hself | rfl, hshared⟩)
    · exact absurd hself hne
    · exact absurd hself hne
    · exact hshared
  · intro hshared
    exact Or.inr ⟨i, hi, Or.inr rfl, hshared⟩

theorem of_bare {r r' : Row} {o : Observation} (h : Of r o) (hbare : r'.bare = r.bare) : Of r' o := by
  unfold Row.bare at hbare
  injection hbare with h1 h2 h3 h4 h5 h6 h7 h8 h9 h10 h11
  refine ⟨h6.trans h.entry_qpc, h7.trans h.exit_qpc, h3.trans h.timer_address, ?_, ?_, ?_⟩
  · rw [← h.identity_valid]
    unfold Row.identity_valid
    rw [h3, h4, h5]
  · rw [h10, h.before]
  · rw [h11, h.after]

/-- **One turn**: the row at `index` is compared, and its observation arrives at the journal. -/
theorem Follows.step (h : Follows window obs size olds s j) (hindex : index < size)
    (hnew : index ∉ olds) (hroom : j.records.length ≠ capacity) :
    Follows window obs size (olds ++ [index]) (sweepRow olds s index)
      (j.observe capacity (obs index)).1 := by
  obtain ⟨ordinal, inside, heq⟩ := Journal.observe_room (obs index) hroom
  rw [heq]
  have hof := h.rows index hindex
  have hlt : ∀ i ∈ olds ++ [index], i < size := by
    intro i hi
    rcases mem_append.mp hi with hold | hlast
    · exact h.olds_lt i hold
    · exact mem_singleton.mp hlast ▸ hindex
  have hwindow : (j.count.remember (obs index)).window = window := by
    rw [Journal.remember_window, Journal.count_window, h.same_window]
  cases hclock : valid_clock (obs index) with
  | false =>
    have hsame : sweepRow olds s index = s := by
      unfold sweepRow
      dsimp only
      rw [hof.clock, hclock]
      rfl
    rw [hsame]
    refine ⟨h.length, hlt, h.rows, hwindow, ?_, ?_, ?_⟩
    · refine rel_append h.marked (Forall₂.cons ⟨rfl, ?_⟩ Forall₂.nil)
      rw [rowIssues_invalid hclock, h.same_window]
      exact h.unmarked index hindex hnew
    · intro i hi hout
      exact h.unmarked i hi fun hold => hout (mem_append_left _ hold)
    · have hremembers : j.count.remember (obs index) = j.count := by
        unfold Journal.remember
        rw [hclock]
        rfl
      rw [hremembers]
      unfold Journal.count
      split
      · exact h.previous
      · exact h.previous
  | true =>
    obtain ⟨hgains, hprevious⟩ := sweepRow_gains olds s index (hof.clock.trans hclock)
    refine ⟨hgains.length.trans h.length, hlt, ?_, hwindow, ?_, ?_, ?_⟩
    · intro i hi
      exact of_bare (h.rows i hi) (hgains.bare i)
    · refine rel_append ?_ (Forall₂.cons ⟨rfl, h.newest hindex hnew hclock⟩
        Forall₂.nil)
      rw [if_pos rfl, forall₂_map_right_iff]
      have hboth := (forall₂_and_left _ _).mpr ⟨fun i hi => hi, h.marked⟩
      refine hboth.imp fun i r hr => ⟨hr.2.1, ?_⟩
      have holder := h.older hindex hnew hclock hr.1 hr.2.2
      rw [← hr.2.1] at holder
      exact holder
    · intro i hi hout d flag hd
      have hne : i ≠ index := by
        rintro rfl
        exact hout (mem_append_right _ (mem_singleton_self _))
      have hnot : i ∉ olds := fun hold => hout (mem_append_left _ hold)
      rw [hgains.issues i (h.length.symm ▸ hi) d, ← h.unmarked i hi hnot d flag hd]
      refine or_iff_left ?_
      rintro (⟨hself, -⟩ | ⟨old, hold, hself | rfl, -⟩)
      · exact hne hself
      · exact hne hself
      · exact hnot hold
    · rw [hprevious]
      have hremembers : j.count.remember (obs index) = { j.count with
          previous_entry := (obs index).entry_qpc, previous_exit := (obs index).exit_qpc
          have_previous_clock := true } := by
        unfold Journal.remember
        rw [hclock]
        rfl
      rw [hremembers]
      exact ⟨rfl, hof.entry_qpc, hof.exit_qpc⟩

/-- **The whole loop**: the rows in this order, and their observations arriving in it. -/
theorem Follows.sweep {rest : List Nat} (h : Follows window obs size olds s j)
    (hrest : ∀ i ∈ rest, i < size) (hnodup : (olds ++ rest).Nodup)
    (hroom : (olds ++ rest).length ≤ capacity) :
    Follows window obs size (olds ++ rest) (sweep s olds rest)
      (rest.foldl (fun j i => (j.observe capacity (obs i)).1) j) := by
  induction rest generalizing olds s j with
  | nil =>
    rw [append_nil]
    exact h
  | cons index rest ih =>
    have hlength : j.records.length = olds.length := h.marked.length_eq.symm
    have hnew : index ∉ olds := by
      intro hold
      exact (nodup_append.mp hnodup).2.2 index hold index mem_cons_self rfl
    have hfull : j.records.length ≠ capacity := by
      rw [length_append, length_cons] at hroom
      omega
    have hstep := h.step (hrest index mem_cons_self) hnew hfull
    rw [append_cons] at hnodup hroom ⊢
    exact ih hstep (fun i hi => hrest i (mem_cons_of_mem _ hi)) hnodup hroom

end Run

end Mcla.TimerDecode

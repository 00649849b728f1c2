import Mcla.Observers.TimerObserver

/-! # The rows of the timer observer

A call that is admitted reads a clock and the state before the original, and the state and a clock
after it.  What a callback fails to give is cleared and noted in the row.  The rows that a freeze
copies come from such calls; their ordinals are different, and none of them could have been counted
instead of stored.
-/
namespace Mcla.TimerObserver
open TimerJournal (Window Identity State Observation valid_clock raise carries)
open TaskCounts (unit)
open List

/-! ### One call -/

def kNoCallbackIssue : BitVec 32 := 0
def kEntryClockCallbackFailed : BitVec 32 := 1 <<< 0
def kExitClockCallbackFailed : BitVec 32 := 1 <<< 1
def kBeforeStateCallbackFailed : BitVec 32 := 1 <<< 2
def kAfterStateCallbackFailed : BitVec 32 := 1 <<< 3
def kOriginalUnwound : BitVec 32 := 1 <<< 4

/-- What `read_state` comes to: it throws, returns false, or returns true with a state. -/
inductive Reading where
  | throws
  | absent
  | reads (state : State)
  deriving DecidableEq

def Reading.fails (r : Reading) : Bool := r = .throws

/-- What a reading leaves of a state, and whether there is one. -/
def Reading.kept : Reading → State × Bool
  | .throws => ({}, false)
  | .absent => ({}, false)
  | .reads state => (state, true)

/-- What an admitted call is given and meets; a clock whose callback throws is none. -/
structure Call where
  identity : Identity := {}
  (incoming_r5_low_byte incoming_f1_bits : Nat := 0)
  entry_clock : Option Nat := none
  before : Reading := .absent
  unwinds : Bool := false
  after : Reading := .absent
  exit_clock : Option Nat := none

/-- The row of a call: `capture_entry`, and the destructor of the completion. -/
def Call.row (c : Call) : RawRecord :=
  let issues := raise kNoCallbackIssue c.entry_clock.isNone kEntryClockCallbackFailed
  let issues := raise issues c.before.fails kBeforeStateCallbackFailed
  let issues := raise issues c.unwinds kOriginalUnwound
  let issues := raise issues c.after.fails kAfterStateCallbackFailed
  let issues := raise issues c.exit_clock.isNone kExitClockCallbackFailed
  { observation := {
      identity := c.identity
      entry_qpc := c.entry_clock.getD 0, exit_qpc := c.exit_clock.getD 0
      incoming_r5_low_byte := c.incoming_r5_low_byte
      incoming_f1_bits := c.incoming_f1_bits
      before := c.before.kept.1, before_available := c.before.kept.2
      after := c.after.kept.1, after_available := c.after.kept.2 }
    callback_issues := issues }

/-! ### What every row is like -/

/-- The values of a state are of their types. -/
structure Typed (s : State) : Prop where
  words : s.words.length = 18 ∧ ∀ v ∈ s.words, v < 2 ^ 32
  bytes : s.bytes.length = 3 ∧ ∀ v ∈ s.bytes, v < 2 ^ 8
  qwords : s.qwords.length = 1 ∧ ∀ v ∈ s.qwords, v < 2 ^ 64

/-- The values of a call are of their types; a thread identity fits into 32 bits. -/
structure Call.Typed (c : Call) : Prop where
  timer_address : c.identity.timer_address < 2 ^ 32
  caller_address : c.identity.caller_address < 2 ^ 32
  thread_identity : c.identity.thread_identity < 2 ^ 32
  incoming_r5_low_byte : c.incoming_r5_low_byte < 2 ^ 8
  incoming_f1_bits : c.incoming_f1_bits < 2 ^ 64
  entry_clock : ∀ qpc, c.entry_clock = some qpc → qpc < 2 ^ 64
  exit_clock : ∀ qpc, c.exit_clock = some qpc → qpc < 2 ^ 64
  before : ∀ s, c.before = .reads s → TimerObserver.Typed s
  after : ∀ s, c.after = .reads s → TimerObserver.Typed s

/-- A row that a call left. -/
def Made (row : RawRecord) : Prop :=
  ∃ c : Call, c.Typed ∧ row.observation = c.row.observation ∧
    row.callback_issues = c.row.callback_issues

/-- The rows that are observed in this move come from calls. -/
def Move.Genuine : Move → Prop
  | .step _ (.observes row) => Made row
  | _ => True

/-! ### Ordinals -/

/-- The ordinal that a task carries for its row. -/
def Task.ordinal : Task → Option Nat
  | .reserved slot => slot
  | .running slot => some slot
  | .completing row | .publishing row => some row.entry_ordinal
  | _ => none

def Task.carries (ordinal : Nat) (t : Task) : Bool := t.ordinal = some ordinal

/-- How often an ordinal is carried, by rows and by tasks. -/
def World.carried (w : World) (ordinal : Nat) : Nat :=
  w.records.countP (·.entry_ordinal = ordinal) + w.tasks.countP (Task.carries ordinal)

/-- Each ordinal is carried once and was counted; the one that was counted last is free as long as
its call is not admitted. -/
structure Ordinals (w : World) : Prop where
  once : ∀ o, w.carried o ≤ 1
  counted : ∀ o, 0 < w.carried o → 1 ≤ o ∧ o ≤ w.counts.observed_entries
  free : 0 < w.tasks.countP Task.undecided →
    1 ≤ w.counts.observed_entries ∧ w.carried w.counts.observed_entries = 0

/-- What is known of a copy. -/
structure Sound (capacity : Nat) (window : Window) (s : Snapshot) : Prop where
  same_window : s.window = window
  room : s.records.length ≤ capacity
  made : ∀ row ∈ s.records, Made row ∧ row.place window = .stored
  counts : ∀ counter, s.counts.get counter ≤ kCounterMax
  ordinals : s.counts.counter_saturated = false →
    (s.records.map (·.entry_ordinal)).Nodup ∧
      ∀ row ∈ s.records, 1 ≤ row.entry_ordinal ∧ row.entry_ordinal ≤ s.counts.observed_entries

/-- What is known of a task from its place. -/
def Backed (capacity : Nat) (window : Window) : Task → Prop
  | .completing row | .publishing row => Made row
  | .flagging _ dest | .unlocking _ dest true | .returned _ dest true => Sound capacity window dest
  | _ => True

/-- What is true of the records, in every state. -/
structure Rows (capacity : Nat) (window : Window) (w : World) : Prop where
  ordinals : w.counts.counter_saturated = false → Ordinals w
  made : ∀ row ∈ w.records, Made row ∧ row.place window = .stored
  counts : ∀ counter, w.counts.get counter ≤ kCounterMax
  backed : ∀ t ∈ w.tasks, Backed capacity window t

theorem Counts.increment_get {c : Counts} {counter other : Counter}
    (h : c.get other ≤ kCounterMax) : (c.increment counter).get other ≤ kCounterMax := by
  unfold Counts.increment
  split
  · cases other <;> exact h
  · rename_i hroom
    by_cases hsame : other = counter
    · subst hsame
      have hplus : (c.plus other).get other = c.get other + 1 := by
        cases other <;> rfl
      omega
    · have hplus : (c.plus counter).get other = c.get other := by
        cases other <;> cases counter <;> first | rfl | exact absurd rfl hsame
      omega

section Step
variable {capacity : Nat} {window : Window} {w w' : World} {me : Nat} {task task' : Task}

/-- What a step of one task does to how often an ordinal is carried. -/
theorem carried_set (hme : w.tasks[me]? = some task) (htasks : w'.tasks = w.tasks.set me task')
    (hrecords : w'.records = w.records) (o : Nat) :
    w'.carried o + unit (Task.carries o) task = w.carried o + unit (Task.carries o) task' := by
  have hset := TaskCounts.countP_set hme (Task.carries o) task'
  unfold World.carried
  rw [htasks, hrecords]
  omega

/-- A task that keeps its ordinal or loses it. -/
theorem carries_le (h : task'.ordinal = task.ordinal ∨ task'.ordinal = none) (o : Nat) :
    unit (Task.carries o) task' ≤ unit (Task.carries o) task := by
  unfold unit Task.carries
  rcases h with hsame | hnone
  · rw [hsame]
  · rw [hnone]
    exact Nat.zero_le _

/-- A step that counts no call and gives no ordinal. -/
theorem Ordinals.step (h : Ordinals w) (hme : w.tasks[me]? = some task)
    (htasks : w'.tasks = w.tasks.set me task') (hle : ∀ o, w'.carried o ≤ w.carried o)
    (hobserved : w'.counts.observed_entries = w.counts.observed_entries)
    (hundecided : unit Task.undecided task' ≤ unit Task.undecided task) : Ordinals w' := by
  have hset := TaskCounts.countP_set hme Task.undecided task'
  constructor
  · intro o
    exact (hle o).trans (h.once o)
  · intro o ho
    rw [hobserved]
    exact h.counted o (ho.trans_le (hle o))
  · intro hpos
    rw [htasks] at hpos
    obtain ⟨hone, hfree⟩ := h.free (by omega)
    have := hle w.counts.observed_entries
    rw [hobserved]
    omega

theorem backed_set (h : ∀ t ∈ w.tasks, Backed capacity window t)
    (hback : Backed capacity window task') :
    ∀ t ∈ w.tasks.set me task', Backed capacity window t := by
  intro t ht
  rcases mem_or_eq_of_mem_set ht with hold | rfl
  · exact h t hold
  · exact hback

/-- **A step that stores no row and gives no ordinal.** -/
theorem Rows.step (h : Rows capacity window w) (hme : w.tasks[me]? = some task)
    (htasks : w'.tasks = w.tasks.set me task') (hrecords : w'.records = w.records)
    (hcounts : w'.counts.counter_saturated = false → w.counts.counter_saturated = false ∧
      w'.counts.observed_entries = w.counts.observed_entries)
    (hle : ∀ counter, w'.counts.get counter ≤ kCounterMax)
    (hordinal : task'.ordinal = task.ordinal ∨ task'.ordinal = none)
    (hundecided : unit Task.undecided task' ≤ unit Task.undecided task)
    (hback : Backed capacity window task') : Rows capacity window w' where
  ordinals := by
    intro hok
    obtain ⟨hok', hobserved⟩ := hcounts hok
    refine (h.ordinals hok').step hme htasks (fun o => ?_) hobserved hundecided
    have hset := carried_set hme htasks hrecords o
    have := carries_le hordinal o
    omega
  made := by
    rw [hrecords]
    exact h.made
  counts := hle
  backed := by
    rw [htasks]
    exact backed_set h.backed hback

/-- A step that moves its task only. -/
theorem Rows.moves (h : Rows capacity window w) (hme : w.tasks[me]? = some task) (task' : Task)
    {accepting observer_failed : Bool} {holder : Option Nat} {in_flight failed_locks : Nat}
    (hordinal : task'.ordinal = task.ordinal ∨ task'.ordinal = none)
    (hundecided : unit Task.undecided task' ≤ unit Task.undecided task)
    (hback : Backed capacity window task') :
    Rows capacity window { w with
      accepting := accepting, observer_failed := observer_failed, holder := holder
      in_flight := in_flight, failed_locks := failed_locks, tasks := w.tasks.set me task' } :=
  h.step hme rfl rfl (fun hok => ⟨hok, rfl⟩) h.counts hordinal hundecided hback

/-- A step that counts something other than a call. -/
theorem Rows.tallies (h : Rows capacity window w) (hme : w.tasks[me]? = some task) (task' : Task)
    {counter : Counter} (hcounter : counter ≠ .observed)
    (hordinal : task'.ordinal = task.ordinal ∨ task'.ordinal = none)
    (hundecided : unit Task.undecided task' ≤ unit Task.undecided task)
    (hback : Backed capacity window task') :
    Rows capacity window { w with
      counts := w.counts.increment counter, tasks := w.tasks.set me task' } := by
  refine h.step hme rfl rfl (fun hok => ?_) (fun other => Counts.increment_get (h.counts other))
    hordinal hundecided hback
  obtain ⟨hok', heq⟩ := Counts.increment_eq hok
  refine ⟨hok', ?_⟩
  dsimp only
  rw [heq]
  cases counter <;> first | rfl | exact absurd rfl hcounter

/-- The call is counted; no task has its ordinal. -/
theorem Rows.observing (h : Rows capacity window w) (hme : w.tasks[me]? = some .observing) :
    Rows capacity window { w with
      counts := w.counts.increment .observed, tasks := w.tasks.set me .measuring } where
  ordinals := by
    intro hok
    obtain ⟨hok', heq⟩ := Counts.increment_eq hok
    have hord := h.ordinals hok'
    have hcarried : ∀ o, World.carried { w with
        counts := w.counts.increment .observed, tasks := w.tasks.set me .measuring } o +
          unit (Task.carries o) .observing = w.carried o + unit (Task.carries o) .measuring :=
      carried_set hme rfl rfl
    replace hcarried := fun o => Nat.add_right_cancel (hcarried o)
    have hobserved : (w.counts.increment .observed).observed_entries =
        w.counts.observed_entries + 1 := by
      rw [heq]
      rfl
    constructor
    · intro o
      rw [hcarried]
      exact hord.once o
    · intro o ho
      rw [hcarried] at ho
      have := hord.counted o ho
      dsimp only
      omega
    · intro _
      dsimp only
      rw [hobserved, hcarried]
      refine ⟨by omega, ?_⟩
      by_contra hne
      have := hord.counted _ (Nat.pos_of_ne_zero hne)
      omega
  made := h.made
  counts := fun other => Counts.increment_get (h.counts other)
  backed := backed_set h.backed trivial

/-- The call is admitted and carries its ordinal; it was the only one under way to it. -/
theorem Rows.admitting (h : Rows capacity window w) (hinv : Inv capacity w)
    (hme : w.tasks[me]? = some .admitting) :
    Rows capacity window { w with
      counts := w.counts.increment .admitted
      tasks := w.tasks.set me (.reserved (some w.counts.observed_entries)) } where
  ordinals := by
    intro hok
    obtain ⟨hok', heq⟩ := Counts.increment_eq hok
    have hord := h.ordinals hok'
    have halone := hinv.alone hme rfl Task.locked_of_undecided
    have hone : unit Task.undecided .admitting = 1 := rfl
    obtain ⟨hpos, hfree⟩ := hord.free (by omega)
    have hobserved : (w.counts.increment .admitted).observed_entries =
        w.counts.observed_entries := by
      rw [heq]
      rfl
    have hcarried : ∀ o, World.carried { w with
        counts := w.counts.increment .admitted
        tasks := w.tasks.set me (.reserved (some w.counts.observed_entries)) } o +
          unit (Task.carries o) .admitting =
        w.carried o + unit (Task.carries o) (.reserved (some w.counts.observed_entries)) :=
      carried_set hme rfl rfl
    have hnone : ∀ o, unit (Task.carries o) .admitting = 0 := fun o => rfl
    simp only [hnone, Nat.add_zero] at hcarried
    have hunit : ∀ o, unit (Task.carries o) (.reserved (some w.counts.observed_entries)) =
        if w.counts.observed_entries = o then 1 else 0 := by
      intro o
      unfold unit Task.carries Task.ordinal
      simp
    constructor
    · intro o
      rw [hcarried, hunit]
      have := hord.once o
      split
      · rename_i heq
        rw [← heq]
        omega
      · omega
    · intro o ho
      rw [hcarried, hunit] at ho
      dsimp only
      rw [hobserved]
      split at ho
      · omega
      · exact hord.counted o ho
    · intro hmore
      have hset := TaskCounts.countP_set hme Task.undecided
        (.reserved (some w.counts.observed_entries))
      have hnone : unit Task.undecided (.reserved (some w.counts.observed_entries)) = 0 := rfl
      dsimp only at hmore
      omega
  made := h.made
  counts := fun other => Counts.increment_get (h.counts other)
  backed := backed_set h.backed trivial

/-- The row of a call is stored with its ordinal, or both are dropped. -/
theorem Rows.publishing (h : Rows capacity window w) {row : RawRecord}
    (hme : w.tasks[me]? = some (.publishing row)) :
    Rows capacity window { w with
      records := if row.place window = .stored then w.records ++ [row] else w.records
      counts := w.counts.increment (row.place window), tasks := w.tasks.set me .counting } where
  ordinals := by
    intro hok
    obtain ⟨hok', heq⟩ := Counts.increment_eq hok
    have hord := h.ordinals hok'
    have hobserved : (w.counts.increment (row.place window)).observed_entries =
        w.counts.observed_entries := by
      rw [heq]
      have hplace : row.place window ≠ .observed := by
        unfold RawRecord.place
        dsimp only
        split
        · decide
        · split <;> decide
      generalize row.place window = counter at hplace
      cases counter <;> first | rfl | exact absurd rfl hplace
    have hle : ∀ o, World.carried { w with
        records := if row.place window = .stored then w.records ++ [row] else w.records
        counts := w.counts.increment (row.place window), tasks := w.tasks.set me .counting } o ≤
          w.carried o := by
      intro o
      have hset := TaskCounts.countP_set hme (Task.carries o) .counting
      have hnone : unit (Task.carries o) .counting = 0 := rfl
      have hown : unit (Task.carries o) (.publishing row) =
          if row.entry_ordinal = o then 1 else 0 := by
        unfold unit Task.carries Task.ordinal
        simp
      have hrecords : (if row.place window = .stored then w.records ++ [row]
          else w.records).countP (·.entry_ordinal = o) ≤
            w.records.countP (·.entry_ordinal = o) + if row.entry_ordinal = o then 1 else 0 := by
        split
        · rw [countP_append, countP_singleton]
          simp
        · exact Nat.le_add_right _ _
      unfold World.carried
      dsimp only
      omega
    exact hord.step hme rfl hle hobserved le_rfl
  made := by
    intro other hother
    have hmine : Made row := h.backed _ (mem_of_getElem? hme)
    dsimp only at hother
    split at hother
    · rename_i hplace
      rcases mem_append.mp hother with hold | hnew
      · exact h.made other hold
      · rw [mem_singleton.mp hnew]
        exact ⟨hmine, hplace⟩
    · exact h.made other hother
  counts := fun other => Counts.increment_get (h.counts other)
  backed := backed_set h.backed trivial

/-- What a freeze copies is sound. -/
theorem Rows.copied (h : Rows capacity window w) (hinv : Inv capacity w) :
    Sound capacity window ⟨window, w.records, w.counts⟩ where
  same_window := rfl
  room := by
    have := hinv.numbers.room
    dsimp only
    omega
  made := h.made
  counts := h.counts
  ordinals := by
    intro hok
    have hord := h.ordinals hok
    constructor
    · dsimp only
      rw [nodup_iff_count_le_one]
      intro o
      have hcount : (w.records.map (·.entry_ordinal)).count o =
          w.records.countP (·.entry_ordinal = o) := by
        rw [List.count, countP_map]
        congr 1
      have := hord.once o
      unfold World.carried at this
      omega
    · intro row hrow
      refine hord.counted row.entry_ordinal ?_
      have hpos : 0 < w.records.countP (·.entry_ordinal = row.entry_ordinal) :=
        countP_pos_iff.mpr ⟨row, hrow, decide_eq_true rfl⟩
      unfold World.carried
      omega

theorem Sound.flagged {s : Snapshot} (h : Sound capacity window s) (failed : Bool) :
    Sound capacity window { s with counts := { s.counts with observer_failed := failed } } where
  same_window := h.same_window
  room := h.room
  made := h.made
  counts := fun counter => by
    have := h.counts counter
    cases counter <;> exact this
  ordinals := h.ordinals

/-- **Every step of a task** keeps what holds of the rows. -/
theorem Rows.advance (h : Rows capacity window w) (hinv : Inv capacity w)
    (hme : w.tasks[me]? = some task) {chance : Chance} (hgenuine : (Move.step me chance).Genuine)
    (hadvance : w.advance capacity window me chance task = some (w', task')) :
    Rows capacity window { w' with tasks := w'.tasks.set me task' } := by
  have hback := h.backed task (mem_of_getElem? hme)
  cases task with
  | asking =>
    cases hadvance
    split
    · exact h.moves hme .locking (Or.inl rfl) le_rfl trivial
    · exact h.moves hme .finished (Or.inl rfl) le_rfl trivial
  | locking =>
    dsimp only [World.advance] at hadvance
    split at hadvance
    · cases hadvance
      exact h.moves hme .reserveFailed (Or.inl rfl) le_rfl trivial
    · split at hadvance
      · cases hadvance
        exact h.moves hme .asked (Or.inl rfl) le_rfl trivial
      · cases hadvance
  | asked =>
    cases hadvance
    split
    · exact h.moves hme .observing (Or.inl rfl) le_rfl trivial
    · exact h.moves hme (.reserved none) (Or.inl rfl) le_rfl trivial
  | observing =>
    cases hadvance
    exact h.observing hme
  | measuring =>
    cases hadvance
    split
    · exact h.moves hme .overflowing (Or.inl rfl) le_rfl trivial
    · exact h.moves hme .claiming (Or.inl rfl) le_rfl trivial
  | overflowing =>
    cases hadvance
    exact h.tallies hme (.reserved none) (by decide) (Or.inl rfl) (Nat.zero_le _) trivial
  | claiming =>
    cases hadvance
    exact h.moves hme .admitting (Or.inl rfl) le_rfl trivial
  | admitting =>
    cases hadvance
    exact h.admitting hinv hme
  | reserved slot =>
    cases hadvance
    cases slot with
    | none => exact h.moves hme .finished (Or.inl rfl) le_rfl trivial
    | some slot => exact h.moves hme (.running slot) (Or.inl rfl) le_rfl trivial
  | reserveFailed =>
    cases hadvance
    exact h.moves hme .finished (Or.inl rfl) le_rfl trivial
  | running slot =>
    cases chance with
    | observes row =>
      cases hadvance
      exact h.moves hme (.completing { row with entry_ordinal := slot }) (Or.inl rfl) le_rfl
        hgenuine
    | _ => cases hadvance
  | completing row =>
    dsimp only [World.advance] at hadvance
    split at hadvance
    · cases hadvance
      exact h.moves hme .losing (Or.inr rfl) le_rfl trivial
    · split at hadvance
      · cases hadvance
        exact h.moves hme (.publishing row) (Or.inl rfl) le_rfl hback
      · cases hadvance
  | publishing row =>
    cases hadvance
    exact h.publishing hme
  | counting =>
    cases hadvance
    exact h.tallies hme .dropping (by decide) (Or.inl rfl) le_rfl trivial
  | dropping =>
    cases hadvance
    exact h.moves hme .published (Or.inl rfl) le_rfl trivial
  | published =>
    cases hadvance
    exact h.moves hme .finished (Or.inl rfl) le_rfl trivial
  | losing =>
    cases hadvance
    exact h.moves hme .lost (Or.inl rfl) le_rfl trivial
  | lost =>
    cases hadvance
    exact h.moves hme .finished (Or.inl rfl) le_rfl trivial
  | finished => cases hadvance
  | stopping before dest =>
    cases hadvance
    exact h.moves hme (.trying before dest) (Or.inl rfl) le_rfl trivial
  | trying before dest =>
    dsimp only [World.advance] at hadvance
    split at hadvance
    · cases hadvance
      exact h.moves hme (.freezeFailed before dest) (Or.inl rfl) le_rfl trivial
    · split at hadvance
      · cases hadvance
        exact h.moves hme (.returned before dest false) (Or.inl rfl) le_rfl trivial
      · cases hadvance
        exact h.moves hme (.draining before dest) (Or.inl rfl) le_rfl trivial
  | draining before dest =>
    cases hadvance
    split
    · exact h.moves hme (.unlocking before dest false) (Or.inl rfl) le_rfl trivial
    · exact h.moves hme (.copying before dest) (Or.inl rfl) le_rfl trivial
  | copying before dest =>
    cases hadvance
    exact h.moves hme (.flagging before _) (Or.inl rfl) le_rfl (h.copied hinv)
  | flagging before dest =>
    cases hadvance
    exact h.moves hme (.unlocking before _ true) (Or.inl rfl) le_rfl (hback.flagged _)
  | unlocking before dest result =>
    cases hadvance
    cases result with
    | true => exact h.moves hme (.returned before dest true) (Or.inl rfl) le_rfl hback
    | false => exact h.moves hme (.returned before dest false) (Or.inl rfl) le_rfl trivial
  | freezeFailed before dest =>
    cases hadvance
    exact h.moves hme (.returned before dest false) (Or.inl rfl) le_rfl trivial
  | returned before dest result => cases hadvance

/-- A task more, at its start. -/
theorem Rows.begins (h : Rows capacity window w) {t : Task} (hordinal : t.ordinal = none)
    (hundecided : t.undecided = false) (hback : Backed capacity window t) :
    Rows capacity window { w with tasks := w.tasks ++ [t] } where
  ordinals := by
    intro hok
    obtain ⟨honce, hcounted, hfree⟩ := h.ordinals hok
    have hcarried : ∀ o, World.carried { w with tasks := w.tasks ++ [t] } o = w.carried o := by
      intro o
      unfold World.carried
      dsimp only
      rw [TaskCounts.countP_snoc]
      unfold unit Task.carries
      rw [hordinal]
      rfl
    refine ⟨fun o => ?_, fun o ho => ?_, fun hpos => ?_⟩
    · rw [hcarried]
      exact honce o
    · rw [hcarried] at ho
      exact hcounted o ho
    · dsimp only at hpos ⊢
      rw [TaskCounts.countP_snoc] at hpos
      rw [hcarried]
      apply hfree
      unfold unit at hpos
      rw [hundecided] at hpos
      exact hpos
  made := h.made
  counts := h.counts
  backed := by
    intro s hs
    rcases mem_append.mp hs with hold | hnew
    · exact h.backed s hold
    · rw [mem_singleton.mp hnew]
      exact hback

theorem Rows.move (h : Rows capacity window w) (hinv : Inv capacity w) {move : Move}
    (hgenuine : move.Genuine) : Rows capacity window (w.move capacity window move) := by
  cases move with
  | invoke => exact h.begins rfl rfl trivial
  | freeze dest => exact h.begins rfl rfl trivial
  | stop_admissions =>
    exact ⟨fun hok => ⟨(h.ordinals hok).once, (h.ordinals hok).counted, (h.ordinals hok).free⟩,
      h.made, h.counts, h.backed⟩
  | step me chance =>
    unfold World.move
    dsimp only
    cases hme : w.tasks[me]? with
    | none => exact h
    | some task =>
      dsimp only
      cases hadvance : w.advance capacity window me chance task with
      | none => exact h
      | some pair => exact h.advance hinv hme hgenuine hadvance

end Step

/-- **The rows of every run** whose observed rows come from calls. -/
theorem run_rows (capacity : Nat) (window : Window) (enabled : Bool) {moves : List Move}
    (hgenuine : ∀ move ∈ moves, move.Genuine) :
    Rows capacity window (run capacity window enabled moves) := by
  induction moves using reverseRecOn with
  | nil =>
    refine ⟨fun _ => ⟨fun o => Nat.zero_le _, fun o ho => ?_, fun hpos => ?_⟩, ?_, ?_, ?_⟩
    · exact absurd ho (by simp [World.carried, run])
    · exact absurd hpos (by simp [run])
    · intro row hrow
      cases hrow
    · intro counter
      cases counter <;> exact Nat.zero_le _
    · intro t ht
      cases ht
  | append_singleton moves move ih =>
    have hrows := ih fun m hm => hgenuine m (mem_append_left _ hm)
    have hinv := run_inv capacity window enabled moves
    unfold run at hrows hinv ⊢
    rw [foldl_append]
    exact hrows.move hinv (hgenuine move (mem_append_right _ (mem_singleton_self _)))

/-! ### Classification -/

/-- A snapshot, read as a journal. -/
structure OfflineReport where
  retained_calls : TimerJournal.Journal
  counts : Counts
  raw_callback_issues : BitVec 32 := kNoCallbackIssue

/-- The places of the rows by their ordinals. -/
def Snapshot.order (s : Snapshot) : List Nat :=
  (List.range s.records.length).insertionSort fun a b =>
    (s.records.getD a {}).entry_ordinal ≤ (s.records.getD b {}).entry_ordinal

/-- The rows are observed by a journal in the order of their ordinals. -/
def Snapshot.classify_offline (capacity : Nat) (s : Snapshot) : OfflineReport :=
  let rows := s.order.map fun i => s.records.getD i {}
  { retained_calls := TimerJournal.observeAll capacity s.window (rows.map (·.observation))
    counts := s.counts
    raw_callback_issues := rows.foldl (fun issues row => issues ||| row.callback_issues)
      kNoCallbackIssue }

end Mcla.TimerObserver

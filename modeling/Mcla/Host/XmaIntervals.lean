import Mcla.Host.XmaLedger

/-! # The intervals of the XMA ledger

The callers of `Collect` read one clock that never goes back.  A caller claims an interval on the
atomic clock of the ledger, and only then tries the mutex, under which the start of the interval is
kept: between the two a later caller may overtake it.  An interval that is reported is the time
between the claims of two turns with the mutex as long as nobody is overtaken.
-/
namespace Mcla.XmaLedger
open Monitor List Option

/-- A turn with the mutex: the time of the claim, and what was collected.  The caller that starts
the clocks collects nothing. -/
structure Turn where
  now_ms : UInt64
  collection : Option Collection

/-- The ledger, the clock of its callers, and the turns that are over, the latest first. -/
structure Clocked where
  now_ms : UInt64 := 0
  ledger : Ledger := {}
  turns : List Turn := []

/-- The turns after a step. -/
def turnsAfter (turns : List Turn) (s' : Ledger) : Point → Point → List Turn
  | .startTimes now_ms, _ => ⟨now_ms, none⟩ :: turns
  | .exchangeBad now_ms _, .unlock => ⟨now_ms, s'.book.closed.head?⟩ :: turns
  | .exchangeCalls now_ms _ _, .unlock => ⟨now_ms, s'.book.closed.head?⟩ :: turns
  | _, _ => turns

/-- A step of a caller; the clock may have gone on before it, and a call of `Collect` reads it. -/
structure TimedStep (c : Clocked) (p : Point) (c' : Clocked) (p' : Point) : Prop where
  step : Step c.ledger p c'.ledger p'
  turns : c'.turns = turnsAfter c.turns c'.ledger p p'
  clock : c.now_ms ≤ c'.now_ms
  reads : ∀ now_ms, p = .idle → p' = .load now_ms → now_ms = c'.now_ms

/-- The caller is not overtaken: whoever had the mutex last claimed no later, and whoever collects
finds the clocks started. -/
def InTurn (turns : List Turn) : Point → Prop
  | .startLock now_ms => ∀ last ∈ turns.head?, last.now_ms ≤ now_ms
  | .tryLock now_ms => ∃ last ∈ turns.head?, last.now_ms ≤ now_ms
  | _ => True

/-- A step that overtakes nobody. -/
structure OrderedStep (c : Clocked) (p : Point) (c' : Clocked) (p' : Point) : Prop extends
    TimedStep c p c' p' where
  order : p.holds = false → p'.holds = true → InTurn c.turns p

/-- A ledger whose callers share a clock. -/
abbrev TimedRuns (τ : Type) [DecidableEq τ] (w : World τ Clocked Point) : Prop :=
  Reachable TimedStep {} .idle w

/-- The runs in which no caller is overtaken. -/
abbrev OrderedRuns (τ : Type) [DecidableEq τ] (w : World τ Clocked Point) : Prop :=
  Reachable OrderedStep {} .idle w

/-- The turn begins a minute. -/
def Turn.startsMinute (t : Turn) : Bool := t.collection.all (·.minute.isSome)

/-- What is reported of a turn is the time since the claim of the turn before, and in a minute line,
which is not written before a minute has passed, since the claim that the minute began with. -/
structure Turn.Measured (t : Turn) (earlier : List Turn) : Prop where
  second : ∀ c ∈ t.collection, ∀ line ∈ c.second, ∃ last ∈ earlier.head?,
    last.now_ms ≤ t.now_ms ∧ line.interval_ms.toNat = t.now_ms.toNat - last.now_ms.toNat
  minute : ∀ c ∈ t.collection, ∀ m ∈ c.minute, ∃ first ∈ earlier.find? Turn.startsMinute,
    first.now_ms ≤ t.now_ms ∧ m.interval_ms.toNat = t.now_ms.toNat - first.now_ms.toNat ∧
      kMinuteMs.toNat ≤ t.now_ms.toNat - first.now_ms.toNat

/-- Every turn spans the time since the turn before it. -/
def AllMeasured (turns : List Turn) : Prop :=
  ∀ later t earlier, turns = later ++ t :: earlier → t.Measured earlier

/-! ### The times under the mutex -/

/-- The time of the last turn, as the ledger keeps it. -/
def lastMs (turns : List Turn) : UInt64 := (turns.head?.map (·.now_ms)).getD 0

/-- The time that the minute began at. -/
def minuteMs (turns : List Turn) : UInt64 := ((turns.find? Turn.startsMinute).map (·.now_ms)).getD 0

/-- What the lines of a turn say, whether or not they are right. -/
structure Turn.Says (t : Turn) (earlier : List Turn) : Prop where
  second : ∀ c ∈ t.collection, ∀ line ∈ c.second, line.interval_ms = t.now_ms - lastMs earlier
  minute : ∀ c ∈ t.collection, ∀ m ∈ c.minute, m.interval_ms = t.now_ms - minuteMs earlier ∧
    kMinuteMs ≤ t.now_ms - minuteMs earlier

/-- Every turn writes the interval that it spans. -/
def AllSay (turns : List Turn) : Prop :=
  ∀ later t earlier, turns = later ++ t :: earlier → t.Says earlier

theorem AllSay.cons {t : Turn} {turns : List Turn} (h : AllSay turns) (ht : t.Says turns) :
    AllSay (t :: turns) := by
  intro later u earlier hsplit
  cases later with
  | nil =>
    obtain ⟨rfl, rfl⟩ := List.cons.inj hsplit
    exact ht
  | cons v later => exact h later u earlier (List.cons.inj hsplit).2

/-- The turns that are over, with the book. -/
structure Recorded (c : Clocked) : Prop where
  lines : AllSay c.turns
  closed : c.turns.filterMap (·.collection) = c.ledger.book.closed
  minute_start : c.ledger.minute_start_ms = minuteMs c.turns

/-- Between turns. -/
structure TimesFree (c : Clocked) : Prop extends Recorded c where
  second_start : c.ledger.second_start_ms = lastMs c.turns

/-- A minute has passed. -/
structure TimesDue (c : Clocked) (now_ms : UInt64) (second : Option SecondLine) : Prop extends
    Recorded c where
  second_start : c.ledger.second_start_ms = now_ms
  due : kMinuteMs ≤ now_ms - minuteMs c.turns
  line : ∀ line ∈ second, line.interval_ms = now_ms - lastMs c.turns

/-- What is known of the times while a thread has the mutex. -/
def TimesHeld (c : Clocked) : Point → Prop
  | .exchangeCalls now_ms _ second => TimesDue c now_ms second
  | _ => TimesFree c

/-- **What a step does with the times.** -/
inductive Keeps (s : Ledger) (p : Point) (s' : Ledger) (p' : Point) : Prop where
  | same (hsecond : s'.second_start_ms = s.second_start_ms)
      (hminute : s'.minute_start_ms = s.minute_start_ms) (hclosed : s'.book.closed = s.book.closed)
      (hturns : ∀ turns, turnsAfter turns s' p p' = turns)
      (hpoint : ∀ now_ms distinct second, p' ≠ .exchangeCalls now_ms distinct second)
      (hpoint' : ∀ now_ms distinct second, p ≠ .exchangeCalls now_ms distinct second)
  | starts (now_ms : UInt64) (hp : p = .startTimes now_ms) (hp' : p' = .idle)
      (hsecond : s'.second_start_ms = now_ms) (hminute : s'.minute_start_ms = now_ms)
      (hclosed : s'.book.closed = s.book.closed)
  | closes (now_ms : UInt64) (g : Gathered) (hp : p = .exchangeBad now_ms g) (hp' : p' = .unlock)
      (hsecond : s'.second_start_ms = now_ms) (hminute : s'.minute_start_ms = s.minute_start_ms)
      (hclosed : ∃ i, s'.book.closed = ⟨i, s.secondLine now_ms g, none⟩ :: s.book.closed)
  | due (now_ms : UInt64) (g : Gathered) (distinct : Nat) (hp : p = .exchangeBad now_ms g)
      (hp' : p' = .exchangeCalls now_ms distinct (s.secondLine now_ms g))
      (hsecond : s'.second_start_ms = now_ms) (hminute : s'.minute_start_ms = s.minute_start_ms)
      (hclosed : s'.book.closed = s.book.closed) (hdue : kMinuteMs ≤ now_ms - s.minute_start_ms)
  | closesMinute (now_ms : UInt64) (distinct : Nat) (second : Option SecondLine)
      (hp : p = .exchangeCalls now_ms distinct second) (hp' : p' = .unlock)
      (hsecond : s'.second_start_ms = s.second_start_ms) (hminute : s'.minute_start_ms = now_ms)
      (hclosed : ∃ i, s'.book.closed =
        ⟨i, second, some (s.minuteLine now_ms distinct)⟩ :: s.book.closed)

theorem scan_ne_exchangeCalls (now_ms later_ms : UInt64) (id distinct : Nat) (g : Gathered)
    (second : Option SecondLine) :
    Point.scan now_ms id g ≠ .exchangeCalls later_ms distinct second := by
  unfold Point.scan
  split
  · exact Point.noConfusion
  · exact Point.noConfusion

variable {p p' : Point} {turns : List Turn} {c c' : Clocked}
  {next_ms second_ms minute_ms bad : UInt64}

theorem keeps {s s' : Ledger} (h : Step s p s' p') : Keeps s p s' p' := by
  cases h with
  | startTimes now_ms => exact .starts now_ms rfl rfl rfl rfl rfl
  | exchangeBad now_ms g => exact .closes now_ms g rfl rfl rfl rfl ⟨_, rfl⟩
  | exchangeBadMinute now_ms g hdue => exact .due now_ms g _ rfl rfl rfl rfl rfl hdue
  | exchangeCalls now_ms distinct second =>
    exact .closesMinute now_ms distinct second rfl rfl rfl rfl ⟨_, rfl⟩
  | callAdd id samples stereo =>
    refine .same rfl rfl rfl (fun _ => rfl) (fun _ _ _ => ?_) fun _ _ _ => by simp
    split <;> simp
  | addSum id samples stereo =>
    refine .same rfl rfl rfl (fun _ => rfl) (fun _ _ _ => ?_) fun _ _ _ => by simp
    split <;> simp
  | load now_ms =>
    refine .same rfl rfl rfl (fun _ => rfl) (fun _ _ _ => ?_) fun _ _ _ => by simp
    split
    · simp
    · split <;> simp
  | exchange now_ms id g =>
    refine .same rfl rfl rfl (fun _ => rfl) (fun _ _ _ => ?_) fun _ _ _ => by simp
    split
    · simp
    · exact scan_ne_exchangeCalls _ _ _ _ _ _
  | exchangeIdle now_ms id g =>
    exact .same rfl rfl rfl (fun _ => rfl) (fun _ _ _ => scan_ne_exchangeCalls _ _ _ _ _ _)
      fun _ _ _ => by simp
  | entryStereo now_ms id samples run g =>
    exact .same rfl rfl rfl (fun _ => rfl) (fun _ _ _ => scan_ne_exchangeCalls _ _ _ _ _ _)
      fun _ _ _ => by simp
  | tryLock now_ms =>
    exact .same rfl rfl rfl (fun _ => rfl) (fun _ _ _ => scan_ne_exchangeCalls _ _ _ _ _ _)
      fun _ _ _ => by simp
  | _ => exact .same rfl rfl rfl (fun _ => rfl) (fun _ _ _ => by simp) fun _ _ _ => by simp

theorem timed_locking : Locking TimedStep (·.ledger.mutex) Point.holds where
  outside h := locking.outside h.step
  acquire h := locking.acquire h.step
  inside h := locking.inside h.step
  release h := locking.release h.step

section Times
variable {c c' : Clocked} {p p' : Point}

theorem closed_of_head {closed : List Collection} {col : Collection} {t : Turn} (h : Recorded c)
    (ht : t.collection = some col) (hclosed : c.ledger.book.closed = closed) :
    (t :: c.turns).filterMap (·.collection) = col :: closed := by
  rw [filterMap_cons_some ht, h.closed, hclosed]

theorem minuteMs_cons (t : Turn) (turns : List Turn) :
    minuteMs (t :: turns) = if t.startsMinute then t.now_ms else minuteMs turns := by
  unfold minuteMs
  rw [find?_cons]
  cases t.startsMinute with
  | false => rfl
  | true => rfl

/-- The turns stay, and what the ledger keeps of them. -/
theorem Recorded.same (h : Recorded c) (hturns : c'.turns = c.turns)
    (hminute : c'.ledger.minute_start_ms = c.ledger.minute_start_ms)
    (hclosed : c'.ledger.book.closed = c.ledger.book.closed) : Recorded c' := by
  refine ⟨?_, ?_, ?_⟩
  · rw [hturns]
    exact h.lines
  · rw [hturns, hclosed]
    exact h.closed
  · rw [hturns, hminute]
    exact h.minute_start

theorem timesHeld_step (hstep : TimedStep c p c' p') (h : TimesHeld c p) : TimesHeld c' p' := by
  have hturns := hstep.turns
  cases keeps hstep.step with
  | same hsecond hminute hclosed hsame hpoint hpoint' =>
    rw [hsame] at hturns
    have hfree : TimesFree c := by
      cases p with
      | exchangeCalls => exact absurd rfl (hpoint' _ _ _)
      | _ => exact h
    have hfree' : TimesFree c' := by
      refine ⟨hfree.toRecorded.same hturns hminute hclosed, ?_⟩
      rw [hturns, hsecond]
      exact hfree.second_start
    cases p' with
    | exchangeCalls => exact absurd rfl (hpoint _ _ _)
    | _ => exact hfree'
  | starts now_ms hp hp' hsecond hminute hclosed =>
    subst hp hp'
    change TimesFree c'
    have hfree : TimesFree c := h
    replace hturns : c'.turns = ⟨now_ms, none⟩ :: c.turns := hturns
    refine ⟨⟨?_, ?_, ?_⟩, ?_⟩
    · rw [hturns]
      exact hfree.lines.cons ⟨fun _ hc => (by cases hc), fun _ hc => by cases hc⟩
    · rw [hturns, hclosed]
      exact hfree.closed
    · rw [hturns, hminute, minuteMs_cons]
      rfl
    · rw [hturns, hsecond]
      rfl
  | closes now_ms g hp hp' hsecond hminute hclosed =>
    subst hp hp'
    change TimesFree c'
    have hfree : TimesFree c := h
    obtain ⟨i, hclosed⟩ := hclosed
    replace hturns : c'.turns = ⟨now_ms, c'.ledger.book.closed.head?⟩ :: c.turns := hturns
    rw [hclosed, head?_cons] at hturns
    refine ⟨⟨?_, ?_, ?_⟩, ?_⟩
    · rw [hturns]
      refine hfree.lines.cons ⟨fun _ hc line hline => ?_, fun _ hc m hm => ?_⟩
      · cases hc
        change line ∈ c.ledger.secondLine now_ms g at hline
        unfold Ledger.secondLine at hline
        split at hline
        · cases hline
          rw [hfree.second_start]
        · cases hline
      · cases hc
        cases hm
    · rw [hturns, hclosed]
      exact closed_of_head hfree.toRecorded rfl rfl
    · rw [hturns, hminute, minuteMs_cons]
      exact hfree.minute_start
    · rw [hturns, hsecond]
      rfl
  | due now_ms g distinct hp hp' hsecond hminute hclosed hdue =>
    subst hp hp'
    have hfree : TimesFree c := h
    replace hturns : c'.turns = c.turns := hturns
    refine ⟨hfree.toRecorded.same hturns hminute hclosed, hsecond, ?_, fun line hline => ?_⟩
    · rw [hturns, ← hfree.minute_start]
      exact hdue
    · unfold Ledger.secondLine at hline
      split at hline
      · cases hline
        rw [hfree.second_start, hturns]
      · cases hline
  | closesMinute now_ms distinct second hp hp' hsecond hminute hclosed =>
    subst hp hp'
    change TimesFree c'
    have hdue : TimesDue c now_ms second := h
    obtain ⟨i, hclosed⟩ := hclosed
    replace hturns : c'.turns = ⟨now_ms, c'.ledger.book.closed.head?⟩ :: c.turns := hturns
    rw [hclosed, head?_cons] at hturns
    refine ⟨⟨?_, ?_, ?_⟩, ?_⟩
    · rw [hturns]
      refine hdue.lines.cons ⟨fun _ hc line hline => ?_, fun _ hc m hm => ?_⟩
      · cases hc
        exact hdue.line line hline
      · cases hc
        cases hm
        refine ⟨?_, hdue.due⟩
        change now_ms - c.ledger.minute_start_ms = _
        rw [hdue.minute_start]
    · rw [hturns, hclosed]
      exact closed_of_head hdue.toRecorded rfl rfl
    · rw [hturns, hminute, minuteMs_cons]
      rfl
    · rw [hturns, hsecond]
      exact hdue.second_start

/-- A step that is not under the mutex. -/
theorem timesHeld_other (hstep : TimedStep c p c' p') (hp : p.holds = false) (q : Point)
    (h : TimesHeld c q) : TimesHeld c' q := by
  have hturns := hstep.turns
  cases keeps hstep.step with
  | same hsecond hminute hclosed hsame =>
    rw [hsame] at hturns
    have hfree (hfree : TimesFree c) : TimesFree c' := by
      refine ⟨hfree.toRecorded.same hturns hminute hclosed, ?_⟩
      rw [hturns, hsecond]
      exact hfree.second_start
    cases q with
    | exchangeCalls now_ms distinct second =>
      have hdue : TimesDue c now_ms second := h
      refine ⟨hdue.toRecorded.same hturns hminute hclosed, hsecond.trans hdue.second_start, ?_, ?_⟩
      · rw [hturns]
        exact hdue.due
      · rw [hturns]
        exact hdue.line
    | _ => exact hfree h
  | starts _ heq | closes _ _ heq | due _ _ _ heq | closesMinute _ _ _ heq =>
    rw [heq] at hp
    cases hp

theorem timesFree_of_not_holds (h : TimesHeld c p) (hp : p.holds = false) : TimesFree c := by
  cases p with
  | exchangeCalls => cases hp
  | _ => exact h

theorem timesHeld_of_free (h : TimesFree c) (hp : p.holds = false) : TimesHeld c p := by
  cases p with
  | exchangeCalls => cases hp
  | _ => exact h

theorem times_protects : Protects TimedStep Point.holds TimesFree TimesHeld where
  outside h hp hp' :=
    ⟨fun hfree => timesFree_of_not_holds (timesHeld_step h (timesHeld_of_free hfree hp)) hp',
      fun q _ hheld => timesHeld_other h hp q hheld⟩
  acquire h hp _ hfree := timesHeld_step h (timesHeld_of_free hfree hp)
  inside h _ _ hheld := timesHeld_step h hheld
  release h _ hp' hheld := timesFree_of_not_holds (timesHeld_step h hheld) hp'

end Times

/-- **What is reported**, in any run: the wrapping difference of the times of two turns. -/
theorem recorded {τ : Type} [DecidableEq τ] {w : World τ Clocked Point} (h : TimedRuns τ w) :
    Recorded w.shared := by
  have hfree : TimesFree {} := ⟨⟨fun _ _ _ hsplit => absurd hsplit (by simp), rfl, rfl⟩, rfl⟩
  obtain ⟨hiff, -⟩ := exclusive timed_locking rfl rfl h
  obtain ⟨hunlocked, hheld⟩ := protected_of_reachable timed_locking times_protects rfl rfl hfree h
  by_cases hmutex : w.shared.ledger.mutex = true
  · obtain ⟨t, ht⟩ := hiff.mp hmutex
    have hpoint := hheld t ht
    cases hp : w.point t with
    | exchangeCalls =>
      rw [hp] at hpoint
      exact TimesDue.toRecorded hpoint
    | _ =>
      rw [hp] at hpoint
      exact TimesFree.toRecorded hpoint
  · exact (hunlocked (Bool.not_eq_true _ ▸ hmutex)).toRecorded

/-! ### In the order of the claims -/

/-- The turns are in the order of their claims, and the first one started the clocks. -/
structure InOrder (turns : List Turn) : Prop where
  increasing : turns.Pairwise fun later earlier => earlier.now_ms ≤ later.now_ms
  started : ∀ first ∈ turns.getLast?, first.collection = none

/-- The time that the thread at a point claimed at. -/
def Point.claimed : Point → Option UInt64
  | .startTimes now_ms | .exchange now_ms _ _ | .entryStereo now_ms _ _ _ _ => some now_ms
  | .exchangeBad now_ms _ | .exchangeCalls now_ms _ _ => some now_ms
  | _ => none

/-- The caller is collecting an interval. -/
def Point.collects : Point → Bool
  | .exchange .. | .entryStereo .. | .exchangeBad .. | .exchangeCalls .. => true
  | _ => false

/-- The thread with the mutex has overtaken nobody. -/
structure OrderHeld (turns : List Turn) (p : Point) : Prop extends InOrder turns where
  last : ∀ now_ms ∈ p.claimed, ∀ last ∈ turns.head?, last.now_ms ≤ now_ms
  clocks : p.collects = true → turns ≠ []

theorem InOrder.cons {turns : List Turn} (h : InOrder turns) {t : Turn}
    (hlast : ∀ last ∈ turns.head?, last.now_ms ≤ t.now_ms)
    (hstarted : t.collection = none ∨ turns ≠ []) : InOrder (t :: turns) := by
  refine ⟨pairwise_cons.mpr ⟨fun u hu => ?_, h.increasing⟩, fun first hfirst => ?_⟩
  · cases turns with
    | nil => cases hu
    | cons last turns =>
      have hle := hlast last rfl
      rcases mem_cons.mp hu with rfl | hu
      · exact hle
      · exact UInt64.le_trans ((pairwise_cons.mp h.increasing).1 u hu) hle
  · cases turns with
    | nil =>
      cases hfirst
      exact hstarted.resolve_right fun hne => hne rfl
    | cons last turns =>
      rw [getLast?_cons_cons] at hfirst
      exact h.started first hfirst

theorem claimed_scan (now_ms : UInt64) (id : Nat) (g : Gathered) :
    (Point.scan now_ms id g).claimed = some now_ms ∧ (Point.scan now_ms id g).collects = true := by
  unfold Point.scan
  split
  · exact ⟨rfl, rfl⟩
  · exact ⟨rfl, rfl⟩

/-- The thread goes on with its collection. -/
theorem OrderHeld.next (h : OrderHeld turns p) (hclaimed : p'.claimed = p.claimed)
    (hcollects : p.collects = true) : OrderHeld turns p' := by
  refine ⟨h.toInOrder, ?_, fun _ => h.clocks hcollects⟩
  rw [hclaimed]
  exact h.last

/-- The turn of a thread is over. -/
theorem OrderHeld.over {p : Point} (h : OrderHeld turns p) {now_ms : UInt64}
    (hclaimed : p.claimed = some now_ms) {collection : Option Collection}
    (hcollection : collection = none ∨ p.collects = true) :
    InOrder (⟨now_ms, collection⟩ :: turns) := by
  refine h.toInOrder.cons (h.last now_ms hclaimed) ?_
  rcases hcollection with hnone | hcollects
  · exact .inl hnone
  · exact .inr (h.clocks hcollects)

theorem orderHeld_unlock (h : InOrder turns) : OrderHeld turns .unlock :=
  ⟨h, fun _ hclaimed => (by cases hclaimed), fun hcollects => by cases hcollects⟩

theorem ordered_locking : Locking OrderedStep (·.ledger.mutex) Point.holds where
  outside h := timed_locking.outside h.toTimedStep
  acquire h := timed_locking.acquire h.toTimedStep
  inside h := timed_locking.inside h.toTimedStep
  release h := timed_locking.release h.toTimedStep

theorem turns_of_not_holds (h : TimedStep c p c' p') (hp : p.holds = false) :
    c'.turns = c.turns := by
  cases keeps h.step with
  | same _ _ _ hsame => rw [h.turns, hsame]
  | starts _ heq | closes _ _ heq | due _ _ _ heq | closesMinute _ _ _ heq =>
    rw [heq] at hp
    cases hp

theorem orderHeld_acquire (h : OrderedStep c p c' p') (hp : p.holds = false) (hp' : p'.holds = true)
    (hfree : InOrder c.turns) : OrderHeld c'.turns p' := by
  have hturn := h.order hp hp'
  rw [turns_of_not_holds h.toTimedStep hp]
  obtain ⟨⟨hstep, -, -, -⟩, -⟩ := h
  generalize c'.ledger = s' at hstep
  cases hstep with
  | startLock now_ms =>
    refine ⟨hfree, fun claimed hclaimed => ?_, fun hcollects => by cases hcollects⟩
    cases hclaimed
    exact hturn
  | tryLock now_ms =>
    obtain ⟨last, hlast, hle⟩ := hturn
    refine ⟨hfree, fun claimed hclaimed => ?_, fun _ hnil => ?_⟩
    · rw [(claimed_scan _ _ _).1] at hclaimed
      cases hclaimed
      intro u hu
      rw [mem_unique hu hlast]
      exact hle
    · rw [hnil] at hlast
      cases hlast
  -- none of these leads to a point under the mutex
  | callAdd | addSum => exact absurd hp' (by split <;> simp [Point.holds])
  | load =>
    split at hp'
    · cases hp'
    · exact absurd hp' (by split <;> simp [Point.holds])
  | startTimes | exchangeIdle | exchange | entryStereo => cases hp
  | exchangeBad | exchangeBadMinute | exchangeCalls | unlock => cases hp
  | _ => cases hp'

theorem orderHeld_inside (h : OrderedStep c p c' p') (hp : p.holds = true) (hp' : p'.holds = true)
    (hheld : OrderHeld c.turns p) : OrderHeld c'.turns p' := by
  obtain ⟨⟨hstep, hturns, -, -⟩, -⟩ := h
  generalize c'.ledger = s' at hstep hturns
  cases hstep with
  | exchangeIdle now_ms id g =>
    rw [hturns]
    exact hheld.next (claimed_scan _ _ _).1 rfl
  | exchange now_ms id g =>
    rw [hturns]
    by_cases hroom : g.entries.length < kMaxLineEntries
    · rw [if_pos hroom]
      exact hheld.next rfl rfl
    · rw [if_neg hroom]
      exact hheld.next (claimed_scan _ _ _).1 rfl
  | entryStereo now_ms id samples run g =>
    rw [hturns]
    exact hheld.next (claimed_scan _ _ _).1 rfl
  | exchangeBad now_ms g =>
    rw [hturns]
    exact orderHeld_unlock (hheld.over rfl (.inr rfl))
  | exchangeBadMinute now_ms g =>
    rw [hturns]
    exact hheld.next rfl rfl
  | exchangeCalls now_ms distinct second =>
    rw [hturns]
    exact orderHeld_unlock (hheld.over rfl (.inr rfl))
  | startTimes | unlock => cases hp'
  | _ => cases hp

theorem orderHeld_release (h : OrderedStep c p c' p') (hp : p.holds = true) (hp' : p'.holds = false)
    (hheld : OrderHeld c.turns p) : InOrder c'.turns := by
  rw [h.turns]
  rcases step_mutex h.step with ⟨hheld', -⟩ | ⟨hheld', -⟩ | ⟨-, hheld', -⟩ | ⟨-, -, -, -, hpoint⟩
  · rw [hp] at hheld'
    cases hheld'
  · rw [hp] at hheld'
    cases hheld'
  · rw [hp'] at hheld'
    cases hheld'
  · rcases hpoint with rfl | ⟨now_ms, rfl⟩
    · exact hheld.toInOrder
    · exact hheld.over rfl (.inl rfl)

theorem order_protects :
    Protects OrderedStep Point.holds (fun c => InOrder c.turns)
      (fun c p => OrderHeld c.turns p) where
  outside h hp hp' := by
    rw [turns_of_not_holds h.toTimedStep hp]
    exact ⟨id, fun _ _ hheld => hheld⟩
  acquire h hp hp' hfree := orderHeld_acquire h hp hp' hfree
  inside h hp hp' hheld := orderHeld_inside h hp hp' hheld
  release h hp hp' hheld := orderHeld_release h hp hp' hheld

theorem inOrder {τ : Type} [DecidableEq τ] {w : World τ Clocked Point} (h : OrderedRuns τ w) :
    InOrder w.shared.turns := by
  have hfree : InOrder ({} : Clocked).turns := ⟨.nil, fun _ hfirst => by cases hfirst⟩
  obtain ⟨hiff, -⟩ := exclusive ordered_locking rfl rfl h
  obtain ⟨hunlocked, hheld⟩ := protected_of_reachable ordered_locking order_protects rfl rfl hfree h
  by_cases hmutex : w.shared.ledger.mutex = true
  · obtain ⟨t, ht⟩ := hiff.mp hmutex
    exact (hheld t ht).toInOrder
  · exact hunlocked (Bool.not_eq_true _ ▸ hmutex)

/-- A difference of two times is the time between them only if it does not wrap. -/
theorem sub_toNat_iff {a b : UInt64} : (a - b).toNat + b.toNat = a.toNat ↔ b ≤ a := by
  rw [UInt64.le_iff_toNat_le]
  constructor
  · intro h
    omega
  · intro h
    rw [UInt64.toNat_sub_of_le _ _ (UInt64.le_iff_toNat_le.mpr h)]
    omega

section Order
variable {turns later earlier : List Turn} {t u : Turn}

theorem InOrder.le (h : InOrder turns) (hsplit : turns = later ++ t :: earlier) (hu : u ∈ earlier) :
    u.now_ms ≤ t.now_ms := by
  have hincreasing := h.increasing
  rw [hsplit] at hincreasing
  exact (pairwise_cons.mp (pairwise_append.mp hincreasing).2.1).1 u hu

/-- Whoever collects has a turn before that started the clocks. -/
theorem InOrder.exists_start (h : InOrder turns) (hsplit : turns = later ++ t :: earlier)
    (ht : t.collection ≠ none) : ∃ first ∈ earlier, first.collection = none := by
  have hlast := h.started
  rw [hsplit, getLast?_append_of_ne_nil _ (cons_ne_nil t earlier)] at hlast
  cases earlier with
  | nil => exact absurd (hlast t rfl) ht
  | cons last rest =>
    rw [getLast?_cons_cons] at hlast
    refine ⟨_, getLast_mem (cons_ne_nil last rest), hlast _ ?_⟩
    exact getLast?_eq_some_getLast (cons_ne_nil last rest)

theorem allMeasured (hsay : AllSay turns) (h : InOrder turns) : AllMeasured turns := by
  intro later t earlier hsplit
  have hlines := hsay later t earlier hsplit
  refine ⟨fun c hc line hline => ?_, fun c hc m hm => ?_⟩
  · have hcollects : t.collection ≠ none := by
      rw [mem_def.mp hc]
      exact some_ne_none c
    have hinterval := hlines.second c hc line hline
    obtain ⟨first, hfirst, -⟩ := h.exists_start hsplit hcollects
    cases earlier with
    | nil => cases hfirst
    | cons last rest =>
      have hle := h.le hsplit (mem_cons_self (a := last))
      refine ⟨last, rfl, hle, ?_⟩
      rw [hinterval]
      exact UInt64.toNat_sub_of_le _ _ hle
  · have hcollects : t.collection ≠ none := by
      rw [mem_def.mp hc]
      exact some_ne_none c
    obtain ⟨hinterval, hdue⟩ := hlines.minute c hc m hm
    obtain ⟨start, hstart, hnone⟩ := h.exists_start hsplit hcollects
    have hstarts : start.startsMinute = true := by
      rw [Turn.startsMinute, hnone]
      rfl
    cases hfind : earlier.find? Turn.startsMinute with
    | none => exact absurd hstarts (find?_eq_none.mp hfind start hstart)
    | some first =>
      have hle := h.le hsplit (mem_of_find?_eq_some hfind)
      have hminute : minuteMs earlier = first.now_ms := by
        rw [minuteMs, hfind]
        rfl
      rw [hminute] at hinterval hdue
      refine ⟨first, rfl, hle, ?_, ?_⟩
      · rw [hinterval]
        exact UInt64.toNat_sub_of_le _ _ hle
      · rw [← UInt64.toNat_sub_of_le _ _ hle]
        exact UInt64.le_iff_toNat_le.mp hdue

end Order

/-! ### A caller that is overtaken -/

/-- Steps of one caller that overtakes nobody. -/
abbrev InTurnSteps (c : Clocked) (p : Point) (c' : Clocked) (p' : Point) : Prop :=
  Relation.ReflTransGen (fun a b : Clocked × Point => OrderedStep a.1 a.2 b.1 b.2) (c, p) (c', p')

theorem InTurnSteps.single (h : OrderedStep c p c' p') :
    InTurnSteps c p c' p' := Relation.ReflTransGen.single h

theorem InTurnSteps.head {c c' c'' : Clocked} {p p' p'' : Point}
    (h : InTurnSteps c' p' c'' p'') (hstep : OrderedStep c p c' p') : InTurnSteps c p c'' p'' :=
  Relation.ReflTransGen.head hstep h

theorem InTurnSteps.timed (h : InTurnSteps c p c' p') :
    Relation.ReflTransGen (fun a b : Clocked × Point => TimedStep a.1 a.2 b.1 b.2)
      (c, p) (c', p') :=
  Relation.ReflTransGen.mono
    (fun _ _ (hstep : OrderedStep _ _ _ _) => hstep.toTimedStep) _ _ h

/-- A step that ends no turn and reads no clock. -/
theorem orderedStep_quiet {c : Clocked} {s : Ledger} (h : Step c.ledger p s p')
    (hturns : turnsAfter c.turns s p p' = c.turns) (hp : ∀ now_ms, p' ≠ .load now_ms)
    (horder : p.holds = false → p'.holds = true → InTurn c.turns p) :
    OrderedStep c p { c with ledger := s } p' :=
  ⟨⟨h, hturns.symm, UInt64.le_refl _, fun now_ms _ heq => absurd heq (hp now_ms)⟩, horder⟩

/-- A call reads the clock, which may have moved on. -/
theorem orderedStep_collect {c : Clocked} {now_ms : UInt64} (hnow : c.now_ms ≤ now_ms) :
    OrderedStep c .idle { c with now_ms } (.load now_ms) := by
  refine ⟨⟨.callCollect c.ledger now_ms, rfl, hnow, fun later _ heq => ?_⟩, fun _ heq => ?_⟩
  · cases heq
    rfl
  · cases heq

/-- A collection that finds no samples. -/
theorem exists_silent_scan (now_ms : UInt64) {n k : Nat} (hk : k + n = kContextCount) (c : Clocked)
    (hsum : ∀ id, c.ledger.sum id = 0) :
    ∃ run, InTurnSteps c (.scan now_ms k {}) { c with ledger := { c.ledger with run } }
      (.exchangeBad now_ms {}) := by
  induction n generalizing k c with
  | zero =>
    have hend : Point.scan now_ms k {} = .exchangeBad now_ms {} := if_neg (by omega)
    rw [hend]
    exact ⟨c.ledger.run, .refl⟩
  | succ n ih =>
    have hstart : Point.scan now_ms k {} = .exchange now_ms k {} := if_pos (by omega)
    rw [hstart]
    obtain ⟨run, hsteps⟩ := ih (k := k + 1) (by omega)
      { c with ledger := { c.ledger with run := Function.update c.ledger.run k 0 } } hsum
    refine ⟨run, InTurnSteps.head hsteps
      (orderedStep_quiet (.exchangeIdle c.ledger now_ms k {} (hsum k)) rfl ?_ ?_)⟩
    · intro later
      unfold Point.scan
      split
      · exact Point.noConfusion
      · exact Point.noConfusion
    · intro hp
      cases hp

/-- The turn of a collection with a minute line. -/
def minuteTurn (c : Clocked) (now_ms : UInt64) : Turn where
  now_ms := now_ms
  collection := some ⟨⟨c.ledger.book.current.claims, c.ledger.book.current.bad + c.ledger.bad⟩,
    c.ledger.secondLine now_ms {}, some ⟨now_ms - c.ledger.minute_start_ms, c.ledger.distinct,
      c.ledger.minute_samples, c.ledger.calls, c.ledger.minute_bad + c.ledger.bad,
      if (c.ledger.secondLine now_ms {}).isSome then c.ledger.minute_lines + 1
      else c.ledger.minute_lines⟩⟩

/-- A ledger with a free mutex and nothing to collect but the bad calls. -/
structure Silent (c : Clocked) (next_ms second_ms minute_ms bad : UInt64) : Prop where
  sum : ∀ id, c.ledger.sum id = 0
  next : c.ledger.next_ms = next_ms
  mutex : c.ledger.mutex = false
  second : c.ledger.second_start_ms = second_ms
  minute : c.ledger.minute_start_ms = minute_ms
  bad : c.ledger.bad = bad

/-- The collection of a caller that finds a minute over. -/
theorem exists_minute (now_ms : UInt64) {c : Clocked} (h : Silent c next_ms second_ms minute_ms bad)
    (hdue : kMinuteMs ≤ now_ms - minute_ms) :
    ∃ c', InTurnSteps { c with ledger := { c.ledger with mutex := true } } (.scan now_ms 0 {}) c'
        .idle ∧ Silent c' next_ms now_ms now_ms 0 ∧ c'.now_ms = c.now_ms ∧
      c'.turns = minuteTurn c now_ms :: c.turns := by
  obtain ⟨run, hscan⟩ := exists_silent_scan now_ms (n := kContextCount) (k := 0) (Nat.zero_add _)
    { c with ledger := { c.ledger with mutex := true } } h.sum
  let held : Ledger := { c.ledger with mutex := true, run }
  have hdue' : kMinuteMs ≤ now_ms - held.minute_start_ms := by
    change kMinuteMs ≤ now_ms - c.ledger.minute_start_ms
    rw [h.minute]
    exact hdue
  have hover := orderedStep_quiet (c := { c with ledger := held })
    (.exchangeBadMinute held now_ms {} hdue') rfl (fun _ heq => by cases heq)
    fun heq => by cases heq
  let collected : Ledger := { held.takeBad.nextSecond now_ms (held.secondLine now_ms {}) with
    minute_seen := fun _ => false }
  let closed : Ledger := (collected.nextMinute now_ms).close (held.secondLine now_ms {})
    (some (collected.minuteLine now_ms held.distinct))
  -- the turn is over when the calls have been exchanged
  have hcalls : OrderedStep { c with ledger := collected }
      (.exchangeCalls now_ms held.distinct (held.secondLine now_ms {}))
      ⟨c.now_ms, closed, minuteTurn c now_ms :: c.turns⟩ .unlock :=
    ⟨⟨.exchangeCalls collected now_ms held.distinct _, rfl, UInt64.le_refl _,
      fun _ heq => by cases heq⟩, fun heq => by cases heq⟩
  have hunlock := orderedStep_quiet (c := ⟨c.now_ms, closed, minuteTurn c now_ms :: c.turns⟩)
    (.unlock closed) rfl (fun _ heq => by cases heq) fun heq => by cases heq
  refine ⟨⟨c.now_ms, { closed with mutex := false }, minuteTurn c now_ms :: c.turns⟩,
    hscan.trans ((InTurnSteps.single hunlock).head hcalls |>.head hover), ?_, rfl, rfl⟩
  exact ⟨h.sum, h.next, rfl, rfl, rfl, rfl⟩

/-- A call that is counted as bad. -/
theorem exists_bad {c : Clocked} (h : Silent c next_ms second_ms minute_ms bad) :
    ∃ c', InTurnSteps c .idle c' .idle ∧ Silent c' next_ms second_ms minute_ms (bad + 1) ∧
      c'.now_ms = c.now_ms ∧ c'.turns = c.turns := by
  have hcall := orderedStep_quiet (.callAddBad c.ledger) rfl (fun _ heq => by cases heq)
    fun _ heq => by cases heq
  have hcalls := orderedStep_quiet (c := c) (.badCalls c.ledger) rfl (fun _ heq => by cases heq)
    fun _ heq => by cases heq
  have hcount := orderedStep_quiet (c := { c with ledger := c.ledger.fetchAddCalls })
    (.badCount c.ledger.fetchAddCalls) rfl (fun _ heq => by cases heq) fun _ heq => by cases heq
  refine ⟨{ c with ledger := c.ledger.fetchAddCalls.fetchAddBad },
    (InTurnSteps.single hcount).head hcalls |>.head hcall, ?_, rfl, rfl⟩
  exact ⟨h.sum, h.next, h.mutex, h.second, h.minute, congrArg (· + 1) h.bad⟩

/-- The call that starts the clocks. -/
theorem exists_start (now_ms : UInt64) {c : Clocked} {second_ms minute_ms bad : UInt64}
    (h : Silent c 0 second_ms minute_ms bad) (hnow : c.now_ms ≤ now_ms) (hturns : c.turns = []) :
    ∃ c', InTurnSteps c .idle c' .idle ∧ Silent c' (now_ms + kSecondMs) now_ms now_ms bad ∧
      c'.now_ms = now_ms ∧ c'.turns = [⟨now_ms, none⟩] := by
  have hcall := orderedStep_collect hnow
  have hload := Step.load c.ledger now_ms
  rw [if_pos h.next] at hload
  have hload' := orderedStep_quiet (c := { c with now_ms }) hload rfl (fun _ heq => by cases heq)
    fun _ heq => by cases heq
  have hclock := orderedStep_quiet (c := { c with now_ms }) (.startClock c.ledger now_ms h.next) rfl
    (fun _ heq => by cases heq) fun _ heq => by cases heq
  let claimed : Ledger := { c.ledger with next_ms := now_ms + kSecondMs }
  have hlock := orderedStep_quiet (c := { c with now_ms, ledger := claimed })
    (.startLock claimed now_ms h.mutex) rfl (fun _ heq => by cases heq) fun _ _ last hlast => by
      change last ∈ c.turns.head? at hlast
      rw [hturns] at hlast
      cases hlast
  let locked : Ledger := { claimed with mutex := true }
  let started : Ledger :=
    { locked with mutex := false, second_start_ms := now_ms, minute_start_ms := now_ms }
  have htimes : OrderedStep { c with now_ms, ledger := locked } (.startTimes now_ms)
      ⟨now_ms, started, ⟨now_ms, none⟩ :: c.turns⟩ .idle :=
    ⟨⟨.startTimes locked now_ms, rfl, UInt64.le_refl _, fun _ heq => by cases heq⟩,
      fun heq => by cases heq⟩
  refine ⟨⟨now_ms, started, ⟨now_ms, none⟩ :: c.turns⟩,
    (InTurnSteps.single htimes).head hlock |>.head hclock |>.head hload' |>.head hcall, ?_, rfl, ?_⟩
  · exact ⟨h.sum, rfl, rfl, rfl, rfl, h.bad⟩
  · rw [hturns]

/-- A call that wins its claim. -/
theorem exists_claim (now_ms : UInt64) {c : Clocked} (h : Silent c next_ms second_ms minute_ms bad)
    (hnow : c.now_ms ≤ now_ms) (hnext : next_ms ≠ 0) (hover : next_ms ≤ now_ms) :
    ∃ c', InTurnSteps c .idle c' (.tryLock now_ms) ∧
      Silent c' (now_ms + kSecondMs) second_ms minute_ms bad ∧ c'.now_ms = now_ms ∧
      c'.turns = c.turns := by
  have hcall := orderedStep_collect hnow
  have hload := Step.load c.ledger now_ms
  rw [if_neg (by rw [h.next]; exact hnext), if_neg (by rw [h.next]; exact UInt64.not_lt.mpr hover)]
    at hload
  have hload' := orderedStep_quiet (c := { c with now_ms }) hload rfl (fun _ heq => by cases heq)
    fun _ heq => by cases heq
  have hclaim := orderedStep_quiet (c := { c with now_ms }) (.claim c.ledger now_ms) rfl
    (fun _ heq => by cases heq) fun _ heq => by cases heq
  refine ⟨{ c with now_ms, ledger := { c.ledger with next_ms := now_ms + kSecondMs } },
    (InTurnSteps.single hclaim).head hload' |>.head hcall, ?_, rfl, rfl⟩
  exact ⟨h.sum, rfl, h.mutex, h.second, h.minute, h.bad⟩

/-- One caller claimed at 60000 ms and waits to try the mutex; another has claimed at 61000 ms and
collected since. -/
structure Overtaken (w : World Bool Clocked Point) : Prop where
  runs : OrderedRuns Bool w
  waits : w.point false = .tryLock 60000
  silent : Silent w.shared 62000 61000 61000 1
  turns : ∃ t, w.shared.turns = [t, ⟨1, none⟩] ∧ t.now_ms = 61000 ∧ t.collection ≠ none

theorem exists_overtaken : ∃ w, Overtaken w := by
  have hinit : Silent {} 0 0 0 0 := ⟨fun _ => rfl, rfl, rfl, rfl, rfl, rfl⟩
  have hruns : OrderedRuns Bool ⟨{}, fun _ => .idle⟩ := .init
  obtain ⟨c₁, hbad, hsilent₁, hnow₁, hturns₁⟩ := exists_bad hinit
  obtain ⟨c₂, hstart, hsilent₂, hnow₂, hturns₂⟩ :=
    exists_start 1 hsilent₁ (by rw [hnow₁]; decide) hturns₁
  have hruns₂ := hruns.alone true (hbad.trans hstart)
  obtain ⟨c₃, hclaim, hsilent₃, hnow₃, hturns₃⟩ :=
    exists_claim 60000 hsilent₂ (by rw [hnow₂]; decide) (by decide) (by decide)
  have hruns₃ := hruns₂.alone false (s := c₃) (p := .tryLock 60000) (by
    rw [move_other (by decide)]
    exact hclaim)
  obtain ⟨c₄, hclaim', hsilent₄, hnow₄, hturns₄⟩ :=
    exists_claim 61000 hsilent₃ (by rw [hnow₃]; decide) (by decide) (by decide)
  -- the second caller goes through, and counts a call as bad
  have hlock : OrderedStep c₄ (.tryLock 61000)
      { c₄ with ledger := { c₄.ledger with mutex := true } } (.scan 61000 0 {}) := by
    refine orderedStep_quiet (.tryLock c₄.ledger 61000 hsilent₄.mutex) rfl ?_ fun _ _ => ?_
    · intro later
      unfold Point.scan
      split
      · exact Point.noConfusion
      · exact Point.noConfusion
    · refine ⟨⟨1, none⟩, ?_, by decide⟩
      rw [hturns₄, hturns₃, hturns₂]
      rfl
  obtain ⟨c₅, hminute, hsilent₅, hnow₅, hturns₅⟩ := exists_minute 61000 hsilent₄
    (by decide)
  obtain ⟨c₆, hbad', hsilent₆, hnow₆, hturns₆⟩ := exists_bad hsilent₅
  have hruns₆ := hruns₃.alone true (s := c₆) (p := .idle) (by
    rw [move_other (by decide), move_self]
    exact hclaim'.trans ((InTurnSteps.single hlock).trans (hminute.trans hbad')))
  refine ⟨_, hruns₆, ?_, hsilent₆, minuteTurn c₄ 61000, ?_, rfl, some_ne_none _⟩
  · rw [move_other (by decide), move_self]
  · change c₆.turns = _
    rw [hturns₆, hturns₅, hturns₄, hturns₃, hturns₂]

/-- **The intervals**: while no caller is overtaken between its claim and the mutex, every interval
that is reported is the time between two claims.  In any run, a second line is right about its
interval only if its caller was not overtaken. -/
theorem intervals_in_order {τ : Type} [DecidableEq τ] {w : World τ Clocked Point}
    (h : TimedRuns τ w) :
    w.shared.turns.filterMap (·.collection) = w.shared.ledger.book.closed ∧
    (OrderedRuns τ w → AllMeasured w.shared.turns) ∧
    ∀ later t last earlier c line, w.shared.turns = later ++ t :: last :: earlier →
      t.collection = some c → c.second = some line →
      (line.interval_ms.toNat + last.now_ms.toNat = t.now_ms.toNat ↔ last.now_ms ≤ t.now_ms) := by
  have hrecorded := recorded h
  refine ⟨hrecorded.closed, fun hordered => allMeasured hrecorded.lines (inOrder hordered), ?_⟩
  intro later t last earlier c line hsplit hc hline
  have hinterval := (hrecorded.lines later t (last :: earlier) hsplit).second c hc line hline
  rw [hinterval]
  exact sub_toNat_iff

/-- A collection a minute after the clocks started. -/
theorem intervals_in_order_minute : ∃ w : World Bool Clocked Point,
    (∃ t, w.shared.turns = [t, ⟨1, none⟩] ∧ t.now_ms = 61000 ∧ t.collection ≠ none) ∧
    AllMeasured w.shared.turns := by
  obtain ⟨w, h⟩ := exists_overtaken
  have htimed : TimedRuns Bool w := h.runs.mono OrderedStep.toTimedStep
  exact ⟨w, h.turns, (intervals_in_order htimed).2.1 h.runs⟩

/-- The caller that was overtaken reports a second of nearly 2 ^ 64 ms, and a minute that has not
passed. -/
theorem overtaken_wraps : ∃ w : World Bool Clocked Point, TimedRuns Bool w ∧
    (∃ c ∈ w.shared.ledger.book.closed, ∃ line ∈ c.second, ∃ m ∈ c.minute,
      line.interval_ms = 18446744073709550616 ∧ m.interval_ms = 18446744073709550616) ∧
    ¬AllMeasured w.shared.turns := by
  obtain ⟨w, h⟩ := exists_overtaken
  obtain ⟨t, hturns, ht, -⟩ := h.turns
  have htimed : TimedRuns Bool w := h.runs.mono OrderedStep.toTimedStep
  have hlock : TimedStep w.shared (w.point false)
      { w.shared with ledger := { w.shared.ledger with mutex := true } } (.scan 60000 0 {}) := by
    rw [h.waits]
    exact ⟨.tryLock w.shared.ledger 60000 h.silent.mutex, rfl, UInt64.le_refl _, fun _ heq => by
      cases heq⟩
  obtain ⟨c, hminute, -, -, hafter⟩ := exists_minute 60000 h.silent (by decide)
  have hruns := (htimed.step hlock).alone false (s := c) (p := .idle) (by
    rw [move_self]
    exact hminute.timed)
  have hline : w.shared.ledger.secondLine 60000 {} =
      some ⟨18446744073709550616, 0, [], w.shared.ledger.bad⟩ := by
    rw [Ledger.secondLine, if_pos (.inr (by rw [h.silent.bad]; decide)), h.silent.second]
    rfl
  refine ⟨_, hruns, ?_, fun hmeasured => ?_⟩
  · rw [← (recorded hruns).closed]
    have hmem : minuteTurn w.shared 60000 ∈ c.turns := by
      rw [hafter]
      exact mem_cons_self
    refine ⟨_, mem_filterMap.mpr ⟨_, hmem, rfl⟩, _, hline, _, rfl, rfl, ?_⟩
    change 60000 - w.shared.ledger.minute_start_ms = _
    rw [h.silent.minute]
    rfl
  · -- the turn before claimed later
    obtain ⟨last, hlast, hle, -⟩ :=
      (hmeasured [] (minuteTurn w.shared 60000) [t, ⟨1, none⟩] (by
        change c.turns = _
        rw [hafter, hturns]
        rfl)).second _ rfl _ hline
    cases hlast
    rw [ht] at hle
    exact absurd hle (show ¬(61000 : UInt64) ≤ 60000 by decide)

end Mcla.XmaLedger

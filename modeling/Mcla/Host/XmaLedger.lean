import Mcla.Library.Monitor

/-! # The XMA consume ledger

`Ledger` of `mcla_xma_consume_probe`: any guest thread adds the samples it consumed to its context,
and about once a second one of them collects what was added.  Each step here is one operation on
an atomic or on the mutex, with what the thread does to the fields under the mutex after it.

`Book` is written beside the ledger and read by no step: what was added, and what each collection
took and reported.
-/
namespace Mcla.XmaLedger
open Monitor List

def kContextCount : Nat := 320
def kMaxLineEntries : Nat := 32
def kSecondMs : UInt64 := 1000
def kMinuteMs : UInt64 := 60000

/-- One context in a second line. -/
structure Entry where
  id : Nat
  (samples run : UInt64)
  stereo : Bool

/-- What a second line says. -/
structure SecondLine where
  interval_ms : UInt64
  ids : Nat
  entries : List Entry
  bad : UInt64

/-- What a minute line says. -/
structure MinuteLine where
  interval_ms : UInt64
  ids : Nat
  (samples calls bad : UInt64)
  lines : UInt32

/-! ### The book -/

/-- What one collection took: the samples of each context that had some, and the bad calls. -/
structure Interval where
  claims : List (Nat × UInt64) := []
  bad : UInt64 := 0

/-- A collection that is done, with the lines it returns. -/
structure Collection where
  interval : Interval
  second : Option SecondLine
  minute : Option MinuteLine

/-- What has been added, and the collections, of a whole run. -/
structure Book where
  added : Nat → UInt64 := fun _ => 0
  (addedBad addedCalls : UInt64 := 0)
  /-- The latest first. -/
  closed : List Collection := []
  current : Interval := {}

/-- The samples of a context. -/
def samplesOf (id : Nat) (claims : List (Nat × UInt64)) : UInt64 :=
  ((claims.filter fun c => c.1 == id).map (·.2)).sum

/-- The samples of all claims. -/
def totalOf (claims : List (Nat × UInt64)) : UInt64 := (claims.map (·.2)).sum

/-- The claims of some collections. -/
def claimsOf (collections : List Collection) : List (Nat × UInt64) :=
  collections.flatMap (·.interval.claims)

/-- The bad calls of some collections. -/
def badOf (collections : List Collection) : UInt64 := (collections.map (·.interval.bad)).sum

/-- How many second lines there are. -/
def linesOf (collections : List Collection) : Nat := collections.countP (·.second.isSome)

/-- The collections since the last minute line. -/
def sinceMinute (collections : List Collection) : List Collection :=
  collections.takeWhile (·.minute.isNone)

/-! ### The ledger -/

/-- The counters that the callers share. -/
structure Ledger where
  sum : Nat → UInt64 := fun _ => 0
  stereo : Nat → Bool := fun _ => false
  (calls bad next_ms : UInt64 := 0)
  mutex : Bool := false
  run : Nat → UInt64 := fun _ => 0
  minute_seen : Nat → Bool := fun _ => false
  (second_start_ms minute_start_ms minute_samples minute_bad : UInt64 := 0)
  minute_lines : UInt32 := 0
  book : Book := {}

/-- What a collector has gathered: the entries of its line, and how many contexts had samples. -/
structure Gathered where
  entries : List Entry := []
  ids : Nat := 0

/-- Where a thread is. -/
inductive Point where
  | idle
  | addSum (id : Nat) (samples : UInt32) (stereo : Bool)
  | addStereo (id : Nat)
  | addCalls
  | badCalls
  | badCount
  | load (now_ms : UInt64)
  | startClock (now_ms : UInt64)
  | startLock (now_ms : UInt64)
  | startTimes (now_ms : UInt64)
  | claim (now_ms next : UInt64)
  | tryLock (now_ms : UInt64)
  | exchange (now_ms : UInt64) (id : Nat) (g : Gathered)
  | entryStereo (now_ms : UInt64) (id : Nat) (samples run : UInt64) (g : Gathered)
  | exchangeBad (now_ms : UInt64) (g : Gathered)
  | exchangeCalls (now_ms : UInt64) (distinct : Nat) (second : Option SecondLine)
  | unlock

/-- The points of a thread that has the mutex. -/
def Point.holds : Point → Bool
  | .startTimes _ | .exchange .. | .entryStereo .. | .exchangeBad .. => true
  | .exchangeCalls .. | .unlock => true
  | _ => false

/-- The loop over the contexts. -/
def Point.scan (now_ms : UInt64) (id : Nat) (g : Gathered) : Point :=
  if id < kContextCount then .exchange now_ms id g else .exchangeBad now_ms g

namespace Ledger

/-- The samples are added. -/
def fetchAddSum (s : Ledger) (id : Nat) (samples : UInt32) : Ledger :=
  { s with
    sum := Function.update s.sum id (s.sum id + samples.toUInt64)
    book := { s.book with
      added := Function.update s.book.added id (s.book.added id + samples.toUInt64) } }

/-- The call is counted. -/
def fetchAddCalls (s : Ledger) : Ledger :=
  { s with
    calls := s.calls + 1
    book := { s.book with addedCalls := s.book.addedCalls + 1 } }

/-- The bad call is counted. -/
def fetchAddBad (s : Ledger) : Ledger :=
  { s with
    bad := s.bad + 1
    book := { s.book with addedBad := s.book.addedBad + 1 } }

/-- The exchange of a context that had samples, and the fields under the mutex after it. -/
def takeSamples (s : Ledger) (id : Nat) : Ledger :=
  { s with
    sum := Function.update s.sum id 0
    run := Function.update s.run id (s.run id + s.sum id)
    minute_seen := Function.update s.minute_seen id true
    minute_samples := s.minute_samples + s.sum id
    book := { s.book with
      current := { s.book.current with claims := s.book.current.claims ++ [(id, s.sum id)] } } }

/-- The exchange of the bad calls. -/
def takeBad (s : Ledger) : Ledger :=
  { s with
    bad := 0
    minute_bad := s.minute_bad + s.bad
    book := { s.book with
      current := { s.book.current with bad := s.book.current.bad + s.bad } } }

/-- The second line, if there is anything to report. -/
def secondLine (s : Ledger) (now_ms : UInt64) (g : Gathered) : Option SecondLine :=
  if g.ids ≠ 0 ∨ s.bad ≠ 0 then
    some ⟨now_ms - s.second_start_ms, g.ids, g.entries, s.bad⟩
  else none

/-- The next second begins. -/
def nextSecond (s : Ledger) (now_ms : UInt64) (second : Option SecondLine) : Ledger :=
  { s with
    second_start_ms := now_ms
    minute_lines := if second.isSome then s.minute_lines + 1 else s.minute_lines }

/-- The collection is done. -/
def close (s : Ledger) (second : Option SecondLine) (minute : Option MinuteLine) : Ledger :=
  { s with
    book := { s.book with
      closed := ⟨s.book.current, second, minute⟩ :: s.book.closed
      current := {} } }

/-- The contexts of the minute. -/
def distinct (s : Ledger) : Nat := (List.range kContextCount).countP s.minute_seen

/-- The line of the minute. -/
def minuteLine (s : Ledger) (now_ms : UInt64) (distinct : Nat) : MinuteLine :=
  ⟨now_ms - s.minute_start_ms, distinct, s.minute_samples, s.calls, s.minute_bad, s.minute_lines⟩

/-- The exchange of the calls, and the next minute begins. -/
def nextMinute (s : Ledger) (now_ms : UInt64) : Ledger :=
  { s with
    calls := 0
    minute_start_ms := now_ms
    minute_samples := 0
    minute_bad := 0
    minute_lines := 0 }

end Ledger

/-- A step of one thread. -/
inductive Step : Ledger → Point → Ledger → Point → Prop where
  | callAdd (s : Ledger) (id : Nat) (samples : UInt32) (stereo : Bool) :
      Step s .idle s (if id < kContextCount then .addSum id samples stereo else .badCalls)
  | callAddBad (s : Ledger) : Step s .idle s .badCalls
  | callCollect (s : Ledger) (now_ms : UInt64) : Step s .idle s (.load now_ms)
  | addSum (s : Ledger) (id : Nat) (samples : UInt32) (stereo : Bool) :
      Step s (.addSum id samples stereo) (s.fetchAddSum id samples)
        (if stereo then .addStereo id else .addCalls)
  | addStereo (s : Ledger) (id : Nat) :
      Step s (.addStereo id) { s with stereo := Function.update s.stereo id true } .addCalls
  | addCalls (s : Ledger) : Step s .addCalls s.fetchAddCalls .idle
  | badCalls (s : Ledger) : Step s .badCalls s.fetchAddCalls .badCount
  | badCount (s : Ledger) : Step s .badCount s.fetchAddBad .idle
  | load (s : Ledger) (now_ms : UInt64) :
      Step s (.load now_ms) s
        (if s.next_ms = 0 then .startClock now_ms
          else if now_ms < s.next_ms then .idle else .claim now_ms s.next_ms)
  | startClock (s : Ledger) (now_ms : UInt64) (h : s.next_ms = 0) :
      Step s (.startClock now_ms) { s with next_ms := now_ms + kSecondMs } (.startLock now_ms)
  | startClockFails (s : Ledger) (now_ms : UInt64) (h : s.next_ms ≠ 0) :
      Step s (.startClock now_ms) s .idle
  | startLock (s : Ledger) (now_ms : UInt64) (h : s.mutex = false) :
      Step s (.startLock now_ms) { s with mutex := true } (.startTimes now_ms)
  | startTimes (s : Ledger) (now_ms : UInt64) :
      Step s (.startTimes now_ms)
        { s with mutex := false, second_start_ms := now_ms, minute_start_ms := now_ms } .idle
  | claim (s : Ledger) (now_ms : UInt64) :
      Step s (.claim now_ms s.next_ms) { s with next_ms := now_ms + kSecondMs } (.tryLock now_ms)
  | claimFails (s : Ledger) (now_ms next : UInt64) (h : s.next_ms ≠ next) :
      Step s (.claim now_ms next) s .idle
  | tryLock (s : Ledger) (now_ms : UInt64) (h : s.mutex = false) :
      Step s (.tryLock now_ms) { s with mutex := true } (.scan now_ms 0 {})
  -- `try_lock` may also fail when the mutex is free.
  | tryLockFails (s : Ledger) (now_ms : UInt64) : Step s (.tryLock now_ms) s .idle
  | exchangeIdle (s : Ledger) (now_ms : UInt64) (id : Nat) (g : Gathered) (h : s.sum id = 0) :
      Step s (.exchange now_ms id g) { s with run := Function.update s.run id 0 }
        (.scan now_ms (id + 1) g)
  | exchange (s : Ledger) (now_ms : UInt64) (id : Nat) (g : Gathered) (h : s.sum id ≠ 0) :
      Step s (.exchange now_ms id g) (s.takeSamples id)
        (if g.entries.length < kMaxLineEntries then
          .entryStereo now_ms id (s.sum id) (s.run id + s.sum id) { g with ids := g.ids + 1 }
        else .scan now_ms (id + 1) { g with ids := g.ids + 1 })
  | entryStereo (s : Ledger) (now_ms : UInt64) (id : Nat) (samples run : UInt64) (g : Gathered) :
      Step s (.entryStereo now_ms id samples run g) s
        (.scan now_ms (id + 1) { g with entries := g.entries ++ [⟨id, samples, run, s.stereo id⟩] })
  | exchangeBad (s : Ledger) (now_ms : UInt64) (g : Gathered)
      (h : now_ms - s.minute_start_ms < kMinuteMs) :
      Step s (.exchangeBad now_ms g)
        ((s.takeBad.nextSecond now_ms (s.secondLine now_ms g)).close (s.secondLine now_ms g) none)
        .unlock
  | exchangeBadMinute (s : Ledger) (now_ms : UInt64) (g : Gathered)
      (h : kMinuteMs ≤ now_ms - s.minute_start_ms) :
      Step s (.exchangeBad now_ms g)
        { s.takeBad.nextSecond now_ms (s.secondLine now_ms g) with minute_seen := fun _ => false }
        (.exchangeCalls now_ms s.distinct (s.secondLine now_ms g))
  | exchangeCalls (s : Ledger) (now_ms : UInt64) (distinct : Nat) (second : Option SecondLine) :
      Step s (.exchangeCalls now_ms distinct second)
        ((s.nextMinute now_ms).close second (some (s.minuteLine now_ms distinct))) .unlock
  | unlock (s : Ledger) : Step s .unlock { s with mutex := false } .idle

/-! ### Nothing is lost -/

theorem samplesOf_append (id : Nat) (a b : List (Nat × UInt64)) :
    samplesOf id (a ++ b) = samplesOf id a + samplesOf id b := by
  rw [samplesOf, filter_append, map_append, sum_append]
  rfl

theorem samplesOf_singleton (id place : Nat) (samples : UInt64) :
    samplesOf id [(place, samples)] = if place = id then samples else 0 := by
  by_cases h : place = id
  · rw [if_pos h, samplesOf, filter_cons_of_pos (by simpa using h)]
    simp
  · rw [if_neg h, samplesOf, filter_cons_of_neg (by simpa using h)]
    rfl

theorem claimsOf_cons (c : Collection) (collections : List Collection) :
    claimsOf (c :: collections) = c.interval.claims ++ claimsOf collections := rfl

theorem badOf_cons (c : Collection) (collections : List Collection) :
    badOf (c :: collections) = c.interval.bad + badOf collections := by
  rw [badOf, map_cons, sum_cons]
  rfl

/-- What was added is what the collections took and what is pending. -/
structure Conserved (s : Ledger) : Prop where
  samples : ∀ id, s.book.added id = samplesOf id (claimsOf s.book.closed) +
    samplesOf id s.book.current.claims + s.sum id
  bad : s.book.addedBad = badOf s.book.closed + s.book.current.bad + s.bad
  calls : s.book.addedCalls = (s.book.closed.map fun c => c.minute.elim 0 (·.calls)).sum + s.calls

variable {s : Ledger}

theorem conserved_fetchAddSum (h : Conserved s) (id : Nat) (samples : UInt32) :
    Conserved (s.fetchAddSum id samples) := by
  refine ⟨fun place => ?_, h.bad, h.calls⟩
  change Function.update s.book.added id _ place = _ + _ + Function.update s.sum id _ place
  by_cases hplace : place = id
  · subst hplace
    rw [Function.update_self, Function.update_self, h.samples, UInt64.add_assoc]
    rfl
  · rw [Function.update_of_ne hplace, Function.update_of_ne hplace]
    exact h.samples place

theorem conserved_takeSamples (h : Conserved s) (id : Nat) : Conserved (s.takeSamples id) := by
  refine ⟨fun place => ?_, h.bad, h.calls⟩
  change s.book.added place = _ +
    samplesOf place (s.book.current.claims ++ [(id, s.sum id)]) + Function.update s.sum id 0 place
  rw [samplesOf_append, samplesOf_singleton, h.samples]
  by_cases hplace : id = place
  · subst hplace
    rw [if_pos rfl, Function.update_self, UInt64.add_zero, UInt64.add_assoc]
    rfl
  · rw [if_neg hplace, Function.update_of_ne (Ne.symm hplace), UInt64.add_zero]
    rfl

theorem conserved_takeBad (h : Conserved s) : Conserved s.takeBad := by
  refine ⟨h.samples, ?_, h.calls⟩
  change s.book.addedBad = badOf s.book.closed + (s.book.current.bad + s.bad) + 0
  rw [h.bad, UInt64.add_zero, UInt64.add_assoc]

theorem conserved_close (h : Conserved s) (second : Option SecondLine) :
    Conserved (s.close second none) := by
  refine ⟨fun id => ?_, ?_, ?_⟩
  · change s.book.added id = samplesOf id (claimsOf (_ :: s.book.closed)) + 0 + s.sum id
    rw [claimsOf_cons, samplesOf_append, UInt64.add_zero, h.samples,
      UInt64.add_comm (samplesOf id (claimsOf s.book.closed))]
  · change s.book.addedBad = badOf (_ :: s.book.closed) + 0 + s.bad
    rw [badOf_cons, UInt64.add_zero, h.bad, UInt64.add_comm (badOf s.book.closed)]
  · change s.book.addedCalls = (List.map _ (_ :: s.book.closed)).sum + s.calls
    rw [map_cons, sum_cons, h.calls]
    exact congrArg (· + s.calls) (UInt64.zero_add _).symm

theorem conserved_closeMinute (h : Conserved s) (now_ms : UInt64) (distinct : Nat)
    (second : Option SecondLine) :
    Conserved ((s.nextMinute now_ms).close second (some (s.minuteLine now_ms distinct))) := by
  have hclosed := conserved_close h second
  refine ⟨hclosed.samples, hclosed.bad, ?_⟩
  change s.book.addedCalls = (List.map _ (_ :: s.book.closed)).sum + 0
  rw [map_cons, sum_cons, h.calls, UInt64.add_zero, UInt64.add_comm]
  rfl

theorem conserved_step {s s' : Ledger} {p p' : Point} (hstep : Step s p s' p') (h : Conserved s) :
    Conserved s' := by
  cases hstep with
  | addSum id samples stereo => exact conserved_fetchAddSum h id samples
  | addCalls =>
    refine ⟨h.samples, h.bad, ?_⟩
    change s.book.addedCalls + 1 = _ + (s.calls + 1)
    rw [h.calls, UInt64.add_assoc]
    rfl
  | badCalls =>
    refine ⟨h.samples, h.bad, ?_⟩
    change s.book.addedCalls + 1 = _ + (s.calls + 1)
    rw [h.calls, UInt64.add_assoc]
    rfl
  | badCount =>
    refine ⟨h.samples, ?_, h.calls⟩
    change s.book.addedBad + 1 = _ + _ + (s.bad + 1)
    rw [h.bad, UInt64.add_assoc]
    rfl
  | exchange now_ms id g => exact conserved_takeSamples h id
  | exchangeBad now_ms g =>
    have hbad := conserved_takeBad h
    have hclosed := conserved_close hbad (s.secondLine now_ms g)
    exact ⟨hclosed.samples, hclosed.bad, hclosed.calls⟩
  | exchangeBadMinute now_ms g =>
    have hbad := conserved_takeBad h
    exact ⟨hbad.samples, hbad.bad, hbad.calls⟩
  | exchangeCalls now_ms distinct second => exact conserved_closeMinute h now_ms distinct second
  | _ => exact ⟨h.samples, h.bad, h.calls⟩

/-! ### What the mutex protects -/

/-- The part of a ledger that only the thread with the mutex changes. -/
structure Kept where
  closed : List Collection
  current : Interval
  minute_seen : Nat → Bool
  (minute_samples minute_bad : UInt64)
  minute_lines : UInt32

/-- What a collection reads. -/
def Ledger.kept (s : Ledger) : Kept :=
  ⟨s.book.closed, s.book.current, s.minute_seen, s.minute_samples, s.minute_bad, s.minute_lines⟩

theorem kept_next (s : Ledger) (next_ms : UInt64) : { s with next_ms }.kept = s.kept := rfl

/-- What the second line says of an interval. -/
structure Interval.Reported (i : Interval) (second : Option SecondLine) : Prop where
  nothing : second = none ↔ i.claims = [] ∧ i.bad = 0
  ids : ∀ line ∈ second, line.ids = i.claims.length
  entries : ∀ line ∈ second,
    line.entries.map (fun e => (e.id, e.samples)) = i.claims.take kMaxLineEntries
  bad : ∀ line ∈ second, line.bad = i.bad

/-- The contexts of an interval, each once. -/
structure Ordered (claims : List (Nat × UInt64)) (bound : Nat) : Prop where
  increasing : claims.Pairwise fun a b => a.1 < b.1
  bounded : ∀ c ∈ claims, c.1 < bound

/-- What a minute line says of some collections. -/
structure MinuteLine.Sums (m : MinuteLine) (collections : List Collection) : Prop where
  samples : m.samples = totalOf (claimsOf collections)
  bad : m.bad = badOf collections
  lines : m.lines = UInt32.ofNat (linesOf collections)
  ids : m.ids = (List.range kContextCount).countP
    fun id => (claimsOf collections).any fun c => c.1 == id

/-- A collection with the lines it should have. -/
structure Collection.Right (c : Collection) (earlier : List Collection) : Prop where
  reported : c.interval.Reported c.second
  ordered : Ordered c.interval.claims kContextCount
  minute : ∀ m ∈ c.minute, m.Sums (c :: sinceMinute earlier)

/-- Every collection is right about those before it. -/
def AllRight (closed : List Collection) : Prop :=
  ∀ later c earlier, closed = later ++ c :: earlier → c.Right earlier

theorem AllRight.cons {c : Collection} {closed : List Collection} (h : AllRight closed)
    (hc : c.Right closed) : AllRight (c :: closed) := by
  intro later d earlier hsplit
  cases later with
  | nil =>
    obtain ⟨rfl, rfl⟩ := List.cons.inj hsplit
    exact hc
  | cons e later => exact h later d earlier (List.cons.inj hsplit).2

/-- The fields of the minute. -/
structure Totals (k : Kept) (claims : List (Nat × UInt64)) (bad : UInt64) (lines : Nat) : Prop where
  samples : k.minute_samples = totalOf claims
  bad : k.minute_bad = bad
  lines : k.minute_lines = UInt32.ofNat lines
  seen : ∀ id, k.minute_seen id = claims.any fun c => c.1 == id

/-- Between collections. -/
structure Free (k : Kept) : Prop where
  right : AllRight k.closed
  current : k.current = {}
  totals : Totals k (claimsOf (sinceMinute k.closed)) (badOf (sinceMinute k.closed))
    (linesOf (sinceMinute k.closed))

/-- The contexts before one are collected. -/
structure Gathering (k : Kept) (id : Nat) (g : Gathered) : Prop where
  right : AllRight k.closed
  bad : k.current.bad = 0
  ids : g.ids = k.current.claims.length
  entries : g.entries.map (fun e => (e.id, e.samples)) = k.current.claims.take kMaxLineEntries
  ordered : Ordered k.current.claims id
  totals : Totals k (k.current.claims ++ claimsOf (sinceMinute k.closed))
    (badOf (sinceMinute k.closed)) (linesOf (sinceMinute k.closed))

/-- The last context has no entry yet. -/
structure Entering (k : Kept) (id : Nat) (samples : UInt64) (g : Gathered) : Prop where
  right : AllRight k.closed
  bad : k.current.bad = 0
  ids : g.ids = k.current.claims.length
  entries : k.current.claims = g.entries.map (fun e => (e.id, e.samples)) ++ [(id, samples)]
  room : g.entries.length < kMaxLineEntries
  ordered : Ordered k.current.claims (id + 1)
  totals : Totals k (k.current.claims ++ claimsOf (sinceMinute k.closed))
    (badOf (sinceMinute k.closed)) (linesOf (sinceMinute k.closed))

/-- A minute has passed. -/
structure Due (k : Kept) (distinct : Nat) (second : Option SecondLine) : Prop where
  right : AllRight k.closed
  reported : k.current.Reported second
  ordered : Ordered k.current.claims kContextCount
  samples : k.minute_samples = totalOf (k.current.claims ++ claimsOf (sinceMinute k.closed))
  bad : k.minute_bad = k.current.bad + badOf (sinceMinute k.closed)
  lines : k.minute_lines =
    UInt32.ofNat (linesOf (⟨k.current, second, none⟩ :: sinceMinute k.closed))
  ids : distinct = (List.range kContextCount).countP fun id =>
    (k.current.claims ++ claimsOf (sinceMinute k.closed)).any fun c => c.1 == id
  seen : ∀ id, k.minute_seen id = false

/-- What is known at the points of the thread that has the mutex. -/
def Held (k : Kept) : Point → Prop
  | .startTimes _ => Free k
  | .exchange _ id g => id < kContextCount ∧ Gathering k id g
  | .entryStereo _ id samples _ g => id < kContextCount ∧ Entering k id samples g
  | .exchangeBad _ g => Gathering k kContextCount g
  | .exchangeCalls _ distinct second => Due k distinct second
  | .unlock => Free k
  | _ => True

theorem held_scan {k : Kept} {now_ms : UInt64} {id : Nat} {g : Gathered} (hid : id ≤ kContextCount)
    (h : Gathering k id g) : Held k (.scan now_ms id g) := by
  unfold Point.scan
  by_cases hlt : id < kContextCount
  · rw [if_pos hlt]
    exact ⟨hlt, h⟩
  · rw [if_neg hlt]
    have heq : id = kContextCount := le_antisymm hid (not_lt.mp hlt)
    subst heq
    exact h

theorem holds_scan (now_ms : UInt64) (id : Nat) (g : Gathered) :
    (Point.scan now_ms id g).holds = true := by
  unfold Point.scan
  split
  · rfl
  · rfl

/-- **What a step does with the mutex.** -/
theorem step_mutex {s s' : Ledger} {p p' : Point} (h : Step s p s' p') :
    (p.holds = false ∧ p'.holds = false ∧ s'.mutex = s.mutex ∧ s'.kept = s.kept) ∨
    (p.holds = false ∧ p'.holds = true ∧ s.mutex = false ∧ s'.mutex = true ∧ s'.kept = s.kept ∧
      ((∃ now_ms, p' = .startTimes now_ms) ∨ ∃ now_ms, p' = .scan now_ms 0 {})) ∨
    (p.holds = true ∧ p'.holds = true ∧ s'.mutex = s.mutex) ∨
    (p.holds = true ∧ p'.holds = false ∧ s'.mutex = false ∧ s'.kept = s.kept ∧
      (p = .unlock ∨ ∃ now_ms, p = .startTimes now_ms)) := by
  cases h with
  | callAdd id samples stereo =>
    refine .inl ⟨rfl, ?_, rfl, rfl⟩
    split
    · rfl
    · rfl
  | addSum id samples stereo =>
    refine .inl ⟨rfl, ?_, rfl, rfl⟩
    split
    · rfl
    · rfl
  | load now_ms =>
    refine .inl ⟨rfl, ?_, rfl, rfl⟩
    split
    · rfl
    · split
      · rfl
      · rfl
  | startLock now_ms h => exact .inr (.inl ⟨rfl, rfl, h, rfl, rfl, .inl ⟨now_ms, rfl⟩⟩)
  | tryLock now_ms h =>
    exact .inr (.inl ⟨rfl, holds_scan _ _ _, h, rfl, rfl, .inr ⟨now_ms, rfl⟩⟩)
  | startTimes now_ms => exact .inr (.inr (.inr ⟨rfl, rfl, rfl, rfl, .inr ⟨now_ms, rfl⟩⟩))
  | unlock => exact .inr (.inr (.inr ⟨rfl, rfl, rfl, rfl, .inl rfl⟩))
  | exchangeIdle now_ms id g h => exact .inr (.inr (.inl ⟨rfl, holds_scan _ _ _, rfl⟩))
  | exchange now_ms id g h =>
    refine .inr (.inr (.inl ⟨rfl, ?_, rfl⟩))
    split
    · rfl
    · exact holds_scan _ _ _
  | entryStereo now_ms id samples run g =>
    exact .inr (.inr (.inl ⟨rfl, holds_scan _ _ _, rfl⟩))
  | exchangeBad now_ms g h => exact .inr (.inr (.inl ⟨rfl, rfl, rfl⟩))
  | exchangeBadMinute now_ms g h => exact .inr (.inr (.inl ⟨rfl, rfl, rfl⟩))
  | exchangeCalls now_ms distinct second => exact .inr (.inr (.inl ⟨rfl, rfl, rfl⟩))
  | startClock now_ms h => exact .inl ⟨rfl, rfl, rfl, kept_next s _⟩
  | claim now_ms => exact .inl ⟨rfl, rfl, rfl, kept_next s _⟩
  | _ => exact .inl ⟨rfl, rfl, rfl, rfl⟩

theorem locking : Locking Step (·.mutex) Point.holds := by
  constructor
  · intro s p s' p' h hp hp'
    -- the places before and after leave one of the four kinds of steps
    rcases step_mutex h with ⟨-, -, hmutex, -⟩ | ⟨-, hheld, -⟩ | ⟨hheld, -⟩ | ⟨hheld, -⟩
    · exact hmutex
    · rw [hp'] at hheld
      cases hheld
    · rw [hp] at hheld
      cases hheld
    · rw [hp] at hheld
      cases hheld
  · intro s p s' p' h hp hp'
    rcases step_mutex h with ⟨-, hheld, -⟩ | ⟨-, -, hfree, hmutex, -⟩ | ⟨hheld, -⟩ | ⟨hheld, -⟩
    · rw [hp'] at hheld
      cases hheld
    · exact ⟨hfree, hmutex⟩
    · rw [hp] at hheld
      cases hheld
    · rw [hp] at hheld
      cases hheld
  · intro s p s' p' h hp hp'
    rcases step_mutex h with ⟨hheld, -⟩ | ⟨hheld, -⟩ | ⟨-, -, hmutex⟩ | ⟨-, hheld, -⟩
    · rw [hp] at hheld
      cases hheld
    · rw [hp] at hheld
      cases hheld
    · exact hmutex
    · rw [hp'] at hheld
      cases hheld
  · intro s p s' p' h hp hp'
    rcases step_mutex h with ⟨hheld, -⟩ | ⟨hheld, -⟩ | ⟨-, hheld, -⟩ | ⟨-, -, hmutex, -⟩
    · rw [hp] at hheld
      cases hheld
    · rw [hp] at hheld
      cases hheld
    · rw [hp'] at hheld
      cases hheld
    · exact hmutex

/-! ### The steps of a collection -/

section Steps
variable {s : Ledger} {id : Nat} {g : Gathered}

theorem gathering_start (h : Free s.kept) : Gathering s.kept 0 {} := by
  have hcurrent := h.current
  refine ⟨h.right, ?_, ?_, ?_, ?_, ?_⟩
  · rw [hcurrent]
  · rw [hcurrent]
    rfl
  · rw [hcurrent]
    rfl
  · rw [hcurrent]
    exact ⟨.nil, forall_mem_nil _⟩
  · rw [hcurrent]
    exact h.totals

variable {claims : List (Nat × UInt64)}

/-- One more claim. -/
theorem Ordered.snoc {samples : UInt64} (h : Ordered claims id) :
    Ordered (claims ++ [(id, samples)]) (id + 1) := by
  constructor
  · refine pairwise_append.mpr ⟨h.increasing, pairwise_singleton _ _, ?_⟩
    intro a ha b hb
    rw [mem_singleton.mp hb]
    exact h.bounded a ha
  · rw [forall_mem_append, forall_mem_singleton]
    exact ⟨fun c hc => (h.bounded c hc).trans (Nat.lt_succ_self id), Nat.lt_succ_self id⟩

theorem Ordered.mono (h : Ordered claims id) : Ordered claims (id + 1) :=
  ⟨h.increasing, fun c hc => (h.bounded c hc).trans (Nat.lt_succ_self id)⟩

theorem totals_takeSamples {bad : UInt64} {lines : Nat}
    (h : Totals s.kept (s.book.current.claims ++ claims) bad lines) :
    Totals (s.takeSamples id).kept (s.book.current.claims ++ [(id, s.sum id)] ++ claims) bad
      lines := by
  refine ⟨?_, h.bad, h.lines, fun place => ?_⟩
  · change s.minute_samples + s.sum id = _
    have hsamples := h.samples
    change s.minute_samples = _ at hsamples
    rw [hsamples]
    simp only [totalOf, map_append, sum_append, map_cons, map_nil, sum_cons, sum_nil]
    ac_rfl
  · change Function.update s.minute_seen id true place = _
    have hseen := h.seen place
    change s.minute_seen place = _ at hseen
    simp only [any_append, any_cons, any_nil, Bool.or_false] at hseen ⊢
    by_cases hplace : place = id
    · subst hplace
      rw [Function.update_self, beq_self_eq_true, Bool.or_true, Bool.true_or]
    · rw [Function.update_of_ne hplace, hseen, beq_eq_false_iff_ne.mpr (Ne.symm hplace),
        Bool.or_false]

/-- The context had samples, and the line is full. -/
theorem gathering_full (h : Gathering s.kept id g) (hfull : ¬ g.entries.length < kMaxLineEntries) :
    Gathering (s.takeSamples id).kept (id + 1) { g with ids := g.ids + 1 } := by
  have hentries := congrArg List.length h.entries
  rw [length_map, length_take] at hentries
  -- the line has an entry for each of the first claims, so that a full one has all it can
  have hlong : kMaxLineEntries ≤ s.book.current.claims.length := by
    change _ = min _ s.book.current.claims.length at hentries
    omega
  refine ⟨h.right, h.bad, ?_, ?_, h.ordered.snoc, totals_takeSamples h.totals⟩
  · change g.ids + 1 = (s.book.current.claims ++ [_]).length
    rw [h.ids, length_append]
    rfl
  · change g.entries.map _ = (s.book.current.claims ++ [_]).take kMaxLineEntries
    rw [take_append_of_le_length hlong]
    exact h.entries

/-- The context had samples, and the line has room. -/
theorem entering_room (h : Gathering s.kept id g) (hroom : g.entries.length < kMaxLineEntries) :
    Entering (s.takeSamples id).kept id (s.sum id) { g with ids := g.ids + 1 } := by
  have hentries := congrArg List.length h.entries
  rw [length_map, length_take] at hentries
  have hshort : s.book.current.claims.length ≤ kMaxLineEntries := by
    change _ = min _ s.book.current.claims.length at hentries
    omega
  refine ⟨h.right, h.bad, ?_, ?_, hroom, h.ordered.snoc, totals_takeSamples h.totals⟩
  · change g.ids + 1 = (s.book.current.claims ++ [_]).length
    rw [h.ids, length_append]
    rfl
  · change s.book.current.claims ++ [_] = _
    have hall : g.entries.map _ = s.book.current.claims.take kMaxLineEntries := h.entries
    rw [take_of_length_le hshort] at hall
    rw [hall]

theorem gathering_entry {samples run : UInt64} {stereo : Bool} (h : Entering s.kept id samples g) :
    Gathering s.kept (id + 1) { g with entries := g.entries ++ [⟨id, samples, run, stereo⟩] } := by
  refine ⟨h.right, h.bad, h.ids, ?_, h.ordered, h.totals⟩
  have hroom := h.room
  rw [map_append, h.entries, take_of_length_le]
  · rfl
  · rw [length_append, length_map]
    exact hroom

theorem gathering_idle (h : Gathering s.kept id g) {run : Nat → UInt64} :
    Gathering { s with run }.kept (id + 1) g :=
  ⟨h.right, h.bad, h.ids, h.entries, h.ordered.mono, h.totals⟩

/-- The interval of a finished collection. -/
def taken (s : Ledger) : Interval := ⟨s.book.current.claims, s.book.current.bad + s.bad⟩

/-- The second line is about the interval. -/
theorem reported_secondLine (h : Gathering s.kept kContextCount g) (now_ms : UInt64) :
    (taken s).Reported (s.secondLine now_ms g) := by
  -- the bad calls are exchanged last, so that the book has none of this collection yet
  have hbad : (taken s).bad = s.bad := by
    change s.book.current.bad + s.bad = s.bad
    have hzero := h.bad
    change s.book.current.bad = 0 at hzero
    rw [hzero, UInt64.zero_add]
  have hids : g.ids = (taken s).claims.length := h.ids
  unfold Ledger.secondLine
  by_cases hany : g.ids ≠ 0 ∨ s.bad ≠ 0
  · rw [if_pos hany]
    refine ⟨?_, ?_, ?_, ?_⟩
    · constructor
      · intro hnone
        cases hnone
      · rintro ⟨hclaims, hzero⟩
        rw [hids, hclaims, ← hbad, hzero] at hany
        rcases hany with hany | hany
        · exact absurd rfl hany
        · exact absurd rfl hany
    · rintro _ ⟨⟩
      exact hids
    · rintro _ ⟨⟩
      exact h.entries
    · rintro _ ⟨⟩
      exact hbad.symm
  · rw [if_neg hany]
    rw [not_or, not_not, not_not] at hany
    refine ⟨⟨fun _ => ⟨?_, hbad.trans hany.2⟩, fun _ => rfl⟩, ?_, ?_, ?_⟩
    · exact eq_nil_of_length_eq_zero (hids ▸ hany.1)
    · rintro _ ⟨⟩
    · rintro _ ⟨⟩
    · rintro _ ⟨⟩

theorem ofNat_lines (second : Option SecondLine) (i : Interval) (minute : Option MinuteLine)
    (collections : List Collection) :
    (if second.isSome then UInt32.ofNat (linesOf collections) + 1
      else UInt32.ofNat (linesOf collections)) =
      UInt32.ofNat (linesOf (⟨i, second, minute⟩ :: collections)) := by
  cases second with
  | none =>
    rw [linesOf, linesOf, countP_cons_of_neg (by simp)]
    rfl
  | some line =>
    rw [linesOf, linesOf, countP_cons_of_pos (by simp), UInt32.ofNat_add]
    rfl

theorem free_close (h : Gathering s.kept kContextCount g) (now_ms : UInt64) :
    Free ((s.takeBad.nextSecond now_ms (s.secondLine now_ms g)).close
      (s.secondLine now_ms g) none).kept := by
  have hreported := reported_secondLine h now_ms
  have hzero : s.book.current.bad = 0 := h.bad
  refine ⟨h.right.cons ⟨hreported, h.ordered, by rintro _ ⟨⟩⟩, rfl, ?_⟩
  -- no minute line: the collection is counted with those before it
  have hsince : sinceMinute (⟨taken s, s.secondLine now_ms g, none⟩ :: s.book.closed) =
      ⟨taken s, s.secondLine now_ms g, none⟩ :: sinceMinute s.book.closed :=
    takeWhile_cons_of_pos rfl
  change Totals _ (claimsOf (sinceMinute (⟨taken s, _, none⟩ :: s.book.closed)))
    (badOf (sinceMinute (⟨taken s, _, none⟩ :: s.book.closed)))
    (linesOf (sinceMinute (⟨taken s, _, none⟩ :: s.book.closed)))
  rw [hsince]
  refine ⟨h.totals.samples, ?_, ?_, h.totals.seen⟩
  · change s.minute_bad + s.bad = _
    have hbad : s.minute_bad = badOf (sinceMinute s.book.closed) := h.totals.bad
    rw [badOf_cons, hbad, UInt64.add_comm]
    change _ = (s.book.current.bad + s.bad) + _
    rw [hzero, UInt64.zero_add]
  · change (if (s.secondLine now_ms g).isSome then s.minute_lines + 1 else s.minute_lines) = _
    have hlines : s.minute_lines = UInt32.ofNat (linesOf (sinceMinute s.book.closed)) :=
      h.totals.lines
    rw [hlines]
    exact ofNat_lines _ _ _ _

theorem due_minute (h : Gathering s.kept kContextCount g) (now_ms : UInt64) :
    Due { s.takeBad.nextSecond now_ms (s.secondLine now_ms g) with
      minute_seen := fun _ => false }.kept s.distinct (s.secondLine now_ms g) := by
  have hzero : s.book.current.bad = 0 := h.bad
  refine ⟨h.right, reported_secondLine h now_ms, h.ordered, h.totals.samples, ?_, ?_, ?_,
    fun _ => rfl⟩
  · change s.minute_bad + s.bad = (s.book.current.bad + s.bad) + _
    have hbad : s.minute_bad = badOf (sinceMinute s.book.closed) := h.totals.bad
    rw [hbad, hzero, UInt64.zero_add, UInt64.add_comm]
    rfl
  · change (if (s.secondLine now_ms g).isSome then s.minute_lines + 1 else s.minute_lines) = _
    have hlines : s.minute_lines = UInt32.ofNat (linesOf (sinceMinute s.book.closed)) :=
      h.totals.lines
    rw [hlines]
    exact ofNat_lines _ _ _ _
  · have hseen : s.minute_seen = _ := funext h.totals.seen
    rw [Ledger.distinct, hseen]
    rfl

theorem free_closeMinute {distinct : Nat} {second : Option SecondLine}
    (h : Due s.kept distinct second) (now_ms : UInt64) :
    Free ((s.nextMinute now_ms).close second (some (s.minuteLine now_ms distinct))).kept := by
  refine ⟨h.right.cons ⟨h.reported, h.ordered, ?_⟩, rfl, ?_⟩
  · rintro _ ⟨⟩
    refine ⟨h.samples, ?_, h.lines, h.ids⟩
    rw [badOf_cons]
    exact h.bad
  · -- the minute line has counted them all, and the next one begins anew
    have hsince : sinceMinute (⟨s.book.current, second, some (s.minuteLine now_ms distinct)⟩ ::
        s.book.closed) = [] := takeWhile_cons_of_neg Bool.false_ne_true
    change Totals _ (claimsOf (sinceMinute (⟨s.book.current, second, some _⟩ :: s.book.closed)))
      (badOf (sinceMinute (⟨s.book.current, second, some _⟩ :: s.book.closed)))
      (linesOf (sinceMinute (⟨s.book.current, second, some _⟩ :: s.book.closed)))
    rw [hsince]
    exact ⟨rfl, rfl, rfl, h.seen⟩

end Steps

theorem protects : Protects Step Point.holds (fun s => Free s.kept) (fun s p => Held s.kept p) := by
  constructor
  · intro s p s' p' h hp hp'
    rcases step_mutex h with ⟨-, -, -, hkept⟩ | ⟨-, hheld, -⟩ | ⟨hheld, -⟩ | ⟨hheld, -⟩
    · rw [hkept]
      exact ⟨id, fun _ _ hheld => hheld⟩
    · rw [hp'] at hheld
      cases hheld
    · rw [hp] at hheld
      cases hheld
    · rw [hp] at hheld
      cases hheld
  · intro s p s' p' h hp hp' hfree
    rcases step_mutex h with ⟨-, hheld, -⟩ | ⟨-, -, -, -, hkept, hpoint⟩ | ⟨hheld, -⟩ | ⟨hheld, -⟩
    · rw [hp'] at hheld
      cases hheld
    · rw [hkept]
      rcases hpoint with ⟨now_ms, rfl⟩ | ⟨now_ms, rfl⟩
      · exact hfree
      · exact held_scan (Nat.zero_le _) (gathering_start hfree)
    · rw [hp] at hheld
      cases hheld
    · rw [hp] at hheld
      cases hheld
  · intro s p s' p' h hp hp' hheld
    cases h with
    | exchangeIdle now_ms id g => exact held_scan hheld.1 (gathering_idle hheld.2)
    | exchange now_ms id g =>
      by_cases hroom : g.entries.length < kMaxLineEntries
      · rw [if_pos hroom]
        exact ⟨hheld.1, entering_room hheld.2 hroom⟩
      · rw [if_neg hroom]
        exact held_scan hheld.1 (gathering_full hheld.2 hroom)
    | entryStereo now_ms id samples run g => exact held_scan hheld.1 (gathering_entry hheld.2)
    | exchangeBad now_ms g => exact free_close hheld now_ms
    | exchangeBadMinute now_ms g => exact due_minute hheld now_ms
    | exchangeCalls now_ms distinct second => exact free_closeMinute hheld now_ms
    | startTimes => cases hp'
    | unlock => cases hp'
    | _ => cases hp
  · intro s p s' p' h hp hp' hheld
    rcases step_mutex h with ⟨hheld', -⟩ | ⟨hheld', -⟩ | ⟨-, hheld', -⟩ | ⟨-, -, -, hkept, hpoint⟩
    · rw [hp] at hheld'
      cases hheld'
    · rw [hp] at hheld'
      cases hheld'
    · rw [hp'] at hheld'
      cases hheld'
    · rw [hkept]
      rcases hpoint with rfl | ⟨now_ms, rfl⟩
      · exact hheld
      · exact hheld

/-- The collections that are done have the lines they should have, wherever a thread is. -/
theorem Held.right {k : Kept} {p : Point} (h : Held k p) (hp : p.holds = true) :
    AllRight k.closed := by
  cases p with
  | startTimes now_ms => exact Free.right h
  | exchange now_ms id g => exact h.2.right
  | entryStereo now_ms id samples run g => exact h.2.right
  | exchangeBad now_ms g => exact Gathering.right h
  | exchangeCalls now_ms distinct second => exact Due.right h
  | unlock => exact Free.right h
  | _ => cases hp

/-- A ledger used by any threads. -/
abbrev Runs (τ : Type) [DecidableEq τ] (w : World τ Ledger Point) : Prop :=
  Reachable Step {} .idle w

theorem allRight {τ : Type} [DecidableEq τ] {w : World τ Ledger Point} (h : Runs τ w) :
    AllRight w.shared.book.closed := by
  have hfree : Free ({} : Ledger).kept :=
    ⟨fun later c earlier hsplit => absurd hsplit (by simp [Ledger.kept]), rfl, rfl, rfl, rfl,
      fun _ => rfl⟩
  obtain ⟨hiff, -⟩ := exclusive locking rfl rfl h
  obtain ⟨hunlocked, hheld⟩ := protected_of_reachable locking protects rfl rfl hfree h
  by_cases hmutex : w.shared.mutex = true
  · obtain ⟨t, ht⟩ := hiff.mp hmutex
    exact (hheld t ht).right ht
  · exact (hunlocked (Bool.not_eq_true _ ▸ hmutex)).right

/-! ### A crowded second -/

/-- Steps of one thread. -/
abbrev Alone (s : Ledger) (p : Point) (s' : Ledger) (p' : Point) : Prop :=
  Relation.ReflTransGen (fun a b : Ledger × Point => Step a.1 a.2 b.1 b.2) (s, p) (s', p')

theorem Alone.step {s s' s'' : Ledger} {p p' p'' : Point} (h : Alone s p s' p')
    (hstep : Step s' p' s'' p'') : Alone s p s'' p'' := Relation.ReflTransGen.tail h hstep

theorem Alone.single {s s' : Ledger} {p p' : Point} (hstep : Step s p s' p') : Alone s p s' p' :=
  Relation.ReflTransGen.single hstep

/-- One sample for each of the first contexts. -/
structure Filled (n : Nat) (s : Ledger) : Prop where
  sum : ∀ id, s.sum id = if id < n then 1 else 0
  added : ∀ id, s.book.added id = if id < n then 1 else 0
  clock : s.next_ms = 0
  mutex : s.mutex = false
  bad : s.bad = 0
  closed : s.book.closed = []
  current : s.book.current = {}

theorem exists_filled {n : Nat} (hn : n ≤ kContextCount) :
    ∃ s, Alone {} .idle s .idle ∧ Filled n s := by
  induction n with
  | zero =>
    refine ⟨{}, .refl, ?_, ?_, rfl, rfl, rfl, rfl, rfl⟩
    · exact fun id => (if_neg (Nat.not_lt_zero id)).symm
    · exact fun id => (if_neg (Nat.not_lt_zero id)).symm
  | succ n ih =>
    obtain ⟨s, hsteps, h⟩ := ih (Nat.le_of_succ_le hn)
    have hcall := Step.callAdd s n 1 false
    rw [if_pos (Nat.lt_of_succ_le hn)] at hcall
    have hadd := hsteps.step hcall |>.step (.addSum s n 1 false) |>.step (.addCalls _)
    have hupdate : ∀ f : Nat → UInt64, (∀ id, f id = if id < n then 1 else 0) → ∀ id,
        Function.update f n (f n + (1 : UInt32).toUInt64) id = if id < n + 1 then 1 else 0 := by
      intro f hf id
      by_cases hid : id = n
      · subst hid
        rw [Function.update_self, hf, if_neg (Nat.lt_irrefl id), if_pos (Nat.lt_succ_self id)]
        rfl
      · rw [Function.update_of_ne hid, hf]
        by_cases hlt : id < n
        · rw [if_pos hlt, if_pos (Nat.lt_succ_of_lt hlt)]
        · rw [if_neg hlt, if_neg (by omega)]
    exact ⟨_, hadd, hupdate _ h.sum, hupdate _ h.added, h.clock, h.mutex, h.bad, h.closed,
      h.current⟩

/-- The claims of a collection that no other thread disturbs. -/
def claimsFrom (sum : Nat → UInt64) (ids : List Nat) : List (Nat × UInt64) :=
  ids.filterMap fun id => if sum id = 0 then none else some (id, sum id)

/-- A collection of the contexts from one on, undisturbed. -/
theorem exists_scan (now_ms : UInt64) {n k : Nat} (hk : k + n = kContextCount) (s : Ledger)
    (g : Gathered) :
    ∃ s' g', Alone s (.scan now_ms k g) s' (.exchangeBad now_ms g') ∧
      (∀ id, s'.sum id = if k ≤ id ∧ id < kContextCount then 0 else s.sum id) ∧
      s'.book.current.claims = s.book.current.claims ++ claimsFrom s.sum (List.range' k n) ∧
      s'.book.closed = s.book.closed ∧ s'.book.added = s.book.added ∧
      s'.minute_start_ms = s.minute_start_ms ∧ s'.bad = s.bad ∧
      s'.book.current.bad = s.book.current.bad ∧ s'.next_ms = s.next_ms := by
  induction n generalizing k s g with
  | zero =>
    have hend : Point.scan now_ms k g = .exchangeBad now_ms g := if_neg (by omega)
    rw [hend]
    refine ⟨s, g, .refl, fun id => ?_, by rw [range'_zero]; exact (append_nil _).symm,
      rfl, rfl, rfl, rfl, rfl, rfl⟩
    rw [if_neg (by omega)]
  | succ n ih =>
    have hstart : Point.scan now_ms k g = .exchange now_ms k g := if_pos (by omega)
    rw [hstart]
    by_cases hsum : s.sum k = 0
    · obtain ⟨s', g', hsteps, hsums, hclaims, hkept⟩ :=
        ih (k := k + 1) (by omega) { s with run := Function.update s.run k 0 } g
      have hfirst := Alone.single (.exchangeIdle s now_ms k g hsum)
      refine ⟨s', g', hfirst.trans hsteps, fun id => ?_, ?_, hkept⟩
      · rw [hsums]
        by_cases hid : id = k
        · subst hid
          rw [if_neg (by omega), if_pos (by omega)]
          exact hsum
        · by_cases hrange : k ≤ id ∧ id < kContextCount
          · rw [if_pos hrange, if_pos (by omega)]
          · rw [if_neg hrange, if_neg (by omega)]
      · rw [hclaims, claimsFrom, claimsFrom, range'_succ, filterMap_cons_none]
        exact if_pos hsum
    · have hnext : ∃ g₁, Alone s (.exchange now_ms k g) (s.takeSamples k)
          (.scan now_ms (k + 1) g₁) := by
        have htake := Alone.single (.exchange s now_ms k g hsum)
        by_cases hroom : g.entries.length < kMaxLineEntries
        · rw [if_pos hroom] at htake
          exact ⟨_, htake.step (.entryStereo _ _ _ _ _ _)⟩
        · rw [if_neg hroom] at htake
          exact ⟨_, htake⟩
      obtain ⟨g₁, hfirst⟩ := hnext
      obtain ⟨s', g', hsteps, hsums, hclaims, hkept⟩ :=
        ih (k := k + 1) (by omega) (s.takeSamples k) g₁
      refine ⟨s', g', hfirst.trans hsteps, fun id => ?_, ?_, hkept⟩
      · rw [hsums]
        change (if _ then 0 else Function.update s.sum k 0 id) = _
        by_cases hid : id = k
        · subst hid
          rw [if_neg (by omega), if_pos (by omega), Function.update_self]
        · rw [Function.update_of_ne hid]
          by_cases hrange : k ≤ id ∧ id < kContextCount
          · rw [if_pos hrange, if_pos (by omega)]
          · rw [if_neg hrange, if_neg (by omega)]
      · have hrest : claimsFrom (s.takeSamples k).sum (List.range' (k + 1) n) =
            claimsFrom s.sum (List.range' (k + 1) n) := by
          apply filterMap_congr
          intro id hid
          have hne : id ≠ k := by
            have := (mem_range'_1.mp hid).1
            omega
          change (if Function.update s.sum k 0 id = 0 then none
            else some (id, Function.update s.sum k 0 id)) = _
          rw [Function.update_of_ne hne]
        have hsplit : claimsFrom s.sum (List.range' k (n + 1)) =
            (k, s.sum k) :: claimsFrom s.sum (List.range' (k + 1) n) := by
          rw [claimsFrom, range'_succ, filterMap_cons_some]
          · rfl
          · exact if_neg hsum
        rw [hclaims, hrest, hsplit]
        change s.book.current.claims ++ [_] ++ _ = _
        rw [append_assoc]
        rfl

/-- The samples in the second lines. -/
def listed (collections : List Collection) : UInt64 :=
  (((collections.filterMap (·.second)).flatMap (·.entries)).map (·.samples)).sum

/-- A ledger that has collected a second of thirty-three contexts. -/
structure Crowded {τ : Type} [DecidableEq τ] (w : World τ Ledger Point) : Prop where
  runs : Runs τ w
  clock : w.shared.next_ms = 2000 + kSecondMs
  mutex : w.shared.mutex = false
  idle : ∀ t, w.point t = .idle
  pending : ∀ id, id < kContextCount → w.shared.sum id = 0
  added : ∀ id, w.shared.book.added id = if id < 33 then 1 else 0
  collected : ∃ second, w.shared.book.closed =
    [⟨⟨(List.range 33).map fun id => (id, 1), 0⟩, second, none⟩]

set_option maxRecDepth 20000 in
theorem exists_crowded {τ : Type} [DecidableEq τ] (t : τ) :
    ∃ w : World τ Ledger Point, Crowded w := by
  obtain ⟨s, hfill, h⟩ := exists_filled (n := 33) (by decide)
  -- The first call starts the clocks at 1 ms.
  have hload := Step.load s 1
  rw [if_pos h.clock] at hload
  have hclocks : Alone {} .idle
      { s with
        next_ms := 1 + kSecondMs, mutex := false, second_start_ms := 1, minute_start_ms := 1 }
      .idle :=
    hfill.step (.callCollect s 1) |>.step hload |>.step (.startClock s 1 h.clock)
      |>.step (.startLock _ 1 h.mutex) |>.step (.startTimes _ 1)
  -- The second one collects at 2000 ms.
  have hload' := Step.load
    { s with
      next_ms := 1 + kSecondMs, mutex := false, second_start_ms := 1, minute_start_ms := 1 } 2000
  rw [if_neg (show (1 + kSecondMs : UInt64) ≠ 0 by decide),
    if_neg (show ¬(2000 : UInt64) < 1 + kSecondMs by decide)] at hload'
  have hclaim : Alone {} .idle
      { s with
        next_ms := 2000 + kSecondMs, mutex := true, second_start_ms := 1, minute_start_ms := 1 }
      (.scan 2000 0 {}) :=
    hclocks.step (.callCollect _ 2000) |>.step hload' |>.step (.claim _ 2000)
      |>.step (.tryLock _ 2000 rfl)
  obtain ⟨s', g, hscan, hsums, hclaims, hclosed, hadded, hminute, hbad, hcurrent, hnext⟩ :=
    exists_scan 2000 (n := kContextCount) (k := 0) (Nat.zero_add _)
      { s with
        next_ms := 2000 + kSecondMs, mutex := true, second_start_ms := 1, minute_start_ms := 1 } {}
  have hdue : (2000 : UInt64) - s'.minute_start_ms < kMinuteMs := by
    rw [hminute]
    exact (by decide : (2000 : UInt64) - 1 < kMinuteMs)
  have hgathered : Alone {} .idle s' (.exchangeBad 2000 g) := hclaim.trans hscan
  have hdone := hgathered.step (.exchangeBad s' 2000 g hdue) |>.step (.unlock _)
  have hruns := (Reachable.init : Runs τ _).alone t hdone
  refine ⟨_, hruns, hnext, rfl, fun u => ?_, fun id hid => ?_, fun id => ?_, ?_⟩
  · by_cases hu : u = t
    · subst hu
      exact move_self _ _ _
    · exact move_other hu _ _
  · change s'.sum id = 0
    rw [hsums, if_pos ⟨Nat.zero_le _, hid⟩]
  · change s'.book.added id = _
    rw [hadded]
    exact h.added id
  · refine ⟨s'.secondLine 2000 g, ?_⟩
    have hsum : s.sum = fun id => if id < 33 then 1 else 0 := funext h.sum
    have hclaims' : s'.book.current.claims = (List.range 33).map fun id => (id, 1) := by
      rw [hclaims, h.current, hsum]
      decide
    have hbad' : s'.book.current.bad + s'.bad = 0 := by
      rw [hbad, hcurrent, h.current, h.bad]
      rfl
    change ⟨⟨s'.book.current.claims, s'.book.current.bad + s'.bad⟩, _, none⟩ ::
      s'.book.closed = _
    rw [hclaims', hbad', hclosed, h.closed]

/-- **The ledger**, in any interleaving: no sample is lost or counted twice, each second line is of
what its collection took, and each minute line is the sum of its collections. -/
theorem samples_conserved {τ : Type} [DecidableEq τ] {w : World τ Ledger Point} (h : Runs τ w) :
    (∀ id, w.shared.book.added id = samplesOf id (claimsOf w.shared.book.closed) +
      samplesOf id w.shared.book.current.claims + w.shared.sum id) ∧
    w.shared.book.addedBad = badOf w.shared.book.closed + w.shared.book.current.bad + w.shared.bad ∧
    w.shared.book.addedCalls =
      (w.shared.book.closed.map fun c => c.minute.elim 0 (·.calls)).sum + w.shared.calls ∧
    (∀ c ∈ w.shared.book.closed,
      c.interval.Reported c.second ∧ Ordered c.interval.claims kContextCount) ∧
    ∀ later c earlier m, w.shared.book.closed = later ++ c :: earlier → c.minute = some m →
      m.Sums (c :: sinceMinute earlier) := by
  have hinit : Conserved {} := ⟨fun _ => rfl, rfl, rfl⟩
  have hconserved : Conserved w.shared := h.shared_invariant hinit conserved_step
  have hright := allRight h
  refine ⟨hconserved.samples, hconserved.bad, hconserved.calls, fun c hc => ?_,
    fun later c earlier m hsplit hm => ?_⟩
  · obtain ⟨later, earlier, hsplit⟩ := append_of_mem hc
    have hc' := hright later c earlier hsplit
    exact ⟨hc'.reported, hc'.ordered⟩
  · exact (hright later c earlier hsplit).minute m hm

/-- After thirty-three contexts in a second, two threads collect at once: one has claimed the next
second and scans, the other has read the clock before and finds the second claimed. -/
theorem samples_conserved_crowded : ∃ w : World Bool Ledger Point, Runs Bool w ∧
    w.point true = .scan 4500 0 {} ∧ w.point false = .idle ∧ w.shared.book.closed ≠ [] ∧
    w.shared.book.added 32 = samplesOf 32 (claimsOf w.shared.book.closed) +
      samplesOf 32 w.shared.book.current.claims + w.shared.sum 32 := by
  obtain ⟨w, h⟩ := exists_crowded false
  have hload (now_ms : UInt64) (hdue : ¬ now_ms < 2000 + kSecondMs) :
      Alone w.shared .idle w.shared (.claim now_ms w.shared.next_ms) := by
    have hload := Step.load w.shared now_ms
    rw [if_neg (by rw [h.clock]; decide), if_neg (by rwa [h.clock])] at hload
    exact (Alone.single (.callCollect _ _)).step hload
  let s : Ledger := { w.shared with next_ms := 4500 + kSecondMs, mutex := true }
  have hscan : Alone w.shared .idle s (.scan 4500 0 {}) :=
    (hload 4500 (by decide)).step (.claim _ _) |>.step (.tryLock _ _ h.mutex)
  let waits := w.move false w.shared (.claim 4000 w.shared.next_ms)
  let wins := waits.move true s (.scan 4500 0 {})
  have hwaits : Runs Bool waits := h.runs.alone false (by rw [h.idle]; exact hload 4000 (by decide))
  have hwins : Runs Bool wins :=
    hwaits.alone true (by rw [move_other (by decide), h.idle]; exact hscan)
  have hloses : Runs Bool (wins.move false s .idle) := hwins.alone false (by
    rw [move_other (by decide), move_self]
    exact Alone.single (.claimFails _ 4000 _ (by
      rw [h.clock]
      exact (by decide : (4500 + kSecondMs : UInt64) ≠ 2000 + kSecondMs))))
  obtain ⟨second, hclosed⟩ := h.collected
  refine ⟨_, hloses, ?_, move_self _ _ _, ?_, (samples_conserved hloses).1 32⟩
  · rw [move_other (by decide), move_self]
  · show w.shared.book.closed ≠ []
    rw [hclosed]
    exact cons_ne_nil _ _

set_option maxRecDepth 20000 in
/-- The samples of the thirty-third context are in no second line. -/
theorem context_not_listed : ∃ w : World Unit Ledger Point, Runs Unit w ∧ (∀ t, w.point t = .idle) ∧
    listed w.shared.book.closed + ((List.range kContextCount).map w.shared.sum).sum ≠
      ((List.range kContextCount).map w.shared.book.added).sum := by
  obtain ⟨w, h⟩ := exists_crowded ()
  obtain ⟨second, hclosed⟩ := h.collected
  have hpending : ((List.range kContextCount).map w.shared.sum).sum = 0 := by
    have hzero : (List.range kContextCount).map w.shared.sum =
        (List.range kContextCount).map fun _ => 0 :=
      map_congr_left fun id hid => h.pending id (mem_range.mp hid)
    rw [hzero]
    decide
  have hadded : ((List.range kContextCount).map w.shared.book.added).sum = 33 := by
    have hfirst : w.shared.book.added = fun id => if id < 33 then 1 else 0 := funext h.added
    rw [hfirst]
    decide
  have hreported := (allRight h.runs [] _ [] hclosed).reported
  have hlisted : listed w.shared.book.closed = 32 := by
    rw [hclosed]
    cases second with
    | none => exact absurd (hreported.nothing.mp rfl).1 (by decide)
    | some line =>
      have hentries := congrArg (List.map (·.2)) (hreported.entries line rfl)
      rw [map_map] at hentries
      change ((line.entries ++ []).map Entry.samples).sum = 32
      rw [append_nil]
      have htotal : ((((List.range 33).map fun id => (id, (1 : UInt64))).take
          kMaxLineEntries).map (·.2)).sum = 32 := by
        decide
      exact (congrArg List.sum hentries).trans htotal
  refine ⟨w, h.runs, h.idle, ?_⟩
  rw [hlisted, hpending, hadded]
  decide

end Mcla.XmaLedger

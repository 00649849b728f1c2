import Mcla.Library.TokenBucket

/-! # The line pacers

`LinePacer` of `mcla_lock_probe` and `Pacer` of `mcla_album_probe`: a log line is written for a call
while there are tokens for it, and at most so many in a session; the calls that are suppressed are
counted and reported on the next line.  The counter has 32 bits and wraps.
-/
namespace Mcla.LinePacers
open TokenBucket (Bucket)
open List Option

/-- The constants of a pacer. -/
structure Limits where
  (kBurst kRefillMs kMaxLines : Nat)

/-- The limits of the lock probe. -/
def LockProbe.LinePacer : Limits := ⟨32, 500, 4000⟩

/-- The limits of the album probe. -/
def AlbumProbe.Pacer : Limits := ⟨20, 500, 1000⟩

/-- What a pacer holds between two events. -/
structure Pacer where
  started : Bool := false
  bucket : Bucket := ⟨0, 0⟩
  (lines suppressed : Nat := 0)
deriving DecidableEq

namespace Pacer

/-- The bucket that a call finds. -/
def refilled (l : Limits) (p : Pacer) (now_ms : Nat) : Bucket :=
  Bucket.refill l.kBurst l.kRefillMs now_ms (if p.started then p.bucket else ⟨l.kBurst, now_ms⟩)

/-- `Allow`: what the line reports as suppressed, if one may be written, and the pacer after it. -/
def allow (l : Limits) (p : Pacer) (now_ms : Nat) : Option Nat × Pacer :=
  if l.kMaxLines ≤ p.lines ∨ (p.refilled l now_ms).tokens = 0 then
    (none, ⟨true, p.refilled l now_ms, p.lines, (p.suppressed + 1) % 2 ^ 32⟩)
  else (some p.suppressed, ⟨true, (p.refilled l now_ms).take, p.lines + 1, 0⟩)

/-- The answers to calls at some times. -/
def answers (l : Limits) (p : Pacer) : List Nat → List (Option Nat)
  | [] => []
  | now_ms :: times => (p.allow l now_ms).1 :: answers l (p.allow l now_ms).2 times

/-- The pacer after calls at some times. -/
def after (l : Limits) (p : Pacer) (times : List Nat) : Pacer :=
  times.foldl (fun p now_ms => (p.allow l now_ms).2) p

end Pacer

/-- The lines within an interval. -/
def linesWithin (a b : Nat) (times : List Nat) (answers : List (Option Nat)) : Nat :=
  (times.zip answers).countP fun call => a ≤ call.1 && call.1 ≤ b && call.2.isSome

/-- All lines. -/
def emitted (answers : List (Option Nat)) : Nat := answers.countP (·.isSome)

/-- The suppressed calls that the lines report. -/
def reported (answers : List (Option Nat)) : Nat := (answers.map (·.getD 0)).sum

/-- The calls that were suppressed in a row never fill the counter. -/
def CounterHolds (answers : List (Option Nat)) : Prop :=
  ∀ l silent r, answers = l ++ silent ++ r → (∀ answer ∈ silent, answer = none) →
    silent.length < 2 ^ 32

/-! ### One call -/

namespace Pacer
variable {l : Limits} {p : Pacer} {now_ms : Nat}

/-- A pacer that may be called at a time. -/
def Ready (l : Limits) (now_ms : Nat) (p : Pacer) : Prop :=
  p.started = true → p.bucket.Fits l.kBurst now_ms

theorem Ready.fits (h : p.Ready l now_ms) :
    (if p.started then p.bucket else ⟨l.kBurst, now_ms⟩).Fits l.kBurst now_ms := by
  by_cases hstarted : p.started = true
  · rw [if_pos hstarted]
    exact h hstarted
  · rw [if_neg hstarted]
    exact ⟨le_rfl, le_rfl⟩

/-- What a call may do: suppress, or write a line for a token. -/
theorem allow_cases (l : Limits) (p : Pacer) (now_ms : Nat) :
    p.allow l now_ms = (none, ⟨true, p.refilled l now_ms, p.lines, (p.suppressed + 1) % 2 ^ 32⟩) ∨
      (p.lines < l.kMaxLines ∧ (p.refilled l now_ms).tokens ≠ 0 ∧ p.allow l now_ms =
        (some p.suppressed, ⟨true, (p.refilled l now_ms).take, p.lines + 1, 0⟩)) := by
  unfold allow
  by_cases hguard : l.kMaxLines ≤ p.lines ∨ (p.refilled l now_ms).tokens = 0
  · rw [if_pos hguard]
    exact .inl rfl
  · rw [if_neg hguard]
    rw [not_or, Nat.not_le] at hguard
    exact .inr ⟨hguard.1, hguard.2, rfl⟩

/-- One for a line. -/
def cost (answer : Option Nat) : Nat := if answer.isSome then 1 else 0

/-- After a call the pacer is ready, and the line has been paid for. -/
theorem allow_credit (h : p.Ready l now_ms) :
    (p.allow l now_ms).2.started = true ∧ (p.allow l now_ms).2.bucket.Fits l.kBurst now_ms ∧
      (p.allow l now_ms).2.bucket.credit l.kRefillMs now_ms +
          cost (p.allow l now_ms).1 * l.kRefillMs =
        (p.refilled l now_ms).credit l.kRefillMs now_ms := by
  have hfits : (p.refilled l now_ms).Fits l.kBurst now_ms := h.fits.refill
  rcases p.allow_cases l now_ms with hsilent | ⟨-, htokens, hline⟩
  · rw [hsilent]
    exact ⟨rfl, hfits, by rw [cost]; simp⟩
  · rw [hline]
    refine ⟨rfl, hfits.take, ?_⟩
    have htake : (p.refilled l now_ms).take.credit l.kRefillMs now_ms + l.kRefillMs =
        (p.refilled l now_ms).credit l.kRefillMs now_ms := Bucket.credit_take htokens
    rw [cost]
    simpa using htake

/-! ### Lines in an interval -/

theorem linesWithin_cons (a b : Nat) (times : List Nat) (answer : Option Nat)
    (answers : List (Option Nat)) :
    linesWithin a b (now_ms :: times) (answer :: answers) =
      (if a ≤ now_ms ∧ now_ms ≤ b then cost answer else 0) + linesWithin a b times answers := by
  unfold linesWithin cost
  rw [zip_cons_cons, countP_cons, Nat.add_comm]
  congr 1
  by_cases hwithin : a ≤ now_ms ∧ now_ms ≤ b
  · simp [hwithin.1, hwithin.2]
  · rw [if_neg hwithin, if_neg]
    simp only [Bool.and_eq_true, decide_eq_true_eq]
    exact fun hall => hwithin hall.1

theorem linesWithin_late {a b : Nat} {times : List Nat} (answers : List (Option Nat))
    (h : ∀ now_ms ∈ times, b < now_ms) : linesWithin a b times answers = 0 := by
  rw [linesWithin, countP_eq_zero]
  rintro ⟨now_ms, answer⟩ hmem hall
  have hlate := h now_ms (of_mem_zip hmem).1
  simp only [Bool.and_eq_true, decide_eq_true_eq] at hall
  omega

/-- From a bucket that is in use, the lines cost no more than its credit and the time. -/
theorem lines_of_credit {a b : Nat} {times : List Nat} (hstarted : p.started = true)
    (h : p.bucket.Fits l.kBurst now_ms) (hsorted : (now_ms :: times).Pairwise (· ≤ ·)) :
    linesWithin a b times (p.answers l times) * l.kRefillMs ≤
      p.bucket.credit l.kRefillMs now_ms + (b - now_ms) := by
  induction times generalizing p now_ms with
  | nil => exact (Nat.zero_mul _).trans_le (Nat.zero_le _)
  | cons later_ms times ih =>
    obtain ⟨hfirst, hrest⟩ := pairwise_cons.mp hsorted
    have hle := hfirst later_ms mem_cons_self
    by_cases hlate : b < later_ms
    · rw [linesWithin_late]
      · exact (Nat.zero_mul _).trans_le (Nat.zero_le _)
      · intro t ht
        rcases mem_cons.mp ht with rfl | ht
        · exact hlate
        · exact hlate.trans_le ((pairwise_cons.mp hrest).1 t ht)
    · have hready : p.Ready l later_ms := fun _ => h.mono hle
      -- the credit pays for the line of this call, and for those after it
      obtain ⟨hstarted', hfits', hpaid⟩ := allow_credit hready
      have hcount := ih hstarted' hfits' hrest
      have hrefill : (p.refilled l later_ms).credit l.kRefillMs later_ms ≤
          p.bucket.credit l.kRefillMs later_ms := by
        rw [refilled, if_pos hstarted]
        exact Bucket.credit_refill_le
      have htime : p.bucket.credit l.kRefillMs later_ms =
          p.bucket.credit l.kRefillMs now_ms + (later_ms - now_ms) :=
        Bucket.credit_later h.last hle
      rw [answers, linesWithin_cons, Nat.add_mul]
      have hcost : (if a ≤ later_ms ∧ later_ms ≤ b then cost (p.allow l later_ms).1 else 0) *
          l.kRefillMs ≤ cost (p.allow l later_ms).1 * l.kRefillMs := by
        apply Nat.mul_le_mul_right
        split
        · exact le_rfl
        · exact Nat.zero_le _
      omega

/-- The lines in an interval, from any pacer. -/
theorem lines_within {a b : Nat} {times : List Nat} (hperiod : 0 < l.kRefillMs)
    (hready : ∀ now_ms ∈ times, p.Ready l now_ms) (hsorted : times.Pairwise (· ≤ ·)) :
    linesWithin a b times (p.answers l times) * l.kRefillMs <
      (l.kBurst + 1) * l.kRefillMs + (b - a) := by
  induction times generalizing p with
  | nil =>
    rw [linesWithin, zip_nil_left, countP_nil, Nat.zero_mul, Nat.succ_mul]
    omega
  | cons now_ms times ih =>
    obtain ⟨hfirst, hrest⟩ := pairwise_cons.mp hsorted
    obtain ⟨hstarted', hfits', hpaid⟩ := allow_credit (hready now_ms mem_cons_self)
    rw [answers, linesWithin_cons]
    by_cases hwithin : a ≤ now_ms ∧ now_ms ≤ b
    · -- the first call of the interval finds at most the burst and less than a period
      rw [if_pos hwithin, Nat.add_mul]
      have hfull : (p.refilled l now_ms).credit l.kRefillMs now_ms < (l.kBurst + 1) * l.kRefillMs :=
        Bucket.credit_refill_lt hperiod (hready now_ms mem_cons_self).fits
      have hcount := lines_of_credit (a := a) (b := b) hstarted' hfits' hsorted
      omega
    · rw [if_neg hwithin, Nat.zero_add]
      -- the interval has not begun, or there is no call of it left
      exact ih (fun later_ms hmem _ => hfits'.mono (hfirst later_ms hmem)) hrest

/-! ### All calls are counted -/

theorem lines_after (times : List Nat) :
    (p.after l times).lines = p.lines + emitted (p.answers l times) := by
  induction times generalizing p with
  | nil => rfl
  | cons now_ms times ih =>
    have hrest := ih (p := (p.allow l now_ms).2)
    rw [answers, emitted, countP_cons]
    change ((p.allow l now_ms).2.after l times).lines = _
    rw [hrest, emitted]
    rcases p.allow_cases l now_ms with hsilent | ⟨-, -, hline⟩
    · rw [hsilent]
      rfl
    · rw [hline]
      simp only [isSome_some, if_true]
      omega

theorem lines_le (h : p.lines ≤ l.kMaxLines) (times : List Nat) :
    (p.after l times).lines ≤ l.kMaxLines := by
  induction times generalizing p with
  | nil => exact h
  | cons now_ms times ih =>
    apply ih
    change (p.allow l now_ms).2.lines ≤ l.kMaxLines
    rcases p.allow_cases l now_ms with hsilent | ⟨hlt, -, hline⟩
    · rw [hsilent]
      exact h
    · rw [hline]
      exact hlt

theorem counted_mod (times : List Nat) :
    emitted (p.answers l times) + reported (p.answers l times) + (p.after l times).suppressed ≡
      p.suppressed + times.length [MOD 2 ^ 32] := by
  induction times generalizing p with
  | nil => exact (Nat.zero_add p.suppressed).symm ▸ Nat.ModEq.refl _
  | cons now_ms times ih =>
    have hrest := ih (p := (p.allow l now_ms).2)
    rw [answers, emitted, reported, countP_cons, map_cons, sum_cons, length_cons]
    change _ + ((p.allow l now_ms).2.after l times).suppressed ≡ _ [MOD 2 ^ 32]
    rcases p.allow_cases l now_ms with hsilent | ⟨-, -, hline⟩
    · rw [hsilent] at hrest ⊢
      have hwrap : (p.suppressed + 1) % 2 ^ 32 + times.length ≡
          p.suppressed + (times.length + 1) [MOD 2 ^ 32] := by
        rw [Nat.add_comm times.length 1, ← Nat.add_assoc]
        exact (Nat.mod_modEq _ _).add_right _
      simpa [emitted, reported] using hrest.trans hwrap
    · rw [hline] at hrest ⊢
      -- the line reports the count so far, and the next count begins at zero
      have hmore := (hrest.add_right 1).add_right p.suppressed
      simp only [emitted, reported] at hmore
      simp only [isSome_some, if_true, getD_some]
      have hleft (x y z : Nat) : x + 1 + (p.suppressed + y) + z = x + y + z + 1 + p.suppressed := by
        omega
      rw [hleft, Nat.add_comm p.suppressed]
      simpa using hmore

/-- Without a wrap the counts are exact. -/
theorem counted_exact (times : List Nat) (hholds : CounterHolds (p.answers l times))
    (hfront : ∀ silent r, p.answers l times = silent ++ r → (∀ answer ∈ silent, answer = none) →
      p.suppressed + silent.length < 2 ^ 32) :
    emitted (p.answers l times) + reported (p.answers l times) + (p.after l times).suppressed =
      p.suppressed + times.length := by
  induction times generalizing p with
  | nil => exact Nat.zero_add p.suppressed
  | cons now_ms times ih =>
    have hholds' : CounterHolds ((p.allow l now_ms).2.answers l times) := by
      intro front silent r heq
      exact hholds ((p.allow l now_ms).1 :: front) silent r (by rw [answers, heq]; rfl)
    rw [answers, emitted, reported, countP_cons, map_cons, sum_cons, length_cons]
    change _ + ((p.allow l now_ms).2.after l times).suppressed = _
    rcases p.allow_cases l now_ms with hsilent | ⟨-, -, hline⟩
    · have hlt : p.suppressed + 1 < 2 ^ 32 := by
        refine hfront [none] ((p.allow l now_ms).2.answers l times) ?_ ?_
        · rw [answers, hsilent]
          rfl
        · exact forall_mem_singleton.mpr rfl
      have hrest := ih hholds' fun silent r heq hnone => by
        have := hfront (none :: silent) r (by rw [answers, heq, hsilent]; rfl)
          (forall_mem_cons.mpr ⟨rfl, hnone⟩)
        rw [hsilent, Nat.mod_eq_of_lt hlt]
        rw [length_cons] at this
        dsimp only
        omega
      rw [hsilent] at hrest ⊢
      simp only [emitted, reported, Nat.mod_eq_of_lt hlt] at hrest
      simp only [isSome_none, getD_none, Nat.mod_eq_of_lt hlt]
      simp only [Bool.false_eq_true, if_false]
      omega
    · have hrest := ih hholds' fun silent r heq hnone => by
        have := hholds [(p.allow l now_ms).1] silent r (by rw [answers, heq]; rfl) hnone
        rw [hline]
        dsimp only
        omega
      rw [hline] at hrest ⊢
      simp only [emitted, reported] at hrest
      simp only [isSome_some, if_true, getD_some]
      omega

end Pacer

/-- What holds of a pacer over calls at some times. -/
structure Paced (l : Limits) (times : List Nat) : Prop where
  rate : ∀ a b, a ≤ b → linesWithin a b times (Pacer.answers l {} times) ≤
    l.kBurst + (b - a) / l.kRefillMs + 1
  session : emitted (Pacer.answers l {} times) ≤ l.kMaxLines
  counted : emitted (Pacer.answers l {} times) + reported (Pacer.answers l {} times) +
    (Pacer.after l {} times).suppressed ≡ times.length [MOD 2 ^ 32]
  exact : CounterHolds (Pacer.answers l {} times) →
    emitted (Pacer.answers l {} times) + reported (Pacer.answers l {} times) +
      (Pacer.after l {} times).suppressed = times.length

theorem paced {l : Limits} (hperiod : 0 < l.kRefillMs) {times : List Nat}
    (hsorted : times.Pairwise (· ≤ ·)) : Paced l times where
  rate := by
    intro a b hle
    have hready (now_ms : Nat) (_ : now_ms ∈ times) : ({} : Pacer).Ready l now_ms :=
      fun hstarted => absurd hstarted Bool.false_ne_true
    have hlines := Pacer.lines_within (a := a) (b := b) hperiod hready hsorted
    have hdiv := Nat.lt_mul_div_succ (b - a) hperiod
    by_contra hmore
    -- one line more than the bound would cost more than the burst and the time can pay
    have hmany : l.kBurst + 1 + ((b - a) / l.kRefillMs + 1) ≤
        linesWithin a b times (Pacer.answers l {} times) := by omega
    have hcost := Nat.mul_le_mul_right l.kRefillMs hmany
    rw [Nat.add_mul, Nat.mul_comm ((b - a) / l.kRefillMs + 1)] at hcost
    omega
  session := by
    have hlines := Pacer.lines_after (l := l) (p := {}) times
    have hmax := Pacer.lines_le (l := l) (p := {}) (Nat.zero_le _) times
    have hzero : ({} : Pacer).lines = 0 := rfl
    omega
  counted := by
    have hcounted := Pacer.counted_mod (l := l) (p := {}) times
    have hzero : ({} : Pacer).suppressed = 0 := rfl
    rwa [hzero, Nat.zero_add] at hcounted
  exact := by
    intro hholds
    have hzero : ({} : Pacer).suppressed = 0 := rfl
    -- no calls are suppressed before the first one
    have hcounted := Pacer.counted_exact (l := l) (p := {}) times hholds
      fun silent r heq hnone => by
        rw [hzero, Nat.zero_add]
        exact hholds [] silent r heq hnone
    rwa [hzero, Nat.zero_add] at hcounted

/-- Both pacers, over any calls at times that do not fall. -/
theorem lines_paced (times : List Nat) (hsorted : times.Pairwise (· ≤ ·)) :
    Paced LockProbe.LinePacer times ∧ Paced AlbumProbe.Pacer times :=
  ⟨paced (by decide) hsorted, paced (by decide) hsorted⟩

/-- Calls at once that both pacers suppress some of, and one that reports them. -/
theorem lines_paced_short : let times := replicate 34 0 ++ [700]
    (some 2 ∈ Pacer.answers LockProbe.LinePacer {} times ∧
      some 14 ∈ Pacer.answers AlbumProbe.Pacer {} times) ∧
    Paced LockProbe.LinePacer times ∧ Paced AlbumProbe.Pacer times :=
  ⟨by decide, lines_paced _ (by decide)⟩

/-! ### The counter wraps -/

/-- Calls without a token are suppressed, whatever their number. -/
theorem silent_calls (l : Limits) (n : Nat) (lines s : Nat) :
    Pacer.answers l ⟨true, ⟨0, 0⟩, lines, s % 2 ^ 32⟩ (replicate n 0) = replicate n none ∧
      Pacer.after l ⟨true, ⟨0, 0⟩, lines, s % 2 ^ 32⟩ (replicate n 0) =
        ⟨true, ⟨0, 0⟩, lines, (s + n) % 2 ^ 32⟩ := by
  induction n generalizing s with
  | zero => exact ⟨rfl, rfl⟩
  | succ n ih =>
    have hcall : Pacer.allow l ⟨true, ⟨0, 0⟩, lines, s % 2 ^ 32⟩ 0 =
        (none, ⟨true, ⟨0, 0⟩, lines, (s + 1) % 2 ^ 32⟩) := by
      have htokens : (Pacer.refilled l ⟨true, ⟨0, 0⟩, lines, s % 2 ^ 32⟩ 0) = ⟨0, 0⟩ := rfl
      rw [Pacer.allow, htokens, if_pos (.inr rfl), Nat.mod_add_mod]
    obtain ⟨hanswers, hafter⟩ := ih (s + 1)
    rw [replicate_succ, Pacer.answers, hcall, hanswers]
    refine ⟨rfl, ?_⟩
    have hstep : Pacer.after l ⟨true, ⟨0, 0⟩, lines, s % 2 ^ 32⟩ (0 :: replicate n 0) =
        Pacer.after l (Pacer.allow l ⟨true, ⟨0, 0⟩, lines, s % 2 ^ 32⟩ 0).2
          (replicate n 0) := rfl
    rw [hstep, hcall, hafter, Nat.add_assoc, Nat.add_comm 1]

theorem answers_append (l : Limits) (p : Pacer) (times more : List Nat) :
    p.answers l (times ++ more) = p.answers l times ++ (p.after l times).answers l more := by
  induction times generalizing p with
  | nil => rfl
  | cons now_ms times ih => exact congrArg _ (ih _)

theorem after_append (l : Limits) (p : Pacer) (times more : List Nat) :
    p.after l (times ++ more) = (p.after l times).after l more := foldl_append

set_option maxRecDepth 4000 in
/-- The burst at one time, and then any number of calls more. -/
theorem burst_then (n : Nat) :
    emitted (Pacer.answers LockProbe.LinePacer {} (replicate (32 + n) 0)) +
      reported (Pacer.answers LockProbe.LinePacer {} (replicate (32 + n) 0)) +
      (Pacer.after LockProbe.LinePacer {} (replicate (32 + n) 0)).suppressed = 32 + n % 2 ^ 32 := by
  have hburst : Pacer.after LockProbe.LinePacer {} (replicate 32 0) =
      ⟨true, ⟨0, 0⟩, 32, 0 % 2 ^ 32⟩ := by decide
  have hlines : emitted (Pacer.answers LockProbe.LinePacer {} (replicate 32 0)) = 32 ∧
      reported (Pacer.answers LockProbe.LinePacer {} (replicate 32 0)) = 0 := by decide
  obtain ⟨hanswers, hafter⟩ := silent_calls LockProbe.LinePacer n 32 0
  rw [← replicate_append_replicate, answers_append, after_append, hburst, hanswers, hafter]
  unfold emitted reported at hlines ⊢
  rw [countP_append, map_append, sum_append, hlines.1, hlines.2]
  simp

/-- As many calls more as the counter has values: all of them are forgotten. -/
theorem counter_wraps :
    (replicate (32 + 2 ^ 32) 0).Pairwise (· ≤ ·) ∧
      emitted (Pacer.answers LockProbe.LinePacer {} (replicate (32 + 2 ^ 32) 0)) +
        reported (Pacer.answers LockProbe.LinePacer {} (replicate (32 + 2 ^ 32) 0)) +
        (Pacer.after LockProbe.LinePacer {} (replicate (32 + 2 ^ 32) 0)).suppressed ≠
          (replicate (32 + 2 ^ 32) 0).length := by
  refine ⟨pairwise_replicate.mpr (.inr le_rfl), ?_⟩
  rw [burst_then, length_replicate, Nat.mod_self]
  omega

end Mcla.LinePacers

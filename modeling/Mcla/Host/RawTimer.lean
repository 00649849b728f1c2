import Mathlib

/-! # The raw timer

`StepSmoother` and `MillisecondSteps` of `mcla_raw_timer`, over exact rationals, as the hook of the
timer tick chains them: a measured interval is smoothed, with the difference kept as debt, and the
smoothed step is cut to whole milliseconds, with the remainder carried.

A step that stays under a millisecond is returned as it is and carried as well, so the two stages
conserve time exactly while there is none (`conserves_iff`).  The smoother by itself does not drift
(`smoother_steady`).
-/
namespace Mcla.RawTimer
open List

/-! ### The two stages -/

def kHitchSeconds : ℚ := 1 / 10
def kMaxHitchDebtSeconds : ℚ := 1
def kAverageWeight : ℚ := 5 / 100
def kRepayment : ℚ := 2 / 100
def kHold : ℚ := 10 / 100

/-- `std::clamp` -/
def clamp (v lo hi : ℚ) : ℚ := if v < lo then lo else if hi < v then hi else v

/-- The average and the debt of the smoother. -/
structure StepSmoother where
  has_average_ : Bool := false
  (average_ debt_ : ℚ := 0)

def StepSmoother.reset (_ : StepSmoother) : StepSmoother where

/-- The average once `raw` is taken in. -/
def StepSmoother.averaged (s : StepSmoother) (raw : ℚ) : ℚ :=
  if s.has_average_ then s.average_ + kAverageWeight * (raw - s.average_) else raw

/-- `StepSmoother::Apply` -/
def StepSmoother.apply (s : StepSmoother) (raw : ℚ) : ℚ × StepSmoother :=
  if ¬ 0 < raw then (raw, s.reset)
  else if kHitchSeconds < raw then
    (kHitchSeconds, { s with debt_ := min (s.debt_ + (raw - kHitchSeconds)) kMaxHitchDebtSeconds })
  else
    let average := s.averaged raw
    let applied := clamp (average + kRepayment * s.debt_) ((1 - kHold) * average)
      ((1 + kHold) * average)
    (applied, ⟨true, average, s.debt_ + (raw - applied)⟩)

/-- The remainder carried to the next step. -/
structure MillisecondSteps where
  carry_ : ℚ := 0

/-- `whole_ms` -/
def MillisecondSteps.whole_ms (c : MillisecondSteps) (step : ℚ) : ℤ := ⌊(step + c.carry_) * 1000⌋

/-- The bias of a whole-millisecond step. -/
def kBias : ℚ := 1 / 10000000

/-- `MillisecondSteps::Apply` -/
def MillisecondSteps.apply (c : MillisecondSteps) (step : ℚ) : ℚ × MillisecondSteps :=
  let total := step + c.carry_
  if c.whole_ms step < 1 then (step, ⟨total⟩)
  else (c.whole_ms step / 1000 + kBias, ⟨total - c.whole_ms step / 1000⟩)

/-! ### The hook -/

/-- `mcla_raw_timer_smoothing` and `mcla_raw_timer_ms_steps` -/
structure Settings where
  (smoothing ms_steps : Bool)

/-- The two stages, one after the other. -/
structure Timer where
  smoother : StepSmoother := {}
  millisecond_steps : MillisecondSteps := {}

/-- The step `sub_821BDA90` supplies for a measured interval. -/
def Timer.tick (settings : Settings) (t : Timer) (raw : ℚ) : ℚ × Timer :=
  let smoothed := if settings.smoothing then t.smoother.apply raw else (raw, t.smoother)
  let cut := if settings.ms_steps then t.millisecond_steps.apply smoothed.1
    else (smoothed.1, t.millisecond_steps)
  (cut.1, ⟨smoothed.2, cut.2⟩)

/-! ### One step of the smoother -/

section Smoother
variable {s : StepSmoother} {raw v lo hi : ℚ}

theorem clamp_mem (h : lo ≤ hi) : lo ≤ clamp v lo hi ∧ clamp v lo hi ≤ hi := by
  unfold clamp
  by_cases hlo : v < lo
  · rw [if_pos hlo]
    exact ⟨le_rfl, h⟩
  · by_cases hhi : hi < v
    · rw [if_neg hlo, if_pos hhi]
      exact ⟨h, le_rfl⟩
    · rw [if_neg hlo, if_neg hhi]
      exact ⟨not_lt.mp hlo, not_lt.mp hhi⟩

/-- The time a hitch drops, since the debt it leaves is bounded. -/
def StepSmoother.dropped (s : StepSmoother) (raw : ℚ) : ℚ :=
  if kHitchSeconds < raw then max 0 (s.debt_ + (raw - kHitchSeconds) - kMaxHitchDebtSeconds) else 0

/-- **The smoother conserves time.** -/
theorem StepSmoother.apply_conserves (hraw : 0 < raw) :
    raw = (s.apply raw).1 + ((s.apply raw).2.debt_ - s.debt_) + s.dropped raw := by
  rw [apply, dropped, if_neg (not_not.mpr hraw)]
  by_cases hhitch : kHitchSeconds < raw
  · rw [if_pos hhitch, if_pos hhitch]
    dsimp only
    rcases le_total (s.debt_ + (raw - kHitchSeconds)) kMaxHitchDebtSeconds with h | h
    · rw [min_eq_left h, max_eq_left (sub_nonpos.mpr h)]
      ring
    · rw [min_eq_right h, max_eq_right (sub_nonneg.mpr h)]
      ring
  · rw [if_neg hhitch, if_neg hhitch]
    ring

/-- A smoother that has an average has a positive one. -/
def StepSmoother.Positive (s : StepSmoother) : Prop := s.has_average_ = true → 0 < s.average_

theorem StepSmoother.Positive.averaged_pos (h : s.Positive) (hraw : 0 < raw) :
    0 < s.averaged raw := by
  unfold averaged
  by_cases havg : s.has_average_ = true
  · have hpos := h havg
    rw [if_pos havg, kAverageWeight]
    linarith
  · rw [if_neg havg]
    exact hraw

theorem StepSmoother.Positive.apply_pos (h : s.Positive) (hraw : 0 < raw) :
    0 < (s.apply raw).1 ∧ (s.apply raw).2.Positive := by
  rw [apply, if_neg (not_not.mpr hraw)]
  by_cases hhitch : kHitchSeconds < raw
  · rw [if_pos hhitch]
    exact ⟨by norm_num [kHitchSeconds], h⟩
  · rw [if_neg hhitch]
    have hpos := h.averaged_pos hraw
    have hhold : (1 - kHold) * s.averaged raw ≤ (1 + kHold) * s.averaged raw := by
      rw [kHold]
      linarith
    have hlow : 0 < (1 - kHold) * s.averaged raw := by
      rw [kHold]
      linarith
    exact ⟨hlow.trans_le (clamp_mem hhold).1, fun _ => hpos⟩

end Smoother

/-! ### One step of the second stage -/

section Milliseconds
variable {c : MillisecondSteps} {step : ℚ}

/-- Less than a millisecond is carried. -/
def MillisecondSteps.Small (c : MillisecondSteps) : Prop := 0 ≤ c.carry_ ∧ c.carry_ < 1 / 1000

theorem MillisecondSteps.Small.apply (h : c.Small) (hstep : 0 < step) : (c.apply step).2.Small := by
  obtain ⟨hcarry, -⟩ := h
  have hle := Int.floor_le ((step + c.carry_) * 1000)
  have hlt := Int.lt_floor_add_one ((step + c.carry_) * 1000)
  rw [MillisecondSteps.apply]
  by_cases hsub : c.whole_ms step < 1
  · rw [if_pos hsub]
    have hone : (step + c.carry_) * 1000 < 1 := by
      have := Int.floor_lt.mp hsub
      exact_mod_cast this
    exact ⟨by dsimp only; linarith, by dsimp only; linarith⟩
  · rw [if_neg hsub]
    change (c.whole_ms step : ℚ) ≤ _ at hle
    change _ < (c.whole_ms step : ℚ) + 1 at hlt
    exact ⟨by dsimp only; linarith, by dsimp only; linarith⟩

/-- What a step returns, without the bias. -/
def MillisecondSteps.unbiased (c : MillisecondSteps) (step : ℚ) : ℚ :=
  if c.whole_ms step < 1 then (c.apply step).1 else (c.apply step).1 - kBias

/-- A whole step is returned or carried; a smaller one is returned and carried. -/
theorem MillisecondSteps.apply_balance (step : ℚ) :
    c.unbiased step + ((c.apply step).2.carry_ - c.carry_) =
      if c.whole_ms step < 1 then step + step else step := by
  rw [unbiased, apply]
  by_cases hsub : c.whole_ms step < 1
  · rw [if_pos hsub, if_pos hsub, if_pos hsub]
    ring
  · rw [if_neg hsub, if_neg hsub, if_neg hsub]
    ring

end Milliseconds

/-! ### Where the time goes -/

/-- Both settings on. -/
def kSmoothMilliseconds : Settings := ⟨true, true⟩

/-- A timer, with the totals of what was measured, what was returned (leaving the bias out) and what
hitches dropped. -/
structure Account where
  timer : Timer := {}
  (measured returned dropped : ℚ := 0)

/-- The step that the smoother hands to the second stage. -/
def Timer.smoothed (t : Timer) (raw : ℚ) : ℚ := (t.smoother.apply raw).1

/-- One tick. -/
def Account.tick (a : Account) (raw : ℚ) : Account where
  timer := (a.timer.tick kSmoothMilliseconds raw).2
  measured := a.measured + raw
  returned := a.returned + a.timer.millisecond_steps.unbiased (a.timer.smoothed raw)
  dropped := a.dropped + a.timer.smoother.dropped raw

/-- All measured time was returned or dropped, or is owed or carried, and less than a millisecond
is carried. -/
def Account.Conserved (a : Account) : Prop :=
  a.measured = a.returned + a.timer.smoother.debt_ + a.timer.millisecond_steps.carry_ + a.dropped ∧
  a.timer.millisecond_steps.Small

/-- After every step of a run. -/
def Account.Conserves (a : Account) : List ℚ → Prop
  | [] => True
  | raw :: raws => (a.tick raw).Conserved ∧ (a.tick raw).Conserves raws

/-- The smoothed step and the carry make a millisecond. -/
def Timer.Whole (t : Timer) (raw : ℚ) : Prop := 1 ≤ t.millisecond_steps.whole_ms (t.smoothed raw)

/-- At every step of a run. -/
def Account.Wholes (a : Account) : List ℚ → Prop
  | [] => True
  | raw :: raws => a.timer.Whole raw ∧ (a.tick raw).Wholes raws

section Accounts
variable {a : Account} {raw : ℚ} {raws : List ℚ}

theorem Timer.tick_smoother (t : Timer) :
    (t.tick kSmoothMilliseconds raw).2.smoother = (t.smoother.apply raw).2 := rfl

theorem Timer.tick_millisecond_steps (t : Timer) :
    (t.tick kSmoothMilliseconds raw).2.millisecond_steps =
      (t.millisecond_steps.apply (t.smoothed raw)).2 := rfl

/-- A step conserves time when it is whole, and only then. -/
theorem Account.tick_conserved (h : a.Conserved) (hpos : a.timer.smoother.Positive)
    (hraw : 0 < raw) : (a.tick raw).Conserved ↔ a.timer.Whole raw := by
  obtain ⟨hbalance, hsmall⟩ := h
  have hstep : 0 < a.timer.smoothed raw := (hpos.apply_pos hraw).1
  have hsmooth := StepSmoother.apply_conserves (s := a.timer.smoother) hraw
  have hcut := a.timer.millisecond_steps.apply_balance (a.timer.smoothed raw)
  have hsmall' : (a.tick raw).timer.millisecond_steps.Small := hsmall.apply hstep
  unfold Conserved
  rw [and_iff_left hsmall']
  simp only [Account.tick, Timer.tick_smoother, Timer.tick_millisecond_steps, Timer.Whole]
  change raw = a.timer.smoothed raw + _ + _ at hsmooth
  by_cases hwhole : a.timer.millisecond_steps.whole_ms (a.timer.smoothed raw) < 1
  · -- the step is counted twice
    rw [if_pos hwhole] at hcut
    refine iff_of_false (fun heq => ?_) (not_le.mpr hwhole)
    linarith
  · rw [if_neg hwhole] at hcut
    refine iff_of_true ?_ (not_lt.mp hwhole)
    linarith

theorem Account.conserves_iff_wholes (h : a.Conserved) (hpos : a.timer.smoother.Positive)
    (hraws : ∀ raw ∈ raws, 0 < raw) : a.Conserves raws ↔ a.Wholes raws := by
  induction raws generalizing a with
  | nil => exact Iff.rfl
  | cons raw raws ih =>
    obtain ⟨hraw, hrest⟩ := forall_mem_cons.mp hraws
    have hstep := a.tick_conserved h hpos hraw
    by_cases hwhole : a.timer.Whole raw
    · have hnext := hstep.mpr hwhole
      exact and_congr (iff_of_true hnext hwhole) (ih hnext (hpos.apply_pos hraw).2 hrest)
    · exact iff_of_false (fun hall => hwhole (hstep.mp hall.1)) fun hall => hwhole hall.1

end Accounts

/-- **Time is conserved exactly while every step, with the carry, makes a whole millisecond.** -/
theorem conserves_iff (raws : List ℚ) (hraws : ∀ raw ∈ raws, 0 < raw) :
    Account.Conserves {} raws ↔ Account.Wholes {} raws := by
  refine Account.conserves_iff_wholes ⟨?_, ?_, ?_⟩ (fun h => absurd h Bool.false_ne_true) hraws
  · norm_num
  · exact le_rfl
  · norm_num

theorem conserves_iff_sixtieth : Account.Conserves {} [1 / 60, 1 / 60] := by
  refine (conserves_iff [1 / 60, 1 / 60] (by norm_num)).mpr ⟨?_, ?_, trivial⟩
  · norm_num [Timer.Whole, Timer.smoothed, StepSmoother.apply, StepSmoother.averaged,
      StepSmoother.dropped, MillisecondSteps.whole_ms, kHitchSeconds, kAverageWeight,
      kSmoothMilliseconds, kRepayment, kHold, clamp]
  · norm_num [Timer.Whole, Account.tick, Timer.tick, Timer.smoothed, StepSmoother.apply,
      StepSmoother.averaged, StepSmoother.dropped, MillisecondSteps.unbiased,
      MillisecondSteps.apply, MillisecondSteps.whole_ms, kHitchSeconds, kAverageWeight,
      kSmoothMilliseconds, kRepayment, kHold, clamp]

/-- A first step of half a millisecond is returned and carried. -/
theorem half_millisecond_twice :
    (∀ raw ∈ [(1 / 2000 : ℚ)], 0 < raw) ∧ ¬ Account.Conserves {} [1 / 2000] := by
  refine ⟨by norm_num, fun h => ?_⟩
  have hbalance := h.1.1
  norm_num [Account.tick, Timer.smoothed, StepSmoother.apply, StepSmoother.averaged,
    StepSmoother.dropped, MillisecondSteps.unbiased, MillisecondSteps.apply,
    MillisecondSteps.whole_ms, Timer.tick, kSmoothMilliseconds, kHitchSeconds, kAverageWeight,
    kRepayment, kHold, clamp] at hbalance

/-! ### Steps in a band -/

/-- What the steps leave. -/
def StepSmoother.after (s : StepSmoother) : List ℚ → StepSmoother
  | [] => s
  | raw :: raws => (s.apply raw).2.after raws

/-- The applied steps. -/
def StepSmoother.applied (s : StepSmoother) : List ℚ → List ℚ
  | [] => []
  | raw :: raws => (s.apply raw).1 :: (s.apply raw).2.applied raws

section Band
variable {s : StepSmoother} {raw low high : ℚ} {raws : List ℚ}

/-- The average is in the band, and the debt is what moving the average from one of its ends to
where it is leaves to repay. -/
structure StepSmoother.Steady (s : StepSmoother) (low high : ℚ) : Prop where
  has_average : s.has_average_ = true
  low_le : low ≤ s.average_
  le_high : s.average_ ≤ high
  debt_ge : 19 * (s.average_ - high) ≤ s.debt_
  debt_le : s.debt_ ≤ 19 * (s.average_ - low)

/-- A step without a hitch. -/
theorem StepSmoother.apply_of_le (hraw : 0 < raw) (hhitch : raw ≤ kHitchSeconds) :
    s.apply raw = (clamp (s.averaged raw + kRepayment * s.debt_) ((1 - kHold) * s.averaged raw)
        ((1 + kHold) * s.averaged raw),
      ⟨true, s.averaged raw, s.debt_ + (raw - clamp (s.averaged raw + kRepayment * s.debt_)
        ((1 - kHold) * s.averaged raw) ((1 + kHold) * s.averaged raw))⟩) := by
  rw [apply, if_neg (not_not.mpr hraw), if_neg (not_lt.mpr hhitch)]

/-- The first step is applied as it is. -/
theorem steady_first (hlow : 0 < low) (hhigh : high ≤ kHitchSeconds) (hraw : low ≤ raw)
    (hraw' : raw ≤ high) : (StepSmoother.apply {} raw).2.Steady low high := by
  have hpos : 0 < raw := hlow.trans_le hraw
  have haverage : StepSmoother.averaged {} raw = raw := if_neg Bool.false_ne_true
  have happlied : clamp (raw + kRepayment * 0) ((1 - kHold) * raw) ((1 + kHold) * raw) = raw := by
    rw [clamp, kHold, if_neg (by linarith), if_neg (by linarith)]
    ring
  rw [StepSmoother.apply_of_le hpos (hraw'.trans hhigh), haverage, happlied]
  exact ⟨rfl, hraw, hraw', by dsimp only; linarith, by dsimp only; linarith⟩

/-- Repaying, on either side of the hold or between, keeps the debt in its bounds. -/
theorem StepSmoother.Steady.apply (h : s.Steady low high) (hlow : 0 < low)
    (hhigh : high ≤ kHitchSeconds) (hraw : low ≤ raw) (hraw' : raw ≤ high) :
    (s.apply raw).2.Steady low high := by
  obtain ⟨havg, hmin, hmax, hge, hle⟩ := h
  rw [StepSmoother.apply_of_le (hlow.trans_le hraw) (hraw'.trans hhigh)]
  have haverage : s.averaged raw = s.average_ + kAverageWeight * (raw - s.average_) := if_pos havg
  rw [kAverageWeight] at haverage
  generalize s.averaged raw = average at *
  have hmin' : low ≤ average := by linarith
  have hmax' : average ≤ high := by linarith
  have hmoved : raw - average = 19 * (average - s.average_) := by linarith
  refine ⟨rfl, hmin', hmax', ?_, ?_⟩
  all_goals
    dsimp only
    rw [clamp, kRepayment, kHold]
    by_cases hbelow : average + 2 / 100 * s.debt_ < (1 - 10 / 100) * average
  -- held from below, the debt is negative past a tenth of the average, so it cannot rise over zero
  · rw [if_pos hbelow]
    linarith
  · rw [if_neg hbelow]
    split_ifs <;> linarith
  · rw [if_pos hbelow]
    linarith
  -- held from above, it is positive past that, and cannot fall under zero
  · rw [if_neg hbelow]
    split_ifs <;> linarith

theorem StepSmoother.Steady.after (h : s.Steady low high) (hlow : 0 < low)
    (hhigh : high ≤ kHitchSeconds) (hraws : ∀ raw ∈ raws, low ≤ raw ∧ raw ≤ high) :
    (s.after raws).Steady low high := by
  induction raws generalizing s with
  | nil => exact h
  | cons raw raws ih =>
    obtain ⟨hraw, hrest⟩ := forall_mem_cons.mp hraws
    exact ih (h.apply hlow hhigh hraw.1 hraw.2) hrest

/-- The debt is the time that was measured and not applied. -/
theorem StepSmoother.debt_after (hlow : 0 < low) (hhigh : high ≤ kHitchSeconds)
    (hraws : ∀ raw ∈ raws, low ≤ raw ∧ raw ≤ high) :
    (s.after raws).debt_ = s.debt_ + (raws.sum - (s.applied raws).sum) := by
  induction raws generalizing s with
  | nil => simp [after, applied]
  | cons raw raws ih =>
    obtain ⟨hraw, hrest⟩ := forall_mem_cons.mp hraws
    have hstep := apply_conserves (s := s) (hlow.trans_le hraw.1)
    rw [dropped, if_neg (not_lt.mpr (hraw.2.trans hhigh))] at hstep
    rw [after, applied, ih hrest, sum_cons, sum_cons]
    linarith

/-- The applied step is held at the average that the step leaves. -/
theorem StepSmoother.applied_near (hlow : 0 < low) (h : (s.apply raw).2.Steady low high)
    (hraw : 0 < raw) (hhitch : raw ≤ kHitchSeconds) :
    |(s.apply raw).1 - (s.apply raw).2.average_| ≤ 10 / 100 * (s.apply raw).2.average_ := by
  have hpos : 0 < (s.apply raw).2.average_ := hlow.trans_le h.low_le
  rw [StepSmoother.apply_of_le hraw hhitch] at hpos ⊢
  dsimp only at hpos ⊢
  have hhold : (1 - kHold) * s.averaged raw ≤ (1 + kHold) * s.averaged raw := by
    rw [kHold]
    linarith
  obtain ⟨hmin, hmax⟩ := clamp_mem (v := s.averaged raw + kRepayment * s.debt_) hhold
  rw [kHold] at hmin hmax
  rw [abs_le, kHold]
  exact ⟨by linarith, by linarith⟩

theorem StepSmoother.after_concat : s.after (raws ++ [raw]) = ((s.after raws).apply raw).2 := by
  induction raws generalizing s with
  | nil => rfl
  | cons r raws ih => exact ih

/-- From a reset smoother, after any steps at all. -/
theorem steady_after (hlow : 0 < low) (hhigh : high ≤ kHitchSeconds)
    (hraws : ∀ r ∈ raw :: raws, low ≤ r ∧ r ≤ high) :
    (StepSmoother.after {} (raw :: raws)).Steady low high := by
  obtain ⟨hraw, hrest⟩ := forall_mem_cons.mp hraws
  exact (steady_first hlow hhigh hraw.1 hraw.2).after hlow hhigh hrest

end Band

/-- **The smoother does not drift.**  On steps in a band under the hitch, after every step of a run
from a reset smoother the average is in the band, the step is near it, and what was applied differs
from what was measured by no more than 19 widths of the band. -/
theorem smoother_steady (low high : ℚ) (hlow : 0 < low) (hhigh : high ≤ 1 / 10) (raws : List ℚ)
    (raw : ℚ) (hraws : ∀ r ∈ raws ++ [raw], low ≤ r ∧ r ≤ high) :
    let s := StepSmoother.after {} raws
    let average := (s.apply raw).2.average_
    low ≤ average ∧ average ≤ high ∧ |(s.apply raw).1 - average| ≤ 10 / 100 * average ∧
      |(StepSmoother.applied {} (raws ++ [raw])).sum - (raws ++ [raw]).sum| ≤
        19 * (high - low) := by
  intro s average
  have hhitch : high ≤ kHitchSeconds := hhigh
  have hsteady : (s.apply raw).2.Steady low high := by
    rw [← StepSmoother.after_concat]
    rcases raws with _ | ⟨r, raws⟩
    · exact steady_after hlow hhitch hraws
    · exact steady_after hlow hhitch hraws
  have hraw := hraws raw (mem_append_right _ mem_cons_self)
  have hnear := StepSmoother.applied_near hlow hsteady (hlow.trans_le hraw.1)
    (hraw.2.trans hhitch)
  have hdebt := StepSmoother.debt_after (s := {}) hlow hhitch hraws
  rw [StepSmoother.after_concat, zero_add] at hdebt
  obtain ⟨-, hmin, hmax, hge, hle⟩ := hsteady
  refine ⟨hmin, hmax, hnear, ?_⟩
  rw [abs_sub_comm, ← hdebt, abs_le]
  exact ⟨by linarith, by linarith⟩

/-- Updates of two and of three vblanks. -/
theorem smoother_steady_vblanks :
    |(StepSmoother.applied {} ([1 / 30, 1 / 20] ++ [1 / 30])).sum -
        ([1 / 30, 1 / 20] ++ [1 / 30] : List ℚ).sum| ≤ 19 * (1 / 20 - 1 / 30) :=
  (smoother_steady (1 / 30) (1 / 20) (by norm_num) (by norm_num) [1 / 30, 1 / 20] (1 / 30)
    (by norm_num)).2.2.2

end Mcla.RawTimer

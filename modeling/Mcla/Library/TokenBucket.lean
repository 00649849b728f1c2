import Mathlib

/-! # Token buckets

A bucket holds a bounded number of tokens and gains one for each whole period, and what is left of a
period counts on.  Its credit, the tokens and the time since in one unit, never grows but by the
time that passes, and every token that is taken costs a period: this bounds how many can be taken in
a time.
-/
namespace TokenBucket

/-- The tokens, and the time of the last refill. -/
structure Bucket where
  (tokens last : Nat)
deriving DecidableEq

namespace Bucket
variable {burst period now : Nat} {b : Bucket}

/-- The tokens that have come since. -/
def refill (burst period now : Nat) (b : Bucket) : Bucket :=
  if b.last < now then
    if (now - b.last) / period = 0 then b
    else ⟨min burst (b.tokens + (now - b.last) / period), b.last + (now - b.last) / period * period⟩
  else b

/-- One token less. -/
def take (b : Bucket) : Bucket := { b with tokens := b.tokens - 1 }

/-- The tokens and the time since, in the unit of time. -/
def credit (period now : Nat) (b : Bucket) : Nat := b.tokens * period + (now - b.last)

/-- A bucket that may be used at a time. -/
structure Fits (burst now : Nat) (b : Bucket) : Prop where
  tokens : b.tokens ≤ burst
  last : b.last ≤ now

theorem Fits.mono {later : Nat} (h : b.Fits burst now) (hle : now ≤ later) : b.Fits burst later :=
  ⟨h.tokens, h.last.trans hle⟩

theorem Fits.take (h : b.Fits burst now) : b.take.Fits burst now :=
  ⟨(Nat.sub_le _ _).trans h.tokens, h.last⟩

theorem Fits.refill (h : b.Fits burst now) : (b.refill burst period now).Fits burst now := by
  unfold Bucket.refill
  by_cases hlt : b.last < now
  · rw [if_pos hlt]
    by_cases hzero : (now - b.last) / period = 0
    · rw [if_pos hzero]
      exact h
    · rw [if_neg hzero]
      refine ⟨Nat.min_le_left _ _, ?_⟩
      have := Nat.div_mul_le_self (now - b.last) period
      dsimp only
      omega
  · rw [if_neg hlt]
    exact h

theorem credit_refill_le : (b.refill burst period now).credit period now ≤ b.credit period now := by
  unfold Bucket.refill
  by_cases hlt : b.last < now
  · rw [if_pos hlt]
    by_cases hzero : (now - b.last) / period = 0
    · rw [if_pos hzero]
    · rw [if_neg hzero]
      have hdiv := Nat.div_mul_le_self (now - b.last) period
      have htokens : min burst (b.tokens + (now - b.last) / period) * period ≤
          b.tokens * period + (now - b.last) / period * period := by
        rw [← Nat.add_mul]
        exact Nat.mul_le_mul_right period (Nat.min_le_right _ _)
      unfold credit
      dsimp only
      omega
  · rw [if_neg hlt]

/-- After a refill less than a period is left. -/
theorem rest_lt (hperiod : 0 < period) (h : b.last ≤ now) :
    now - (b.refill burst period now).last < period := by
  unfold Bucket.refill
  by_cases hlt : b.last < now
  · rw [if_pos hlt]
    by_cases hzero : (now - b.last) / period = 0
    · rw [if_pos hzero]
      exact (Nat.div_eq_zero_iff_lt hperiod).mp hzero
    · rw [if_neg hzero]
      have hmod := Nat.mod_lt (now - b.last) hperiod
      have := Nat.div_add_mod' (now - b.last) period
      dsimp only
      omega
  · rw [if_neg hlt]
    omega

theorem credit_refill_lt (hperiod : 0 < period) (h : b.Fits burst now) :
    (b.refill burst period now).credit period now < (burst + 1) * period := by
  have hrest : now - (b.refill burst period now).last < period := rest_lt hperiod h.last
  have hfits : (b.refill burst period now).Fits burst now := h.refill
  have htokens := Nat.mul_le_mul_right period hfits.tokens
  rw [Nat.add_mul, Nat.one_mul, credit]
  omega

/-- A token costs a period. -/
theorem credit_take (h : b.tokens ≠ 0) : b.take.credit period now + period = b.credit period now := by
  obtain ⟨n, hn⟩ := Nat.exists_eq_succ_of_ne_zero h
  have htake : b.take.tokens = n := by
    rw [take, hn]
    rfl
  have hlast : b.take.last = b.last := rfl
  rw [credit, credit, htake, hlast, hn, Nat.succ_mul]
  omega

/-- Time that passes is credit. -/
theorem credit_later {later : Nat} (h : b.last ≤ now) (hle : now ≤ later) :
    b.credit period later = b.credit period now + (later - now) := by
  unfold credit
  omega

end Bucket

end TokenBucket

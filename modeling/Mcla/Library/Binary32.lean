import Mathlib

/-! # The order of single-precision numbers

The comparison of IEEE 754 on the bits of a number: the sign, and the other bits as its magnitude,
so that both zeros are equal.  A NaN is not less than any number, nor greater.
-/
namespace Binary32

/-- The bits below the sign. -/
def magnitude (bits : UInt32) : Nat := bits.toNat % 2 ^ 31

/-- All exponent bits are set, and another one. -/
def isNan (bits : UInt32) : Bool := 0x7F800000 < magnitude bits

/-- The order of the numbers, as integers. -/
def key (bits : UInt32) : Int := if bits.toNat < 2 ^ 31 then magnitude bits else -magnitude bits

/-- The comparison `a < b`. -/
def lt (a b : UInt32) : Bool := !isNan a && !isNan b && key a < key b

variable {a b c : UInt32}

theorem lt_iff : lt a b = true ↔ isNan a = false ∧ isNan b = false ∧ key a < key b := by
  rw [lt, Bool.and_eq_true, Bool.and_eq_true, Bool.not_eq_true', Bool.not_eq_true',
    decide_eq_true_iff, and_assoc]

theorem not_lt_iff (ha : isNan a = false) (hb : isNan b = false) :
    lt a b = false ↔ key b ≤ key a := by
  rw [← Bool.not_eq_true, lt_iff, and_iff_right ha, and_iff_right hb, not_lt]

theorem not_lt_self (a : UInt32) : lt a a = false := by
  rw [← Bool.not_eq_true, lt_iff]
  exact fun h => lt_irrefl _ h.2.2

/-- What is not above a number is not above a greater one. -/
theorem not_lt_of_lt (hc : isNan c = false) (hab : lt a b = true) (hac : lt a c = false) :
    lt b c = false := by
  obtain ⟨ha, hb, hlt⟩ := lt_iff.mp hab
  rw [not_lt_iff ha hc] at hac
  rw [not_lt_iff hb hc]
  exact hac.trans hlt.le

end Binary32

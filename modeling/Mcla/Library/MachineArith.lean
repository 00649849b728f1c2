import Mathlib.Data.Nat.Basic
import Mathlib.Tactic.Ring

/-! # Unsigned machine arithmetic, three ways

A computation written over an `Arith` can be run in wrapping arithmetic, as the
machine does; in checked arithmetic, which fails when an operation wraps; and in
exact arithmetic on the natural numbers.  The first two agree with the third as
long as no operation leaves the word (`Faithful`), so a computation that is the
same over every faithful arithmetic is one in which no operation wraps.
-/
namespace MachineArith

/-- The operations of an arithmetic, each with its effect. -/
structure Arith (m : Type → Type) where
  (add sub mul : Nat → Nat → m Nat)

variable (w : Nat)

/-- Arithmetic of `w`-bit words, which wraps. -/
def wrapping : Arith Id where
  add a b := (a + b) % 2 ^ w
  sub a b := (a + (2 ^ w - b % 2 ^ w)) % 2 ^ w
  mul a b := (a * b) % 2 ^ w

/-- Arithmetic of `w`-bit words that fails where it would wrap. -/
def checked : Arith Option where
  add a b := if a + b < 2 ^ w then some (a + b) else none
  sub a b := if b ≤ a then some (a - b) else none
  mul a b := if a * b < 2 ^ w then some (a * b) else none

/-- Arithmetic of the natural numbers. -/
def exact : Arith Id where
  add a b := a + b
  sub a b := a - b
  mul a b := a * b

/-- Exact on operations that stay in the word. -/
structure Faithful {m : Type → Type} [Monad m] (w : Nat) (A : Arith m) : Prop where
  add : ∀ {a b}, a + b < 2 ^ w → A.add a b = pure (a + b)
  sub : ∀ {a b}, b ≤ a → a < 2 ^ w → A.sub a b = pure (a - b)
  mul : ∀ {a b}, a * b < 2 ^ w → A.mul a b = pure (a * b)

theorem exact_faithful : Faithful w exact where
  add _ := rfl
  sub _ _ := rfl
  mul _ := rfl

theorem wrapping_faithful : Faithful w (wrapping w) where
  add h := Nat.mod_eq_of_lt h
  sub {a b} h ha := by
    have hb : b % 2 ^ w = b := Nat.mod_eq_of_lt (Nat.lt_of_le_of_lt h ha)
    have hsum : a + (2 ^ w - b) = a - b + 2 ^ w := by omega
    have hlt : a - b < 2 ^ w := by omega
    show (a + (2 ^ w - b % 2 ^ w)) % 2 ^ w = a - b
    rw [hb, hsum, Nat.add_mod_right, Nat.mod_eq_of_lt hlt]
  mul h := Nat.mod_eq_of_lt h

theorem checked_faithful : Faithful w (checked w) where
  add h := if_pos h
  sub h _ := if_pos h
  mul h := if_pos h

/-! ### Signed words -/

/-- The operations on signed words, each with its effect. -/
structure SignedArith (m : Type → Type) where
  sub : Int → Int → m Int

/-- Signed arithmetic of `w` bits, in two's complement. -/
def signedWrapping : SignedArith Id where
  sub a b := (a - b).bmod (2 ^ w)

/-- Signed arithmetic of `w` bits that fails where it would leave the word. -/
def signedChecked : SignedArith Option where
  sub a b := if -(2 ^ (w - 1)) ≤ a - b ∧ a - b < 2 ^ (w - 1) then some (a - b) else none

/-- Exact on operations that stay in the word. -/
structure SignedFaithful {m : Type → Type} [Monad m] (w : Nat) (S : SignedArith m) : Prop where
  sub : ∀ {a b : Int}, -(2 ^ (w - 1)) ≤ a - b → a - b < 2 ^ (w - 1) → S.sub a b = pure (a - b)

theorem signedWrapping_faithful {w : Nat} (hw : 0 < w) : SignedFaithful w (signedWrapping w) where
  sub {a b} hlow hhigh := by
    have hpow : (2 : Int) ^ w = 2 * 2 ^ (w - 1) := by
      rw [← pow_succ', Nat.sub_add_cancel hw]
    refine Int.bmod_eq_of_le ?_ ?_
    · push_cast
      omega
    · push_cast
      omega

theorem signedChecked_faithful : SignedFaithful w (signedChecked w) where
  sub hlow hhigh := if_pos ⟨hlow, hhigh⟩

/-- The unsigned word of a signed one. -/
def toUnsigned (a : Int) : Nat := (a % 2 ^ w).toNat

theorem toUnsigned_of_nonneg {w : Nat} {a : Int} (h : 0 ≤ a) (hlt : a < 2 ^ w) :
    toUnsigned w a = a.toNat := by
  unfold toUnsigned
  rw [Int.emod_eq_of_lt h hlt]

end MachineArith

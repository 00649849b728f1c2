import Mathlib

/-! # Reflected checksums

A register of `w` bits takes in a message bit by bit, the least significant bit of each byte first:
the bit is added to the lowest bit of the register, the register is shifted down by one, and if a
one falls out the generator is added.  The shift is linear (`shift_xor`), so that `n` bits can be
taken in at once (`foldl_feed`), and what they do depends on the `n` lowest bits alone, but for a
plain shift (`shift_iterate_split`): the rule that a table is built by.  Where the generator has
the highest bit, nothing is lost, and a burst shows (`foldl_feed_burst`).
-/
namespace ReflectedCrc
open BitVec List

variable {w : Nat} (generator : BitVec w)

/-- The register shifted down by one bit. -/
def shift (c : BitVec w) : BitVec w := if c.getLsbD 0 then generator ^^^ (c >>> 1) else c >>> 1

/-- One bit of the message. -/
def feed (c : BitVec w) (bit : Bool) : BitVec w :=
  shift generator (c ^^^ (BitVec.ofBool bit).setWidth w)

/-- The bits of a word, the least significant first. -/
def bitsOf {n : Nat} (b : BitVec n) : List Bool := (List.range n).map b.getLsbD

theorem shift_xor (a b : BitVec w) :
    shift generator (a ^^^ b) = shift generator a ^^^ shift generator b := by
  unfold shift
  rw [getLsbD_xor, ushiftRight_xor_distrib]
  cases a.getLsbD 0 with
  | false =>
    cases b.getLsbD 0 with
    | false => rfl
    | true =>
      change generator ^^^ (a >>> 1 ^^^ b >>> 1) = a >>> 1 ^^^ (generator ^^^ b >>> 1)
      ac_rfl
  | true =>
    cases b.getLsbD 0 with
    | false => exact (BitVec.xor_assoc _ _ _).symm
    | true =>
      -- the generator is added twice
      change a >>> 1 ^^^ b >>> 1 = generator ^^^ a >>> 1 ^^^ (generator ^^^ b >>> 1)
      have hswap : generator ^^^ a >>> 1 ^^^ (generator ^^^ b >>> 1) =
          generator ^^^ generator ^^^ (a >>> 1 ^^^ b >>> 1) := by
        ac_rfl
      rw [hswap, BitVec.xor_self, BitVec.zero_xor]

theorem shift_iterate_xor (n : Nat) (a b : BitVec w) :
    (shift generator)^[n] (a ^^^ b) = (shift generator)^[n] a ^^^ (shift generator)^[n] b := by
  induction n with
  | zero => rfl
  | succ n ih => simp only [Function.iterate_succ_apply', ih, shift_xor]

/-- Where no one falls out, the register is only shifted. -/
theorem shift_iterate_of_low {n : Nat} {c : BitVec w} (h : ∀ i, i < n → c.getLsbD i = false) :
    (shift generator)^[n] c = c >>> n := by
  induction n with
  | zero => exact (ushiftRight_zero c).symm
  | succ n ih =>
    have hlow : (c >>> n).getLsbD 0 = false := by
      rw [getLsbD_ushiftRight]
      exact h n (Nat.lt_succ_self n)
    rw [Function.iterate_succ_apply', ih fun i hi => h i (Nat.lt_succ_of_lt hi), shift, hlow,
      if_neg Bool.false_ne_true, ← shiftRight_add]

/-- The lowest bits of a word. -/
def low (n : Nat) (c : BitVec w) : BitVec w := (c.setWidth n).setWidth w

theorem getLsbD_low (n : Nat) (c : BitVec w) (i : Nat) :
    (low n c).getLsbD i = (decide (i < n) && c.getLsbD i) := by
  rw [low, getLsbD_setWidth, getLsbD_setWidth]
  by_cases hw : i < w
  · rw [decide_eq_true hw, Bool.true_and]
  · rw [getLsbD_of_ge c i (not_lt.mp hw), Bool.and_false, Bool.and_false]

theorem low_xor_high (n : Nat) (c : BitVec w) : ∀ i, i < n → (low n c ^^^ c).getLsbD i = false := by
  intro i hi
  rw [getLsbD_xor, getLsbD_low, decide_eq_true hi, Bool.true_and, Bool.xor_self]

/-- **The rule of the table**: `n` shifts are those of the `n` lowest bits, and a plain shift. -/
theorem shift_iterate_split (n : Nat) (c : BitVec w) :
    (shift generator)^[n] c = (shift generator)^[n] (low n c) ^^^ (c >>> n) := by
  have hsplit : c = low n c ^^^ (low n c ^^^ c) := by
    rw [← BitVec.xor_assoc, BitVec.xor_self, BitVec.zero_xor]
  have hhigh : (low n c ^^^ c) >>> n = c >>> n := by
    apply BitVec.eq_of_getLsbD_eq
    intro i _
    rw [getLsbD_ushiftRight, getLsbD_ushiftRight, getLsbD_xor, getLsbD_low,
      decide_eq_false (by omega), Bool.false_and, Bool.false_xor]
  calc (shift generator)^[n] c
      = (shift generator)^[n] (low n c ^^^ (low n c ^^^ c)) := by rw [← hsplit]
    _ = (shift generator)^[n] (low n c) ^^^ ((low n c ^^^ c) >>> n) := by
        rw [shift_iterate_xor, shift_iterate_of_low generator (low_xor_high n c)]
    _ = (shift generator)^[n] (low n c) ^^^ (c >>> n) := by rw [hhigh]

/-- One more bit. -/
theorem low_succ {n : Nat} (hn : n < w) (c : BitVec w) :
    low (n + 1) c = low n c ^^^ (if c.getLsbD n then twoPow w n else 0#w) := by
  apply BitVec.eq_of_getLsbD_eq
  intro i hi
  have hbit : (if c.getLsbD n then twoPow w n else 0#w).getLsbD i =
      (decide (i = n) && c.getLsbD i) := by
    by_cases hin : i = n
    · subst hin
      cases hc : c.getLsbD i with
      | false => simp
      | true => simp [hi]
    · rw [decide_eq_false hin, Bool.false_and]
      cases c.getLsbD n with
      | false => simp
      | true => simp [getLsbD_twoPow, Ne.symm hin]
  rw [getLsbD_xor, getLsbD_low, getLsbD_low, hbit]
  by_cases hin : i = n
  · subst hin
    simp
  · have hiff : i < n + 1 ↔ i < n := by omega
    simp [hin, hiff]

/-- **The bits of a word are taken in at once.** -/
theorem foldl_feed {n : Nat} (hn : n ≤ w) (c : BitVec w) (b : BitVec n) :
    (bitsOf b).foldl (feed generator) c = (shift generator)^[n] (c ^^^ b.setWidth w) := by
  have hbits : ∀ k, k ≤ n → ((List.range k).map b.getLsbD).foldl (feed generator) c =
      (shift generator)^[k] (c ^^^ low k (b.setWidth w)) := by
    intro k hk
    induction k with
    | zero =>
      have hzero : low 0 (b.setWidth w) = 0#w := by
        apply BitVec.eq_of_getLsbD_eq
        intro i _
        rw [getLsbD_low, decide_eq_false (Nat.not_lt_zero i), Bool.false_and, getLsbD_zero]
      rw [hzero, BitVec.xor_zero]
      rfl
    | succ k ih =>
      have hkw : k < w := by omega
      have hbit : (b.setWidth w).getLsbD k = b.getLsbD k := by
        rw [getLsbD_setWidth, decide_eq_true hkw, Bool.true_and]
      -- the new bit is at its place, from where the shifts bring it to the lowest one
      have hplace : (shift generator)^[k] (if b.getLsbD k then twoPow w k else 0#w) =
          (BitVec.ofBool (b.getLsbD k)).setWidth w := by
        rw [shift_iterate_of_low]
        · apply BitVec.eq_of_getLsbD_eq
          intro i hi
          cases b.getLsbD k with
          | false => simp
          | true => simp [hkw]; omega
        · intro i hi
          cases b.getLsbD k with
          | false => simp
          | true => simp [getLsbD_twoPow]; omega
      rw [range_succ, map_append, foldl_append, ih (Nat.le_of_succ_le hk),
        low_succ hkw, hbit, ← BitVec.xor_assoc, Function.iterate_succ_apply',
        shift_iterate_xor generator k (c ^^^ _), hplace]
      rfl
  have hall : low n (b.setWidth w) = b.setWidth w := by
    apply BitVec.eq_of_getLsbD_eq
    intro i _
    rw [getLsbD_low, getLsbD_setWidth]
    by_cases hin : i < n
    · rw [decide_eq_true hin, Bool.true_and]
    · rw [getLsbD_of_ge b i (not_lt.mp hin), Bool.and_false, Bool.and_false]
  rw [bitsOf, hbits n le_rfl, hall]

/-! ### Bursts -/

theorem exists_bitsOf {n : Nat} {l : List Bool} (h : l.length = n) : ∃ b : BitVec n, bitsOf b = l := by
  subst h
  refine ⟨ofBoolListLE l, ext_getElem (by simp [bitsOf]) fun i hi hi' => ?_⟩
  simp [bitsOf, -getLsbD_eq_getElem, hi']

variable {generator} (hgenerator : generator.msb = true)
include hgenerator

/-- The highest bit of the register tells whether a one fell out. -/
theorem shift_injective : Function.Injective (shift generator) := by
  intro a b hab
  rw [← BitVec.xor_eq_zero_iff, ← shift_xor] at hab
  rw [← BitVec.xor_eq_zero_iff]
  generalize a ^^^ b = c at hab ⊢
  unfold shift at hab
  split at hab
  · have htop := congrArg BitVec.msb hab
    simp [hgenerator, msb_ushiftRight] at htop
  · rename_i hlow
    apply BitVec.eq_of_getLsbD_eq
    intro i _
    cases i with
    | zero => simpa using hlow
    | succ i =>
      have hbit := congrArg (·.getLsbD i) hab
      simpa [Nat.add_comm] using hbit

theorem foldl_feed_injective (l : List Bool) :
    Function.Injective fun c => l.foldl (feed generator) c := by
  intro a b hab
  induction l generalizing a b with
  | nil => exact hab
  | cons bit l ih => exact (xor_left_inj _).mp (shift_injective hgenerator (ih hab))

/-- **A burst shows**: registers agree again only where no more than a register's length of bits was
exchanged for the same bits. -/
theorem foldl_feed_burst {l l' : List Bool} (hlength : l.length = l'.length) (hburst : l.length ≤ w)
    {last : List Bool} {c : BitVec w}
    (h : (l ++ last).foldl (feed generator) c = (l' ++ last).foldl (feed generator) c) : l = l' := by
  rw [foldl_append, foldl_append] at h
  have hregister := foldl_feed_injective hgenerator last h
  generalize hn : l.length = n at hlength hburst
  obtain ⟨b, rfl⟩ := exists_bitsOf hn
  obtain ⟨b', rfl⟩ := exists_bitsOf hlength.symm
  simp only [foldl_feed _ hburst] at hregister
  have hword := (xor_right_inj c).mp ((shift_injective hgenerator).iterate n hregister)
  have hbits := congrArg (BitVec.setWidth n) hword
  rw [setWidth_setWidth_of_le _ hburst, setWidth_setWidth_of_le _ hburst, setWidth_eq,
    setWidth_eq] at hbits
  rw [hbits]

end ReflectedCrc

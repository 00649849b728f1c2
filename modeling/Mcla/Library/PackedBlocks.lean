import Mathlib

/-! # Blocks, bits and big-endian numbers

What stands where in a text put together from blocks of one length, bytes as their bits with the
most significant first, and numbers as big-endian bytes: for each of the three, reading gives back
what was written.
-/
namespace PackedBlocks
open List

/-! ### Blocks -/

section Blocks
variable {α : Type*} {xs ys zs : List α} {blocks : List (List α)} {n i j : Nat}

/-- At offset `i` of `xs` stands `ys`. -/
def At (xs : List α) (i : Nat) (ys : List α) : Prop := ∃ rest, xs.drop i = ys ++ rest

theorem At.take (h : At xs i ys) : (xs.drop i).take ys.length = ys := by
  obtain ⟨rest, h⟩ := h
  rw [h, take_left]

/-- What stands in a part stands in the whole. -/
theorem At.inner (h : At xs i ys) (hinner : At ys j zs) (hj : j ≤ ys.length) :
    At xs (i + j) zs := by
  obtain ⟨rest, h⟩ := h
  obtain ⟨rest', hinner⟩ := hinner
  refine ⟨rest' ++ rest, ?_⟩
  rw [← drop_drop, h, drop_append_of_le_length hj, hinner, append_assoc]

theorem At.head : At (xs ++ ys) 0 xs := ⟨ys, rfl⟩

theorem drop_flatten (h : ∀ block ∈ blocks, block.length = n) (i : Nat) :
    blocks.flatten.drop (i * n) = (blocks.drop i).flatten := by
  induction blocks generalizing i with
  | nil => simp
  | cons block blocks ih =>
    obtain ⟨hblock, hrest⟩ := forall_mem_cons.mp h
    rcases i with _ | i
    · rw [Nat.zero_mul, drop_zero, drop_zero]
    · rw [Nat.succ_mul, Nat.add_comm, flatten_cons, drop_succ_cons, ← drop_drop,
        ← hblock, drop_left, hblock]
      exact ih hrest i

/-- Block `i` stands at `i` times the length of a block. -/
theorem at_block (h : ∀ block ∈ blocks, block.length = n) (hi : i < blocks.length) :
    At blocks.flatten (i * n) blocks[i] := by
  refine ⟨(blocks.drop (i + 1)).flatten, ?_⟩
  rw [drop_flatten h, drop_eq_getElem_cons hi, flatten_cons]

theorem length_flatten_of (h : ∀ block ∈ blocks, block.length = n) :
    blocks.flatten.length = blocks.length * n := by
  rw [length_flatten, map_eq_replicate_iff.mpr h, sum_replicate, smul_eq_mul]

/-- A table read row by row is the whole. -/
theorem flatMap_range_mul {β : Type*} (f : Nat → β) (rows columns : Nat) :
    ((List.range rows).flatMap fun row =>
      (List.range columns).map fun column => f (row * columns + column)) =
      (List.range (rows * columns)).map f := by
  induction rows with
  | zero => simp
  | succ rows ih =>
    rw [range_succ, flatMap_append, ih, Nat.succ_mul, range_add, map_append,
      map_map, flatMap_singleton]
    rfl

end Blocks

/-! ### Bits -/

/-- The bits of a byte, the most significant first. -/
def byteBits (byte : UInt8) : List Bool := [7, 6, 5, 4, 3, 2, 1, 0].map byte.toNat.testBit

/-- The bits of some bytes. -/
def bits (bytes : List UInt8) : List Bool := bytes.flatMap byteBits

def bitValue (bit : Bool) : Nat := if bit then 1 else 0

/-- The bytes of bits, eight at a time. -/
def pack : List Bool → List UInt8
  | b₇ :: b₆ :: b₅ :: b₄ :: b₃ :: b₂ :: b₁ :: b₀ :: rest =>
      .ofNat (bitValue b₇ * 128 + bitValue b₆ * 64 + bitValue b₅ * 32 + bitValue b₄ * 16 +
        bitValue b₃ * 8 + bitValue b₂ * 4 + bitValue b₁ * 2 + bitValue b₀) :: pack rest
  | _ => []

theorem bitValue_testBit (n i : Nat) : bitValue (n.testBit i) = n / 2 ^ i % 2 := by
  rw [bitValue, Nat.testBit_eq_decide_div_mod_eq]
  rcases Nat.mod_two_eq_zero_or_one (n / 2 ^ i) with h | h <;> simp [h]

theorem mod_two_pow_succ (n i : Nat) :
    n % 2 ^ (i + 1) = n % 2 ^ i + 2 ^ i * bitValue (n.testBit i) := by
  rw [Nat.mod_pow_succ, bitValue_testBit]

theorem sum_bits {n : Nat} (h : n < 256) :
    bitValue (n.testBit 7) * 128 + bitValue (n.testBit 6) * 64 + bitValue (n.testBit 5) * 32 +
      bitValue (n.testBit 4) * 16 + bitValue (n.testBit 3) * 8 + bitValue (n.testBit 2) * 4 +
      bitValue (n.testBit 1) * 2 + bitValue (n.testBit 0) = n := by
  have htop : n % 2 ^ 8 = n := Nat.mod_eq_of_lt h
  have h₇ := mod_two_pow_succ n 7
  have h₆ := mod_two_pow_succ n 6
  have h₅ := mod_two_pow_succ n 5
  have h₄ := mod_two_pow_succ n 4
  have h₃ := mod_two_pow_succ n 3
  have h₂ := mod_two_pow_succ n 2
  have h₁ := mod_two_pow_succ n 1
  have h₀ := mod_two_pow_succ n 0
  omega

theorem pack_byteBits (byte : UInt8) (rest : List Bool) :
    pack (byteBits byte ++ rest) = byte :: pack rest := by
  have hpack : pack (byteBits byte ++ rest) = .ofNat _ :: pack rest := rfl
  rw [hpack, sum_bits byte.toNat_lt, UInt8.ofNat_toNat]

theorem pack_bits (bytes : List UInt8) : pack (bits bytes) = bytes := by
  induction bytes with
  | nil => rfl
  | cons byte bytes ih =>
    have hcons : bits (byte :: bytes) = byteBits byte ++ bits bytes := rfl
    rw [hcons, pack_byteBits, ih]

theorem length_bits (bytes : List UInt8) : (bits bytes).length = bytes.length * 8 := by
  induction bytes with
  | nil => rfl
  | cons byte bytes ih =>
    have hcons : bits (byte :: bytes) = byteBits byte ++ bits bytes := rfl
    rw [hcons, length_append, ih, length_cons, Nat.succ_mul, Nat.add_comm]
    rfl

/-! ### Numbers -/

/-- The last `k` bytes of a number, the most significant first. -/
def bigEndian : Nat → Nat → List UInt8
  | 0, _ => []
  | k + 1, n => bigEndian k (n / 256) ++ [.ofNat n]

/-- The number that some bytes spell. -/
def ofBigEndian (bytes : List UInt8) : Nat := bytes.foldl (fun n byte => n * 256 + byte.toNat) 0

theorem length_bigEndian (k n : Nat) : (bigEndian k n).length = k := by
  induction k generalizing n with
  | zero => rfl
  | succ k ih => rw [bigEndian, length_append, ih, length_singleton]

theorem ofBigEndian_bigEndian {k n : Nat} (h : n < 256 ^ k) : ofBigEndian (bigEndian k n) = n := by
  induction k generalizing n with
  | zero => exact (Nat.lt_one_iff.mp h).symm
  | succ k ih =>
    have hdiv : n / 256 < 256 ^ k := Nat.div_lt_of_lt_mul (by rwa [Nat.pow_succ'] at h)
    have hlast : ofBigEndian (bigEndian k (n / 256) ++ [UInt8.ofNat n]) =
        ofBigEndian (bigEndian k (n / 256)) * 256 + (UInt8.ofNat n).toNat := by
      rw [ofBigEndian, foldl_append]
      rfl
    rw [bigEndian, hlast, ih hdiv, UInt8.toNat_ofNat']
    omega

end PackedBlocks

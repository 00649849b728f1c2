import Mathlib

/-! # Byte-addressed memory with 32-bit addresses

A memory maps every 32-bit address to a byte, and addresses wrap.  Words are
read in two ways, as a little-endian host sees them (`word`) and as a big-endian
guest does (`load32`, `load64`).  The rest of the module says which bytes a
store touches: a load sees the last store to its own word and no store to a
disjoint one, stores to disjoint words commute, and two memories that agree off
a region go on agreeing off it under the same stores.
-/
namespace ByteMemory

/-- A 32-bit address. -/
abbrev Addr := BitVec 32

/-- A memory: the byte at every address. -/
abbrev Memory := Addr → BitVec 8

/-! ## Words and their bytes -/

/-- Byte `i` of a word, the least significant first. -/
def byteOf (i : Nat) (v : BitVec 32) : BitVec 8 := v.extractLsb' (8 * i) 8

variable (b₃ b₂ b₁ b₀ : BitVec 8)

/-- The word with the given bytes, the most significant first. -/
def ofBytes : BitVec 32 := b₃ ++ b₂ ++ b₁ ++ b₀

/-- The word with its four bytes in the opposite order. -/
def byteSwap32 (v : BitVec 32) : BitVec 32 :=
  ofBytes (byteOf 0 v) (byteOf 1 v) (byteOf 2 v) (byteOf 3 v)

@[simp] theorem byteOf_zero_ofBytes : byteOf 0 (ofBytes b₃ b₂ b₁ b₀) = b₀ := by
  ext i hi
  simp only [byteOf, ofBytes, BitVec.getElem_extractLsb', BitVec.getLsbD_append]
  grind

@[simp] theorem byteOf_one_ofBytes : byteOf 1 (ofBytes b₃ b₂ b₁ b₀) = b₁ := by
  ext i hi
  simp only [byteOf, ofBytes, BitVec.getElem_extractLsb', BitVec.getLsbD_append]
  grind

@[simp] theorem byteOf_two_ofBytes : byteOf 2 (ofBytes b₃ b₂ b₁ b₀) = b₂ := by
  ext i hi
  simp only [byteOf, ofBytes, BitVec.getElem_extractLsb', BitVec.getLsbD_append]
  grind

@[simp] theorem byteOf_three_ofBytes : byteOf 3 (ofBytes b₃ b₂ b₁ b₀) = b₃ := by
  ext i hi
  simp only [byteOf, ofBytes, BitVec.getElem_extractLsb', BitVec.getLsbD_append]
  grind

@[simp] theorem ofBytes_byteOf (v : BitVec 32) :
    ofBytes (byteOf 3 v) (byteOf 2 v) (byteOf 1 v) (byteOf 0 v) = v := by
  ext i hi
  simp only [ofBytes, byteOf]
  grind

@[simp] theorem byteSwap32_byteSwap32 (v : BitVec 32) : byteSwap32 (byteSwap32 v) = v := by
  simp [byteSwap32]

theorem byteSwap32_inj {v w : BitVec 32} : byteSwap32 v = byteSwap32 w ↔ v = w :=
  ⟨fun h => by rw [← byteSwap32_byteSwap32 v, h, byteSwap32_byteSwap32], congrArg _⟩

/-- The high word of a double word, over its low word. -/
@[simp] theorem high_append_low (v : BitVec 64) : v.extractLsb' 32 32 ++ v.setWidth 32 = v := by
  ext i hi
  simp only [BitVec.getElem_append, BitVec.getElem_extractLsb', BitVec.getElem_setWidth]
  grind

namespace Memory

/-! ## Loads and stores -/

/-- The word at `a` as a little-endian host reads it. -/
def word (m : Memory) (a : Addr) : BitVec 32 := ofBytes (m (a + 3)) (m (a + 2)) (m (a + 1)) (m a)

/-- A little-endian host store of one word. -/
def setWord (m : Memory) (a : Addr) (v : BitVec 32) : Memory := fun x =>
  if x = a then byteOf 0 v
  else if x = a + 1 then byteOf 1 v
  else if x = a + 2 then byteOf 2 v
  else if x = a + 3 then byteOf 3 v
  else m x

/-- Big-endian load of one word. -/
def load32 (m : Memory) (a : Addr) : BitVec 32 := byteSwap32 (m.word a)

/-- Big-endian store of one word. -/
def store32 (m : Memory) (a : Addr) (v : BitVec 32) : Memory := m.setWord a (byteSwap32 v)

/-- Big-endian load of a double word. -/
def load64 (m : Memory) (a : Addr) : BitVec 64 := m.load32 a ++ m.load32 (a + 4)

/-- Big-endian store of a double word. -/
def store64 (m : Memory) (a : Addr) (v : BitVec 64) : Memory :=
  (m.store32 a (v.extractLsb' 32 32)).store32 (a + 4) (v.setWidth 32)

theorem word_eq_load32 (m : Memory) (a : Addr) : m.word a = byteSwap32 (m.load32 a) := by
  rw [load32, byteSwap32_byteSwap32]

theorem setWord_eq_store32 (m : Memory) (a : Addr) (v : BitVec 32) :
    m.setWord a (byteSwap32 v) = m.store32 a v := rfl

/-- The four addresses of the word at `a`. -/
def wordAt (a : Addr) : Set Addr := {x | x = a ∨ x = a + 1 ∨ x = a + 2 ∨ x = a + 3}

/-- The `n` addresses just below `top`. -/
def below (top : Addr) (n : Nat) : Set Addr := {x | (top - 1 - x).toNat < n}

theorem mem_wordAt {a x : Addr} :
    x ∈ wordAt a ↔ x = a ∨ x = a + 1 ∨ x = a + 2 ∨ x = a + 3 := Iff.rfl

theorem mem_below {top x : Addr} {n : Nat} : x ∈ below top n ↔ (top - 1 - x).toNat < n := Iff.rfl

theorem store32_of_notMem {m : Memory} {a x : Addr} {v : BitVec 32} (h : x ∉ wordAt a) :
    m.store32 a v x = m x := by
  simp only [mem_wordAt, not_or] at h
  obtain ⟨h₀, h₁, h₂, h₃⟩ := h
  simp only [store32, setWord, if_neg h₀, if_neg h₁, if_neg h₂, if_neg h₃]

theorem load32_congr {m m' : Memory} {a : Addr} (h : ∀ x ∈ wordAt a, m x = m' x) :
    m.load32 a = m'.load32 a := by
  simp only [load32, word]
  rw [h a (by simp [wordAt]), h (a + 1) (by simp [wordAt]), h (a + 2) (by simp [wordAt]),
    h (a + 3) (by simp [wordAt])]

/-- A load sees the last store to its word. -/
@[simp] theorem load32_store32 (m : Memory) (a : Addr) (v : BitVec 32) :
    (m.store32 a v).load32 a = v := by
  simp [load32, store32, word, setWord]

/-- A load does not see a store to a disjoint word. -/
theorem load32_store32_of_disjoint {m : Memory} {a b : Addr} {v : BitVec 32}
    (h : Disjoint (wordAt a) (wordAt b)) : (m.store32 b v).load32 a = m.load32 a :=
  load32_congr fun _ hx => store32_of_notMem (Set.disjoint_left.mp h hx)

/-- Stores to disjoint words commute. -/
theorem store32_comm {m : Memory} {a b : Addr} {v w : BitVec 32}
    (h : Disjoint (wordAt a) (wordAt b)) :
    (m.store32 a v).store32 b w = (m.store32 b w).store32 a v := by
  funext x
  by_cases ha : x ∈ wordAt a
  · have hb : x ∉ wordAt b := Set.disjoint_left.mp h ha
    rw [store32_of_notMem hb]
    simp only [store32, setWord]
    rcases mem_wordAt.mp ha with h | h | h | h <;> simp [h]
  · rw [store32_of_notMem ha]
    by_cases hb : x ∈ wordAt b
    · simp only [store32, setWord]
      rcases mem_wordAt.mp hb with h | h | h | h <;> simp [h]
    · rw [store32_of_notMem hb, store32_of_notMem hb, store32_of_notMem ha]

/-- Storing a word back changes nothing. -/
theorem store32_load32 (m : Memory) (a : Addr) : m.store32 a (m.load32 a) = m := by
  funext x
  by_cases hx : x ∈ wordAt a
  · simp only [store32, load32, byteSwap32_byteSwap32, setWord, word]
    rcases mem_wordAt.mp hx with h | h | h | h <;> simp [h]
  · exact store32_of_notMem hx

theorem wordAt_disjoint {a b : Addr} (h : a.toNat + 4 ≤ b.toNat) (hb : b.toNat + 4 ≤ 2 ^ 32) :
    Disjoint (wordAt a) (wordAt b) := by
  refine Set.disjoint_left.mpr fun x hx hy => ?_
  rw [mem_wordAt] at hx hy
  bv_omega

theorem wordAt_disjoint_next (a : Addr) : Disjoint (wordAt a) (wordAt (a + 4)) := by
  refine Set.disjoint_left.mpr fun x hx hy => ?_
  rw [mem_wordAt] at hx hy
  bv_omega

@[simp] theorem load64_store64 (m : Memory) (a : Addr) (v : BitVec 64) :
    (m.store64 a v).load64 a = v := by
  rw [load64, store64, load32_store32, load32_store32_of_disjoint (wordAt_disjoint_next a),
    load32_store32, high_append_low]

/-! ## Agreement off a region -/

/-- The two memories agree at every address outside `R`. -/
def AgreeOff (R : Set Addr) (m m' : Memory) : Prop := ∀ x, x ∉ R → m x = m' x

variable {R R' : Set Addr} {m m' m'' : Memory} {a : Addr}

theorem AgreeOff.refl (R : Set Addr) (m : Memory) : AgreeOff R m m := fun _ _ => rfl

theorem AgreeOff.symm (h : AgreeOff R m m') : AgreeOff R m' m := fun x hx => (h x hx).symm

theorem AgreeOff.trans (h : AgreeOff R m m') (h' : AgreeOff R m' m'') : AgreeOff R m m'' :=
  fun x hx => (h x hx).trans (h' x hx)

theorem AgreeOff.mono (h : AgreeOff R m m') (hR : R ⊆ R') : AgreeOff R' m m' :=
  fun x hx => h x fun hxR => hx (hR hxR)

/-- A word outside the region reads the same in both memories. -/
theorem AgreeOff.load32 (h : AgreeOff R m m') (ha : Disjoint (wordAt a) R) :
    m.load32 a = m'.load32 a :=
  load32_congr fun x hx => h x (Set.disjoint_left.mp ha hx)

/-- The same store into both memories keeps their agreement. -/
theorem AgreeOff.store32 (h : AgreeOff R m m') (a : Addr) (v : BitVec 32) :
    AgreeOff R (m.store32 a v) (m'.store32 a v) := by
  intro x hx
  simp only [Memory.store32, setWord]
  split_ifs <;> first | rfl | exact h x hx

/-- A store inside the region is not seen outside it. -/
theorem agreeOff_store32 (h : wordAt a ⊆ R) (v : BitVec 32) : AgreeOff R (m.store32 a v) m :=
  fun _ hx => store32_of_notMem fun hxa => hx (h hxa)

theorem agreeOff_store64 (h : wordAt a ⊆ R) (h' : wordAt (a + 4) ⊆ R) (v : BitVec 64) :
    AgreeOff R (m.store64 a v) m :=
  (agreeOff_store32 h' _).trans (agreeOff_store32 h _)

/-! ## The bytes below a stack pointer -/

theorem below_mono (top : Addr) {n k : Nat} (h : n ≤ k) : below top n ⊆ below top k :=
  fun _ hx => Nat.lt_of_lt_of_le hx h

/-- What lies below a lowered top lies below the original one. -/
theorem below_sub_subset (top d : Addr) {n k : Nat} (h : n + d.toNat ≤ k) :
    below (top - d) n ⊆ below top k := by
  intro x hx
  rw [mem_below] at hx ⊢
  bv_omega

/-- A word at distance `d` below `top` lies in the region of `n` bytes below it. -/
theorem wordAt_subset_below (top d : Addr) {n : Nat} (hd : 4 ≤ d.toNat) (hn : d.toNat ≤ n) :
    wordAt (top - d) ⊆ below top n := by
  intro x hx
  rw [mem_wordAt] at hx
  rw [mem_below]
  bv_omega

/-- A word that ends before the region below `top` begins is clear of it. -/
theorem wordAt_disjoint_of_le {a top : Addr} {n : Nat} (h : a.toNat + 4 + n ≤ top.toNat) :
    Disjoint (wordAt a) (below top n) := by
  refine Set.disjoint_left.mpr fun x hx hy => ?_
  rw [mem_wordAt] at hx
  rw [mem_below] at hy
  bv_omega

/-- A word at distance at most `d` below `top` is clear of everything below `top - d`. -/
theorem wordAt_disjoint_below (top d e : Addr) {n : Nat} (he : 4 ≤ e.toNat)
    (hed : e.toNat ≤ d.toNat) (hn : n + d.toNat ≤ 2 ^ 32) :
    Disjoint (wordAt (top - e)) (below (top - d) n) := by
  refine Set.disjoint_left.mpr fun x hx hy => ?_
  rw [mem_wordAt] at hx
  rw [mem_below] at hy
  bv_omega

end Memory
end ByteMemory

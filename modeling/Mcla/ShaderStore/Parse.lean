import Mcla.Library.RecordLog

/-! # The shader stores: reading a file

A store is a header and records, each with the XXH3 hash of its body.  `Parse` reads the
records up to the first that is cut off, too large or whose hash does not match.  The model
keeps the sizes as machine words and every read checked: a read outside the buffer, like a
loop that does not end, is `none`.  The hash is a parameter.
-/
namespace Mcla.ShaderStore
open List Option

abbrev Bytes := List UInt8

/-- A view of bytes.  Its size is a machine word. -/
abbrev Span := { b : Bytes // b.length < 2 ^ 64 }

/-- The first `n` bytes. -/
def Span.take (b : Span) (n : Nat) : Span := ⟨b.1.take n, (length_take_le' n b.1).trans_lt b.2⟩

/-- The hash of a record, any function. -/
abbrev Hash := Bytes → UInt64

def kShaderMagic : Nat := 0x48534558
def kPipelineMagic : Nat := 0x53504558
def kShaderVersion : Nat := 0x20201219
def kD3d12PipelineVersion : Nat := 0x20260226
def kVulkanPipelineVersion : Nat := 0x20260228
def kShaderRecordHeaderBytes : Nat := 12
def kMaxUcodeDwords : Nat := 0x10000

/-- The families of stores. -/
inductive Family where
  | kShaders | kD3d12Rtv | kD3d12Rov | kVulkanFbo | kVulkanFsi
  deriving DecidableEq

/-- The framing of a family. -/
structure FamilyInfo where
  (header_bytes api version record_bytes : Nat)

/-- The framings. -/
def info : Family → FamilyInfo
  | .kShaders => ⟨8, 0, kShaderVersion, 0⟩
  | .kD3d12Rtv => ⟨12, 0x54525844, kD3d12PipelineVersion, 72⟩
  | .kD3d12Rov => ⟨12, 0x4F525844, kD3d12PipelineVersion, 72⟩
  | .kVulkanFbo => ⟨12, 0, kVulkanPipelineVersion, 68⟩
  | .kVulkanFsi => ⟨12, 1, kVulkanPipelineVersion, 68⟩

/-- The word of four bytes, the least significant first. -/
def word (b₀ b₁ b₂ b₃ : UInt8) : Nat :=
  b₀.toNat ||| b₁.toNat <<< 8 ||| b₂.toNat <<< 16 ||| b₃.toNat <<< 24

/-- Four bytes, if they are there. -/
def loadLe32 (b : Bytes) (p : Nat) : Option Nat := do
  let b₀ ← b[p]?
  let b₁ ← b[p + 1]?
  let b₂ ← b[p + 2]?
  let b₃ ← b[p + 3]?
  return word b₀ b₁ b₂ b₃

def loadLe64 (b : Bytes) (p : Nat) : Option Nat := do
  let low ← loadLe32 b p
  let high ← loadLe32 b (p + 4)
  return low ||| high <<< 32

def loadBe32 (b : Bytes) (p : Nat) : Option Nat := do
  let b₀ ← b[p]?
  let b₁ ← b[p + 1]?
  let b₂ ← b[p + 2]?
  let b₃ ← b[p + 3]?
  return word b₃ b₂ b₁ b₀

def storeLe32 (v : Nat) : Bytes := [0, 1, 2, 3].map fun i => UInt8.ofNat (v >>> (8 * i))

def storeBe32 (v : Nat) : Bytes := [3, 2, 1, 0].map fun i => UInt8.ofNat (v >>> (8 * i))

/-- The header of the family. -/
def header (family : Family) : Bytes :=
  storeLe32 (if family = .kShaders then kShaderMagic else kPipelineMagic) ++
    (if family = .kShaders then [] else storeLe32 (info family).api) ++
    storeBe32 (info family).version

/-- What the header of a file is. -/
inductive HeaderStatus where
  | kValid | kEmpty | kShort | kBadMagic | kBadVersion
  deriving DecidableEq

/-- A record of a file. -/
structure Record where
  (offset size hash : Nat)

/-- What parsing returns. -/
structure Parsed where
  header : HeaderStatus := .kEmpty
  records : List Record := []
  valid_bytes : Nat := 0
  stopped : Bool := false

/-- The difference of two machine words. -/
def wordSub (a b : Nat) : Nat := (a + (2 ^ 64 - b % 2 ^ 64)) % 2 ^ 64

/-- Some bytes, if they are there. -/
def subspan (b : Bytes) (offset count : Nat) : Option Bytes :=
  if offset + count ≤ b.length then some ((b.drop offset).take count) else none

/-- The body of the loop: the record at the offset, `none` where the loop is left. -/
def nextRecord (hash : Hash) (family : Family) (b : Bytes) (offset : Nat) :
    Option (Option Record) := do
  let left := wordSub b.length offset
  if family = .kShaders then
    if left < kShaderRecordHeaderBytes then return none
    let count ← loadLe32 b (offset + 8)
    let dwords := count &&& 0x7FFFFFFF
    if dwords > kMaxUcodeDwords then return none
    let ucode := dwords * 4 % 2 ^ 64
    if wordSub left kShaderRecordHeaderBytes < ucode then return none
    let digest ← loadLe64 b offset
    let body ← subspan b ((offset + kShaderRecordHeaderBytes) % 2 ^ 64) ucode
    if (hash body).toNat ≠ digest then return none
    return some ⟨offset, (kShaderRecordHeaderBytes + ucode) % 2 ^ 64, digest⟩
  else
    if left < (info family).record_bytes then return none
    let digest ← loadLe64 b offset
    let body ← subspan b ((offset + 8) % 2 ^ 64) (wordSub (info family).record_bytes 8)
    if (hash body).toNat ≠ digest then return none
    return some ⟨offset, (info family).record_bytes, digest⟩

/-- The loop over the records, with fuel. -/
def readRecords (hash : Hash) (family : Family) (b : Bytes) :
    Nat → Nat → List Record → Option (List Record × Nat)
  | 0, _, _ => none
  | fuel + 1, offset, records =>
    if offset < b.length then
      match nextRecord hash family b offset with
      | none => none
      | some none => some (records, offset)
      | some (some record) =>
        readRecords hash family b fuel ((offset + record.size) % 2 ^ 64) (records ++ [record])
    else some (records, offset)

/-- `Parse`.  The loop has fuel for a record at every byte: `none` is a read outside the
buffer or a loop that has not ended. -/
def parse (hash : Hash) (family : Family) (bytes : Span) : Option Parsed := do
  let b := bytes.1
  if b = [] then return {}
  if b.length < (info family).header_bytes then return { header := .kShort }
  let expected := header family
  -- magic and api words first: a different family is never "another version"
  if (← subspan b 0 (expected.length - 4)) ≠ expected.take (expected.length - 4) then
    return { header := .kBadMagic }
  if (← loadBe32 b ((info family).header_bytes - 4)) ≠ (info family).version then
    return { header := .kBadVersion }
  let (records, offset) ← readRecords hash family b (b.length + 1) (info family).header_bytes []
  return ⟨.kValid, records, offset, offset ≠ b.length⟩

/-! ### The records as a framing -/

/-- The word at the front of a byte string. -/
def le32 : Bytes → Nat
  | b₀ :: b₁ :: b₂ :: b₃ :: _ => word b₀ b₁ b₂ b₃
  | _ => 0

/-- Eight bytes, the lowest first. -/
def le64 (b : Bytes) : Nat := le32 b ||| le32 (b.drop 4) <<< 32

/-- The number of dwords that the record header at the front names. -/
def dwords (b : Bytes) : Nat := le32 (b.drop 8) &&& 0x7FFFFFFF

/-- A stored record: a shader with its hash, its dword count and that many dwords, or a
description of the family's size after its hash. -/
def Stored (hash : Hash) (family : Family) (r : Bytes) : Prop :=
  if family = .kShaders then
    12 ≤ r.length ∧ dwords r ≤ kMaxUcodeDwords ∧ r.length = 12 + 4 * dwords r ∧
      (hash (r.drop 12)).toNat = le64 r
  else r.length = (info family).record_bytes ∧ (hash (r.drop 8)).toNat = le64 r

/-- The length of the stored record at the front, if there is one. -/
def storedSize (hash : Hash) (family : Family) (b : Bytes) : Option Nat :=
  if family = .kShaders then
    if 12 ≤ b.length ∧ dwords b ≤ kMaxUcodeDwords ∧ 12 + 4 * dwords b ≤ b.length ∧
        (hash ((b.drop 12).take (4 * dwords b))).toNat = le64 b then
      some (12 + 4 * dwords b)
    else none
  else if (info family).record_bytes ≤ b.length ∧
      (hash ((b.drop 8).take ((info family).record_bytes - 8))).toNat = le64 b then
    some (info family).record_bytes
  else none

variable {b : Bytes} {n : Nat} {family : Family}

theorem le32_take (hn : 4 ≤ n) (hb : n ≤ b.length) (rest : Bytes) :
    le32 (b.take n ++ rest) = le32 b := by
  obtain ⟨m, rfl⟩ : ∃ m, n = m + 4 := ⟨n - 4, by omega⟩
  match b, hb with
  | b₀ :: b₁ :: b₂ :: b₃ :: tail, _ => rfl

theorem drop_take_append {k n : Nat} (hk : k ≤ n) (hb : n ≤ b.length) (rest : Bytes) :
    (b.take n ++ rest).drop k = (b.drop k).take (n - k) ++ rest := by
  rw [drop_append_of_le_length (by rw [length_take]; omega), drop_take]

theorem le32_drop_take {k n : Nat} (hn : k + 4 ≤ n) (hb : n ≤ b.length) (rest : Bytes) :
    le32 ((b.take n ++ rest).drop k) = le32 (b.drop k) := by
  rw [drop_take_append (by omega) hb]
  exact le32_take (by omega) (by rw [length_drop]; omega) rest

theorem le64_take (hn : 8 ≤ n) (hb : n ≤ b.length) (rest : Bytes) :
    le64 (b.take n ++ rest) = le64 b := by
  unfold le64
  rw [le32_take (by omega) hb, le32_drop_take (by omega) hb]

theorem dwords_take (hn : 12 ≤ n) (hb : n ≤ b.length) (rest : Bytes) :
    dwords (b.take n ++ rest) = dwords b := by
  unfold dwords
  rw [le32_drop_take (by omega) hb]

theorem record_bytes_of_ne (h : family ≠ .kShaders) :
    8 ≤ (info family).record_bytes ∧ (info family).record_bytes < 2 ^ 64 := by
  cases family <;> first | exact absurd rfl h | decide

theorem body_take {k n : Nat} (hk : k ≤ n) (hb : n ≤ b.length) (rest : Bytes) :
    ((b.take n ++ rest).drop k).take (n - k) = (b.drop k).take (n - k) := by
  rw [drop_take_append hk hb, take_left']
  rw [length_take, length_drop]
  omega

theorem storedSize_here {hash : Hash} (h : storedSize hash family b = some n) (rest : Bytes) :
    storedSize hash family (b.take n ++ rest) = some n := by
  unfold storedSize at h ⊢
  by_cases hfamily : family = .kShaders
  · rw [if_pos hfamily] at h ⊢
    split at h
    · rename_i hvalid
      obtain ⟨hhead, hmax, hroom, hhash⟩ := hvalid
      obtain rfl := some.inj h
      have hlong : 12 ≤ 12 + 4 * dwords b := Nat.le_add_right _ _
      have hbody := body_take hlong hroom rest
      rw [Nat.add_sub_cancel_left] at hbody
      rw [dwords_take hlong hroom, le64_take (by omega) hroom, hbody, if_pos]
      refine ⟨?_, hmax, ?_, hhash⟩ <;> rw [length_append, length_take] <;> omega
    · cases h
  · rw [if_neg hfamily] at h ⊢
    have hsize := (record_bytes_of_ne hfamily).1
    split at h
    · rename_i hvalid
      obtain ⟨hroom, hhash⟩ := hvalid
      obtain rfl := some.inj h
      rw [le64_take hsize hroom, body_take hsize hroom, if_pos]
      refine ⟨?_, hhash⟩
      rw [length_append, length_take]
      omega
    · cases h

/-- The stored records of a family, as a framing of bytes. -/
def framing (hash : Hash) (family : Family) : RecordLog.Framing UInt8 where
  size := storedSize hash family
  pos {b n} h := by
    unfold storedSize at h
    split_ifs at h with hfamily hvalid hvalid
    · obtain rfl := some.inj h
      omega
    · obtain rfl := some.inj h
      exact Nat.lt_of_lt_of_le (by decide) (record_bytes_of_ne hfamily).1
  le {b n} h := by
    unfold storedSize at h
    split_ifs at h with hfamily hvalid hvalid
    · obtain rfl := some.inj h
      exact hvalid.2.2.1
    · obtain rfl := some.inj h
      exact hvalid.1
  here h := storedSize_here h

theorem isRecord_iff {hash : Hash} {r : Bytes} :
    (framing hash family).IsRecord r ↔ Stored hash family r := by
  show storedSize hash family r = some r.length ↔ _
  unfold storedSize Stored
  by_cases hfamily : family = .kShaders
  · rw [if_pos hfamily, if_pos hfamily]
    constructor
    · intro h
      split at h
      · rename_i hvalid
        obtain ⟨hhead, hmax, -, hhash⟩ := hvalid
        have hlength := some.inj h
        rw [take_of_length_le (by rw [length_drop]; omega)] at hhash
        exact ⟨hhead, hmax, hlength.symm, hhash⟩
      · cases h
    · rintro ⟨hhead, hmax, hlength, hhash⟩
      rw [if_pos, hlength]
      rw [take_of_length_le (by rw [length_drop]; omega)]
      exact ⟨hhead, hmax, hlength.ge, hhash⟩
  · rw [if_neg hfamily, if_neg hfamily]
    constructor
    · intro h
      split at h
      · rename_i hvalid
        have hlength := some.inj h
        have hhash := hvalid.2
        rw [take_of_length_le (by rw [length_drop]; omega)] at hhash
        exact ⟨hlength.symm, hhash⟩
      · cases h
    · rintro ⟨hlength, hhash⟩
      rw [if_pos, hlength]
      rw [take_of_length_le (by rw [length_drop]; omega)]
      exact ⟨hlength.ge, hhash⟩

/-! ### The checked reads -/

theorem loadLe32_eq {p : Nat} (h : p + 4 ≤ b.length) : loadLe32 b p = some (le32 (b.drop p)) := by
  have hcut : b.drop p = b[p] :: b[p + 1] :: b[p + 2] :: b[p + 3] :: b.drop (p + 4) := by
    rw [drop_eq_getElem_cons (by omega), drop_eq_getElem_cons (by omega),
      drop_eq_getElem_cons (by omega), drop_eq_getElem_cons (by omega)]
  unfold loadLe32
  rw [hcut, getElem?_eq_getElem (by omega), getElem?_eq_getElem (by omega),
    getElem?_eq_getElem (by omega), getElem?_eq_getElem (by omega)]
  rfl

theorem loadLe64_eq {p : Nat} (h : p + 8 ≤ b.length) : loadLe64 b p = some (le64 (b.drop p)) := by
  unfold loadLe64 le64
  rw [loadLe32_eq (by omega), loadLe32_eq (by omega), drop_drop]
  rfl

theorem loadBe32_eq (b : Bytes) (p : Nat) : loadBe32 b p = loadBe32 ((b.drop p).take 4) 0 := by
  have hget : ∀ i, i < 4 → ((b.drop p).take 4)[i]? = b[p + i]? := by
    intro i hi
    rw [getElem?_take_of_lt hi, getElem?_drop]
  unfold loadBe32
  rw [hget 0 (by omega), hget (0 + 1) (by omega), hget (0 + 2) (by omega), hget (0 + 3) (by omega)]
  rfl

theorem subspan_eq {offset count : Nat} (h : offset + count ≤ b.length) :
    subspan b offset count = some ((b.drop offset).take count) := if_pos h

theorem wordSub_eq {a b : Nat} (hle : b ≤ a) (ha : a < 2 ^ 64) : wordSub a b = a - b := by
  unfold wordSub
  omega

/-- The loop's body finds the stored record at the offset, and reads nothing outside. -/
theorem nextRecord_eq (hash : Hash) (family : Family) {offset : Nat} (hb : b.length < 2 ^ 64)
    (ho : offset ≤ b.length) :
    nextRecord hash family b offset = some ((storedSize hash family (b.drop offset)).map
      fun n => ⟨offset, n, le64 (b.drop offset)⟩) := by
  have hleft : wordSub b.length offset = (b.drop offset).length := by
    rw [wordSub_eq ho hb, length_drop]
  have hlength : (b.drop offset).length = b.length - offset := length_drop
  unfold nextRecord storedSize
  simp only [hleft, kShaderRecordHeaderBytes]
  by_cases hfamily : family = .kShaders
  · rw [if_pos hfamily, if_pos hfamily]
    by_cases hhead : (b.drop offset).length < 12
    · rw [if_pos hhead, if_neg]
      · rfl
      · exact fun h => absurd h.1 (Nat.not_le.mpr hhead)
    · have hcount : loadLe32 b (offset + 8) = some (le32 ((b.drop offset).drop 8)) := by
        rw [loadLe32_eq (by omega), drop_drop]
      have hdwords : le32 ((b.drop offset).drop 8) &&& 0x7FFFFFFF = dwords (b.drop offset) := rfl
      rw [if_neg hhead, hcount]
      simp only [bind_eq_bind, bind_some, hdwords]
      by_cases hmax : dwords (b.drop offset) > kMaxUcodeDwords
      · rw [if_pos hmax, if_neg]
        · rfl
        · exact fun h => absurd h.2.1 (Nat.not_le.mpr hmax)
      · have hsmall : dwords (b.drop offset) ≤ 0x10000 := Nat.not_lt.mp hmax
        have hucode : dwords (b.drop offset) * 4 % 2 ^ 64 = 4 * dwords (b.drop offset) := by omega
        rw [if_neg hmax, hucode, wordSub_eq (Nat.not_lt.mp hhead) (by omega)]
        by_cases hroom : (b.drop offset).length - 12 < 4 * dwords (b.drop offset)
        · rw [if_pos hroom, if_neg]
          · rfl
          · exact fun h => absurd h.2.2.1 (by omega)
        · have hstart : (offset + 12) % 2 ^ 64 = offset + 12 := Nat.mod_eq_of_lt (by omega)
          have hsize : (12 + 4 * dwords (b.drop offset)) % 2 ^ 64 =
              12 + 4 * dwords (b.drop offset) := Nat.mod_eq_of_lt (by omega)
          rw [if_neg hroom, loadLe64_eq (by omega), hstart, subspan_eq (by omega), hsize]
          simp only [bind_some, ← drop_drop]
          by_cases hhash : (hash (((b.drop offset).drop 12).take
              (4 * dwords (b.drop offset)))).toNat = le64 (b.drop offset)
          · rw [if_neg (not_not.mpr hhash), if_pos ⟨Nat.not_lt.mp hhead, hsmall, by omega, hhash⟩]
            rfl
          · rw [if_pos hhash, if_neg]
            · rfl
            · exact fun h => absurd h.2.2.2 hhash
  · obtain ⟨hsize, hword⟩ := record_bytes_of_ne hfamily
    rw [if_neg hfamily, if_neg hfamily]
    by_cases hroom : (b.drop offset).length < (info family).record_bytes
    · rw [if_pos hroom, if_neg]
      · rfl
      · exact fun h => absurd h.1 (Nat.not_le.mpr hroom)
    · have hstart : (offset + 8) % 2 ^ 64 = offset + 8 := Nat.mod_eq_of_lt (by omega)
      rw [if_neg hroom, loadLe64_eq (by omega), hstart, wordSub_eq hsize hword,
        subspan_eq (by omega)]
      simp only [bind_eq_bind, bind_some, ← drop_drop]
      by_cases hhash : (hash (((b.drop offset).drop 8).take
          ((info family).record_bytes - 8))).toNat = le64 (b.drop offset)
      · rw [if_neg (not_not.mpr hhash), if_pos ⟨Nat.not_lt.mp hroom, hhash⟩]
        rfl
      · rw [if_pos hhash, if_neg]
        · rfl
        · exact fun h => absurd h.2 hhash

/-! ### The header -/

theorem word_eq (b₀ b₁ b₂ b₃ : UInt8) : word b₀ b₁ b₂ b₃ =
    b₀.toNat + 2 ^ 8 * b₁.toNat + 2 ^ 16 * b₂.toNat + 2 ^ 24 * b₃.toNat := by
  have h₀ := b₀.toNat_lt
  have h₁ := b₁.toNat_lt
  have h₂ := b₂.toNat_lt
  have hlow : b₀.toNat ||| b₁.toNat <<< 8 = b₁.toNat <<< 8 + b₀.toNat := by
    rw [Nat.or_comm, ← Nat.shiftLeft_add_eq_or_of_lt h₀]
  have hmiddle : b₀.toNat ||| b₁.toNat <<< 8 ||| b₂.toNat <<< 16 =
      b₂.toNat <<< 16 + (b₁.toNat <<< 8 + b₀.toNat) := by
    rw [hlow, Nat.or_comm, ← Nat.shiftLeft_add_eq_or_of_lt]
    rw [Nat.shiftLeft_eq]
    omega
  unfold word
  rw [hmiddle, Nat.or_comm, ← Nat.shiftLeft_add_eq_or_of_lt]
  · simp only [Nat.shiftLeft_eq]
    omega
  · simp only [Nat.shiftLeft_eq]
    omega

theorem word_eq_iff {v : Nat} (hv : v < 2 ^ 32) (b₀ b₁ b₂ b₃ : UInt8) :
    word b₃ b₂ b₁ b₀ = v ↔ [b₀, b₁, b₂, b₃] = storeBe32 v := by
  have h₀ := b₀.toNat_lt
  have h₁ := b₁.toNat_lt
  have h₂ := b₂.toNat_lt
  have h₃ := b₃.toNat_lt
  simp only [word_eq, storeBe32, map_cons, map_nil, List.cons.injEq, and_true,
    ← UInt8.toNat_inj, UInt8.toNat_ofNat', Nat.shiftRight_eq_div_pow]
  omega

theorem length_header (family : Family) : (header family).length = (info family).header_bytes := by
  cases family <;> rfl

theorem header_split (family : Family) : header family =
    (header family).take ((header family).length - 4) ++ storeBe32 (info family).version := by
  cases family <;> rfl

theorem header_drop (family : Family) :
    (header family).drop ((header family).length - 4) = storeBe32 (info family).version := by
  cases family <;> rfl

theorem version_lt (family : Family) : (info family).version < 2 ^ 32 := by
  cases family <;> decide

theorem header_bytes_bounds (family : Family) :
    4 ≤ (header family).length ∧ (header family).length ≤ 12 := by
  cases family <;> decide

/-- What the tests of `Parse` find out about the header. -/
def headerStatus (family : Family) (b : Bytes) : HeaderStatus :=
  let expected := header family
  if b = [] then .kEmpty
  else if b.length < expected.length then .kShort
  else if b.take (expected.length - 4) ≠ expected.take (expected.length - 4) then .kBadMagic
  else if (b.drop (expected.length - 4)).take 4 ≠ storeBe32 (info family).version then .kBadVersion
  else .kValid

theorem headerStatus_valid : headerStatus family b = .kValid ↔ header family <+: b := by
  have hbounds := header_bytes_bounds family
  have hsplit := header_split family
  unfold headerStatus
  constructor
  · intro h
    dsimp only at h
    split_ifs at h with hempty hshort hmagic hversion
    rw [not_not] at hmagic hversion
    rw [hsplit, ← hmagic, ← hversion]
    have htake : b.take (header family).length = b.take ((header family).length - 4) ++
        (b.drop ((header family).length - 4)).take 4 := by
      rw [← take_add, Nat.sub_add_cancel hbounds.1]
    rw [← htake]
    exact take_prefix _ _
  · rintro ⟨rest, rfl⟩
    have hne : header family ++ rest ≠ [] := by
      intro heq
      have := congrArg List.length heq
      rw [length_append, length_nil] at this
      omega
    have hversion : ((header family ++ rest).drop ((header family).length - 4)).take 4 =
        storeBe32 (info family).version := by
      rw [drop_append_of_le_length (Nat.sub_le _ _), header_drop]
      rfl
    dsimp only
    rw [if_neg hne, if_neg (by rw [length_append]; omega), if_neg, if_neg]
    · exact not_not.mpr hversion
    · rw [not_not, take_append_of_le_length (by omega)]

/-! ### What `Parse` returns -/

/-- Records one after another, the first at the offset. -/
def layout : Nat → List Bytes → List Record
  | _, [] => []
  | offset, r :: rs => ⟨offset, r.length, le64 r⟩ :: layout (offset + r.length) rs

theorem layout_prefix {offset : Nat} {rs rs' : List Bytes} (h : rs <+: rs') :
    layout offset rs <+: layout offset rs' := by
  induction rs generalizing offset rs' with
  | nil => exact nil_prefix
  | cons r rs ih =>
    obtain ⟨more, rfl⟩ := h
    exact cons_prefix_cons.mpr ⟨rfl, ih (prefix_append _ _)⟩

@[simp] theorem length_layout (offset : Nat) (rs : List Bytes) :
    (layout offset rs).length = rs.length := by
  induction rs generalizing offset with
  | nil => rfl
  | cons r rs ih => rw [layout, length_cons, length_cons, ih]

theorem eight_le_of_storedSize {hash : Hash} (h : storedSize hash family b = some n) : 8 ≤ n := by
  unfold storedSize at h
  split_ifs at h with hfamily hvalid hvalid
  · obtain rfl := some.inj h
    omega
  · obtain rfl := some.inj h
    exact (record_bytes_of_ne hfamily).1

theorem readRecords_eq (hash : Hash) (family : Family) (hb : b.length < 2 ^ 64) (fuel offset : Nat)
    (records : List Record) (ho : offset ≤ b.length) (hfuel : b.length - offset < fuel) :
    readRecords hash family b fuel offset records =
      some (records ++ layout offset ((framing hash family).read (b.drop offset)),
        offset + ((framing hash family).read (b.drop offset)).flatten.length) := by
  induction fuel generalizing offset records with
  | zero => exact absurd hfuel (Nat.not_lt_zero _)
  | succ fuel ih =>
    unfold readRecords
    by_cases hin : offset < b.length
    · rw [if_pos hin, nextRecord_eq hash family hb ho]
      cases hsize : storedSize hash family (b.drop offset) with
      | none =>
        rw [RecordLog.Framing.read_none hsize]
        simp [layout]
      | some n =>
        have hle : n ≤ (b.drop offset).length := (framing hash family).le hsize
        have hpos := eight_le_of_storedSize hsize
        rw [length_drop] at hle
        have hnext : (offset + n) % 2 ^ 64 = offset + n := Nat.mod_eq_of_lt (by omega)
        have hdigest : le64 ((b.drop offset).take n) = le64 (b.drop offset) := by
          have htake := le64_take (b := b.drop offset) (n := n) hpos
            (by rw [length_drop]; omega) []
          rwa [append_nil] at htake
        have hlength : ((b.drop offset).take n).length = n := by
          rw [length_take, length_drop]
          omega
        rw [RecordLog.Framing.read_some hsize]
        simp only [map_some]
        rw [hnext, ih (offset + n) _ (by omega) (by omega)]
        simp only [layout, hlength, hdigest, drop_drop, append_assoc,
          singleton_append, flatten_cons, length_append, Nat.add_assoc]
    · have hend : b.drop offset = [] := drop_eq_nil_of_le (Nat.not_lt.mp hin)
      have hnone : (framing hash family).read [] = [] := rfl
      rw [if_neg hin, hend, hnone]
      simp [layout]

/-- The records that `Parse` finds after a valid header. -/
def storedRecords (hash : Hash) (family : Family) (b : Bytes) : List Bytes :=
  (framing hash family).read (b.drop (header family).length)

/-- `Parse` ends, having read inside the buffer. -/
theorem parse_eq (hash : Hash) (family : Family) (bytes : Span) :
    parse hash family bytes = some (if headerStatus family bytes.1 = .kValid then
      ⟨.kValid, layout (header family).length (storedRecords hash family bytes.1),
        (header family).length + (storedRecords hash family bytes.1).flatten.length,
        (header family).length + (storedRecords hash family bytes.1).flatten.length ≠
          bytes.1.length⟩
      else { header := headerStatus family bytes.1 }) := by
  obtain ⟨b, hb⟩ := bytes
  have hbounds := header_bytes_bounds family
  unfold parse headerStatus
  simp only [← length_header]
  by_cases hempty : b = []
  · rw [if_pos hempty, if_pos hempty]
    rfl
  by_cases hshort : b.length < (header family).length
  · rw [if_neg hempty, if_neg hempty, if_pos hshort, if_pos hshort]
    rfl
  have hmagic : subspan b 0 ((header family).length - 4) =
      some (b.take ((header family).length - 4)) := by
    rw [subspan_eq (by omega), drop_zero]
  rw [if_neg hempty, if_neg hempty, if_neg hshort, if_neg hshort, hmagic]
  simp only [bind_eq_bind, bind_some]
  by_cases hmagic : b.take ((header family).length - 4) ≠
      (header family).take ((header family).length - 4)
  · rw [if_pos hmagic, if_pos hmagic]
    rfl
  obtain ⟨b₀, b₁, b₂, b₃, hfour⟩ : ∃ b₀ b₁ b₂ b₃,
      (b.drop ((header family).length - 4)).take 4 = [b₀, b₁, b₂, b₃] := by
    have hlength : ((b.drop ((header family).length - 4)).take 4).length = 4 := by
      rw [length_take, length_drop]
      omega
    match (b.drop ((header family).length - 4)).take 4, hlength with
    | [b₀, b₁, b₂, b₃], _ => exact ⟨b₀, b₁, b₂, b₃, rfl⟩
  have hload : loadBe32 b ((header family).length - 4) = some (word b₃ b₂ b₁ b₀) := by
    rw [loadBe32_eq, hfour]
    rfl
  rw [if_neg hmagic, if_neg hmagic, hload, hfour]
  simp only [bind_some]
  have hiff := word_eq_iff (version_lt family) b₀ b₁ b₂ b₃
  by_cases hversion : [b₀, b₁, b₂, b₃] ≠ storeBe32 (info family).version
  · rw [if_pos (fun h => hversion (hiff.mp h)), if_pos hversion]
    rfl
  · rw [if_neg (fun h => h (hiff.mpr (not_not.mp hversion))), if_neg hversion,
      readRecords_eq hash family hb _ _ _ (Nat.not_lt.mp hshort) (by omega)]
    rfl

/-- `rs` are the stored records at the front of `b`, as many as there are. -/
def IsMaximalRow (hash : Hash) (family : Family) (b : Bytes) (rs : List Bytes) : Prop :=
  ((∀ r ∈ rs, Stored hash family r) ∧ rs.flatten <+: b) ∧
    ∀ rs', (∀ r ∈ rs', Stored hash family r) → rs'.flatten <+: b → rs' <+: rs

theorem storedRecords_maximal (hash : Hash) (family : Family) (b : Bytes) :
    IsMaximalRow hash family (b.drop (header family).length) (storedRecords hash family b) := by
  obtain ⟨hrecords, hpre⟩ :=
    RecordLog.Framing.read_row (F := framing hash family) (b.drop (header family).length)
  refine ⟨⟨fun r hr => isRecord_iff.mp (hrecords r hr), hpre⟩, fun rs' hrs' hpre' => ?_⟩
  exact RecordLog.Framing.row_prefix_read ⟨fun r hr => isRecord_iff.mpr (hrs' r hr), hpre'⟩

/-- `Parse` of a file: it ends and reads nothing outside the buffer; without the family's
header it returns no records; after the header it returns the maximal row of stored records;
and of the file cut anywhere it returns a first part of the same records. -/
theorem parse_maximal_prefix (hash : Hash) (family : Family) (bytes : Span) :
    ∃ parsed, parse hash family bytes = some parsed ∧
      (¬ header family <+: bytes.1 → parsed.records = []) ∧
      (header family <+: bytes.1 → ∃ rs,
        IsMaximalRow hash family (bytes.1.drop (header family).length) rs ∧
          parsed.records = layout (header family).length rs) ∧
      ∀ n, ∃ cut, parse hash family (bytes.take n) = some cut ∧ cut.records <+: parsed.records := by
  refine ⟨_, parse_eq hash family bytes, ?_, ?_, ?_⟩
  · intro hheader
    rw [if_neg (fun h => hheader (headerStatus_valid.mp h))]
  · intro hheader
    refine ⟨_, storedRecords_maximal hash family bytes.1, ?_⟩
    rw [if_pos (headerStatus_valid.mpr hheader)]
  · intro n
    refine ⟨_, parse_eq hash family (bytes.take n), ?_⟩
    by_cases hcut : headerStatus family (bytes.take n).1 = .kValid
    · have hheader := headerStatus_valid.mp hcut
      have hwhole := hheader.trans (List.take_prefix n bytes.1)
      rw [if_pos hcut, if_pos (headerStatus_valid.mpr hwhole)]
      refine layout_prefix ?_
      have hdrop : (bytes.take n).1.drop (header family).length =
          (bytes.1.drop (header family).length).take (n - (header family).length) :=
        drop_take
      unfold storedRecords
      rw [hdrop]
      exact RecordLog.Framing.read_take_prefix _ _
    · rw [if_neg hcut]
      exact nil_prefix

end Mcla.ShaderStore

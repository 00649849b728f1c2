import Mcla.Library.ReflectedCrc

/-! # The CRC-32 of an image

`Crc32` of `mcla_album_probe`: the checksum of the first bytes of a picture, a byte at a time from
a table of 256 words.  It is the reflected CRC-32 of the bits, it can be continued from the
value of the bytes before, and it changes with every burst of errors.
-/
namespace Mcla.Crc32
open ReflectedCrc BitVec

def kPolynomial : UInt32 := 0xEDB88320

/-- One turn of the inner loop of `MakeCrcTable`. -/
def crcBit (c : UInt32) : UInt32 := if c &&& 1 ≠ 0 then kPolynomial ^^^ (c >>> 1) else c >>> 1

/-- `MakeCrcTable` -/
def makeCrcTable : Vector UInt32 256 := Vector.ofFn fun i => crcBit^[8] (UInt32.ofNat i)

def kCrcTable : Vector UInt32 256 := makeCrcTable

/-- The place of the table that a byte is looked up at. -/
def tableIndex (crc : UInt32) (byte : UInt8) : Fin 256 :=
  ⟨((crc ^^^ byte.toUInt32) &&& 0xFF).toNat,
    lt_of_le_of_lt (UInt32.toNat_and _ _ ▸ Nat.and_le_right) (by decide)⟩

/-- One turn of the loop of `Crc32`. -/
def crcByte (crc : UInt32) (byte : UInt8) : UInt32 :=
  kCrcTable.get (tableIndex crc byte) ^^^ (crc >>> 8)

/-- `Crc32`; the value before is 0 where the caller gives none. -/
def crc32 (data : List UInt8) (crc : UInt32) : UInt32 := ~~~(data.foldl crcByte (~~~crc))

/-! ### The checksum bit by bit -/

/-- The reflected CRC-32 without a table: a byte is added to the register, which is then shifted
eight times. -/
def bitwiseCrc32 (data : List UInt8) (crc : UInt32) : UInt32 :=
  ~~~(data.foldl (fun c byte => crcBit^[8] (c ^^^ byte.toUInt32)) (~~~crc))

/-- The bits of a message, the least significant bit of each byte first. -/
def messageBits (data : List UInt8) : List Bool := data.flatMap fun byte => bitsOf byte.toBitVec

/-- The register after the bits of a message. -/
def register (c : BitVec 32) (data : List UInt8) : BitVec 32 :=
  (messageBits data).foldl (feed kPolynomial.toBitVec) c

theorem crcBit_toBitVec (c : UInt32) :
    (crcBit c).toBitVec = shift kPolynomial.toBitVec c.toBitVec := by
  have hlow : c &&& 1 ≠ 0 ↔ c.toBitVec.getLsbD 0 = true := by
    rw [Ne, ← UInt32.toBitVec_inj, UInt32.toBitVec_and]
    change ¬c.toBitVec &&& 1#32 = 0#32 ↔ _
    rw [and_one_eq_setWidth_ofBool_getLsbD]
    cases c.toBitVec.getLsbD 0 with
    | false => decide
    | true => decide
  unfold crcBit shift
  by_cases h : c &&& 1 ≠ 0
  · rw [if_pos h, if_pos (hlow.mp h)]
    rfl
  · rw [if_neg h, if_neg fun hc => h (hlow.mpr hc)]
    rfl

theorem crcBit_iterate_toBitVec (n : Nat) (c : UInt32) :
    (crcBit^[n] c).toBitVec = (shift kPolynomial.toBitVec)^[n] c.toBitVec := by
  induction n with
  | zero => rfl
  | succ n ih =>
    rw [Function.iterate_succ_apply', Function.iterate_succ_apply', crcBit_toBitVec, ih]

theorem kCrcTable_get (i : Fin 256) : kCrcTable.get i = crcBit^[8] (UInt32.ofNat i) := by
  rw [kCrcTable, makeCrcTable, Vector.get_eq_getElem, Vector.getElem_ofFn]

/-- A byte is in the lowest bits of the register. -/
theorem byte_getLsbD (byte : UInt8) {i : Nat} (hi : 8 ≤ i) :
    byte.toUInt32.toBitVec.getLsbD i = false := by
  rw [UInt8.toBitVec_toUInt32, getLsbD_setWidth, getLsbD_of_ge _ i hi, Bool.and_false]

theorem and_low_byte (c : UInt32) : (c &&& 0xFF).toBitVec = low 8 c.toBitVec := by
  apply eq_of_getLsbD_eq
  intro i hi
  have hmask : (0xFF : UInt32).toBitVec.getLsbD i = decide (i < 8) := by
    change (255#32).getLsbD i = _
    rw [getLsbD_ofNat, decide_eq_true hi, Bool.true_and]
    exact Nat.testBit_two_pow_sub_one 8 i
  rw [UInt32.toBitVec_and, getLsbD_and, hmask, getLsbD_low, Bool.and_comm]

/-- **A byte from the table** is eight shifts. -/
theorem crcByte_eq (crc : UInt32) (byte : UInt8) :
    crcByte crc byte = crcBit^[8] (crc ^^^ byte.toUInt32) := by
  have hindex : UInt32.ofNat (tableIndex crc byte) = (crc ^^^ byte.toUInt32) &&& 0xFF :=
    UInt32.ofNat_toNat
  have hshift : (crc ^^^ byte.toUInt32).toBitVec >>> 8 = (crc >>> 8).toBitVec := by
    apply eq_of_getLsbD_eq
    intro i _
    change _ = (crc.toBitVec >>> 8).getLsbD i
    rw [getLsbD_ushiftRight, getLsbD_ushiftRight, UInt32.toBitVec_xor,
      getLsbD_xor, byte_getLsbD byte (Nat.le_add_right 8 i), Bool.xor_false]
  rw [← UInt32.toBitVec_inj, crcByte, kCrcTable_get, hindex, UInt32.toBitVec_xor,
    crcBit_iterate_toBitVec, crcBit_iterate_toBitVec, and_low_byte, ← hshift,
    shift_iterate_split _ 8 (crc ^^^ byte.toUInt32).toBitVec]

theorem crc32_eq_bitwise (data : List UInt8) (crc : UInt32) :
    crc32 data crc = bitwiseCrc32 data crc := by
  have hstep : crcByte = fun c byte => crcBit^[8] (c ^^^ byte.toUInt32) :=
    funext fun c => funext fun byte => crcByte_eq c byte
  rw [crc32, bitwiseCrc32, hstep]

/-- A byte is taken in bit by bit. -/
theorem crcByte_toBitVec (crc : UInt32) (byte : UInt8) :
    (crcByte crc byte).toBitVec =
      (bitsOf byte.toBitVec).foldl (feed kPolynomial.toBitVec) crc.toBitVec := by
  rw [crcByte_eq, crcBit_iterate_toBitVec, foldl_feed _ (by decide), UInt32.toBitVec_xor,
    UInt8.toBitVec_toUInt32]

theorem foldl_toBitVec (data : List UInt8) (crc : UInt32) :
    (data.foldl crcByte crc).toBitVec = register crc.toBitVec data := by
  induction data generalizing crc with
  | nil => rfl
  | cons byte data ih =>
    rw [List.foldl_cons, ih, crcByte_toBitVec, register, register, messageBits, messageBits,
      List.flatMap_cons, List.foldl_append]

theorem crc32_append (first second : List UInt8) (crc : UInt32) :
    crc32 (first ++ second) crc = crc32 second (crc32 first crc) := by
  rw [crc32, crc32, crc32, List.foldl_append, UInt32.not_not]

/-- The checksum of some chunks, each continued from the value of those before. -/
def crc32Chunks (chunks : List (List UInt8)) (crc : UInt32) : UInt32 :=
  chunks.foldl (fun value chunk => crc32 chunk value) crc

theorem crc32Chunks_eq (chunks : List (List UInt8)) (crc : UInt32) :
    crc32Chunks chunks crc = crc32 chunks.flatten crc := by
  induction chunks generalizing crc with
  | nil => exact (UInt32.not_not).symm
  | cons chunk chunks ih =>
    rw [List.flatten_cons, crc32_append, ← ih]
    rfl

/-- **The checksum**: the table gives the reflected CRC-32 of the bits, and chunks give the value of
the whole. -/
theorem crc32_reference (crc : UInt32) :
    (∀ data, crc32 data crc = bitwiseCrc32 data crc ∧
      (crc32 data crc).toBitVec = ~~~register (~~~crc.toBitVec) data) ∧
    (∀ first second, crc32 second (crc32 first crc) = crc32 (first ++ second) crc) ∧
    ∀ chunks, crc32Chunks chunks crc = crc32 chunks.flatten crc := by
  refine ⟨fun data => ⟨crc32_eq_bitwise data crc, ?_⟩, fun first second => ?_, fun chunks => ?_⟩
  · rw [crc32, UInt32.toBitVec_not, foldl_toBitVec, UInt32.toBitVec_not]
  · exact (crc32_append first second crc).symm
  · exact crc32Chunks_eq chunks crc

example : bitwiseCrc32 [49, 50, 51, 52, 53, 54, 55, 56, 57] 0 = 0xCBF43926 := by decide +kernel

/-- **A burst changes the checksum**: two messages that differ within 32 consecutive bits. -/
theorem crc32_burst (data data' : List UInt8) (first burst burst' last : List Bool)
    (hdata : messageBits data = first ++ burst ++ last)
    (hdata' : messageBits data' = first ++ burst' ++ last) (hlength : burst.length = burst'.length)
    (hburst : burst.length ≤ 32) (hne : burst ≠ burst') (crc : UInt32) :
    crc32 data crc ≠ crc32 data' crc := by
  intro heq
  have hregister := congrArg UInt32.toBitVec (UInt32.not_inj.mp heq)
  rw [foldl_toBitVec, foldl_toBitVec, register, register, hdata, hdata', List.append_assoc,
    List.append_assoc, List.foldl_append, @List.foldl_append _ _ _ _ first] at hregister
  exact hne (foldl_feed_burst (by decide) hlength hburst hregister)

/-- A burst of ten bits over three bytes. -/
theorem crc32_burst_bytes : crc32 [0x80, 0x12, 0x03] 0 ≠ crc32 [0x00, 0x56, 0x02] 0 :=
  crc32_burst [0x80, 0x12, 0x03] [0x00, 0x56, 0x02] (.replicate 7 false)
    (true :: bitsOf 0x12#8 ++ [true]) (false :: bitsOf 0x56#8 ++ [false])
    (true :: .replicate 6 false) (by decide) (by decide) rfl (by decide) (by decide) 0

end Mcla.Crc32

import Mcla.Library.ByteReader
import Mcla.Launcher.ProfilePolicy

/-! # The library codec

`mcla_launcher_library_codec`: a library as bytes, a magic, little-endian counts and
length-prefixed texts.  The reader is written over `ByteReader`, so a read outside the
buffer would be a fault; each of its parts gets the forms it reads, and with them
`decodeLibrary_iff`: what is accepted is the encoding of a storage-valid library.
-/
namespace Mcla.Launcher
open ByteReader List

/-- Why a library is refused. -/
inductive CodecErrorCode where
  | tooLarge | truncated | invalidMagic | unsupportedVersion | invalidLength | invalidCount
  | invalidEncoding | invalidModel | trailingBytes
deriving DecidableEq

/-- The refusal, and where it arose. -/
structure CodecError where
  code : CodecErrorCode
  offset : Nat
  issue : Option Issue
deriving DecidableEq

/-- `"MCLALIB1"`. -/
def kLibraryMagic : Bytes := [77, 67, 76, 65, 76, 73, 66, 49]

def kMaximumLibraryBytes : Nat := 256 * 1024

/-- `ValidUtf16`. -/
def validUtf16 : Utf16 → Bool
  | [] => true
  | c :: rest =>
      if highSurrogate c then
        match rest with
        | [] => false
        | d :: rest => lowSurrogate d && validUtf16 rest
      else !lowSurrogate c && validUtf16 rest

/-- The loop of `ValidateStorageModel`. -/
def storedEntryError (entry : ProfileEntry) : Option CodecError :=
  if entry.id.length > 32 ∨ entry.label.length > kMaximumLabelUnits ∨
      entry.root.length > kMaximumPathUnits then some ⟨.invalidLength, 0, none⟩
  else if !validUtf16 entry.label || !validUtf16 entry.root then some ⟨.invalidEncoding, 0, none⟩
  else none

/-- `ValidateStorageModel`: a missing or dangling selection can be stored. -/
def validateStorageModel (library : ProfileLibrary) : Option CodecError :=
  if library.version ≠ kLibraryVersion then some ⟨.unsupportedVersion, 8, none⟩
  else if library.entries.length > kMaximumProfiles then some ⟨.invalidCount, 12, none⟩
  else if !library.selectedId.isEmpty && !validOpaqueId library.selectedId then
    some ⟨.invalidModel, 16, some { code := .invalidId }⟩
  else
    match library.entries.findSome? storedEntryError with
    | some error => some error
    | none =>
        match library.entries with
        | [] => none
        | first :: _ =>
            match validateLibrary { library with selectedId := first.id } with
            | some issue => some ⟨.invalidModel, 0, some issue⟩
            | none => none

/-! ## Writing -/

/-- `AppendU32`. -/
def u32Bytes (value : Nat) : Bytes :=
  [UInt8.ofNat value, UInt8.ofNat (value / 2 ^ 8), UInt8.ofNat (value / 2 ^ 16),
    UInt8.ofNat (value / 2 ^ 24)]

/-- `AppendAscii`. -/
def asciiBytes (text : Bytes) : Bytes := u32Bytes text.length ++ text

def unitBytes (c : UInt16) : Bytes := [UInt8.ofNat c.toNat, UInt8.ofNat (c.toNat / 2 ^ 8)]

/-- `AppendUtf16`. -/
def utf16Bytes (text : Utf16) : Bytes := u32Bytes text.length ++ text.flatMap unitBytes

/-- The number of a layout. -/
def layoutCode (layout : Layout) : Nat := if layout = .managedExternalV1 then 1 else 2

/-- The bytes of an entry. -/
def entryBytes (entry : ProfileEntry) : Bytes :=
  asciiBytes entry.id ++ (utf16Bytes entry.label ++
    (utf16Bytes entry.root ++ u32Bytes (layoutCode entry.layout)))

/-- The bytes of a library. -/
def libraryBytes (library : ProfileLibrary) : Bytes :=
  kLibraryMagic ++ (u32Bytes library.version ++ (u32Bytes library.entries.length ++
    (asciiBytes library.selectedId ++ library.entries.flatMap entryBytes)))

/-- `EncodeLibrary`. -/
def encodeLibrary (library : ProfileLibrary) : Except CodecError Bytes :=
  match validateStorageModel library with
  | some error => .error error
  | none =>
      if (libraryBytes library).length > kMaximumLibraryBytes then .error ⟨.tooLarge, 0, none⟩
      else .ok (libraryBytes library)

/-! ## Reading -/

/-- A `Reader` that fails with a `CodecError`. -/
abbrev Codec (α : Type) : Type := Reader CodecError α

/-- The loop of `U32`. -/
def u32Value : Codec Nat := do
  let b₀ ← Reader.byte
  let b₁ ← Reader.byte
  let b₂ ← Reader.byte
  let b₃ ← Reader.byte
  pure (b₀.toNat + b₁.toNat * 2 ^ 8 + b₂.toNat * 2 ^ 16 + b₃.toNat * 2 ^ 24)

/-- `Reader::U32`. -/
def u32 : Codec Nat := do
  let start ← Reader.offset
  let left ← Reader.remaining
  if left < 4 then Reader.fail ⟨.truncated, start, none⟩ else u32Value

/-- The loop of `Ascii`. -/
def asciiUnits : Nat → Codec Bytes
  | 0 => pure []
  | n + 1 => do
      let c ← Reader.byte
      if c.toNat > 0x7f then do
        let here ← Reader.offset
        Reader.fail ⟨.invalidEncoding, here - 1, none⟩
      else do
        let rest ← asciiUnits n
        pure (c :: rest)

/-- `Reader::Ascii`. -/
def ascii : Codec Bytes := do
  let start ← Reader.offset
  let count ← u32
  if count > 32 then Reader.fail ⟨.invalidLength, start, none⟩
  else do
    let here ← Reader.offset
    let left ← Reader.remaining
    if count > left then Reader.fail ⟨.truncated, here, none⟩ else asciiUnits count

/-- The loop of `Utf16`. -/
def utf16Units : Nat → Codec Utf16
  | 0 => pure []
  | n + 1 => do
      let low ← Reader.byte
      let high ← Reader.byte
      let rest ← utf16Units n
      pure (UInt16.ofNat (low.toNat + high.toNat * 2 ^ 8) :: rest)

/-- `Reader::Utf16`. -/
def utf16 (maximum : Nat) : Codec Utf16 := do
  let start ← Reader.offset
  let count ← u32
  if count > maximum then Reader.fail ⟨.invalidLength, start, none⟩
  else do
    let here ← Reader.offset
    let left ← Reader.remaining
    if count > left / 2 then Reader.fail ⟨.truncated, here, none⟩
    else do
      let value ← utf16Units count
      if validUtf16 value = false then Reader.fail ⟨.invalidEncoding, start + 4, none⟩
      else pure value

/-- One round of the loop of `DecodeLibrary`. -/
def entry (i : Nat) : Codec ProfileEntry := do
  let id ← ascii
  let label ← utf16 kMaximumLabelUnits
  let root ← utf16 kMaximumPathUnits
  let layoutOffset ← Reader.offset
  let layout ← u32
  if layout ≠ 1 ∧ layout ≠ 2 then
    Reader.fail ⟨.invalidModel, layoutOffset, some { code := .invalidLayout, entry := i }⟩
  else
    pure ⟨id, label, root, if layout = 1 then .managedExternalV1 else .legacyBundleUserReadOnlyV1⟩

/-- The comparison with the magic. -/
def magic : Bytes → Codec Unit
  | [] => pure ()
  | m :: rest => do
      let here ← Reader.offset
      let b ← Reader.byte
      if b ≠ m then Reader.fail ⟨.invalidMagic, here, none⟩ else magic rest

/-- The reads of `DecodeLibrary`. -/
def libraryReader : Codec ProfileLibrary := do
  let _ ← magic kLibraryMagic
  let version ← u32
  if version ≠ kLibraryVersion then Reader.fail ⟨.unsupportedVersion, 8, none⟩
  else do
    let count ← u32
    if count > kMaximumProfiles then Reader.fail ⟨.invalidCount, 12, none⟩
    else do
      let selected ← ascii
      let entries ← Reader.times entry 0 count
      pure ⟨version, entries, selected⟩

/-- The end of `DecodeLibrary`. -/
def acceptLibrary (size : Nat) :
    Option (Except CodecError ProfileLibrary × Nat) → Option (Except CodecError ProfileLibrary)
  | none => none
  | some (.error error, _) => some (.error error)
  | some (.ok library, offset) =>
      if offset ≠ size then some (.error ⟨.trailingBytes, offset, none⟩)
      else
        match validateStorageModel library with
        | some error => some (.error error)
        | none => some (.ok library)

/-- `DecodeLibrary`; a fault is a read outside the buffer. -/
def decodeLibrary (bytes : Bytes) : Option (Except CodecError ProfileLibrary) :=
  if bytes.length > kMaximumLibraryBytes then some (.error ⟨.tooLarge, 0, none⟩)
  else if bytes.length < kLibraryMagic.length then some (.error ⟨.truncated, 0, none⟩)
  else acceptLibrary bytes.length (libraryReader bytes 0)

/-! ## What the readers read -/

theorem u32Bytes_length (n : Nat) : (u32Bytes n).length = 4 := rfl

theorem ofNat_eq_of_mod {n : Nat} {b : UInt8} (h : n % 256 = b.toNat) : UInt8.ofNat n = b := by
  apply UInt8.toNat_inj.mp
  rw [UInt8.toNat_ofNat']
  exact h

/-- The four bytes of a word. -/
theorem u32Bytes_eq {n : Nat} (b₀ b₁ b₂ b₃ : UInt8)
    (h : n = b₀.toNat + b₁.toNat * 2 ^ 8 + b₂.toNat * 2 ^ 16 + b₃.toNat * 2 ^ 24) :
    u32Bytes n = [b₀, b₁, b₂, b₃] := by
  have h₀ := b₀.toNat_lt
  have h₁ := b₁.toNat_lt
  have h₂ := b₂.toNat_lt
  have h₃ := b₃.toNat_lt
  rw [u32Bytes, ofNat_eq_of_mod (b := b₀) (by omega), ofNat_eq_of_mod (b := b₁) (by omega),
    ofNat_eq_of_mod (b := b₂) (by omega), ofNat_eq_of_mod (b := b₃) (by omega)]

theorem u32_of_bytes {n : Nat} (hn : n < 2 ^ 32) :
    n = (UInt8.ofNat n).toNat + (UInt8.ofNat (n / 2 ^ 8)).toNat * 2 ^ 8 +
      (UInt8.ofNat (n / 2 ^ 16)).toNat * 2 ^ 16 + (UInt8.ofNat (n / 2 ^ 24)).toNat * 2 ^ 24 := by
  simp only [UInt8.toNat_ofNat']
  omega

theorem reads_u32Value : ReadsFrom 4 u32Value fun n form => n < 2 ^ 32 ∧ form = u32Bytes n := by
  refine (ReadsFrom.next fun b₀ => ReadsFrom.next fun b₁ => ReadsFrom.next fun b₂ => ReadsFrom.next fun b₃ =>
    ReadsFrom.pure _).congr fun n form => ?_
  constructor
  · rintro ⟨b₀, _, ⟨b₁, _, ⟨b₂, _, ⟨b₃, _, ⟨hn, rfl⟩, rfl⟩, rfl⟩, rfl⟩, rfl⟩
    have h₀ := b₀.toNat_lt
    have h₁ := b₁.toNat_lt
    have h₂ := b₂.toNat_lt
    have h₃ := b₃.toNat_lt
    exact ⟨by omega, (u32Bytes_eq b₀ b₁ b₂ b₃ hn).symm⟩
  · rintro ⟨hn, rfl⟩
    exact ⟨_, _, ⟨_, _, ⟨_, _, ⟨_, [], ⟨u32_of_bytes hn, rfl⟩, rfl⟩, rfl⟩, rfl⟩, rfl⟩

theorem reads_u32 : Reads u32 fun n form => n < 2 ^ 32 ∧ form = u32Bytes n :=
  ReadsFrom.offset fun _ => ReadsFrom.guarded reads_u32Value (fun _ => Iff.rfl) fun n form h => by
    rw [h.2, u32Bytes_length]

/-- Seven bits in every byte. -/
def Ascii (text : Bytes) : Prop := ∀ c ∈ text, c.toNat ≤ 0x7f

theorem reads_asciiUnits (n : Nat) :
    ReadsFrom n (asciiUnits n) fun text form => text.length = n ∧ Ascii text ∧ form = text := by
  induction n with
  | zero =>
    refine (ReadsFrom.pure []).congr fun text form => ?_
    constructor
    · rintro ⟨rfl, rfl⟩
      exact ⟨rfl, by simp [Ascii], rfl⟩
    · rintro ⟨hlength, -, rfl⟩
      exact ⟨length_eq_zero_iff.mp hlength, length_eq_zero_iff.mp hlength⟩
  | succ n ih =>
    have hrest : ∀ c, ReadsFrom n (asciiUnits n >>= fun rest => pure (c :: rest) : Codec Bytes)
        fun text form => ∃ rest : Bytes, (rest.length = n ∧ Ascii rest ∧ form = rest) ∧
          text = c :: rest := by
      intro c
      refine (ReadsFrom.bind ih fun rest _ _ =>
        (ReadsFrom.pure (c :: rest)).mono (Nat.zero_le _)).congr fun text form => ?_
      constructor
      · rintro ⟨rest, first, _, hrest, ⟨rfl, rfl⟩, rfl⟩
        exact ⟨rest, by simpa using hrest, rfl⟩
      · rintro ⟨rest, hrest, rfl⟩
        exact ⟨rest, form, [], hrest, ⟨rfl, rfl⟩, (append_nil form).symm⟩
    refine (ReadsFrom.next fun c => ReadsFrom.ite
      (fun _ => (ReadsFrom.offset fun _ => ReadsFrom.fail _).mono (Nat.zero_le n))
      fun _ => hrest c).congr fun text form => ?_
    constructor
    · rintro ⟨c, rest, h, rfl⟩
      rcases h with ⟨-, h⟩ | ⟨hc, tail, ⟨hlength, hascii, rfl⟩, rfl⟩
      · exact h.elim
      · refine ⟨by rw [length_cons, hlength], ?_, rfl⟩
        intro d hd
        rcases mem_cons.mp hd with rfl | hd
        · exact Nat.not_lt.mp hc
        · exact hascii d hd
    · rintro ⟨hlength, hascii, rfl⟩
      cases form with
      | nil => cases hlength
      | cons c rest =>
        refine ⟨c, rest, .inr ⟨Nat.not_lt.mpr (hascii c mem_cons_self), rest,
          ⟨by simpa using hlength, fun d hd => hascii d (mem_cons_of_mem c hd), rfl⟩, rfl⟩, rfl⟩

theorem reads_ascii :
    Reads ascii fun text form => text.length ≤ 32 ∧ Ascii text ∧ form = asciiBytes text := by
  have hbody : ∀ count, Reads (Reader.offset >>= fun here => Reader.remaining >>= fun left =>
      if count > left then Reader.fail ⟨.truncated, here, none⟩ else asciiUnits count : Codec Bytes)
      fun text form => text.length = count ∧ Ascii text ∧ form = text := by
    intro count
    refine ReadsFrom.offset fun here => ReadsFrom.guarded (reads_asciiUnits count)
      (fun _ => Iff.rfl) fun text form h => ?_
    rw [h.2.2, h.1]
  refine (ReadsFrom.offset fun start => ReadsFrom.seq reads_u32 fun count _ _ =>
    ReadsFrom.refuse (p := count > 32) (e := ⟨.invalidLength, start, none⟩) fun _ =>
      hbody count).congr fun text form => ?_
  constructor
  · rintro ⟨count, _, _, ⟨-, rfl⟩, ⟨hle, rfl, hascii, rfl⟩, rfl⟩
    exact ⟨Nat.not_lt.mp hle, hascii, rfl⟩
  · rintro ⟨hle, hascii, rfl⟩
    exact ⟨text.length, u32Bytes text.length, text, ⟨by omega, rfl⟩,
      ⟨Nat.not_lt.mpr hle, rfl, hascii, rfl⟩, rfl⟩

theorem unitBytes_eq {c : UInt16} (low high : UInt8)
    (h : c = UInt16.ofNat (low.toNat + high.toNat * 2 ^ 8)) : unitBytes c = [low, high] := by
  have hlow := low.toNat_lt
  have hhigh := high.toNat_lt
  have hc : c.toNat = low.toNat + high.toNat * 2 ^ 8 := by
    rw [h, UInt16.toNat_ofNat']
    omega
  rw [unitBytes, ofNat_eq_of_mod (b := low) (by omega), ofNat_eq_of_mod (b := high) (by omega)]

theorem unit_of_bytes (c : UInt16) :
    c = UInt16.ofNat ((UInt8.ofNat c.toNat).toNat + (UInt8.ofNat (c.toNat / 2 ^ 8)).toNat * 2 ^ 8) := by
  have hc := c.toNat_lt
  apply UInt16.toNat_inj.mp
  rw [UInt16.toNat_ofNat', UInt8.toNat_ofNat', UInt8.toNat_ofNat']
  omega

theorem unitsBytes_length (text : Utf16) : (text.flatMap unitBytes).length = 2 * text.length := by
  induction text with
  | nil => rfl
  | cons c rest ih =>
    rw [flatMap_cons, length_append, ih, length_cons]
    simp only [unitBytes, length_cons, length_nil]
    omega

theorem reads_utf16Units (n : Nat) :
    ReadsFrom (2 * n) (utf16Units n) fun text form =>
      text.length = n ∧ form = text.flatMap unitBytes := by
  induction n with
  | zero =>
    refine (ReadsFrom.pure []).congr fun text form => ?_
    constructor
    · rintro ⟨rfl, rfl⟩
      exact ⟨rfl, rfl⟩
    · rintro ⟨hlength, rfl⟩
      rw [length_eq_zero_iff.mp hlength]
      exact ⟨rfl, rfl⟩
  | succ n ih =>
    have hstep := ReadsFrom.next fun low => ReadsFrom.next fun high => ReadsFrom.bind ih fun rest _ _ =>
      (ReadsFrom.pure (UInt16.ofNat (low.toNat + high.toNat * 2 ^ 8) :: rest)).mono (Nat.zero_le _)
    refine hstep.congr fun text form => ?_
    constructor
    · rintro ⟨low, _, ⟨high, _, ⟨rest, _, _, ⟨hlength, rfl⟩, ⟨rfl, rfl⟩, rfl⟩, rfl⟩, rfl⟩
      refine ⟨by rw [length_cons, hlength], ?_⟩
      rw [flatMap_cons, unitBytes_eq low high rfl, append_nil]
      rfl
    · rintro ⟨hlength, rfl⟩
      cases text with
      | nil => cases hlength
      | cons c rest =>
        exact ⟨_, _, ⟨_, _, ⟨rest, rest.flatMap unitBytes, [], ⟨by simpa using hlength, rfl⟩,
          ⟨by rw [← unit_of_bytes c], rfl⟩, (append_nil _).symm⟩, rfl⟩, rfl⟩

theorem reads_utf16 {maximum : Nat} (hmax : maximum < 2 ^ 32) :
    Reads (utf16 maximum) fun text form =>
      text.length ≤ maximum ∧ validUtf16 text = true ∧ form = utf16Bytes text := by
  have hvalue : ∀ start count, ReadsFrom (2 * count) (utf16Units count >>= fun value =>
      if validUtf16 value = false then Reader.fail ⟨.invalidEncoding, start + 4, none⟩
      else pure value : Codec Utf16)
      fun text form => text.length = count ∧ validUtf16 text = true ∧
        form = text.flatMap unitBytes := by
    intro start count
    refine (ReadsFrom.bind (reads_utf16Units count) fun value _ _ =>
      (ReadsFrom.refuse fun _ => ReadsFrom.pure value).mono (Nat.zero_le _)).congr
      fun text form => ?_
    constructor
    · rintro ⟨value, _, _, ⟨hlength, rfl⟩, ⟨hvalid, rfl, rfl⟩, rfl⟩
      exact ⟨hlength, by simpa using hvalid, append_nil _⟩
    · rintro ⟨hlength, hvalid, rfl⟩
      exact ⟨text, _, [], ⟨hlength, rfl⟩, ⟨by simp [hvalid], rfl, rfl⟩, (append_nil _).symm⟩
  have hbody : ∀ start count, Reads (Reader.offset >>= fun here => Reader.remaining >>= fun left =>
      if count > left / 2 then Reader.fail ⟨.truncated, here, none⟩
      else utf16Units count >>= fun value =>
        if validUtf16 value = false then Reader.fail ⟨.invalidEncoding, start + 4, none⟩
        else pure value : Codec Utf16)
      fun text form => text.length = count ∧ validUtf16 text = true ∧
        form = text.flatMap unitBytes := by
    intro start count
    refine ReadsFrom.offset fun here => ReadsFrom.guarded (hvalue start count)
      (fun n => by omega) fun text form h => ?_
    rw [h.2.2, unitsBytes_length, h.1]
  refine (ReadsFrom.offset fun start => ReadsFrom.seq reads_u32 fun count _ _ =>
    ReadsFrom.refuse (p := count > maximum) (e := ⟨.invalidLength, start, none⟩) fun _ =>
      hbody start count).congr fun text form => ?_
  constructor
  · rintro ⟨count, _, _, ⟨-, rfl⟩, ⟨hle, rfl, hvalid, rfl⟩, rfl⟩
    exact ⟨Nat.not_lt.mp hle, hvalid, rfl⟩
  · rintro ⟨hle, hvalid, rfl⟩
    exact ⟨text.length, u32Bytes text.length, _, ⟨by omega, rfl⟩,
      ⟨Nat.not_lt.mpr hle, rfl, hvalid, rfl⟩, rfl⟩

/-- What an entry needs to be read back. -/
structure EntryStored (entry : ProfileEntry) : Prop where
  id : entry.id.length ≤ 32 ∧ Ascii entry.id
  label : entry.label.length ≤ kMaximumLabelUnits ∧ validUtf16 entry.label = true
  root : entry.root.length ≤ kMaximumPathUnits ∧ validUtf16 entry.root = true
  layout : entry.layout = .managedExternalV1 ∨ entry.layout = .legacyBundleUserReadOnlyV1

theorem reads_entry (i : Nat) :
    Reads (entry i) fun e form => EntryStored e ∧ form = entryBytes e := by
  have hlabel := @reads_utf16 kMaximumLabelUnits (by decide)
  have hroot := @reads_utf16 kMaximumPathUnits (by decide)
  refine (ReadsFrom.seq reads_ascii fun id _ _ => ReadsFrom.seq hlabel fun label _ _ =>
    ReadsFrom.seq hroot fun root _ _ => ReadsFrom.offset fun layoutOffset =>
    ReadsFrom.seq reads_u32 fun layout _ _ =>
    ReadsFrom.refuse (p := layout ≠ 1 ∧ layout ≠ 2)
      (e := CodecError.mk .invalidModel layoutOffset
        (some { code := .invalidLayout, entry := i })) fun _ =>
    ReadsFrom.pure (⟨id, label, root,
      if layout = 1 then .managedExternalV1 else .legacyBundleUserReadOnlyV1⟩ : ProfileEntry)).congr
    fun e form => ?_
  constructor
  · rintro ⟨id, _, _, ⟨hid, hascii, rfl⟩, ⟨label, _, _, ⟨hlabel, hlabel', rfl⟩, ⟨root, _, _,
      ⟨hroot, hroot', rfl⟩, ⟨layout, _, _, ⟨-, rfl⟩, ⟨hlayout, rfl, rfl⟩, rfl⟩, rfl⟩, rfl⟩, rfl⟩
    have hcases : layout = 1 ∨ layout = 2 := by omega
    refine ⟨⟨⟨hid, hascii⟩, ⟨hlabel, hlabel'⟩, ⟨hroot, hroot'⟩, ?_⟩, ?_⟩
    · rcases hcases with rfl | rfl
      · exact .inl rfl
      · exact .inr rfl
    · rcases hcases with rfl | rfl <;> rfl
  · rintro ⟨⟨⟨hid, hascii⟩, ⟨hlabel, hlabel'⟩, ⟨hroot, hroot'⟩, hlayout⟩, rfl⟩
    refine ⟨e.id, _, _, ⟨hid, hascii, rfl⟩, ⟨e.label, _, _, ⟨hlabel, hlabel', rfl⟩, ⟨e.root, _, _,
      ⟨hroot, hroot', rfl⟩, ⟨layoutCode e.layout, _, [], ⟨?_, rfl⟩, ⟨?_, ?_, rfl⟩,
        (append_nil _).symm⟩, rfl⟩, rfl⟩, rfl⟩
    · rcases hlayout with h | h <;> rw [h] <;> decide
    · rcases hlayout with h | h <;> rw [h] <;> decide
    · obtain ⟨id, label, root, layout⟩ := e
      rcases hlayout with h | h
      · obtain rfl : layout = .managedExternalV1 := h
        rfl
      · obtain rfl : layout = .legacyBundleUserReadOnlyV1 := h
        rfl

theorem reads_magic (m : Bytes) : ReadsFrom m.length (magic m) fun _ form => form = m := by
  induction m with
  | nil => exact (ReadsFrom.pure ()).congr fun _ form => by simp
  | cons b rest ih =>
    refine (ReadsFrom.offset fun here => ReadsFrom.next fun c =>
      ReadsFrom.refuse (p := c ≠ b) (e := CodecError.mk .invalidMagic here none) fun _ => ih).congr
      fun _ form => ?_
    constructor
    · rintro ⟨c, _, ⟨hc, rfl⟩, rfl⟩
      rw [not_not.mp hc]
    · rintro rfl
      exact ⟨b, rest, ⟨not_not.mpr rfl, rfl⟩, rfl⟩

/-- What a library needs to be read back. -/
structure LibraryStored (library : ProfileLibrary) : Prop where
  version : library.version = kLibraryVersion
  count : library.entries.length ≤ kMaximumProfiles
  selected : library.selectedId.length ≤ 32 ∧ Ascii library.selectedId
  entries : ∀ e ∈ library.entries, EntryStored e

theorem reads_library :
    ReadsFrom 8 libraryReader fun library form =>
      LibraryStored library ∧ form = libraryBytes library := by
  have hbody : Reads (u32 >>= fun version =>
      if version ≠ kLibraryVersion then Reader.fail ⟨.unsupportedVersion, 8, none⟩
      else u32 >>= fun count =>
        if count > kMaximumProfiles then Reader.fail ⟨.invalidCount, 12, none⟩
        else ascii >>= fun selected => Reader.times entry 0 count >>= fun entries =>
          pure ⟨version, entries, selected⟩ : Codec ProfileLibrary) _ :=
    ReadsFrom.seq reads_u32 fun version _ _ => ReadsFrom.refuse fun _ =>
      ReadsFrom.seq reads_u32 fun count _ _ => ReadsFrom.refuse fun _ =>
      ReadsFrom.seq reads_ascii fun selected _ _ =>
      ReadsFrom.seq (ReadsFrom.times_encoded reads_entry 0 count) fun entries _ _ =>
      ReadsFrom.pure (⟨version, entries, selected⟩ : ProfileLibrary)
  refine (ReadsFrom.bind (reads_magic kLibraryMagic) fun _ _ _ =>
    hbody.mono (Nat.zero_le _)).congr fun library form => ?_
  constructor
  · rintro ⟨-, _, _, rfl, ⟨version, _, _, ⟨-, rfl⟩, ⟨hversion, count, _, _, ⟨-, rfl⟩, ⟨hcount,
      selected, _, _, ⟨hselected, hascii, rfl⟩, ⟨entries, _, _, ⟨rfl, hentries, rfl⟩, ⟨rfl, rfl⟩,
        rfl⟩, rfl⟩, rfl⟩, rfl⟩, rfl⟩
    refine ⟨⟨not_not.mp hversion, Nat.not_lt.mp hcount, ⟨hselected, hascii⟩, hentries⟩, ?_⟩
    rw [libraryBytes, append_nil]
  · rintro ⟨⟨hversion, hcount, ⟨hselected, hascii⟩, hentries⟩, rfl⟩
    have hcount' : library.entries.length < 2 ^ 32 := Nat.lt_of_le_of_lt hcount (by decide)
    refine ⟨(), _, _, rfl, ⟨library.version, _, _, ⟨?_, rfl⟩, ⟨not_not.mpr hversion,
      library.entries.length, _, _, ⟨hcount', rfl⟩, ⟨Nat.not_lt.mpr hcount, library.selectedId, _, _,
        ⟨hselected, hascii, rfl⟩, ⟨library.entries, _, [], ⟨rfl, hentries, rfl⟩, ⟨rfl, rfl⟩,
          (append_nil _).symm⟩, rfl⟩, rfl⟩, rfl⟩, rfl⟩
    rw [hversion]
    decide

/-! ## The codec -/

theorem ascii_of_validOpaqueId {id : Bytes} (h : validOpaqueId id = true) :
    id.length ≤ 32 ∧ Ascii id := by
  simp only [validOpaqueId, Bool.and_eq_true, beq_iff_eq, all_eq_true, Bool.or_eq_true,
    decide_eq_true_eq] at h
  refine ⟨h.1.1.le, fun c hc => ?_⟩
  have := h.1.2 c hc
  omega

theorem storedEntryError_eq_none {entry : ProfileEntry} (h : storedEntryError entry = none) :
    (entry.label.length ≤ kMaximumLabelUnits ∧ validUtf16 entry.label = true) ∧
      (entry.root.length ≤ kMaximumPathUnits ∧ validUtf16 entry.root = true) := by
  unfold storedEntryError at h
  split_ifs at h with hlength hvalid
  simp only [not_or, Nat.not_lt] at hlength
  simp only [Bool.or_eq_true, Bool.not_eq_true', not_or, Bool.not_eq_false] at hvalid
  exact ⟨⟨hlength.2.1, hvalid.1⟩, hlength.2.2, hvalid.2⟩

variable {library : ProfileLibrary} {bytes : Bytes}

/-- A storage-valid library can be read back. -/
theorem stored_of_validateStorageModel (h : validateStorageModel library = none) :
    LibraryStored library := by
  unfold validateStorageModel at h
  split_ifs at h with hversion hcount hselected
  have hid : library.selectedId.length ≤ 32 ∧ Ascii library.selectedId := by
    cases hempty : library.selectedId.isEmpty with
    | true =>
      rw [List.isEmpty_iff.mp hempty]
      exact ⟨Nat.zero_le _, by simp [Ascii]⟩
    | false =>
      rw [hempty] at hselected
      exact ascii_of_validOpaqueId (by simpa using hselected)
  refine ⟨not_not.mp hversion, Nat.not_lt.mp hcount, hid, fun e he => ?_⟩
  cases hfind : library.entries.findSome? storedEntryError with
  | some error =>
    rw [hfind] at h
    cases h
  | none =>
    have herror := storedEntryError_eq_none (findSome?_eq_none_iff.mp hfind e he)
    simp only [hfind] at h
    cases hentries : library.entries with
    | nil =>
      rw [hentries] at he
      cases he
    | cons first rest =>
      simp only [hentries] at h
      cases hvalid : validateLibrary { library with selectedId := first.id } with
      | some issue =>
        rw [← hentries] at h
        rw [hvalid] at h
        cases h
      | none =>
        obtain ⟨hid, -, hlayout, -⟩ := (validateLibrary_eq_none hvalid).2 e he
        exact ⟨ascii_of_validOpaqueId hid, herror.1, herror.2, hlayout⟩

theorem entryBytes_length_le {e : ProfileEntry} (h : EntryStored e) :
    (entryBytes e).length ≤ 2256 := by
  have hid := h.id.1
  have hlabel := h.label.1
  have hroot := h.root.1
  unfold kMaximumLabelUnits at hlabel
  unfold kMaximumPathUnits at hroot
  simp only [entryBytes, asciiBytes, utf16Bytes, length_append, u32Bytes_length, unitsBytes_length]
  omega

theorem flatMap_entryBytes_length_le {entries : List ProfileEntry}
    (h : ∀ e ∈ entries, EntryStored e) :
    (entries.flatMap entryBytes).length ≤ entries.length * 2256 := by
  induction entries with
  | nil => exact Nat.zero_le _
  | cons e rest ih =>
    have hfirst := entryBytes_length_le (h e mem_cons_self)
    have hrest := ih fun e he => h e (mem_cons_of_mem _ he)
    rw [flatMap_cons, length_append, length_cons]
    omega

/-- An encoding fits the bound, and holds at least the magic. -/
theorem libraryBytes_length (h : LibraryStored library) :
    8 ≤ (libraryBytes library).length ∧ (libraryBytes library).length ≤ kMaximumLibraryBytes := by
  have hentries := flatMap_entryBytes_length_le h.entries
  have hcount := h.count
  have hselected := h.selected.1
  have hmagic : kLibraryMagic.length = 8 := rfl
  unfold kMaximumProfiles at hcount
  simp only [libraryBytes, asciiBytes, length_append, u32Bytes_length, hmagic, kMaximumLibraryBytes]
  omega

theorem encodeLibrary_iff :
    encodeLibrary library = .ok bytes ↔
      validateStorageModel library = none ∧ bytes = libraryBytes library := by
  unfold encodeLibrary
  cases hvalid : validateStorageModel library with
  | some error => simp
  | none =>
    have hlength := (libraryBytes_length (stored_of_validateStorageModel hvalid)).2
    simp only [if_neg (Nat.not_lt.mpr hlength), Except.ok.injEq, true_and, eq_comm]

theorem decodeLibrary_eq (hsmall : 8 ≤ bytes.length) (hlarge : bytes.length ≤ kMaximumLibraryBytes)
    :
    decodeLibrary bytes = acceptLibrary bytes.length (libraryReader bytes 0) := by
  rw [decodeLibrary, if_neg (Nat.not_lt.mpr hlarge), if_neg]
  exact Nat.not_lt.mpr hsmall

/-- Outside the bounds nothing is read. -/
theorem decodeLibrary_bounds (bytes : Bytes) :
    (8 ≤ bytes.length ∧ bytes.length ≤ kMaximumLibraryBytes) ∨
      ∃ error, decodeLibrary bytes = some (.error error) := by
  unfold decodeLibrary
  by_cases hlarge : bytes.length > kMaximumLibraryBytes
  · exact .inr ⟨_, if_pos hlarge⟩
  · by_cases hsmall : bytes.length < kLibraryMagic.length
    · right
      rw [if_neg hlarge, if_pos hsmall]
      exact ⟨_, rfl⟩
    · exact .inl ⟨Nat.not_lt.mp hsmall, Nat.not_lt.mp hlarge⟩

theorem lt_of_le_maximum (h : bytes.length ≤ kMaximumLibraryBytes) : bytes.length < 2 ^ 64 :=
  Nat.lt_of_le_of_lt h (by decide)

theorem acceptLibrary_ok {size : Nat} {outcome : Option (Except CodecError ProfileLibrary × Nat)} :
    acceptLibrary size outcome = some (.ok library) ↔
      outcome = some (.ok library, size) ∧ validateStorageModel library = none := by
  rcases outcome with - | ⟨error | read, offset⟩
  · simp [acceptLibrary]
  · simp [acceptLibrary]
  · simp only [acceptLibrary]
    by_cases hsize : offset = size
    · subst hsize
      rw [if_neg (not_not.mpr rfl)]
      cases hvalid : validateStorageModel read with
      | some error =>
        refine iff_of_false (by simp) ?_
        rintro ⟨heq, hnone⟩
        cases heq
        rw [hvalid] at hnone
        cases hnone
      | none =>
        constructor
        · intro h
          cases h
          exact ⟨rfl, hvalid⟩
        · rintro ⟨heq, -⟩
          cases heq
          rfl
    · rw [if_pos hsize]
      refine iff_of_false (by simp) ?_
      rintro ⟨heq, -⟩
      cases heq
      exact hsize rfl

/-- **`DecodeLibrary` accepts exactly the encodings of storage-valid libraries.** -/
theorem decodeLibrary_iff :
    decodeLibrary bytes = some (.ok library) ↔
      validateStorageModel library = none ∧ bytes = libraryBytes library := by
  constructor
  · intro h
    rcases decodeLibrary_bounds bytes with ⟨hsmall, hlarge⟩ | ⟨error, herror⟩
    · rw [decodeLibrary_eq hsmall hlarge, acceptLibrary_ok] at h
      refine ⟨h.2, ?_⟩
      have hform := (reads_library.rest (lt_of_le_maximum hlarge) (by omega)).mp h.1
      rw [drop_zero] at hform
      exact hform.2
    · rw [h] at herror
      cases herror
  · rintro ⟨hvalid, rfl⟩
    have hstored := stored_of_validateStorageModel hvalid
    obtain ⟨hsmall, hlarge⟩ := libraryBytes_length hstored
    rw [decodeLibrary_eq hsmall hlarge, acceptLibrary_ok]
    refine ⟨(reads_library.rest (lt_of_le_maximum hlarge) (by omega)).mpr ?_, hvalid⟩
    rw [drop_zero]
    exact ⟨hstored, rfl⟩

/-- No read of `DecodeLibrary` leaves the buffer. -/
theorem decodeLibrary_ne_none (bytes : Bytes) : decodeLibrary bytes ≠ none := by
  rcases decodeLibrary_bounds bytes with ⟨hsmall, hlarge⟩ | ⟨error, herror⟩
  · obtain ⟨result, after, hrun, -, -⟩ := reads_library.safe (lt_of_le_maximum hlarge)
      (show 0 + 8 ≤ bytes.length by omega)
    rw [decodeLibrary_eq hsmall hlarge, hrun]
    cases result with
    | error error => simp [acceptLibrary]
    | ok library =>
      simp only [acceptLibrary]
      split_ifs
      · simp
      · cases validateStorageModel library <;> simp
  · rw [herror]
    simp

/-- **The library codec is a bijection** between storage-valid libraries and the byte
strings that `DecodeLibrary` accepts, and no read of it leaves the buffer. -/
theorem libraryCodec_bijective :
    (∀ library bytes, encodeLibrary library = .ok bytes →
      decodeLibrary bytes = some (.ok library)) ∧
    (∀ bytes library, decodeLibrary bytes = some (.ok library) →
      encodeLibrary library = .ok bytes) ∧
    (∀ bytes, (∃ library, decodeLibrary bytes = some (.ok library)) ↔
      ∃ library, validateStorageModel library = none ∧ bytes = libraryBytes library) ∧
    (∀ library, validateStorageModel library = none ↔ ∃ bytes, encodeLibrary library = .ok bytes) ∧
    ∀ bytes, decodeLibrary bytes ≠ none := by
  refine ⟨fun library bytes h => ?_, fun bytes library h => ?_, fun bytes => ?_, fun library => ?_,
    decodeLibrary_ne_none⟩
  · exact decodeLibrary_iff.mpr (encodeLibrary_iff.mp h)
  · exact encodeLibrary_iff.mpr (decodeLibrary_iff.mp h)
  · exact exists_congr fun library => decodeLibrary_iff
  · constructor
    · intro hvalid
      exact ⟨libraryBytes library, encodeLibrary_iff.mpr ⟨hvalid, rfl⟩⟩
    · rintro ⟨bytes, h⟩
      exact (encodeLibrary_iff.mp h).1

end Mcla.Launcher

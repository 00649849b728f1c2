import Mcla.Launcher.LibraryCodec

/-! # The preferences codec

`mcla_launcher_preferences`: the library, two roots, the adapter, the render target and
the modes of a launcher, in three versions of one format.  The writer takes the oldest
version that can express the model; the reader takes each version for what that version
can say.

`decodePreferences_iff` gives the forms of a model: its encoding, and the form of version
two where the encoding is of version one.
-/
namespace Mcla.Launcher
open ByteReader List

/-- What the launcher keeps between two runs. -/
structure Preferences where
  library : ProfileLibrary
  (buildRoot gameRoot gpuName : Utf16)
  renderTarget : Nat
  (vsync fullscreen : Bool)
  timing : TimingMode
deriving DecidableEq

def kUnlockedTimingCode : Nat := 2
def kMaximumPreferencesBytes : Nat := kMaximumLibraryBytes + 8192

/-- The ids of `kRenderTargets`. -/
def kRenderTargetIds : List Nat := [720, 1080, 1440, 2160]

/-- The default model of a first run. -/
def firstRunPreferences (underWine : Bool) : Preferences :=
  ⟨⟨kLibraryVersion, [], []⟩, [], [], [], 720, true, underWine, .stock⟩

/-- Whether the preferences may be stored. -/
def validPreferences (p : Preferences) : Bool :=
  (p.buildRoot.isEmpty || (normalizeRoot p.buildRoot).isOk) &&
    (p.gameRoot.isEmpty || (normalizeRoot p.gameRoot).isOk) &&
    (p.gpuName.length ≤ 200 && safeUnicode p.gpuName) &&
    (p.timing == .stock || p.timing == .unlocked) && p.renderTarget ∈ kRenderTargetIds

/-- `"MCLAPRF"`. -/
def kPreferencesMagic : Bytes := [77, 67, 76, 65, 80, 82, 70]

/-- The bytes of a version, with what it stores for the target and after the modes. -/
def preferencesBytes (version : UInt8) (storedTarget : Nat) (timing : Bytes) (p : Preferences) :
    Bytes :=
  kPreferencesMagic ++ ([version] ++ (u32Bytes (libraryBytes p.library).length ++
    (libraryBytes p.library ++ (utf16Bytes p.buildRoot ++ (utf16Bytes p.gameRoot ++
      (utf16Bytes p.gpuName ++ (u32Bytes storedTarget ++ (u32Bytes (if p.vsync then 1 else 0) ++
        (u32Bytes (if p.fullscreen then 1 else 0) ++ timing)))))))))

/-- `EncodePreferences`. -/
def encodePreferences (p : Preferences) : Except CodecError Bytes :=
  match encodeLibrary p.library with
  | .error error => .error error
  | .ok _ =>
      if !validPreferences p then .error ⟨.invalidModel, 0, none⟩
      else if p.timing = .unlocked then
        .ok (preferencesBytes 51 p.renderTarget (u32Bytes kUnlockedTimingCode) p)
      else if p.renderTarget = 720 then .ok (preferencesBytes 49 1 [] p)
      else if p.renderTarget = 1440 then .ok (preferencesBytes 49 2 [] p)
      else .ok (preferencesBytes 50 p.renderTarget [] p)

/-- What `DecodePreferences` reads. -/
structure StoredPreferences where
  library : ProfileLibrary
  (buildRoot gameRoot gpuName : Utf16)
  (storedTarget vsync fullscreen : Nat)
  timing : TimingMode

/-- The timing code of version three. -/
def timingReader (version : UInt8) : Codec TimingMode :=
  if version = 51 then do
    let code ← Reader.attempt u32
    match code with
    | .error _ => Reader.fail ⟨.truncated, 0, none⟩
    | .ok code =>
        if code ≠ kUnlockedTimingCode then Reader.fail ⟨.invalidModel, 0, none⟩
        else pure .unlocked
  else pure .stock

/-- The reads of `DecodePreferences` after the magic. -/
def preferencesReader (version : UInt8) : Codec StoredPreferences := do
  let n ← u32
  let left ← Reader.remaining
  if n > kMaximumLibraryBytes ∨ n > left then Reader.fail ⟨.invalidLength, 0, none⟩
  else do
    let library ← Reader.sub n decodeLibrary
    Reader.three (utf16 kMaximumPathUnits) (utf16 kMaximumPathUnits) (utf16 200)
      ⟨.invalidLength, 0, none⟩ fun build game gpu =>
        Reader.three u32 u32 u32 ⟨.truncated, 0, none⟩ fun storedTarget vsync fullscreen => do
          let timing ← timingReader version
          pure ⟨library, build, game, gpu, storedTarget, vsync, fullscreen, timing⟩

/-- The render target that a version stores. -/
def storedTarget? (version : UInt8) (stored : Nat) : Option Nat :=
  if version = 49 then
    if stored = 1 then some 720 else if stored = 2 then some 1440 else none
  else some stored

/-- The end of `DecodePreferences`. -/
def acceptPreferences (version : UInt8) (size : Nat) :
    Option (Except CodecError StoredPreferences × Nat) → Option (Except CodecError Preferences)
  | none => none
  | some (.error error, _) => some (.error error)
  | some (.ok s, offset) =>
      if s.vsync > 1 ∨ s.fullscreen > 1 ∨ offset ≠ size then
        some (.error ⟨.invalidModel, 0, none⟩)
      else
        match storedTarget? version s.storedTarget with
        | none => some (.error ⟨.invalidModel, 0, none⟩)
        | some target =>
            let p : Preferences := ⟨s.library, s.buildRoot, s.gameRoot, s.gpuName, target,
              s.vsync == 1, s.fullscreen == 1, s.timing⟩
            if !validPreferences p then some (.error ⟨.invalidModel, 0, none⟩)
            else some (.ok p)

/-- `DecodePreferences`; a fault is a read outside the buffer. -/
def decodePreferences (bytes : Bytes) : Option (Except CodecError Preferences) :=
  if bytes.length > kMaximumPreferencesBytes then some (.error ⟨.tooLarge, 0, none⟩)
  else if bytes.length < 8 then some (.error ⟨.truncated, 0, none⟩)
  else
    match bytes[7]? with
    | none => none
    | some version =>
        if bytes.take 7 ≠ kPreferencesMagic ∨ (version ≠ 49 ∧ version ≠ 50 ∧ version ≠ 51) then
          some (.error ⟨.invalidMagic, 0, none⟩)
        else acceptPreferences version bytes.length (preferencesReader version bytes 8)

/-! ## What the reader reads -/

/-- The timing bytes of a version. -/
def timingBytes (version : UInt8) : Bytes :=
  if version = 51 then u32Bytes kUnlockedTimingCode else []

/-- The timing that a version stands for. -/
def versionTiming (version : UInt8) : TimingMode := if version = 51 then .unlocked else .stock

theorem reads_timing (version : UInt8) :
    Reads (timingReader version) fun timing form =>
      timing = versionTiming version ∧ form = timingBytes version := by
  unfold timingReader versionTiming timingBytes
  by_cases hversion : version = 51
  · rw [if_pos hversion, if_pos hversion, if_pos hversion]
    have hcode : ∀ code : Nat, Reads (if code ≠ kUnlockedTimingCode then
        Reader.fail ⟨.invalidModel, 0, none⟩ else pure .unlocked : Codec TimingMode)
        fun timing form => code = kUnlockedTimingCode ∧ timing = .unlocked ∧ form = [] := fun code =>
      (ReadsFrom.refuse fun _ => ReadsFrom.pure TimingMode.unlocked).congr fun timing form => by
        rw [not_not]
    refine (ReadsFrom.attempt (S := fun code timing form => code = kUnlockedTimingCode ∧
      timing = .unlocked ∧ form = []) reads_u32 (fun code _ _ => (hcode code).mono (Nat.zero_le _)) fun _ =>
        ReadsFrom.fail _).congr fun timing form => ?_
    constructor
    · rintro ⟨_, _, _, ⟨-, rfl⟩, ⟨rfl, rfl, rfl⟩, rfl⟩
      exact ⟨rfl, append_nil _⟩
    · rintro ⟨rfl, rfl⟩
      exact ⟨_, _, [], ⟨by decide, rfl⟩, ⟨rfl, rfl, rfl⟩, (append_nil _).symm⟩
  · rw [if_neg hversion, if_neg hversion, if_neg hversion]
    exact ReadsFrom.pure TimingMode.stock

/-- What the stored fields need to be read back. -/
structure FieldsStored (version : UInt8) (s : StoredPreferences) : Prop where
  library : validateStorageModel s.library = none
  build : s.buildRoot.length ≤ kMaximumPathUnits ∧ validUtf16 s.buildRoot = true
  game : s.gameRoot.length ≤ kMaximumPathUnits ∧ validUtf16 s.gameRoot = true
  gpu : s.gpuName.length ≤ 200 ∧ validUtf16 s.gpuName = true
  words : s.storedTarget < 2 ^ 32 ∧ s.vsync < 2 ^ 32 ∧ s.fullscreen < 2 ^ 32
  timing : s.timing = versionTiming version

/-- The bytes of the stored fields. -/
def storedBytes (version : UInt8) (s : StoredPreferences) : Bytes :=
  u32Bytes (libraryBytes s.library).length ++ (libraryBytes s.library ++
    (utf16Bytes s.buildRoot ++ (utf16Bytes s.gameRoot ++ (utf16Bytes s.gpuName ++
      (u32Bytes s.storedTarget ++ (u32Bytes s.vsync ++ (u32Bytes s.fullscreen ++
        timingBytes version)))))))

theorem reads_sub_library (n : Nat) :
    ReadsFrom n (Reader.sub n decodeLibrary) fun library form =>
      form.length = n ∧ validateStorageModel library = none ∧ form = libraryBytes library :=
  (ReadsFrom.sub fun form _ => decodeLibrary_ne_none form).congr fun _ _ =>
    and_congr_right fun _ => decodeLibrary_iff

theorem reads_preferences (version : UInt8) :
    Reads (preferencesReader version) fun s form =>
      FieldsStored version s ∧ form = storedBytes version s := by
  have hpath := @reads_utf16 kMaximumPathUnits (by decide)
  have hname := @reads_utf16 200 (by decide)
  have hfields := fun library : ProfileLibrary =>
    ReadsFrom.three (e := CodecError.mk .invalidLength 0 none) hpath hpath hname
      fun build game gpu =>
        ReadsFrom.three (e := CodecError.mk .truncated 0 none) reads_u32 reads_u32 reads_u32
          fun storedTarget vsync fullscreen =>
            ReadsFrom.seq (reads_timing version) fun timing _ _ =>
              ReadsFrom.pure (⟨library, build, game, gpu, storedTarget, vsync, fullscreen,
                timing⟩ : StoredPreferences)
  have hlibrary := fun n : Nat => @ReadsFrom.refuse_guarded _ _ (n > kMaximumLibraryBytes) _
    (fun left => n > left) _ n (CodecError.mk .invalidLength 0 none) _ _
    (ReadsFrom.bind (reads_sub_library n) fun library _ _ => (hfields library).mono (Nat.zero_le _))
    (fun _ => Iff.rfl) fun s form h => by
      obtain ⟨_, first, second, ⟨hlength, -⟩, -, rfl⟩ := h
      rw [length_append, hlength]
      exact Nat.le_add_right _ _
  refine (ReadsFrom.seq reads_u32 fun n _ _ => hlibrary n).congr fun s form => ?_
  constructor
  · rintro ⟨n, _, _, ⟨-, rfl⟩, ⟨hn, library, _, _, ⟨hlength, hvalid, rfl⟩, ⟨build, game, gpu, _, _,
      _, _, ⟨hbuild, hbuild', rfl⟩, ⟨hgame, hgame', rfl⟩, ⟨hgpu, hgpu', rfl⟩, ⟨target, vsync,
        fullscreen, _, _, _, _, ⟨htarget, rfl⟩, ⟨hvsync, rfl⟩, ⟨hfullscreen, rfl⟩, ⟨timing, _, _,
          ⟨htiming, rfl⟩, ⟨rfl, rfl⟩, rfl⟩, rfl⟩, rfl⟩, rfl⟩, rfl⟩
    refine ⟨⟨hvalid, ⟨hbuild, hbuild'⟩, ⟨hgame, hgame'⟩, ⟨hgpu, hgpu'⟩,
      ⟨htarget, hvsync, hfullscreen⟩, htiming⟩, ?_⟩
    rw [storedBytes, hlength, append_nil]
  · rintro ⟨⟨hvalid, ⟨hbuild, hbuild'⟩, ⟨hgame, hgame'⟩, ⟨hgpu, hgpu'⟩,
      ⟨htarget, hvsync, hfullscreen⟩, htiming⟩, rfl⟩
    have hlength := (libraryBytes_length (stored_of_validateStorageModel hvalid)).2
    refine ⟨(libraryBytes s.library).length, _, _, ⟨?_, rfl⟩, ⟨Nat.not_lt.mpr hlength, s.library, _,
      _, ⟨rfl, hvalid, rfl⟩, ⟨s.buildRoot, s.gameRoot, s.gpuName, _, _, _, _,
        ⟨hbuild, hbuild', rfl⟩, ⟨hgame, hgame', rfl⟩, ⟨hgpu, hgpu', rfl⟩, ⟨s.storedTarget, s.vsync,
          s.fullscreen, _, _, _, _, ⟨htarget, rfl⟩, ⟨hvsync, rfl⟩, ⟨hfullscreen, rfl⟩, ⟨s.timing, _,
            [], ⟨htiming, rfl⟩, ⟨rfl, rfl⟩, (append_nil _).symm⟩, rfl⟩, rfl⟩, rfl⟩, rfl⟩
    exact Nat.lt_of_le_of_lt hlength (by decide)

/-! ## The forms of a model -/

/-- What a version stores for a render target, if it can. -/
def targetCode? (version : UInt8) (target : Nat) : Option Nat :=
  if version = 49 then
    if target = 720 then some 1 else if target = 1440 then some 2 else none
  else some target

variable {version : UInt8} {p : Preferences} {bytes : Bytes}

theorem targetCode?_eq_some {target stored : Nat} :
    targetCode? version target = some stored ↔ storedTarget? version stored = some target := by
  unfold targetCode? storedTarget?
  by_cases hversion : version = 49
  · simp only [if_pos hversion]
    split_ifs with h₁ h₂ h₃ h₄ h₅ h₆ <;> simp only [Option.some.injEq, iff_false, false_iff] <;> omega
  · simp only [if_neg hversion, Option.some.injEq, eq_comm]

/-- The versions of the format. -/
def IsVersion (version : UInt8) : Prop := version = 49 ∨ version = 50 ∨ version = 51

/-- `bytes` are what a version has for the model. -/
def IsForm (p : Preferences) (version : UInt8) (bytes : Bytes) : Prop :=
  IsVersion version ∧ p.timing = versionTiming version ∧ ∃ stored,
    targetCode? version p.renderTarget = some stored ∧
      bytes = preferencesBytes version stored (timingBytes version) p

/-- The model that the stored fields show. -/
structure Shows (version : UInt8) (s : StoredPreferences) (p : Preferences) : Prop where
  flags : s.vsync ≤ 1 ∧ s.fullscreen ≤ 1
  target : storedTarget? version s.storedTarget = some p.renderTarget
  model : p = ⟨s.library, s.buildRoot, s.gameRoot, s.gpuName, p.renderTarget, s.vsync == 1,
    s.fullscreen == 1, s.timing⟩
  valid : validPreferences p = true

theorem acceptPreferences_ok {size : Nat}
    {outcome : Option (Except CodecError StoredPreferences × Nat)} :
    acceptPreferences version size outcome = some (.ok p) ↔
      ∃ s, outcome = some (.ok s, size) ∧ Shows version s p := by
  constructor
  · intro h
    rcases outcome with - | ⟨error | s, offset⟩
    · cases h
    · cases h
    · simp only [acceptPreferences] at h
      by_cases hflags : s.vsync > 1 ∨ s.fullscreen > 1 ∨ offset ≠ size
      · rw [if_pos hflags] at h
        cases h
      · rw [if_neg hflags] at h
        simp only [not_or, not_not, Nat.not_lt] at hflags
        obtain ⟨hvsync, hfullscreen, rfl⟩ := hflags
        cases htarget : storedTarget? version s.storedTarget with
        | none =>
          rw [htarget] at h
          cases h
        | some target =>
          simp only [htarget] at h
          split_ifs at h with hvalid
          · cases h
          · cases h
            exact ⟨s, rfl, ⟨hvsync, hfullscreen⟩, htarget, rfl, by simpa using hvalid⟩
  · rintro ⟨s, rfl, hflags, htarget, hmodel, hvalid⟩
    have hsmall : ¬ (s.vsync > 1 ∨ s.fullscreen > 1 ∨ size ≠ size) := by
      have hvsync := hflags.1
      have hfullscreen := hflags.2
      omega
    simp only [acceptPreferences]
    rw [if_neg hsmall, htarget]
    show (if !validPreferences _ then _ else _) = _
    rw [← hmodel, hvalid]
    rfl

theorem flag_bytes {n : Nat} (h : n ≤ 1) : (if n == 1 then 1 else 0) = n := by
  have hcases : n = 0 ∨ n = 1 := by omega
  rcases hcases with rfl | rfl <;> rfl

theorem flag_word (flag : Bool) :
    (if flag then 1 else 0) ≤ 1 ∧ (((if flag then 1 else 0) == 1) = flag) := by
  cases flag <;> decide

/-- Text without unsafe units is well-formed. -/
theorem validUtf16_of_safeUnicode (text : Utf16) (h : safeUnicode text = true) :
    validUtf16 text = true := by
  fun_induction safeUnicode text with
  | case1 => rfl
  | case2 c rest hunsafe => cases h
  | case3 c hunsafe hhigh => cases h
  | case4 c hunsafe hhigh d rest ih =>
    rw [Bool.and_eq_true] at h
    simp only [validUtf16, hhigh, if_true, h.1, ih h.2, Bool.and_self]
  | case5 c rest hunsafe hhigh ih =>
    rw [Bool.and_eq_true] at h
    unfold validUtf16
    simp only [hhigh, h.1, ih h.2]
    rfl

theorem stored_root {root : Utf16} (h : (root.isEmpty || (normalizeRoot root).isOk) = true) :
    root.length ≤ kMaximumPathUnits ∧ validUtf16 root = true := by
  rcases Bool.or_eq_true_iff.mp h with hempty | hok
  · rw [List.isEmpty_iff.mp hempty]
    exact ⟨Nat.zero_le _, rfl⟩
  · unfold normalizeRoot at hok
    split_ifs at hok with hshape
    · cases hok
    · cases hok
    · simp only [Bool.or_eq_true, decide_eq_true_eq, not_or, Nat.not_lt, Bool.not_eq_true',
        Bool.not_eq_false] at hshape
      exact ⟨hshape.1.1.2, validUtf16_of_safeUnicode root hshape.1.2⟩

theorem renderTarget_lt {target : Nat} (h : target ∈ kRenderTargetIds) : target < 2 ^ 32 := by
  simp only [kRenderTargetIds, mem_cons, not_mem_nil, or_false] at h
  rcases h with rfl | rfl | rfl | rfl <;> decide

theorem targetCode_lt {target stored : Nat} (h : targetCode? version target = some stored)
    (htarget : target < 2 ^ 32) : stored < 2 ^ 32 := by
  unfold targetCode? at h
  split_ifs at h <;> cases h
  · decide
  · decide
  · exact htarget

/-- The form of a version is what its stored fields are read from. -/
theorem isForm_iff (hversion : IsVersion version) :
    (∃ s, Shows version s p ∧ FieldsStored version s ∧
      bytes = kPreferencesMagic ++ ([version] ++ storedBytes version s)) ↔
    validateStorageModel p.library = none ∧ validPreferences p = true ∧ IsForm p version bytes := by
  constructor
  · rintro ⟨s, ⟨⟨hvsync, hfullscreen⟩, htarget, hmodel, hvalid⟩, hstored, rfl⟩
    have htiming : p.timing = versionTiming version := by
      rw [hmodel]
      exact hstored.timing
    have hlibrary : validateStorageModel p.library = none := by
      rw [hmodel]
      exact hstored.library
    refine ⟨hlibrary, hvalid, hversion, htiming, s.storedTarget, targetCode?_eq_some.mpr htarget, ?_⟩
    rw [hmodel, preferencesBytes, storedBytes]
    simp only [flag_bytes hvsync, flag_bytes hfullscreen]
  · rintro ⟨hlibrary, hvalid, -, htiming, stored, hcode, rfl⟩
    have hparts := hvalid
    simp only [validPreferences, Bool.and_eq_true, decide_eq_true_eq] at hparts
    obtain ⟨⟨⟨⟨hbuild, hgame⟩, hgpu⟩, -⟩, htarget⟩ := hparts
    have hvsync := flag_word p.vsync
    have hfullscreen := flag_word p.fullscreen
    refine ⟨⟨p.library, p.buildRoot, p.gameRoot, p.gpuName, stored, if p.vsync then 1 else 0,
      if p.fullscreen then 1 else 0, p.timing⟩,
      ⟨⟨hvsync.1, hfullscreen.1⟩, targetCode?_eq_some.mp hcode, ?_, hvalid⟩,
      ⟨hlibrary, stored_root hbuild, stored_root hgame,
        ⟨hgpu.1, validUtf16_of_safeUnicode p.gpuName hgpu.2⟩,
        ⟨targetCode_lt hcode (renderTarget_lt htarget), Nat.lt_of_le_of_lt hvsync.1 (by decide),
          Nat.lt_of_le_of_lt hfullscreen.1 (by decide)⟩, htiming⟩, rfl⟩
    rw [hvsync.2, hfullscreen.2]

theorem form_length (hlibrary : validateStorageModel p.library = none)
    (hvalid : validPreferences p = true) (h : IsForm p version bytes) :
    8 ≤ bytes.length ∧ bytes.length ≤ kMaximumPreferencesBytes := by
  obtain ⟨-, -, stored, -, rfl⟩ := h
  simp only [validPreferences, Bool.and_eq_true, decide_eq_true_eq] at hvalid
  obtain ⟨⟨⟨⟨hbuild, hgame⟩, hgpu⟩, -⟩, -⟩ := hvalid
  have hbuild := (stored_root hbuild).1
  have hgame := (stored_root hgame).1
  have hgpu := hgpu.1
  have hlength := (libraryBytes_length (stored_of_validateStorageModel hlibrary)).2
  have htiming : (timingBytes version).length ≤ 4 := by
    unfold timingBytes
    split_ifs
    · exact le_refl 4
    · exact Nat.zero_le 4
  have hmagic : kPreferencesMagic.length = 7 := rfl
  unfold kMaximumPathUnits at hbuild hgame
  unfold kMaximumPreferencesBytes
  simp only [preferencesBytes, utf16Bytes, length_append, u32Bytes_length, unitsBytes_length,
    hmagic, length_singleton]
  omega

/-- Where the length fits and the magic is right, the rest is read. -/
theorem decodePreferences_eq {form : Bytes} (hversion : IsVersion version)
    (hlength : (kPreferencesMagic ++ ([version] ++ form)).length ≤ kMaximumPreferencesBytes) :
    decodePreferences (kPreferencesMagic ++ ([version] ++ form)) =
      acceptPreferences version (kPreferencesMagic ++ ([version] ++ form)).length
        (preferencesReader version (kPreferencesMagic ++ ([version] ++ form)) 8) := by
  have hsmall : ¬ (kPreferencesMagic ++ ([version] ++ form)).length < 8 := by
    simp [kPreferencesMagic]
  have hmagic : ¬ ((kPreferencesMagic ++ ([version] ++ form)).take 7 ≠ kPreferencesMagic ∨
      (version ≠ 49 ∧ version ≠ 50 ∧ version ≠ 51)) := by
    rintro (h | ⟨h₁, h₂, h₃⟩)
    · exact h rfl
    · rcases hversion with h | h | h
      · exact h₁ h
      · exact h₂ h
      · exact h₃ h
  unfold decodePreferences
  rw [if_neg (Nat.not_lt.mpr hlength), if_neg hsmall]
  show (if _ then _ else _) = _
  rw [if_neg hmagic]

/-- Anything else ends in an error before it is read. -/
theorem decodePreferences_refuses (bytes : Bytes) :
    (∃ version form, IsVersion version ∧ bytes = kPreferencesMagic ++ ([version] ++ form) ∧
      bytes.length ≤ kMaximumPreferencesBytes) ∨
    ∃ error, decodePreferences bytes = some (.error error) := by
  unfold decodePreferences
  split_ifs with hlarge hsmall
  · exact .inr ⟨_, rfl⟩
  · exact .inr ⟨_, rfl⟩
  · have hlt : 7 < bytes.length := by omega
    rw [getElem?_eq_getElem hlt]
    simp only
    split_ifs with hmagic
    · exact .inr ⟨_, rfl⟩
    · left
      rw [not_or, not_not] at hmagic
      refine ⟨bytes[7], bytes.drop 8, ?_, ?_, Nat.not_lt.mp hlarge⟩
      · unfold IsVersion
        tauto
      · rw [← hmagic.1, singleton_append, ← drop_eq_getElem_cons hlt, take_append_drop]

theorem lt_of_le_maximumPreferences {n : Nat} (h : n ≤ kMaximumPreferencesBytes) : n < 2 ^ 64 :=
  Nat.lt_of_le_of_lt h (by decide)

/-- **What `DecodePreferences` accepts.** -/
theorem decodePreferences_iff :
    decodePreferences bytes = some (.ok p) ↔
      validateStorageModel p.library = none ∧ validPreferences p = true ∧
        ∃ version, IsForm p version bytes := by
  have hrun : ∀ {version : UInt8} {form : Bytes}, IsVersion version →
      (kPreferencesMagic ++ ([version] ++ form)).length ≤ kMaximumPreferencesBytes →
      (decodePreferences (kPreferencesMagic ++ ([version] ++ form)) = some (.ok p) ↔
        ∃ s, Shows version s p ∧ FieldsStored version s ∧
          kPreferencesMagic ++ ([version] ++ form) =
            kPreferencesMagic ++ ([version] ++ storedBytes version s)) := by
    intro version form hversion hlength
    rw [decodePreferences_eq hversion hlength, acceptPreferences_ok]
    refine exists_congr fun s => ?_
    rw [(reads_preferences version).rest (lt_of_le_maximumPreferences hlength)
      (show 8 + 0 ≤ _ by simp [kPreferencesMagic])]
    show (FieldsStored version s ∧ form = storedBytes version s) ∧ Shows version s p ↔ _
    rw [append_cancel_left_eq, append_cancel_left_eq]
    tauto
  constructor
  · intro h
    rcases decodePreferences_refuses bytes with ⟨version, form, hversion, rfl, hlength⟩ |
      ⟨error, herror⟩
    · obtain ⟨hlibrary, hvalid, hform⟩ := (isForm_iff hversion).mp ((hrun hversion hlength).mp h)
      exact ⟨hlibrary, hvalid, version, hform⟩
    · rw [h] at herror
      cases herror
  · rintro ⟨hlibrary, hvalid, version, hform⟩
    have hlength := (form_length hlibrary hvalid hform).2
    obtain ⟨s, hshows, hstored, rfl⟩ := (isForm_iff hform.1).mpr ⟨hlibrary, hvalid, hform⟩
    exact (hrun hform.1 hlength).mpr ⟨s, hshows, hstored, rfl⟩

/-- No read of `DecodePreferences` leaves the buffer. -/
theorem decodePreferences_ne_none (bytes : Bytes) : decodePreferences bytes ≠ none := by
  rcases decodePreferences_refuses bytes with ⟨version, form, hversion, rfl, hlength⟩ |
    ⟨error, herror⟩
  · obtain ⟨result, after, hrun, -, -⟩ := (reads_preferences version).safe
      (lt_of_le_maximumPreferences hlength)
      (show 8 + 0 ≤ (kPreferencesMagic ++ ([version] ++ form)).length by simp [kPreferencesMagic])
    rw [decodePreferences_eq hversion hlength, hrun]
    cases result with
    | error error => simp [acceptPreferences]
    | ok s =>
      simp only [acceptPreferences]
      by_cases hflags : s.vsync > 1 ∨ s.fullscreen > 1 ∨
          after ≠ (kPreferencesMagic ++ ([version] ++ form)).length
      · rw [if_pos hflags]
        simp
      · rw [if_neg hflags]
        cases storedTarget? version s.storedTarget with
        | none => simp
        | some target =>
          simp only
          split_ifs <;> simp
  · rw [herror]
    simp

/-- The one form of a version. -/
theorem isForm_eq {stored : Nat} (hversion : IsVersion version)
    (htiming : p.timing = versionTiming version)
    (hcode : targetCode? version p.renderTarget = some stored) :
    IsForm p version bytes ↔ preferencesBytes version stored (timingBytes version) p = bytes := by
  constructor
  · rintro ⟨-, -, other, hother, rfl⟩
    rw [hcode] at hother
    cases hother
    rfl
  · rintro rfl
    exact ⟨hversion, htiming, stored, hcode, rfl⟩

/-- The version that `EncodePreferences` takes. -/
def encodingVersion (p : Preferences) : UInt8 :=
  if p.timing = .unlocked then 51
  else if p.renderTarget = 720 ∨ p.renderTarget = 1440 then 49 else 50

/-- **What `EncodePreferences` writes.** -/
theorem encodePreferences_iff :
    encodePreferences p = .ok bytes ↔
      validateStorageModel p.library = none ∧ validPreferences p = true ∧
        IsForm p (encodingVersion p) bytes := by
  unfold encodePreferences
  cases hlibrary : validateStorageModel p.library with
  | some error =>
    have hencode : encodeLibrary p.library = .error error := by
      unfold encodeLibrary
      rw [hlibrary]
    rw [hencode]
    simp
  | none =>
    rw [encodeLibrary_iff.mpr ⟨hlibrary, rfl⟩]
    cases hvalid : validPreferences p with
    | false => simp
    | true =>
      have htiming : p.timing = .stock ∨ p.timing = .unlocked := by
        simp only [validPreferences, Bool.and_eq_true, Bool.or_eq_true, beq_iff_eq] at hvalid
        exact hvalid.1.2
      simp only [true_and, Bool.not_true, Bool.false_eq_true, if_false]
      unfold encodingVersion
      by_cases hunlocked : p.timing = .unlocked
      · rw [if_pos hunlocked, if_pos hunlocked, Except.ok.injEq,
          isForm_eq (.inr (.inr rfl)) hunlocked rfl]
        rfl
      · have hstock : p.timing = .stock := htiming.resolve_right hunlocked
        rw [if_neg hunlocked, if_neg hunlocked]
        by_cases hlow : p.renderTarget = 720
        · rw [if_pos hlow, if_pos (.inl hlow), Except.ok.injEq,
            isForm_eq (.inl rfl) hstock (by rw [hlow]; rfl)]
          rfl
        · rw [if_neg hlow]
          by_cases hhigh : p.renderTarget = 1440
          · rw [if_pos hhigh, if_pos (.inr hhigh), Except.ok.injEq,
              isForm_eq (.inl rfl) hstock (by rw [hhigh]; rfl)]
            rfl
          · rw [if_neg hhigh, if_neg (not_or.mpr ⟨hlow, hhigh⟩), Except.ok.injEq,
              isForm_eq (.inr (.inl rfl)) hstock rfl]
            rfl

/-- The models that version one can express. -/
def Legacy (p : Preferences) : Prop :=
  p.timing = .stock ∧ (p.renderTarget = 720 ∨ p.renderTarget = 1440)

theorem encodingVersion_of_legacy (h : Legacy p) : encodingVersion p = 49 := by
  unfold encodingVersion
  rw [if_neg (by rw [h.1]; simp), if_pos h.2]

/-- A form is of the version of the encoding, or of version two beside version one. -/
theorem isForm_version (h : IsForm p version bytes) :
    version = encodingVersion p ∨ version = 50 ∧ Legacy p := by
  obtain ⟨hversion, htiming, stored, hcode, -⟩ := h
  rcases hversion with rfl | rfl | rfl
  · have htarget : p.renderTarget = 720 ∨ p.renderTarget = 1440 := by
      unfold targetCode? at hcode
      split_ifs at hcode with h₁ h₂ h₃
      · exact .inl h₂
      · exact .inr h₃
      · exact absurd rfl h₁
    exact .inl (encodingVersion_of_legacy ⟨htiming, htarget⟩).symm
  · have hstock : p.timing = .stock := htiming
    by_cases htarget : p.renderTarget = 720 ∨ p.renderTarget = 1440
    · exact .inr ⟨rfl, hstock, htarget⟩
    · left
      unfold encodingVersion
      rw [if_neg (by rw [hstock]; simp), if_neg htarget]
  · have hunlocked : p.timing = .unlocked := htiming
    left
    unfold encodingVersion
    rw [if_pos hunlocked]

/-- The form of version two. -/
def secondForm (p : Preferences) : Bytes := preferencesBytes 50 p.renderTarget [] p

/-- What is accepted for a model: its encoding, and the form of version two where version
one can express it. -/
theorem decodePreferences_forms :
    decodePreferences bytes = some (.ok p) ↔
      encodePreferences p = .ok bytes ∨
        (validateStorageModel p.library = none ∧ validPreferences p = true) ∧ Legacy p ∧
          bytes = secondForm p := by
  rw [decodePreferences_iff, encodePreferences_iff]
  constructor
  · rintro ⟨hlibrary, hvalid, version, hform⟩
    rcases isForm_version hform with rfl | ⟨rfl, hlegacy⟩
    · exact .inl ⟨hlibrary, hvalid, hform⟩
    · obtain ⟨-, -, stored, hcode, rfl⟩ := hform
      cases hcode
      exact .inr ⟨⟨hlibrary, hvalid⟩, hlegacy, rfl⟩
  · rintro (⟨hlibrary, hvalid, hform⟩ | ⟨⟨hlibrary, hvalid⟩, hlegacy, rfl⟩)
    · exact ⟨hlibrary, hvalid, _, hform⟩
    · exact ⟨hlibrary, hvalid, 50, .inr (.inl rfl), hlegacy.1, _, rfl, rfl⟩

/-- A model that is storage-valid and valid has an encoding, and it is read back. -/
theorem encodePreferences_reads (hlibrary : validateStorageModel p.library = none)
    (hvalid : validPreferences p = true) :
    ∃ bytes, encodePreferences p = .ok bytes ∧ decodePreferences bytes = some (.ok p) := by
  have hencode : ∃ bytes, encodePreferences p = .ok bytes := by
    unfold encodePreferences
    rw [encodeLibrary_iff.mpr ⟨hlibrary, rfl⟩, hvalid]
    simp only [Bool.not_true, Bool.false_eq_true, if_false]
    split_ifs <;> exact ⟨_, rfl⟩
  obtain ⟨bytes, hencode⟩ := hencode
  exact ⟨bytes, hencode, decodePreferences_forms.mpr (.inl hencode)⟩

/-- An extension of accepted bytes is not accepted. -/
theorem decodePreferences_extension {p q : Preferences} {bytes rest : Bytes}
    (h : decodePreferences bytes = some (.ok p))
    (h' : decodePreferences (bytes ++ rest) = some (.ok q)) : rest = [] := by
  obtain ⟨hlibrary, hvalid, version, hform⟩ := decodePreferences_iff.mp h
  obtain ⟨hlibrary', hvalid', other, hform'⟩ := decodePreferences_iff.mp h'
  have hlength := (form_length hlibrary' hvalid' hform').2
  obtain ⟨s, hshows, hstored, rfl⟩ := (isForm_iff hform.1).mpr ⟨hlibrary, hvalid, hform⟩
  have hassoc : kPreferencesMagic ++ ([version] ++ storedBytes version s) ++ rest =
      kPreferencesMagic ++ ([version] ++ (storedBytes version s ++ rest)) := by
    rw [append_assoc, append_assoc]
  rw [hassoc] at h' hlength
  rw [decodePreferences_eq hform.1 hlength, acceptPreferences_ok] at h'
  obtain ⟨t, hrun, -⟩ := h'
  -- the reader of the longer bytes stops where it stopped before
  have hstop := (reads_preferences version).complete (kPreferencesMagic ++ [version]) rest
    ⟨hstored, rfl⟩ (lt_of_le_maximumPreferences (by simpa using hlength)) (Nat.zero_le _)
  have hsame : (kPreferencesMagic ++ [version]) ++ (storedBytes version s ++ rest) =
      kPreferencesMagic ++ ([version] ++ (storedBytes version s ++ rest)) :=
    append_assoc _ _ _
  rw [hsame] at hstop
  have hend := hstop.symm.trans hrun
  simp only [Option.some.injEq, Prod.mk.injEq, length_append] at hend
  exact length_eq_zero_iff.mp (by omega)

/-- What is beside accepted bytes, shorter or longer, ends in an error. -/
theorem decodePreferences_neighbour {bytes other : Bytes}
    (h : decodePreferences bytes = some (.ok p)) (hne : other ≠ bytes)
    (hbeside : other <+: bytes ∨ bytes <+: other) :
    ∃ error, decodePreferences other = some (.error error) := by
  cases hother : decodePreferences other with
  | none => exact absurd hother (decodePreferences_ne_none other)
  | some result =>
    cases result with
    | error error => exact ⟨error, rfl⟩
    | ok q =>
      exfalso
      apply hne
      rcases hbeside with ⟨rest, rfl⟩ | ⟨rest, rfl⟩
      · rw [decodePreferences_extension hother h, append_nil]
      · rw [decodePreferences_extension h hother, append_nil]

/-- **The preferences codec.**  What is valid is encoded and read back; what is accepted
for a model is its encoding and, where version one can express the model, the form of
version two; nothing beside accepted bytes is accepted, and no read leaves the buffer. -/
theorem preferencesCodec_forms :
    (∀ p, validateStorageModel p.library = none ∧ validPreferences p = true ↔
      ∃ bytes, encodePreferences p = .ok bytes ∧ decodePreferences bytes = some (.ok p)) ∧
    (∀ p bytes, decodePreferences bytes = some (.ok p) ↔
      encodePreferences p = .ok bytes ∨
        (validateStorageModel p.library = none ∧ validPreferences p = true) ∧ Legacy p ∧
          bytes = secondForm p) ∧
    (∀ p bytes, decodePreferences bytes = some (.ok p) → validPreferences p = true ∧
      ∀ other, other ≠ bytes → other <+: bytes ∨ bytes <+: other →
        ∃ error, decodePreferences other = some (.error error)) ∧
    ∀ bytes, decodePreferences bytes ≠ none := by
  refine ⟨fun p => ⟨fun h => encodePreferences_reads h.1 h.2, ?_⟩,
    fun p bytes => decodePreferences_forms, fun p bytes h => ⟨(decodePreferences_iff.mp h).2.1,
      fun other => decodePreferences_neighbour h⟩, decodePreferences_ne_none⟩
  rintro ⟨bytes, hencode, -⟩
  have hmodel := encodePreferences_iff.mp hencode
  exact ⟨hmodel.1, hmodel.2.1⟩

/-- The form of version two of the default model is accepted, though the model is encoded
in version one and no older version has that form. -/
theorem newer_form_accepted :
    ¬ ∀ p bytes, decodePreferences bytes = some (.ok p) →
      encodePreferences p = .ok bytes ∨
        ∃ version, version.toNat < (encodingVersion p).toNat ∧ IsForm p version bytes := by
  intro h
  have haccepted : decodePreferences (secondForm (firstRunPreferences false)) =
      some (.ok (firstRunPreferences false)) := by decide
  rcases h _ _ haccepted with hencode | ⟨version, holder, hversion, -⟩
  · have hfirst : encodePreferences (firstRunPreferences false) ≠
        .ok (secondForm (firstRunPreferences false)) := by decide
    exact hfirst hencode
  · have hold : (encodingVersion (firstRunPreferences false)).toNat = 49 := by decide
    rw [hold] at holder
    rcases hversion with rfl | rfl | rfl <;> exact absurd holder (by decide)

end Mcla.Launcher

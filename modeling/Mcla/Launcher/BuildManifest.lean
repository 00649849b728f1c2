import Mcla.Launcher.ProfilePolicy
import Mcla.Library.Decimal
import Mcla.Library.NestedRecorder
import Mcla.Library.TextLines

/-! # The manifest of a build

`Parse` of `mcla_launcher_build_win`: a header, and one row for each file, with its hash, its size
and its name.  What is accepted is the one text of the files that come back, so that a manifest
cannot say two things.  Sizes are machine words, as in the source.
-/
namespace Mcla.Launcher.Build
open NestedRecorder
open List

/-- The bytes of an ASCII literal. -/
def bytesOf (s : String) : Bytes := s.toList.map fun c => UInt8.ofNat c.toNat

def kHeader : Bytes := bytesOf "MCLA-DEV-BUILD-V1\n"
def kMaximumFileBytes : UInt64 := 2 * 1024 * 1024 * 1024
def kMaximumTotalBytes : UInt64 := 4 * 1024 * 1024 * 1024
def kMaximumManifestBytes : Nat := 64 * 1024
def kMaximumFiles : Nat := 16

def kAllowedNames : List Bytes :=
  [bytesOf "TracyClient.dll", bytesOf "mcla.exe", bytesOf "mcla_crash_handler.exe",
    bytesOf "mcla_diagnostic_image_helper.exe", bytesOf "msvcp140.dll",
    bytesOf "msvcp140_atomic_wait.dll", bytesOf "rexgpu-xenos.dll", bytesOf "rexruntime.dll",
    bytesOf "vcruntime140.dll", bytesOf "vcruntime140_1.dll", bytesOf "mcla-test-build.ticket"]

/-- One file that a manifest lists. -/
structure VerifiedBuildFile where
  name : Utf16
  bytes : UInt64
  sha256 : Bytes

/-- `std::wstring(name.begin(), name.end())` of ASCII. -/
def widen (name : Bytes) : Utf16 := name.map fun c => UInt16.ofNat c.toNat

/-- The ASCII name back. -/
def narrow (name : Utf16) : Bytes := name.map fun c => UInt8.ofNat c.toNat

def upperHex (c : UInt8) : Bool := (48 ≤ c && c ≤ 57) || (65 ≤ c && c ≤ 70)

/-! ### Reading -/

/-- The loop over the digits of a size. -/
def parseSize (bytes : UInt64) : Bytes → Except String UInt64
  | [] => .ok bytes
  | c :: rest =>
    if c < 48 ∨ 57 < c ∨ (kMaximumFileBytes - (c - 48).toUInt64) / 10 < bytes then
      .error "build artifact size is malformed or exceeds 2 GiB"
    else parseSize (bytes * 10 + (c - 48).toUInt64) rest

/-- What the loop over the rows keeps. -/
structure Reading where
  files : List VerifiedBuildFile := []
  previous : Bytes := []
  total : UInt64 := 0
  (has_host has_crash : Bool := false)

/-- A row that has passed. -/
def Reading.push (s : Reading) (name : Bytes) (bytes : UInt64) (hash : Bytes) : Reading where
  files := s.files ++ [⟨widen name, bytes, hash⟩]
  previous := name
  total := s.total + bytes
  has_host := s.has_host || name == bytesOf "mcla.exe"
  has_crash := s.has_crash || name == bytesOf "mcla_crash_handler.exe"

/-- One row of a manifest. -/
def parseRow (s : Reading) (row : Bytes) : Except String Reading := do
  need (s.files.length < kMaximumFiles ∧ 69 ≤ row.length ∧ row[64]? = some 32)
    "build manifest entry count/shape is invalid"
  let hash := row.take 64
  need (hash.all upperHex = true) "build manifest SHA256 must be uppercase hex"
  let size_text := (row.drop 65).takeWhile (· ≠ 32)
  let separated := (row.drop 65).dropWhile (· ≠ 32)
  need (separated ≠ []) "build manifest size/name separator missing"
  need (size_text ≠ [] ∧ size_text.head? ≠ some 48)
    "build size must be canonical positive decimal"
  let bytes ← parseSize 0 size_text
  let name := separated.drop 1
  need (kAllowedNames.contains name = true ∧ s.previous < name)
    "build manifest basename is not allowlisted, sorted or unique"
  need (bytes ≤ kMaximumTotalBytes - s.total) "build exceeds 4 GiB aggregate bound"
  return s.push name bytes hash

/-- All rows of a manifest. -/
def parseRows (s : Reading) : List Bytes → Except String Reading
  | [] => .ok s
  | row :: rest => do
    let s ← parseRow s row
    parseRows s rest

/-- `Parse`.  The rows lie between the line feeds, the last of which ends the text. -/
def parse (text : Bytes) : Except String (List VerifiedBuildFile) := do
  need (text.length ≤ kMaximumManifestBytes ∧ kHeader.isPrefixOf text = true ∧
    text.getLast? = some 10) "developer build manifest header/size/final newline is invalid"
  need (text.all (fun c => c == 10 || (0x20 ≤ c && c ≤ 0x7e)) = true)
    "build manifest must be canonical ASCII with LF newlines"
  let s ← parseRows {} (TextLines.split (text.drop kHeader.length))
  need (s.has_host = true ∧ s.has_crash = true)
    "build must include both host and crash handler"
  return s.files

/-! ### Writing -/

/-- The row of a file. -/
def rowOf (file : VerifiedBuildFile) : Bytes :=
  file.sha256 ++ 32 :: (Decimal.text file.bytes.toNat ++ 32 :: narrow file.name)

/-- The one text of these files. -/
def serialize (files : List VerifiedBuildFile) : Bytes :=
  kHeader ++ TextLines.joined (files.map rowOf)

/-- What a file of a manifest is. -/
structure Shape (file : VerifiedBuildFile) : Prop where
  hash : file.sha256.length = 64 ∧ file.sha256.all upperHex = true
  size : 1 ≤ file.bytes.toNat ∧ file.bytes.toNat ≤ kMaximumFileBytes.toNat
  name : ∃ name ∈ kAllowedNames, file.name = widen name

/-- What a list of files must be to have a manifest. -/
structure Canonical (files : List VerifiedBuildFile) : Prop where
  shapes : ∀ file ∈ files, Shape file
  sorted : (files.map fun file => narrow file.name).Pairwise (· < ·)
  count : files.length ≤ kMaximumFiles
  total : (files.map fun file => file.bytes.toNat).sum ≤ kMaximumTotalBytes.toNat
  host : widen (bytesOf "mcla.exe") ∈ files.map (·.name)
  crash : widen (bytesOf "mcla_crash_handler.exe") ∈ files.map (·.name)
  length : (serialize files).length ≤ kMaximumManifestBytes

/-! ### Sizes -/

theorem narrow_widen {name : Bytes} : narrow (widen name) = name := by
  rw [narrow, widen, map_map]
  conv_rhs => rw [← map_id name]
  apply map_congr_left
  intro c _
  apply UInt8.toNat_inj.mp
  simp

/-- No digit takes a size past its bound or round the end of a word. -/
theorem parseSize_step {v : UInt64} {c : UInt8} (hc : 48 ≤ c.toNat ∧ c.toNat ≤ 57) :
    (¬ (kMaximumFileBytes - (c - 48).toUInt64) / 10 < v) ↔
      v.toNat * 10 + (c.toNat - 48) ≤ kMaximumFileBytes.toNat := by
  have hmax : kMaximumFileBytes.toNat = 2147483648 := by decide
  have hsub : (c - 48).toNat = c.toNat - 48 := by
    rw [UInt8.toNat_sub_of_le]
    · rfl
    · exact hc.1
  have hdiff : (kMaximumFileBytes - (c - 48).toUInt64).toNat = 2147483648 - (c.toNat - 48) := by
    rw [UInt64.toNat_sub_of_le]
    · rw [hmax, UInt8.toNat_toUInt64, hsub]
    · rw [UInt64.le_iff_toNat_le, hmax, UInt8.toNat_toUInt64, hsub]
      omega
  rw [UInt64.lt_iff_toNat_lt, UInt64.toNat_div, hdiff, hmax]
  have hten : (10 : UInt64).toNat = 10 := rfl
  rw [hten, Nat.not_lt, Nat.le_div_iff_mul_le (by decide)]
  omega

theorem parseSize_value {v : UInt64} {c : UInt8} (hc : 48 ≤ c.toNat ∧ c.toNat ≤ 57)
    (h : v.toNat * 10 + (c.toNat - 48) ≤ kMaximumFileBytes.toNat) :
    (v * 10 + (c - 48).toUInt64).toNat = v.toNat * 10 + (c.toNat - 48) := by
  have hmax : kMaximumFileBytes.toNat = 2147483648 := by decide
  have hsub : (c - 48).toNat = c.toNat - 48 := by
    rw [UInt8.toNat_sub_of_le]
    · rfl
    · exact hc.1
  have hten : (10 : UInt64).toNat = 10 := rfl
  rw [UInt64.toNat_add, UInt64.toNat_mul, UInt8.toNat_toUInt64, hsub, hten]
  omega

/-- A size that is read is the value of its digits, within the bound. -/
theorem parseSize_ok {v n : UInt64} {t : Bytes} (hv : v.toNat ≤ kMaximumFileBytes.toNat) :
    parseSize v t = .ok n ↔
      Decimal.valueFrom v.toNat t = some n.toNat ∧ n.toNat ≤ kMaximumFileBytes.toNat := by
  induction t generalizing v with
  | nil =>
    rw [parseSize, Decimal.valueFrom, Except.ok.injEq, Option.some.injEq]
    constructor
    · rintro rfl
      exact ⟨rfl, hv⟩
    · exact fun h => UInt64.toNat_inj.mp h.1
  | cons c rest ih =>
    rw [parseSize, Decimal.valueFrom, Decimal.digit?]
    by_cases hc : 48 ≤ c.toNat ∧ c.toNat ≤ 57
    · have hlow : ¬ c < 48 := by
        rw [UInt8.lt_iff_toNat_lt, Nat.not_lt]
        exact hc.1
      have hhigh : ¬ 57 < c := by
        rw [UInt8.lt_iff_toNat_lt, Nat.not_lt]
        exact hc.2
      rw [if_pos hc, Option.bind_some]
      by_cases hroom : v.toNat * 10 + (c.toNat - 48) ≤ kMaximumFileBytes.toNat
      · have hvalue := parseSize_value hc hroom
        rw [if_neg, ih (by rw [hvalue]; exact hroom), hvalue]
        rintro (h | h | h)
        · exact hlow h
        · exact hhigh h
        · exact (parseSize_step hc).mpr hroom h
      · rw [if_pos (.inr (.inr (not_not.mp (mt (parseSize_step hc).mp hroom))))]
        constructor
        · intro h
          cases h
        · rintro ⟨hrest, hn⟩
          have := Decimal.le_of_valueFrom hrest
          omega
    · rw [if_neg hc, Option.bind_none, if_pos]
      · simp
      · by_cases hlow : 48 ≤ c.toNat
        · right
          left
          rw [UInt8.lt_iff_toNat_lt]
          exact Nat.lt_of_not_le fun h => hc ⟨hlow, h⟩
        · left
          rw [UInt8.lt_iff_toNat_lt]
          exact Nat.lt_of_not_le hlow

theorem text_head {n : Nat} (h : 0 < n) : (Decimal.text n).head? ≠ some 48 := by
  intro hhead
  have hcanonical := Decimal.text_canonical n
  by_cases hlong : 1 < (Decimal.text n).length
  · exact hcanonical.2 hlong hhead
  · -- a single digit, so the number is zero
    have hzero : Decimal.text n = Decimal.text 0 := by
      cases htext : Decimal.text n with
      | nil => exact absurd htext hcanonical.1
      | cons c rest =>
        rw [htext] at hhead hlong
        cases hhead
        cases rest with
        | nil => rfl
        | cons _ _ => simp at hlong
    have := Decimal.text_inj hzero
    omega

/-- The text of a size: no leading zero, digits only, and within the bound. -/
theorem size_text_iff {t : Bytes} {n : UInt64} :
    (t ≠ [] ∧ t.head? ≠ some 48) ∧ parseSize 0 t = .ok n ↔
      t = Decimal.text n.toNat ∧ 1 ≤ n.toNat ∧ n.toNat ≤ kMaximumFileBytes.toNat := by
  rw [parseSize_ok (Nat.zero_le _)]
  constructor
  · rintro ⟨⟨hne, hhead⟩, hvalue, hn⟩
    have htext := Decimal.text_of_valueFrom ⟨hne, fun _ => hhead⟩ hvalue
    refine ⟨htext.symm, Nat.pos_of_ne_zero fun hzero => ?_, hn⟩
    rw [hzero] at htext
    rw [← htext] at hhead
    exact hhead rfl
  · rintro ⟨rfl, hpos, hn⟩
    exact ⟨⟨(Decimal.text_canonical _).1, text_head hpos⟩, Decimal.valueFrom_text _, hn⟩

/-! ### Rows -/

/-- A file that the loop takes next. -/
structure Fits (s : Reading) (file : VerifiedBuildFile) : Prop where
  shape : Shape file
  room : s.files.length < kMaximumFiles
  order : s.previous < narrow file.name
  total : s.total.toNat + file.bytes.toNat ≤ kMaximumTotalBytes.toNat

/-- A file is listed. -/
def Reading.add (s : Reading) (file : VerifiedBuildFile) : Reading :=
  s.push (narrow file.name) file.bytes file.sha256

theorem allowed_length : ∀ name ∈ kAllowedNames, 2 ≤ name.length := by decide

theorem allowed_printable :
    ∀ name ∈ kAllowedNames, name.all (fun c => 0x20 ≤ c && c ≤ 0x7e) = true := by decide

theorem split_at_space {t name rest : Bytes} (ht : ∀ c ∈ t, c ≠ 32) (h : rest = t ++ 32 :: name) :
    rest.takeWhile (· ≠ 32) = t ∧ rest.dropWhile (· ≠ 32) = 32 :: name := by
  subst h
  constructor
  · rw [takeWhile_append_of_pos (by simpa using ht)]
    simp
  · rw [dropWhile_append_of_pos (by simpa using ht)]
    simp

/-- A row that passes is the row of its file. -/
theorem parseRow_ok {s s' : Reading} (hs : s.total.toNat ≤ kMaximumTotalBytes.toNat)
    {row : Bytes} : parseRow s row = .ok s' ↔
      ∃ file, Fits s file ∧ row = rowOf file ∧ s' = s.add file := by
  simp only [parseRow, bind_ok, need_ok, pure_ok, exists_const]
  constructor
  · rintro ⟨⟨hroom, hlength, hspace⟩, hhash, hseparated, hsize, bytes, hbytes, ⟨hname, horder⟩,
      htotal, rfl⟩
    obtain ⟨htext, hpos, hmax⟩ := size_text_iff.mp ⟨hsize, hbytes⟩
    have hallowed := contains_iff_mem.mp hname
    have hbefore : row = row.take 64 ++ 32 :: row.drop 65 := by
      conv_lhs => rw [← take_append_drop 64 row]
      rw [drop_eq_getElem?_toList_append, hspace]
      rfl
    have hafter := TextLines.dropWhile_separator hseparated
    refine ⟨⟨widen (((row.drop 65).dropWhile (· ≠ 32)).drop 1), bytes, row.take 64⟩,
      ⟨⟨⟨?_, hhash⟩, ⟨hpos, hmax⟩, ⟨_, hallowed, rfl⟩⟩, hroom, ?_, ?_⟩, ?_, ?_⟩
    · rw [length_take]
      omega
    · rw [narrow_widen]
      exact horder
    · rw [UInt64.le_iff_toNat_le, UInt64.toNat_sub_of_le] at htotal
      · dsimp only
        omega
      · exact hs
    · rw [rowOf, narrow_widen, ← htext, ← hafter, takeWhile_append_dropWhile]
      exact hbefore
    · rw [Reading.add, narrow_widen]
  · rintro ⟨file, hfits, rfl, rfl⟩
    obtain ⟨⟨hlength, hhash⟩, ⟨hpos, hmax⟩, name, hallowed, hname⟩ := hfits.shape
    have hnarrow : narrow file.name = name := by rw [hname, narrow_widen]
    have hdrop : (rowOf file).drop 65 =
        Decimal.text file.bytes.toNat ++ 32 :: narrow file.name := by
      rw [rowOf, drop_append, hlength, drop_eq_nil_of_le (by omega)]
      rfl
    have hdigits : ∀ c ∈ Decimal.text file.bytes.toNat, c ≠ 32 := by
      rintro c hc rfl
      have := Decimal.isDigit_of_mem_text hc
      simp at this
    obtain ⟨htake, hwhile⟩ := split_at_space hdigits hdrop
    rw [htake, hwhile]
    obtain ⟨hsize, hbytes⟩ := size_text_iff.mpr ⟨rfl, hpos, hmax⟩
    have htake64 : (rowOf file).take 64 = file.sha256 := by
      rw [rowOf, ← hlength, take_left]
    refine ⟨⟨hfits.room, ?_, ?_⟩, ?_, cons_ne_nil _ _, hsize, file.bytes, hbytes,
      ⟨?_, hfits.order⟩, ?_, ?_⟩
    · have := allowed_length name hallowed
      have htext : 0 < (Decimal.text file.bytes.toNat).length :=
        length_pos_iff.mpr (Decimal.text_canonical _).1
      rw [rowOf, length_append, length_cons, length_append, length_cons, hnarrow, hlength]
      omega
    · rw [rowOf, getElem?_append_right (by omega), hlength]
      rfl
    · rw [htake64]
      exact hhash
    · rw [drop_one, tail_cons, hnarrow]
      exact contains_iff_mem.mpr hallowed
    · have := hfits.total
      rw [UInt64.le_iff_toNat_le, UInt64.toNat_sub_of_le _ _ hs]
      omega
    · rw [htake64]
      rfl

/-- Files that the loop takes one after another. -/
def FitsAll (s : Reading) : List VerifiedBuildFile → Prop
  | [] => True
  | file :: rest => Fits s file ∧ FitsAll (s.add file) rest

theorem add_total {s : Reading} {file : VerifiedBuildFile} (h : Fits s file) :
    (s.add file).total.toNat = s.total.toNat + file.bytes.toNat := by
  have hmax : kMaximumTotalBytes.toNat = 4294967296 := by decide
  have htotal := h.total
  rw [Reading.add, Reading.push, UInt64.toNat_add]
  omega

theorem parseRows_ok {s s' : Reading} (hs : s.total.toNat ≤ kMaximumTotalBytes.toNat)
    {rows : List Bytes} : parseRows s rows = .ok s' ↔
      ∃ files, FitsAll s files ∧ rows = files.map rowOf ∧ s' = files.foldl Reading.add s := by
  induction rows generalizing s with
  | nil =>
    rw [parseRows, Except.ok.injEq]
    constructor
    · rintro rfl
      exact ⟨[], trivial, rfl, rfl⟩
    · rintro ⟨files, -, hrows, rfl⟩
      rw [map_eq_nil_iff.mp hrows.symm]
      rfl
  | cons row rest ih =>
    rw [parseRows, bind_ok]
    constructor
    · rintro ⟨next, hrow, hrest⟩
      obtain ⟨file, hfits, rfl, rfl⟩ := (parseRow_ok hs).mp hrow
      have htotal : (s.add file).total.toNat ≤ kMaximumTotalBytes.toNat := by
        rw [add_total hfits]
        exact hfits.total
      obtain ⟨files, hall, rfl, rfl⟩ := (ih htotal).mp hrest
      exact ⟨file :: files, ⟨hfits, hall⟩, rfl, rfl⟩
    · rintro ⟨files, hall, hrows, rfl⟩
      cases files with
      | nil => cases hrows
      | cons file files =>
        rw [map_cons, List.cons.injEq] at hrows
        have htotal : (s.add file).total.toNat ≤ kMaximumTotalBytes.toNat := by
          rw [add_total hall.1]
          exact hall.1.total
        exact ⟨_, (parseRow_ok hs).mpr ⟨file, hall.1, hrows.1, rfl⟩,
          (ih htotal).mpr ⟨files, hall.2, hrows.2, rfl⟩⟩

/-! ### The whole manifest -/

/-- What files taken one after another are together. -/
theorem fitsAll_iff {s : Reading} {files : List VerifiedBuildFile}
    (hs : s.total.toNat ≤ kMaximumTotalBytes.toNat) (hcount : s.files.length ≤ kMaximumFiles) :
    FitsAll s files ↔ (∀ file ∈ files, Shape file) ∧
      (s.previous :: files.map fun file => narrow file.name).IsChain (· < ·) ∧
      s.files.length + files.length ≤ kMaximumFiles ∧
      s.total.toNat + (files.map fun file => file.bytes.toNat).sum ≤ kMaximumTotalBytes.toNat := by
  induction files generalizing s with
  | nil => simp [FitsAll, hs, hcount]
  | cons file rest ih =>
    have hlength : (s.add file).files.length = s.files.length + 1 := by
      rw [Reading.add, Reading.push, length_append, length_singleton]
    rw [FitsAll, forall_mem_cons, map_cons, map_cons, isChain_cons_cons, sum_cons, length_cons]
    constructor
    · rintro ⟨hfits, hall⟩
      have htotal := add_total hfits
      have hroom := hfits.room
      obtain ⟨hshapes, hchain, hlen, hsum⟩ :=
        (ih (by rw [htotal]; exact hfits.total) (by rw [hlength]; exact hroom)).mp hall
      exact ⟨⟨hfits.shape, hshapes⟩, ⟨hfits.order, hchain⟩, by omega, by omega⟩
    · rintro ⟨⟨hshape, hshapes⟩, ⟨horder, hchain⟩, hlen, hsum⟩
      have hfits : Fits s file := ⟨hshape, by omega, horder, by omega⟩
      have htotal := add_total hfits
      refine ⟨hfits, (ih ?_ ?_).mpr ⟨hshapes, hchain, ?_, ?_⟩⟩ <;> omega

theorem foldl_add (files : List VerifiedBuildFile) (s : Reading) (h : ∀ file ∈ files, Shape file) :
    (files.foldl Reading.add s).files = s.files ++ files ∧
      ((files.foldl Reading.add s).has_host = true ↔
        s.has_host = true ∨ widen (bytesOf "mcla.exe") ∈ files.map (·.name)) ∧
      ((files.foldl Reading.add s).has_crash = true ↔
        s.has_crash = true ∨ widen (bytesOf "mcla_crash_handler.exe") ∈ files.map (·.name)) := by
  induction files generalizing s with
  | nil => simp
  | cons file rest ih =>
    obtain ⟨hfiles, hhost, hcrash⟩ := ih (s.add file) fun f hf => h f (mem_cons_of_mem _ hf)
    obtain ⟨name, -, hname⟩ := (h file mem_cons_self).name
    have hnarrow : narrow file.name = name := by rw [hname, narrow_widen]
    have heq : ∀ expected : Bytes, (narrow file.name == expected) = true ↔
        widen expected = file.name := by
      intro expected
      rw [hnarrow, beq_iff_eq, hname]
      constructor
      · rintro rfl
        rfl
      · intro hwide
        rw [← @narrow_widen name, ← hwide, narrow_widen]
    have hfile : (⟨widen (narrow file.name), file.bytes, file.sha256⟩ : VerifiedBuildFile) =
        file := by
      rw [hnarrow, ← hname]
    rw [foldl_cons, hfiles, hhost, hcrash, map_cons, mem_cons, mem_cons]
    rw [Reading.add, Reading.push, hfile]
    refine ⟨by simp, ?_, ?_⟩
    · rw [Bool.or_eq_true, heq, or_assoc]
    · rw [Bool.or_eq_true, heq, or_assoc]

def printable (c : UInt8) : Bool := 0x20 ≤ c && c ≤ 0x7e

theorem row_printable {file : VerifiedBuildFile} (h : Shape file) :
    ∀ c ∈ rowOf file, printable c = true := by
  obtain ⟨⟨-, hhash⟩, -, name, hallowed, hname⟩ := h
  intro c hc
  rw [rowOf, mem_append, mem_cons, mem_append, mem_cons] at hc
  rcases hc with hmem | rfl | hmem | rfl | hmem
  · have hhex := all_eq_true.mp hhash c hmem
    simp only [upperHex, printable, Bool.or_eq_true, Bool.and_eq_true, decide_eq_true_eq,
      UInt8.le_iff_toNat_le] at hhex ⊢
    have hconstants : (48 : UInt8).toNat = 48 ∧ (57 : UInt8).toNat = 57 ∧
        (65 : UInt8).toNat = 65 ∧ (70 : UInt8).toNat = 70 ∧ (0x20 : UInt8).toNat = 32 ∧
        (0x7e : UInt8).toNat = 126 := by decide
    omega
  · rfl
  · have hdigit := Decimal.isDigit_of_mem_text hmem
    simp only [printable, Bool.and_eq_true, decide_eq_true_eq, UInt8.le_iff_toNat_le]
    have hconstants : (0x20 : UInt8).toNat = 32 ∧ (0x7e : UInt8).toNat = 126 := by decide
    omega
  · rfl
  · rw [hname, narrow_widen] at hmem
    exact all_eq_true.mp (allowed_printable name hallowed) c hmem

theorem joined_last (lines : List Bytes) {before : Bytes} (h : before.getLast? = some 10) :
    (before ++ TextLines.joined lines).getLast? = some 10 := by
  induction lines generalizing before with
  | nil => rwa [TextLines.joined_nil, append_nil]
  | cons line rest ih =>
    have hnext : (before ++ (line ++ [10])).getLast? = some 10 := by
      rw [← append_assoc, getLast?_concat]
    have := ih hnext
    rwa [append_assoc, append_assoc, singleton_append, ← TextLines.joined_cons] at this

/-- A manifest is accepted exactly if it is the text of the files that come back, and these are
what a build may have. -/
theorem parse_ok {text : Bytes} {files : List VerifiedBuildFile} :
    parse text = .ok files ↔ text = serialize files ∧ Canonical files := by
  have hzero : ({} : Reading).total.toNat ≤ kMaximumTotalBytes.toNat := Nat.zero_le _
  have hempty : ({} : Reading).files.length ≤ kMaximumFiles := Nat.zero_le _
  simp only [parse, bind_ok, need_ok, pure_ok, exists_const]
  constructor
  · rintro ⟨⟨hlength, hheader, hlast⟩, -, s, hrows, ⟨hhost, hcrash⟩, rfl⟩
    obtain ⟨files, hall, hsplit, rfl⟩ := (parseRows_ok hzero).mp hrows
    obtain ⟨hshapes, hchain, hcount, htotal⟩ := (fitsAll_iff hzero hempty).mp hall
    obtain ⟨hfiles, hhost', hcrash'⟩ := foldl_add files {} hshapes
    obtain ⟨body, hbody⟩ := isPrefixOf_iff_prefix.mp hheader
    have hdrop : text.drop kHeader.length = body := by rw [← hbody, drop_left]
    have hended : TextLines.Ended body := by
      rcases eq_nil_or_concat body with hnil | ⟨start, c, hconcat⟩
      · exact .inl hnil
      · right
        rw [concat_eq_append] at hconcat
        rw [← hbody, hconcat, ← append_assoc, getLast?_concat] at hlast
        rw [hconcat, getLast?_concat]
        exact hlast
    have hjoined := TextLines.joined_split (TextLines.closed_of_ended hended)
    have htext : text = serialize files := by
      rw [serialize, ← hsplit, hdrop, hjoined, hbody]
    rw [hfiles, nil_append]
    refine ⟨htext, hshapes, ?_, ?_, ?_, ?_, ?_, ?_⟩
    · exact (pairwise_cons.mp (isChain_iff_pairwise.mp hchain)).2
    · have hnone : ({} : Reading).files.length = 0 := rfl
      omega
    · have hnone : ({} : Reading).total.toNat = 0 := rfl
      omega
    · exact (hhost'.mp hhost).resolve_left Bool.false_ne_true
    · exact (hcrash'.mp hcrash).resolve_left Bool.false_ne_true
    · rw [← htext]
      exact hlength
  · rintro ⟨rfl, hcanonical⟩
    have hdrop : (serialize files).drop kHeader.length =
        TextLines.joined (files.map rowOf) := by rw [serialize, drop_left]
    have hfeeds : ∀ row ∈ files.map rowOf, (10 : UInt8) ∉ row := by
      intro row hrow hfeed
      obtain ⟨file, hfile, rfl⟩ := mem_map.mp hrow
      have := row_printable (hcanonical.shapes file hfile) 10 hfeed
      revert this
      decide
    have hall : FitsAll {} files := by
      apply (fitsAll_iff hzero hempty).mpr
      refine ⟨hcanonical.shapes, ?_, ?_, ?_⟩
      · apply isChain_iff_pairwise.mpr
        refine pairwise_cons.mpr ⟨?_, hcanonical.sorted⟩
        intro name hname
        obtain ⟨file, hfile, rfl⟩ := mem_map.mp hname
        obtain ⟨allowed, hallowed, heq⟩ := (hcanonical.shapes file hfile).name
        rw [heq, narrow_widen]
        have hlong := allowed_length allowed hallowed
        cases allowed with
        | nil => simp at hlong
        | cons c rest => exact nil_lt_cons c rest
      · have hnone : ({} : Reading).files.length = 0 := rfl
        have := hcanonical.count
        omega
      · have hnone : ({} : Reading).total.toNat = 0 := rfl
        have := hcanonical.total
        omega
    obtain ⟨hfiles, hhost, hcrash⟩ := foldl_add files {} hcanonical.shapes
    refine ⟨⟨hcanonical.length, ?_, ?_⟩, ?_, files.foldl Reading.add {}, ?_, ⟨?_, ?_⟩, ?_⟩
    · exact isPrefixOf_iff_prefix.mpr (prefix_append _ _)
    · exact joined_last _ (by decide)
    · rw [serialize, all_append, TextLines.joined, Bool.and_eq_true]
      refine ⟨by decide, all_eq_true.mpr fun c hc => ?_⟩
      obtain ⟨row, hrow, hmem⟩ := mem_flatMap.mp hc
      obtain ⟨file, hfile, rfl⟩ := mem_map.mp hrow
      rcases mem_append.mp hmem with hin | hend
      · have hprintable := row_printable (hcanonical.shapes file hfile) c hin
        rw [Bool.or_eq_true]
        exact .inr hprintable
      · rw [mem_singleton.mp hend]
        rfl
    · rw [hdrop, TextLines.split_joined hfeeds]
      exact (parseRows_ok hzero).mpr ⟨files, hall, rfl, rfl⟩
    · exact hhost.mpr (.inr hcanonical.host)
    · exact hcrash.mpr (.inr hcanonical.crash)
    · rw [hfiles, nil_append]

end Mcla.Launcher.Build

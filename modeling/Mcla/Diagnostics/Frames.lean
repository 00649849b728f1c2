import Mathlib
import Mcla.Library.MachineArith

/-! # The frame of a diagnostic snapshot

`WriteBgraBmp` of `mcla_diagnostics` writes the captured pixels as a bitmap file, and
`MeasureBgraFrame` of `mcla_frame_signal` looks whether they are all of one colour.  Both are given
a buffer and a geometry, and check that the last row lies in the buffer before they read.

They are written over a machine, which has the arithmetic of words and of sizes and reads the
buffer.  `strict` fails where an operation wraps or a byte outside is read; `running` wraps.
-/
namespace Mcla.Frames
open MachineArith List

abbrev Bytes := List UInt8

/-- A `std::span` of bytes: its size is a `size_t`. -/
structure Pixels where
  bytes : Bytes
  sized : bytes.length < 2 ^ 64

def Pixels.size (pixels : Pixels) : Nat := pixels.bytes.length

/-- The byte at an index. -/
def Pixels.at (pixels : Pixels) (i : Nat) : UInt8 := pixels.bytes.getD i 0

def kMaxFrameBytes : Nat := 64 * 1024 * 1024

/-! ### Machines -/

/-- The arithmetic and the memory that a routine runs on. -/
structure Machine (m : Type → Type) where
  /-- `uint32_t`. -/
  word : Arith m
  /-- `uint64_t`, and `size_t` of a 64-bit target. -/
  size : Arith m
  /-- The bytes from an offset on. -/
  read : Nat → Nat → m Bytes

/-- Some bytes of the pixels. -/
def slice (pixels : Pixels) (offset count : Nat) : Bytes := (pixels.bytes.drop offset).take count

/-- Bytes outside the buffer cannot be read. -/
def readInside (pixels : Pixels) (offset count : Nat) : Option Bytes :=
  if offset + count ≤ pixels.size then some (slice pixels offset count) else none

/-- Wrapping words, beside reads that can fail. -/
def total (w : Nat) : Arith Option where
  add a b := some ((wrapping w).add a b)
  sub a b := some ((wrapping w).sub a b)
  mul a b := some ((wrapping w).mul a b)

/-- Arithmetic and reads that can fail. -/
def strict (pixels : Pixels) : Machine Option := ⟨checked 32, checked 64, readInside pixels⟩

/-- Words that wrap, and reads that can fail. -/
def running (pixels : Pixels) : Machine Option := ⟨total 32, total 64, readInside pixels⟩

/-- Exact on operations that stay in the word and on reads that stay in the buffer. -/
structure Machine.Exact {m : Type → Type} [Monad m] (M : Machine m) (pixels : Pixels) : Prop where
  word : Faithful 32 M.word
  size : Faithful 64 M.size
  read : ∀ {offset count : Nat}, offset + count ≤ pixels.size →
    M.read offset count = pure (slice pixels offset count)

theorem total_faithful (w : Nat) : Faithful w (total w) where
  add h := congrArg some ((wrapping_faithful w).add h)
  sub h hlt := congrArg some ((wrapping_faithful w).sub h hlt)
  mul h := congrArg some ((wrapping_faithful w).mul h)

theorem strict_exact (pixels : Pixels) : (strict pixels).Exact pixels where
  word := checked_faithful 32
  size := checked_faithful 64
  read h := if_pos h

theorem running_exact (pixels : Pixels) : (running pixels).Exact pixels where
  word := total_faithful 32
  size := total_faithful 64
  read h := if_pos h

/-! ### The bitmap -/

/-- Two bytes, the low one first. -/
def le16 (value : Nat) : Bytes := [UInt8.ofNat value, UInt8.ofNat (value / 2 ^ 8)]

/-- Four bytes, the lowest first. -/
def le32 (value : Nat) : Bytes :=
  [UInt8.ofNat value, UInt8.ofNat (value / 2 ^ 8), UInt8.ofNat (value / 2 ^ 16),
    UInt8.ofNat (value / 2 ^ 24)]

/-- The two headers of the file.  The height is negative: the rows go from top to bottom. -/
def bmpHeader (width height file_bytes payload_bytes : Nat) : Bytes :=
  [66, 77] ++ le32 file_bytes ++ le16 0 ++ le16 0 ++ le32 54 ++ le32 40 ++ le32 width ++
    le32 (2 ^ 32 - height) ++ le16 1 ++ le16 32 ++ le32 0 ++ le32 payload_bytes ++ le32 2835 ++
    le32 2835 ++ le32 0 ++ le32 0

/-- What writing a bitmap comes to. -/
inductive BmpResult where
  | rejected
  | notOpened
  | written (file : Bytes) (good : Bool)
deriving DecidableEq

section Programs
variable {m : Type → Type} [Monad m] (M : Machine m)

/-- `WriteBgraBmp`, where the file opens or does not and the stream is good at the end or is not. -/
def writeBgraBmp (opens good : Bool) (width height stride size : Nat) : m BmpResult :=
  if width = 0 ∨ height = 0 ∨ width > 8192 ∨ height > 8192 then pure .rejected
  else
    M.size.mul width 4 >>= fun row_bytes =>
    M.size.mul row_bytes height >>= fun payload_bytes =>
    if stride < row_bytes ∨ payload_bytes > kMaxFrameBytes ∨ stride > (2 ^ 64 - 1) / height then
      pure .rejected
    else
      -- both factors are of 32 bits, and so is the product
      M.word.sub height 1 >>= fun last =>
      M.word.mul stride last >>= fun offset =>
      M.size.add offset row_bytes >>= fun required_bytes =>
      if required_bytes > size ∨ payload_bytes > 2 ^ 32 - 1 - 54 then pure .rejected
      else if opens = false then pure .notOpened
      else
        M.size.add 54 payload_bytes >>= fun file_bytes =>
        (List.range height).mapM (fun y =>
          M.word.mul stride y >>= fun offset => M.read offset row_bytes) >>= fun rows =>
        pure (.written (bmpHeader width height file_bytes payload_bytes ++ rows.flatten) good)

/-- What the pixels of a frame look like. -/
inductive FrameRgbClass where
  | kUnavailable | kAllBlack | kUniformNonblack | kNonuniform
deriving DecidableEq

/-- What `classifyFrame` finds. -/
structure FrameSignal where
  classification : FrameRgbClass := .kUnavailable
  (width height : Nat := 0)

/-- One byte of the buffer. -/
def Machine.byte (i : Nat) : m UInt8 := M.read i 1 >>= fun bytes => pure (bytes.headD 0)

/-- The loop over a row: it ends at the first pixel of another colour.  The first argument counts
the pixels from `x` on. -/
def scanRow (blue green red : UInt8) (row_start : Nat) : Nat → Nat → m Bool
  | 0, _ => pure false
  | n + 1, x =>
      M.size.add row_start x >>= fun pixel =>
      M.byte pixel >>= fun b =>
      if b ≠ blue then pure true
      else
        M.size.add pixel 1 >>= fun second =>
        M.byte second >>= fun g =>
        if g ≠ green then pure true
        else
          M.size.add pixel 2 >>= fun third =>
          M.byte third >>= fun r =>
          if r ≠ red then pure true
          else M.size.add x 4 >>= fun next => scanRow blue green red row_start n next

/-- The rows of the frame. -/
def scanRows (blue green red : UInt8) (width stride : Nat) : List Nat → m Bool
  | [] => pure false
  | y :: rest =>
      M.size.mul y stride >>= fun row_start =>
      scanRow M blue green red row_start width 0 >>= fun differs =>
      if differs = true then pure true else scanRows blue green red width stride rest

/-- `MeasureBgraFrame`. -/
def measureBgraFrame (width height stride size : Nat) : m FrameSignal :=
  M.size.mul width 4 >>= fun row_bytes =>
  if width = 0 ∨ height = 0 ∨ row_bytes > size ∨ row_bytes > stride then pure {}
  else
    M.word.sub height 1 >>= fun last =>
    M.size.sub size row_bytes >>= fun room =>
    if last > room / stride then pure {}
    else
      M.byte 0 >>= fun blue =>
      M.byte 1 >>= fun green =>
      M.byte 2 >>= fun red =>
      scanRows M blue green red width stride (List.range height) >>= fun differs =>
      pure
        { classification :=
            if differs = true then .kNonuniform
            else if blue ≠ 0 ∨ green ≠ 0 ∨ red ≠ 0 then .kUniformNonblack else .kAllBlack
          width := width
          height := height }

end Programs

/-! ### The bitmap is read inside the buffer -/

/-- The last row lies in the buffer. -/
def LastRowFits (width height stride size : Nat) : Prop := stride * (height - 1) + 4 * width ≤ size

/-- The checks before the first product of words. -/
structure Entered (width height stride : Nat) : Prop where
  width_pos : 0 < width
  width_le : width ≤ 8192
  height_pos : 0 < height
  height_le : height ≤ 8192
  stride_ge : 4 * width ≤ stride
  payload_le : 4 * width * height ≤ kMaxFrameBytes

theorem mapM_pure {m : Type → Type} [Monad m] [LawfulMonad m] {α β : Type} {f : α → m β}
    {g : α → β} {l : List α} (h : ∀ a ∈ l, f a = pure (g a)) : l.mapM f = pure (l.map g) := by
  induction l with
  | nil => rfl
  | cons a l ih =>
    rw [mapM_cons, h a mem_cons_self, pure_bind,
      ih fun b hb => h b (mem_cons_of_mem _ hb), pure_bind]
    rfl

section Faithful
variable {m : Type → Type} [Monad m] [LawfulMonad m] {M : Machine m} {pixels : Pixels}

variable {width height stride : Nat}

theorem writeBgraBmp_early (hM : M.Exact pixels) (h : ¬ Entered width height stride)
    (opens good : Bool) (size : Nat) :
    writeBgraBmp M opens good width height stride size = pure .rejected := by
  unfold writeBgraBmp
  split
  · rfl
  · rename_i hsides
    obtain ⟨hwidth, hheight, hwidth_le, hheight_le⟩ :
        0 < width ∧ 0 < height ∧ width ≤ 8192 ∧ height ≤ 8192 := by omega
    have hpayload : width * 4 * height ≤ 8192 * 4 * 8192 := by gcongr
    rw [hM.size.mul (by omega), pure_bind, hM.size.mul (by omega), pure_bind, if_pos]
    by_contra hnot
    refine h ⟨hwidth, hwidth_le, hheight, hheight_le, by omega, ?_⟩
    rw [Nat.mul_comm 4 width]
    omega

/-- The files that are written, if the product of words does not wrap. -/
def bmpFile (pixels : Pixels) (width height stride : Nat) : Bytes :=
  bmpHeader width height (54 + width * 4 * height) (width * 4 * height) ++
    ((List.range height).map fun y => slice pixels (stride * y) (width * 4)).flatten

/-- The checks before the product of 32 bits pass. -/
theorem Entered.guards (h : Entered width height stride) (hstride : stride < 2 ^ 32) :
    width * 4 * height ≤ 64 * 1024 * 1024 ∧ ¬ stride > (2 ^ 64 - 1) / height := by
  obtain ⟨-, -, hheight, hheight_le, -, hpayload⟩ := h
  constructor
  · rw [Nat.mul_comm width 4]
    exact hpayload
  · rw [gt_iff_lt, Nat.div_lt_iff_lt_mul hheight, not_lt]
    calc stride * height ≤ 2 ^ 32 * 8192 := by gcongr
      _ ≤ 2 ^ 64 - 1 := by decide

open Classical in
theorem writeBgraBmp_entered (hM : M.Exact pixels) (h : Entered width height stride)
    (hstride : stride < 2 ^ 32) (hproduct : stride * (height - 1) < 2 ^ 32) (opens good : Bool) :
    writeBgraBmp M opens good width height stride pixels.size =
      pure (if LastRowFits width height stride pixels.size then
        if opens = false then .notOpened
        else .written (bmpFile pixels width height stride) good
      else .rejected) := by
  obtain ⟨hmul, hquotient⟩ := h.guards hstride
  obtain ⟨hwidth, hwidth_le, hheight, hheight_le, hge, -⟩ := h
  unfold writeBgraBmp
  rw [if_neg (by omega), hM.size.mul (by omega), pure_bind, hM.size.mul (by omega), pure_bind,
    if_neg (by unfold kMaxFrameBytes; omega), hM.word.sub hheight (by omega), pure_bind,
    hM.word.mul hproduct, pure_bind, hM.size.add (by omega), pure_bind]
  by_cases hfits : LastRowFits width height stride pixels.size
  · have hlast : stride * (height - 1) + width * 4 ≤ pixels.size := by
      rw [Nat.mul_comm width 4]
      exact hfits
    rw [if_pos hfits, if_neg (by omega)]
    split
    · rfl
    · rw [hM.size.add (by omega), pure_bind, mapM_pure (g := fun y =>
        slice pixels (stride * y) (width * 4)), pure_bind]
      · rfl
      · intro y hy
        -- no row starts behind the last one
        have hle : stride * y ≤ stride * (height - 1) :=
          Nat.mul_le_mul_left _ (Nat.le_sub_one_of_lt (mem_range.mp hy))
        rw [hM.word.mul (by omega), pure_bind, hM.read (by omega)]
  · rw [if_neg hfits, if_pos]
    refine .inl ?_
    unfold LastRowFits at hfits
    omega

/-! ### The colours are read inside the buffer -/

theorem byte_eq (hM : M.Exact pixels) {i : Nat} (h : i < pixels.size) :
    M.byte i = pure (pixels.at i) := by
  unfold Machine.byte
  rw [hM.read h, pure_bind]
  congr 1
  unfold slice Pixels.at
  rw [drop_eq_getElem_cons h, getD_eq_getElem _ _ h]
  rfl

/-- The pixel at an index has another colour. -/
def differs (pixels : Pixels) (blue green red : UInt8) (i : Nat) : Prop :=
  pixels.at i ≠ blue ∨ pixels.at (i + 1) ≠ green ∨ pixels.at (i + 2) ≠ red

open Classical in
/-- The induction is on the pixels that are left of the row. -/
theorem scanRow_eq (hM : M.Exact pixels) (blue green red : UInt8) {row_start : Nat} (n x : Nat)
    (h : row_start + x + 4 * n ≤ pixels.size) :
    scanRow M blue green red row_start n x =
      pure (decide (∃ k < n, differs pixels blue green red (row_start + x + 4 * k))) := by
  have hsized : pixels.size < 2 ^ 64 := pixels.sized
  induction n generalizing x with
  | zero =>
    rw [scanRow, decide_eq_false]
    rintro ⟨k, hk, -⟩
    omega
  | succ n ih =>
    have hsplit : (∃ k < n + 1, differs pixels blue green red (row_start + x + 4 * k)) ↔
        differs pixels blue green red (row_start + x) ∨
          ∃ k < n, differs pixels blue green red (row_start + (x + 4) + 4 * k) := by
      constructor
      · rintro ⟨k, hk, hdiffers⟩
        cases k with
        | zero => exact .inl hdiffers
        | succ k =>
          refine .inr ⟨k, by omega, ?_⟩
          rw [show row_start + (x + 4) + 4 * k = row_start + x + 4 * (k + 1) by omega]
          exact hdiffers
      · rintro (hdiffers | ⟨k, hk, hdiffers⟩)
        · exact ⟨0, by omega, hdiffers⟩
        · refine ⟨k + 1, by omega, ?_⟩
          rw [show row_start + x + 4 * (k + 1) = row_start + (x + 4) + 4 * k by omega]
          exact hdiffers
    rw [scanRow, hM.size.add (by omega), pure_bind, byte_eq hM (by omega), pure_bind]
    by_cases hblue : pixels.at (row_start + x) = blue
    swap
    · rw [if_pos hblue, decide_eq_true (hsplit.mpr (.inl (.inl hblue)))]
    rw [if_neg (not_not.mpr hblue), hM.size.add (by omega), pure_bind, byte_eq hM (by omega),
      pure_bind]
    by_cases hgreen : pixels.at (row_start + x + 1) = green
    swap
    · rw [if_pos hgreen, decide_eq_true (hsplit.mpr (.inl (.inr (.inl hgreen))))]
    rw [if_neg (not_not.mpr hgreen), hM.size.add (by omega), pure_bind, byte_eq hM (by omega),
      pure_bind]
    by_cases hred : pixels.at (row_start + x + 2) = red
    swap
    · rw [if_pos hred, decide_eq_true (hsplit.mpr (.inl (.inr (.inr hred))))]
    rw [if_neg (not_not.mpr hred), hM.size.add (by omega), pure_bind, ih (x + 4) (by omega)]
    congr 1
    rw [decide_eq_decide, hsplit]
    constructor
    · exact .inr
    · rintro (hdiffers | hrest)
      · rcases hdiffers with hne | hne | hne
        · exact absurd hblue hne
        · exact absurd hgreen hne
        · exact absurd hred hne
      · exact hrest

open Classical in
theorem scanRows_eq (hM : M.Exact pixels) (blue green red : UInt8) {width stride : Nat}
    (rows : List Nat) (h : ∀ y ∈ rows, y * stride + 4 * width ≤ pixels.size) :
    scanRows M blue green red width stride rows = pure (decide (∃ y ∈ rows, ∃ k < width,
      differs pixels blue green red (y * stride + 4 * k))) := by
  have hsized : pixels.size < 2 ^ 64 := pixels.sized
  induction rows with
  | nil =>
    rw [scanRows, decide_eq_false]
    simp
  | cons y rows ih =>
    have hrow := h y mem_cons_self
    rw [scanRows, hM.size.mul (by omega), pure_bind, scanRow_eq hM _ _ _ _ _ (by omega), pure_bind]
    by_cases hdiffers : ∃ k < width, differs pixels blue green red (y * stride + 0 + 4 * k)
    · rw [if_pos (decide_eq_true hdiffers), decide_eq_true]
      exact ⟨y, mem_cons_self, hdiffers⟩
    · rw [if_neg (by simpa using hdiffers), ih fun z hz => h z (mem_cons_of_mem _ hz)]
      congr 1
      rw [decide_eq_decide]
      constructor
      · rintro ⟨z, hz, hpixel⟩
        exact ⟨z, mem_cons_of_mem _ hz, hpixel⟩
      · rintro ⟨z, hz, hpixel⟩
        rcases mem_cons.mp hz with rfl | hmem
        · exact absurd hpixel hdiffers
        · exact ⟨z, hmem, hpixel⟩

/-- The frames that are measured. -/
structure Measurable (width height stride size : Nat) : Prop where
  width_pos : 0 < width
  height_pos : 0 < height
  stride_ge : 4 * width ≤ stride
  fits : LastRowFits width height stride size

instance (pixels : Pixels) (blue green red : UInt8) (i : Nat) :
    Decidable (differs pixels blue green red i) := inferInstanceAs (Decidable (_ ∨ _ ∨ _))

/-- What is measured, by the bytes that are seen. -/
def measured (pixels : Pixels) (width height stride : Nat) : FrameSignal where
  classification :=
    if ∃ y ∈ List.range height, ∃ k < width,
        differs pixels (pixels.at 0) (pixels.at 1) (pixels.at 2) (y * stride + 4 * k) then
      .kNonuniform
    else if pixels.at 0 ≠ 0 ∨ pixels.at 1 ≠ 0 ∨ pixels.at 2 ≠ 0 then .kUniformNonblack
    else .kAllBlack
  width := width
  height := height

open Classical in
theorem measureBgraFrame_eq (hM : M.Exact pixels) (hwidth : width < 2 ^ 32)
    (hheight : height < 2 ^ 32) :
    measureBgraFrame M width height stride pixels.size =
      pure (if Measurable width height stride pixels.size then
        measured pixels width height stride else {}) := by
  have hsized : pixels.size < 2 ^ 64 := pixels.sized
  unfold measureBgraFrame
  rw [hM.size.mul (by omega), pure_bind]
  split
  · rename_i hsides
    rw [if_neg]
    intro h
    have hfits := h.fits
    unfold LastRowFits at hfits
    have h1 := h.width_pos
    have h2 := h.height_pos
    have h3 := h.stride_ge
    omega
  rename_i hsides
  obtain ⟨hwidth_pos, hheight_pos, hrow, hstride⟩ :
      0 < width ∧ 0 < height ∧ width * 4 ≤ pixels.size ∧ width * 4 ≤ stride := by omega
  have hquotient : height - 1 > (pixels.size - width * 4) / stride ↔
      ¬ Measurable width height stride pixels.size := by
    rw [gt_iff_lt, Nat.div_lt_iff_lt_mul (by omega), Nat.mul_comm (height - 1)]
    constructor
    · intro h hmeasurable
      have hfits := hmeasurable.fits
      unfold LastRowFits at hfits
      omega
    · intro h
      by_contra hle
      refine h ⟨hwidth_pos, hheight_pos, by omega, ?_⟩
      unfold LastRowFits
      omega
  rw [hM.word.sub hheight_pos (by omega), pure_bind, hM.size.sub hrow (by omega), pure_bind]
  split
  · rename_i hbeyond
    rw [if_neg (hquotient.mp hbeyond)]
  rename_i hbeyond
  have hmeasurable := not_not.mp (mt hquotient.mpr hbeyond)
  have hfits := hmeasurable.fits
  unfold LastRowFits at hfits
  rw [byte_eq hM (by omega), pure_bind, byte_eq hM (by omega), pure_bind, byte_eq hM (by omega),
    pure_bind, scanRows_eq hM, pure_bind, if_pos hmeasurable]
  · congr 1
    unfold measured
    simp only [decide_eq_true_eq]
  · intro y hy
    have hle : y * stride ≤ stride * (height - 1) := by
      rw [Nat.mul_comm]
      exact Nat.mul_le_mul_left _ (Nat.le_sub_one_of_lt (mem_range.mp hy))
    omega

end Faithful

/-! ### What holds of the two -/

/-- `WriteBgraBmp` reads inside the buffer and wraps nowhere, and it rejects a geometry whose last
row does not fit. -/
def WritesSafely (pixels : Pixels) (opens good : Bool) (width height stride : UInt32) : Prop :=
  ∃ result,
    writeBgraBmp (strict pixels) opens good width.toNat height.toNat stride.toNat pixels.size =
      some result ∧
    writeBgraBmp (running pixels) opens good width.toNat height.toNat stride.toNat pixels.size =
      some result ∧
    (¬ LastRowFits width.toNat height.toNat stride.toNat pixels.size → result = .rejected)

/-- Two frames show the same colours. -/
def SameColours (width height : Nat) (pixels : Pixels) (stride : Nat) (pixels' : Pixels)
    (stride' : Nat) : Prop :=
  ∀ y < height, ∀ x < width, ∀ channel < 3,
    pixels.at (y * stride + 4 * x + channel) = pixels'.at (y * stride' + 4 * x + channel)

/-- `MeasureBgraFrame` reads inside the buffer and wraps nowhere, rejects a geometry whose last row
does not fit, and says the same of every accepted frame with the same colours. -/
def MeasuresSafely (pixels : Pixels) (width height : UInt32) (stride : UInt64) : Prop :=
  ∃ signal,
    measureBgraFrame (strict pixels) width.toNat height.toNat stride.toNat pixels.size =
      some signal ∧
    measureBgraFrame (running pixels) width.toNat height.toNat stride.toNat pixels.size =
      some signal ∧
    (¬ LastRowFits width.toNat height.toNat stride.toNat pixels.size →
      signal.classification = .kUnavailable) ∧
    ∀ (pixels' : Pixels) (stride' : UInt64) (signal' : FrameSignal),
      measureBgraFrame (running pixels') width.toNat height.toNat stride'.toNat pixels'.size =
        some signal' →
      signal.classification ≠ .kUnavailable → signal'.classification ≠ .kUnavailable →
      SameColours width.toNat height.toNat pixels stride.toNat pixels' stride'.toNat →
        signal = signal'

/-- Only the colours that are seen count. -/
theorem measured_congr {width height stride stride' : Nat} {pixels pixels' : Pixels}
    (hwidth : 0 < width) (hheight : 0 < height)
    (h : SameColours width height pixels stride pixels' stride') :
    measured pixels width height stride = measured pixels' width height stride' := by
  have hfirst : ∀ channel < 3, pixels.at channel = pixels'.at channel := by
    intro channel hchannel
    have heq := h 0 hheight 0 hwidth channel hchannel
    rwa [Nat.zero_mul, Nat.zero_mul, Nat.mul_zero, Nat.zero_add] at heq
  have h0 := hfirst 0 (by decide)
  have h1 := hfirst 1 (by decide)
  have h2 := hfirst 2 (by decide)
  have hdiffers : (∃ y ∈ List.range height, ∃ k < width, differs pixels (pixels.at 0)
      (pixels.at 1) (pixels.at 2) (y * stride + 4 * k)) ↔ ∃ y ∈ List.range height, ∃ k < width,
        differs pixels' (pixels'.at 0) (pixels'.at 1) (pixels'.at 2) (y * stride' + 4 * k) := by
    refine exists_congr fun y => and_congr_right fun hy => exists_congr fun k =>
      and_congr_right fun hk => ?_
    have hy' := mem_range.mp hy
    unfold differs
    rw [h0, h1, h2, h y hy' k hk 1 (by decide), h y hy' k hk 2 (by decide)]
    have hblue := h y hy' k hk 0 (by decide)
    rw [Nat.add_zero, Nat.add_zero] at hblue
    rw [hblue]
  unfold measured
  rw [h0, h1, h2] at hdiffers ⊢
  simp only [hdiffers]

/-- Every frame is measured safely. -/
theorem measuresSafely (pixels : Pixels) (width height : UInt32) (stride : UInt64) :
    MeasuresSafely pixels width height stride := by
  classical
  have hwidth := width.toNat_lt
  have hheight := height.toNat_lt
  refine ⟨_, measureBgraFrame_eq (strict_exact pixels) hwidth hheight,
    measureBgraFrame_eq (running_exact pixels) hwidth hheight, ?_, ?_⟩
  · intro hout
    rw [if_neg fun h : Measurable _ _ _ _ => hout h.fits]
  · intro pixels' stride' signal' hsignal' havailable havailable' hsame
    rw [measureBgraFrame_eq (running_exact pixels') hwidth hheight] at hsignal'
    obtain rfl := Option.some.inj hsignal'
    split at havailable
    swap
    · exact absurd rfl havailable
    rename_i hmeasurable
    split at havailable'
    swap
    · exact absurd rfl havailable'
    rename_i hmeasurable'
    rw [if_pos hmeasurable, if_pos hmeasurable']
    exact measured_congr hmeasurable.width_pos hmeasurable.height_pos hsame

/-- The geometries that `WriteBgraBmp` rejects before it multiplies words, and those where the
product is a word. -/
def ProductFits (width height stride : UInt32) : Prop :=
  width = 0 ∨ height = 0 ∨ width.toNat > 8192 ∨ height.toNat > 8192 ∨
    stride.toNat < 4 * width.toNat ∨ 4 * width.toNat * height.toNat > kMaxFrameBytes ∨
    stride.toNat * (height.toNat - 1) < 2 ^ 32

theorem productFits_iff {width height stride : UInt32} : ProductFits width height stride ↔
    (Entered width.toNat height.toNat stride.toNat →
      stride.toNat * (height.toNat - 1) < 2 ^ 32) := by
  have hwidth : width = 0 ↔ width.toNat = 0 := by
    rw [← UInt32.toNat_inj]
    rfl
  have hheight : height = 0 ↔ height.toNat = 0 := by
    rw [← UInt32.toNat_inj]
    rfl
  unfold ProductFits
  rw [hwidth, hheight]
  constructor
  · intro h hentered
    obtain ⟨h1, h2, h3, h4, h5, h6⟩ := hentered
    omega
  · intro h
    by_contra hnot
    simp only [not_or] at hnot
    obtain ⟨h1, h2, h3, h4, h5, h6, h7⟩ := hnot
    exact h7 (h ⟨by omega, by omega, by omega, by omega, by omega, by omega⟩)

/-- The product of words wraps. -/
theorem strict_wraps {pixels : Pixels} {width height stride : Nat} (h : Entered width height stride)
    (hstride : stride < 2 ^ 32) (hproduct : 2 ^ 32 ≤ stride * (height - 1)) (opens good : Bool)
    (size : Nat) : writeBgraBmp (strict pixels) opens good width height stride size = none := by
  have hM := strict_exact pixels
  obtain ⟨hmul, hquotient⟩ := h.guards hstride
  obtain ⟨hwidth, hwidth_le, hheight, hheight_le, hge, -⟩ := h
  have hnone : (strict pixels).word.mul stride (height - 1) = none := if_neg (not_lt.mpr hproduct)
  unfold writeBgraBmp
  rw [if_neg (by omega), hM.size.mul (by omega), pure_bind, hM.size.mul (by omega), pure_bind,
    if_neg (by unfold kMaxFrameBytes; omega), hM.word.sub hheight (by omega), pure_bind, hnone]
  rfl

/-- **Which frames are read safely**: all that are measured, and those that are written unless the
offset of the last row is no 32-bit word. -/
theorem frames_safe_iff (pixels : Pixels) (opens good : Bool) (width height stride : UInt32)
    (row_stride : UInt64) :
    (WritesSafely pixels opens good width height stride ∧
      MeasuresSafely pixels width height row_stride) ↔ ProductFits width height stride := by
  classical
  have hstride := stride.toNat_lt
  rw [productFits_iff]
  constructor
  · rintro ⟨⟨result, hstrict, -, -⟩, -⟩ hentered
    by_contra hproduct
    rw [strict_wraps hentered hstride (not_lt.mp hproduct)] at hstrict
    cases hstrict
  · intro hproduct
    refine ⟨?_, measuresSafely pixels width height row_stride⟩
    by_cases hentered : Entered width.toNat height.toNat stride.toNat
    · refine ⟨_, writeBgraBmp_entered (strict_exact pixels) hentered hstride (hproduct hentered) _ _,
        writeBgraBmp_entered (running_exact pixels) hentered hstride (hproduct hentered) _ _, ?_⟩
      intro hout
      rw [if_neg hout]
    · exact ⟨.rejected, writeBgraBmp_early (strict_exact pixels) hentered _ _ _,
        writeBgraBmp_early (running_exact pixels) hentered _ _ _, fun _ => rfl⟩

/-- Three rows of one pixel, 2 GiB apart, in a buffer of one row: the check passes, and the second
row is read outside. -/
theorem wrapped_row_read_outside :
    let pixels : Pixels := ⟨[1, 2, 3, 4], by decide⟩
    writeBgraBmp (running pixels) true true 1 3 (2 ^ 31) pixels.size = none ∧
      ¬ WritesSafely pixels true true 1 3 0x80000000 := by
  intro pixels
  have hnone : writeBgraBmp (running pixels) true true 1 3 (2 ^ 31) pixels.size = none := by decide
  refine ⟨hnone, ?_⟩
  rintro ⟨result, -, hrunning, -⟩
  have hsame : writeBgraBmp (running pixels) true true 1 3 (2 ^ 31) pixels.size = some result :=
    hrunning
  rw [hnone] at hsame
  cases hsame

end Mcla.Frames

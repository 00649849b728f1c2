import Mathlib
import Mcla.Library.MachineArith

/-! # The image of a diagnostic snapshot

`mcla_diagnostic_image_protocol`: another process captures the window and writes a result of
64-bit fields, which are checked before a byte of the image is used.  The checks are written over
an arithmetic, so that they can be run as the machine does or with a failure where an operation
would wrap; `validateResult_eq` says that they come to the same as the comparison of unbounded
numbers.
-/
namespace Mcla.ImageProtocol
open MachineArith

def kMagic : UInt64 := 0x31474D49414C434D
def kVersion : UInt64 := 1
def kMaxDimension : Nat := 8192
def kMaxPayloadBytes : Nat := 64 * 1024 * 1024
def kRequestBytes : UInt64 := 144
def kResultBytes : UInt64 := 288

/-- Four words that have to be zero. -/
structure Reserved where
  (word0 word1 word2 word3 : UInt64 := 0)
deriving DecidableEq

/-- The header that the host writes. -/
structure Request where
  magic : UInt64 := kMagic
  version : UInt64 := kVersion
  header_bytes : UInt64 := kRequestBytes
  (payload_capacity owner_pid owner_birth hwnd owner_thread : UInt64 := 0)
  (client_x client_y : Int64 := 0)
  (client_width client_height dpi request_id : UInt64 := 0)
  reserved : Reserved := {}
deriving DecidableEq

/-! The enumerations are words: what the other process wrote need not be one of the values. -/

def Status.kPending : UInt64 := 0
def Status.kSuccess : UInt64 := 1
def Status.kFailure : UInt64 := 2
def Failure.kNone : UInt64 := 0
def Failure.kOwnerChanged : UInt64 := 1
def Failure.kUnsupported : UInt64 := 2
def Failure.kCaptureFailed : UInt64 := 3
def Failure.kInvalidImage : UInt64 := 4
def Failure.kTimeout : UInt64 := 5
def Failure.kInternal : UInt64 := 6
def Layout.kNone : UInt64 := 0
def Layout.kTopDownTightBgra8 : UInt64 := 1

/-- The header that the helper answers with. -/
structure Result where
  request : Request := {}
  header_bytes : UInt64 := kResultBytes
  status : UInt64 := Status.kPending
  failure : UInt64 := Failure.kNone
  (content_x content_y : Int64 := 0)
  (content_width content_height source_row_pitch source_buffer_bytes crop_x crop_y : UInt64 := 0)
  layout : UInt64 := Layout.kNone
  (output_row_pitch payload_bytes : UInt64 := 0)
  reserved : Reserved := {}

/-! ### The checks -/

/-- The failures that a helper may report. -/
def knownFailure (failure : UInt64) : Bool :=
  failure == Failure.kOwnerChanged || failure == Failure.kUnsupported ||
    failure == Failure.kCaptureFailed || failure == Failure.kInvalidImage ||
    failure == Failure.kTimeout || failure == Failure.kInternal

/-- The reserved words are zero. -/
def zeroReserved (reserved : Reserved) : Bool :=
  reserved.word0 == 0 && reserved.word1 == 0 && reserved.word2 == 0 && reserved.word3 == 0

section Checks
variable {m : Type → Type} [Monad m] (A : Arith m) (S : SignedArith m)

/-- `a && b`: the second is evaluated only where the first is true. -/
def both (a b : m Bool) : m Bool := a >>= fun first => if first then b else pure false

/-- A product, if it fits 64 bits. -/
def checkedMultiply (a b : Nat) : m (Option Nat) :=
  if b ≠ 0 ∧ a > (2 ^ 64 - 1) / b then pure none
  else A.mul a b >>= fun out => pure (some out)

/-- `ImageShape`: the bytes of a row and of the image. -/
def imageShape (width height : Nat) : m (Option (Nat × Nat)) :=
  if width > 0 ∧ width ≤ kMaxDimension ∧ height > 0 ∧ height ≤ kMaxDimension then
    checkedMultiply A width 4 >>= fun
    | none => pure none
    | some row_bytes =>
        checkedMultiply A row_bytes height >>= fun
        | none => pure none
        | some bytes =>
            pure (if bytes ≤ kMaxPayloadBytes then some (row_bytes, bytes) else none)
  else pure none

def lowCoordinate : Int := -2 ^ 31
def highCoordinate : Int := 2 ^ 31 - 1

/-- An axis of the desktop, in 32-bit coordinates. -/
def physicalAxis (origin : Int) (extent : Nat) : m Bool :=
  if origin ≥ lowCoordinate ∧ origin ≤ highCoordinate ∧ extent ≤ kMaxDimension then
    S.sub highCoordinate origin >>= fun room => pure (decide (extent ≤ toUnsigned 64 room))
  else pure false

/-- Whether a request is well formed. -/
def validateRequest (request : Request) : m Bool :=
  if request.magic = kMagic ∧ request.version = kVersion ∧ request.header_bytes = kRequestBytes ∧
      request.owner_pid > 0 ∧ request.owner_pid.toNat ≤ 2 ^ 32 - 1 ∧ request.owner_birth ≠ 0 ∧
      request.hwnd ≠ 0 ∧ request.owner_thread > 0 ∧ request.owner_thread.toNat ≤ 2 ^ 32 - 1 ∧
      request.request_id ≠ 0 ∧ request.dpi > 0 ∧ request.dpi.toNat ≤ 2 ^ 32 - 1 ∧
      zeroReserved request.reserved = true then
    imageShape A request.client_width.toNat request.client_height.toNat >>= fun
    | none => pure false
    | some (_, bytes) =>
        both (physicalAxis S request.client_x.toInt request.client_width.toNat)
          (both (physicalAxis S request.client_y.toInt request.client_height.toNat)
            (pure (decide (request.payload_capacity.toNat = bytes))))
  else pure false

/-- A failure, which has no image. -/
def validateFailure (result : Result) : Bool :=
  knownFailure result.failure && result.content_x == 0 && result.content_y == 0 &&
    result.content_width == 0 && result.content_height == 0 && result.source_row_pitch == 0 &&
    result.source_buffer_bytes == 0 && result.crop_x == 0 && result.crop_y == 0 &&
    result.layout == Layout.kNone && result.output_row_pitch == 0 && result.payload_bytes == 0

/-- The end of `ValidateResult`: the crop, with the output as it has to be. -/
def validateCrop (expected : Request) (result : Result) (output : Nat × Nat) : m Bool :=
  if result.crop_x.toNat > result.content_width.toNat ∨
      result.crop_y.toNat > result.content_height.toNat then pure false
  else
    A.sub result.content_width.toNat result.crop_x.toNat >>= fun columns =>
    if expected.client_width.toNat > columns then pure false
    else
      A.sub result.content_height.toNat result.crop_y.toNat >>= fun rows =>
      if expected.client_height.toNat > rows ∨ expected.client_x.toInt < result.content_x.toInt ∨
          expected.client_y.toInt < result.content_y.toInt then pure false
      else
        S.sub expected.client_x.toInt result.content_x.toInt >>= fun x =>
        if result.crop_x.toNat ≠ toUnsigned 64 x then pure false
        else
          S.sub expected.client_y.toInt result.content_y.toInt >>= fun y =>
          pure (decide (result.crop_y.toNat = toUnsigned 64 y ∧
            result.output_row_pitch.toNat = output.1 ∧ result.payload_bytes.toNat = output.2))

/-- A success, with the image that it describes. -/
def validateSuccess (expected : Request) (result : Result) : m Bool :=
  if result.status ≠ Status.kSuccess ∨ result.failure ≠ Failure.kNone ∨
      result.layout ≠ Layout.kTopDownTightBgra8 then pure false
  else
    imageShape A result.content_width.toNat result.content_height.toNat >>= fun
    | none => pure false
    | some (content_row_bytes, _) =>
        both (physicalAxis S result.content_x.toInt result.content_width.toNat)
          (both (physicalAxis S result.content_y.toInt result.content_height.toNat)
            (if result.source_row_pitch.toNat < content_row_bytes ∨
                result.source_row_pitch.toNat % 4 ≠ 0 then pure false
            else
              checkedMultiply A result.source_row_pitch.toNat result.content_height.toNat >>= fun
              | none => pure false
              | some source_bytes =>
                  if source_bytes > kMaxPayloadBytes ∨
                      result.source_buffer_bytes.toNat ≠ source_bytes then pure false
                  else
                    imageShape A expected.client_width.toNat expected.client_height.toNat >>= fun
                    | none => pure false
                    | some output => validateCrop A S expected result output))

/-- `ValidateResult`. -/
def validateResult (expected : Request) (result : Result) (available_payload_bytes : UInt64) :
    m Bool :=
  both (validateRequest A S expected)
    (if result.request ≠ expected ∨ result.header_bytes ≠ kResultBytes ∨
        zeroReserved result.reserved = false ∨
        available_payload_bytes ≠ expected.payload_capacity then pure false
    else if result.status = Status.kFailure then pure (validateFailure result)
    else validateSuccess A S expected result)

end Checks

/-- `ValidateResult` as the machine runs it. -/
def accepts (expected : Request) (result : Result) (available : UInt64) : Bool :=
  Id.run (validateResult (wrapping 64) (signedWrapping 64) expected result available)

/-! ### What is checked -/

/-- An image that fits the payload. -/
structure Shape (width height : Nat) : Prop where
  width_pos : 0 < width
  width_le : width ≤ 8192
  height_pos : 0 < height
  height_le : height ≤ 8192
  bytes_le : width * 4 * height ≤ kMaxPayloadBytes

/-- An extent between the coordinates that a window can have. -/
structure OnAxis (origin : Int) (extent : Nat) : Prop where
  low : -2 ^ 31 ≤ origin
  extent_le : extent ≤ 8192
  high : origin + extent ≤ 2 ^ 31 - 1

/-- A request of this process. -/
structure ValidRequest (request : Request) : Prop where
  magic : request.magic = kMagic
  version : request.version = kVersion
  header_bytes : request.header_bytes = kRequestBytes
  owner_pid : request.owner_pid > 0 ∧ request.owner_pid.toNat ≤ 2 ^ 32 - 1
  owner_birth : request.owner_birth ≠ 0
  hwnd : request.hwnd ≠ 0
  owner_thread : request.owner_thread > 0 ∧ request.owner_thread.toNat ≤ 2 ^ 32 - 1
  request_id : request.request_id ≠ 0
  dpi : request.dpi > 0 ∧ request.dpi.toNat ≤ 2 ^ 32 - 1
  reserved : zeroReserved request.reserved = true
  shape : Shape request.client_width.toNat request.client_height.toNat
  x_axis : OnAxis request.client_x.toInt request.client_width.toNat
  y_axis : OnAxis request.client_y.toInt request.client_height.toNat
  payload_capacity :
    request.payload_capacity.toNat = request.client_width.toNat * 4 * request.client_height.toNat

/-- The rows of a source buffer, all of the same pitch. -/
structure SourceRows (result : Result) : Prop where
  row : result.content_width.toNat * 4 ≤ result.source_row_pitch.toNat
  aligned : result.source_row_pitch.toNat % 4 = 0
  bytes : result.source_buffer_bytes.toNat =
    result.source_row_pitch.toNat * result.content_height.toNat
  bytes_le : result.source_buffer_bytes.toNat ≤ kMaxPayloadBytes

/-- The part of the content that is the client area. -/
structure Crop (expected : Request) (result : Result) : Prop where
  columns : result.crop_x.toNat + expected.client_width.toNat ≤ result.content_width.toNat
  rows : result.crop_y.toNat + expected.client_height.toNat ≤ result.content_height.toNat
  x : expected.client_x.toInt = result.content_x.toInt + result.crop_x.toNat
  y : expected.client_y.toInt = result.content_y.toInt + result.crop_y.toNat
  output_row_pitch : result.output_row_pitch.toNat = expected.client_width.toNat * 4
  payload_bytes : result.payload_bytes.toNat =
    expected.client_width.toNat * 4 * expected.client_height.toNat

/-- A success, and its image. -/
structure ValidImage (expected : Request) (result : Result) : Prop where
  status : result.status = Status.kSuccess
  failure : result.failure = Failure.kNone
  layout : result.layout = Layout.kTopDownTightBgra8
  shape : Shape result.content_width.toNat result.content_height.toNat
  x_axis : OnAxis result.content_x.toInt result.content_width.toNat
  y_axis : OnAxis result.content_y.toInt result.content_height.toNat
  source : SourceRows result
  crop : Crop expected result

/-- What `ValidateResult` accepts, on unbounded numbers. -/
structure Accepted (expected : Request) (result : Result) (available : UInt64) : Prop where
  request : ValidRequest expected
  same : result.request = expected
  header_bytes : result.header_bytes = kResultBytes
  reserved : zeroReserved result.reserved = true
  available : available = expected.payload_capacity
  image : (result.status = Status.kFailure ∧ validateFailure result = true) ∨
    ValidImage expected result

/-! ### The checks over a faithful arithmetic -/

section Faithful
variable {m : Type → Type} [Monad m] [LawfulMonad m] {A : Arith m} {S : SignedArith m}

theorem both_pure (p q : Prop) [Decidable p] [Decidable q] :
    both (pure (decide p) : m Bool) (pure (decide q)) = pure (decide (p ∧ q)) := by
  unfold both
  rw [pure_bind]
  by_cases hp : p
  · simp [hp]
  · simp [hp]

theorem checkedMultiply_eq (hA : Faithful 64 A) (a : Nat) {b : Nat} (hb : 0 < b) :
    checkedMultiply A a b = pure (if a * b < 2 ^ 64 then some (a * b) else none) := by
  unfold checkedMultiply
  have hdiv : a > (2 ^ 64 - 1) / b ↔ ¬ a * b < 2 ^ 64 := by
    rw [gt_iff_lt, Nat.div_lt_iff_lt_mul hb]
    omega
  by_cases hfits : a * b < 2 ^ 64
  · rw [if_neg (fun h => hdiv.mp h.2 hfits), if_pos hfits, hA.mul hfits, pure_bind]
  · rw [if_pos ⟨hb.ne', hdiv.mpr hfits⟩, if_neg hfits]

open Classical in
theorem imageShape_eq (hA : Faithful 64 A) (width height : Nat) :
    imageShape A width height =
      pure (if Shape width height then some (width * 4, width * 4 * height) else none) := by
  unfold imageShape kMaxDimension
  by_cases hsides : width > 0 ∧ width ≤ 8192 ∧ height > 0 ∧ height ≤ 8192
  · obtain ⟨hwidth, hwidth_le, hheight, hheight_le⟩ := hsides
    have hrow : width * 4 < 2 ^ 64 := by omega
    have hbytes : width * 4 * height < 2 ^ 64 := by
      have hle : width * 4 * height ≤ 8192 * 4 * 8192 := by gcongr
      omega
    rw [if_pos ⟨hwidth, hwidth_le, hheight, hheight_le⟩, checkedMultiply_eq hA _ (by decide),
      if_pos hrow, pure_bind]
    dsimp only
    rw [checkedMultiply_eq hA _ hheight, if_pos hbytes, pure_bind]
    dsimp only
    by_cases hpayload : width * 4 * height ≤ kMaxPayloadBytes
    · rw [if_pos hpayload, if_pos ⟨hwidth, hwidth_le, hheight, hheight_le, hpayload⟩]
    · rw [if_neg hpayload, if_neg fun h => hpayload h.bytes_le]
  · rw [if_neg hsides, if_neg fun h => hsides ⟨h.width_pos, h.width_le, h.height_pos, h.height_le⟩]

open Classical in
theorem physicalAxis_eq (hS : SignedFaithful 64 S) (origin : Int) (extent : Nat) :
    physicalAxis S origin extent = pure (decide (OnAxis origin extent)) := by
  unfold physicalAxis lowCoordinate highCoordinate kMaxDimension
  by_cases hrange : origin ≥ -2 ^ 31 ∧ origin ≤ 2 ^ 31 - 1 ∧ extent ≤ 8192
  · obtain ⟨hlow, hhigh, hextent⟩ := hrange
    rw [if_pos ⟨hlow, hhigh, hextent⟩, hS.sub (by omega) (by omega), pure_bind,
      toUnsigned_of_nonneg (by omega) (by omega)]
    congr 1
    rw [decide_eq_decide]
    constructor
    · intro h
      exact ⟨hlow, hextent, by omega⟩
    · intro h
      have hend := h.high
      omega
  · rw [if_neg hrange]
    congr 1
    symm
    rw [decide_eq_false_iff_not]
    intro h
    have hend := h.high
    exact hrange ⟨h.low, by omega, h.extent_le⟩

open Classical in
theorem validateRequest_eq (hA : Faithful 64 A) (hS : SignedFaithful 64 S) (request : Request) :
    validateRequest A S request = pure (decide (ValidRequest request)) := by
  unfold validateRequest
  split
  · rename_i hfields
    rw [imageShape_eq hA, pure_bind]
    by_cases hshape : Shape request.client_width.toNat request.client_height.toNat
    · rw [if_pos hshape]
      dsimp only
      rw [physicalAxis_eq hS, physicalAxis_eq hS, both_pure, both_pure]
      congr 1
      rw [decide_eq_decide]
      obtain ⟨h1, h2, h3, h4, h5, h6, h7, h8, h9, h10, h11, h12, h13⟩ := hfields
      constructor
      · rintro ⟨hx, hy, hcapacity⟩
        exact ⟨h1, h2, h3, ⟨h4, h5⟩, h6, h7, ⟨h8, h9⟩, h10, ⟨h11, h12⟩, h13, hshape, hx, hy,
          hcapacity⟩
      · intro h
        exact ⟨h.x_axis, h.y_axis, h.payload_capacity⟩
    · rw [if_neg hshape]
      dsimp only
      rw [decide_eq_false fun h : ValidRequest request => hshape h.shape]
  · rename_i hfields
    rw [decide_eq_false]
    intro h
    exact hfields ⟨h.magic, h.version, h.header_bytes, h.owner_pid.1, h.owner_pid.2, h.owner_birth,
      h.hwnd, h.owner_thread.1, h.owner_thread.2, h.request_id, h.dpi.1, h.dpi.2, h.reserved⟩

open Classical in
/-- The crop of an image whose coordinates are those of windows. -/
theorem validateCrop_eq (hA : Faithful 64 A) (hS : SignedFaithful 64 S) {expected : Request}
    {result : Result} (hx : OnAxis expected.client_x.toInt expected.client_width.toNat)
    (hy : OnAxis expected.client_y.toInt expected.client_height.toNat)
    (hcx : OnAxis result.content_x.toInt result.content_width.toNat)
    (hcy : OnAxis result.content_y.toInt result.content_height.toNat) :
    validateCrop A S expected result (expected.client_width.toNat * 4,
        expected.client_width.toNat * 4 * expected.client_height.toNat) =
      pure (decide (Crop expected result)) := by
  have hx₁ := hx.low
  have hx₂ := hx.high
  have hy₁ := hy.low
  have hy₂ := hy.high
  have hcx₁ := hcx.low
  have hcx₂ := hcx.high
  have hcy₁ := hcy.low
  have hcy₂ := hcy.high
  have hwidth := hcx.extent_le
  have hheight := hcy.extent_le
  unfold validateCrop
  split
  · rename_i hcrop
    rw [decide_eq_false]
    intro h
    have hcolumns := h.columns
    have hrows := h.rows
    omega
  rename_i hcrop
  rw [not_or, not_lt, not_lt] at hcrop
  rw [hA.sub hcrop.1 (by omega), pure_bind]
  split
  · rename_i hcolumns
    rw [decide_eq_false]
    intro h
    have hcolumns' := h.columns
    omega
  rename_i hcolumns
  rw [hA.sub hcrop.2 (by omega), pure_bind]
  split
  · rename_i horigin
    rw [decide_eq_false]
    intro h
    have hrows := h.rows
    have hxs := h.x
    have hys := h.y
    omega
  rename_i horigin
  -- both differences are between coordinates of 32 bits, and not negative
  rw [hS.sub (by omega) (by omega), pure_bind, toUnsigned_of_nonneg (by omega) (by omega)]
  split
  · rename_i hleft
    rw [decide_eq_false]
    intro h
    have hxs := h.x
    omega
  rename_i hleft
  rw [hS.sub (by omega) (by omega), pure_bind, toUnsigned_of_nonneg (by omega) (by omega)]
  congr 1
  rw [decide_eq_decide]
  constructor
  · rintro ⟨htop, hpitch, hpayload⟩
    exact ⟨by omega, by omega, by omega, by omega, hpitch, hpayload⟩
  · intro h
    have hys := h.y
    exact ⟨by omega, h.output_row_pitch, h.payload_bytes⟩

open Classical in
theorem validateSuccess_eq (hA : Faithful 64 A) (hS : SignedFaithful 64 S) {expected : Request}
    (hexpected : ValidRequest expected) (result : Result) :
    validateSuccess A S expected result = pure (decide (ValidImage expected result)) := by
  unfold validateSuccess
  split
  · rename_i hstatus
    rw [decide_eq_false]
    intro h
    rcases hstatus with hne | hne | hne
    · exact hne h.status
    · exact hne h.failure
    · exact hne h.layout
  rename_i hstatus
  rw [not_or, not_or, not_not, not_not, not_not] at hstatus
  obtain ⟨hstatus, hfailure, hlayout⟩ := hstatus
  rw [imageShape_eq hA, pure_bind]
  by_cases hshape : Shape result.content_width.toNat result.content_height.toNat
  swap
  · rw [if_neg hshape]
    dsimp only
    rw [decide_eq_false fun h : ValidImage expected result => hshape h.shape]
  rw [if_pos hshape]
  dsimp only
  rw [physicalAxis_eq hS, physicalAxis_eq hS]
  by_cases hx : OnAxis result.content_x.toInt result.content_width.toNat
  swap
  · rw [decide_eq_false hx, decide_eq_false fun h : ValidImage expected result => hx h.x_axis,
      both, pure_bind]
    rfl
  by_cases hy : OnAxis result.content_y.toInt result.content_height.toNat
  swap
  · rw [decide_eq_true hx, decide_eq_false hy,
      decide_eq_false fun h : ValidImage expected result => hy h.y_axis, both, pure_bind,
      both, pure_bind]
    rfl
  rw [decide_eq_true hx, decide_eq_true hy, both, pure_bind, if_pos rfl, both, pure_bind,
    if_pos rfl]
  have hsource : ∀ {b : Bool}, (¬ SourceRows result → b = false) →
      (SourceRows result → b = decide (Crop expected result)) →
      (pure b : m Bool) = pure (decide (ValidImage expected result)) := by
    intro b hno hyes
    congr 1
    by_cases h : SourceRows result
    · rw [hyes h, decide_eq_decide]
      exact ⟨fun hcrop => ⟨hstatus, hfailure, hlayout, hshape, hx, hy, h, hcrop⟩,
        fun himage => himage.crop⟩
    · rw [hno h, decide_eq_false fun himage : ValidImage expected result => h himage.source]
  split
  · rename_i hpitch
    refine hsource (fun _ => rfl) fun h => absurd hpitch ?_
    rw [not_or, not_lt, not_not]
    exact ⟨h.row, h.aligned⟩
  rename_i hpitch
  rw [not_or, not_lt, not_not] at hpitch
  rw [checkedMultiply_eq hA _ hshape.height_pos, pure_bind]
  split
  · rename_i hnone
    refine hsource (fun _ => rfl) fun h => ?_
    have hle := h.bytes_le
    rw [h.bytes] at hle
    unfold kMaxPayloadBytes at hle
    rw [if_pos (by omega)] at hnone
    cases hnone
  rename_i source_bytes hsome
  split at hsome
  swap
  · cases hsome
  obtain rfl := Option.some.inj hsome
  split
  · rename_i hbytes
    refine hsource (fun _ => rfl) fun h => absurd hbytes ?_
    rw [not_or, not_lt, not_not]
    exact ⟨h.bytes ▸ h.bytes_le, h.bytes⟩
  rename_i hbytes
  rw [not_or, not_lt, not_not] at hbytes
  rw [imageShape_eq hA, pure_bind, if_pos hexpected.shape]
  dsimp only
  rw [validateCrop_eq hA hS hexpected.x_axis hexpected.y_axis hx hy]
  refine hsource (fun h => absurd ⟨hpitch.1, hpitch.2, hbytes.2, hbytes.2.trans_le hbytes.1⟩ h)
    fun _ => rfl

open Classical in
/-- **The checks are those of unbounded numbers**, over every arithmetic that is exact on what
stays in the word. -/
theorem validateResult_eq (hA : Faithful 64 A) (hS : SignedFaithful 64 S) (expected : Request)
    (result : Result) (available : UInt64) :
    validateResult A S expected result available =
      pure (decide (Accepted expected result available)) := by
  unfold validateResult
  rw [validateRequest_eq hA hS, both, pure_bind]
  by_cases hrequest : ValidRequest expected
  swap
  · rw [decide_eq_false hrequest,
      decide_eq_false fun h : Accepted expected result available => hrequest h.request]
    rfl
  rw [decide_eq_true hrequest, if_pos rfl]
  split
  · rename_i hhead
    rw [decide_eq_false]
    intro h
    rcases hhead with hne | hne | hne | hne
    · exact hne h.same
    · exact hne h.header_bytes
    · rw [h.reserved] at hne
      cases hne
    · exact hne h.available
  rename_i hhead
  rw [not_or, not_or, not_or, not_not, not_not, not_not, Bool.not_eq_false] at hhead
  obtain ⟨hsame, hheader, hreserved, havailable⟩ := hhead
  split
  · rename_i hstatus
    congr 1
    rw [Bool.eq_iff_iff, decide_eq_true_eq]
    constructor
    · intro h
      exact ⟨hrequest, hsame, hheader, hreserved, havailable, .inl ⟨hstatus, h⟩⟩
    · intro h
      rcases h.image with himage | himage
      · exact himage.2
      · have hsuccess := himage.status
        rw [hstatus] at hsuccess
        exact absurd hsuccess (by decide)
  · rename_i hstatus
    rw [validateSuccess_eq hA hS hrequest]
    congr 1
    rw [decide_eq_decide]
    constructor
    · intro h
      exact ⟨hrequest, hsame, hheader, hreserved, havailable, .inr h⟩
    · intro h
      rcases h.image with himage | himage
      · exact absurd himage.1 hstatus
      · exact himage

end Faithful

/-! ### The bytes that are copied -/

/-- The end of a row of the image in the source buffer. -/
def rowEnd (result : Result) (row bytes : Nat) : Nat :=
  (result.crop_y.toNat + row) * result.source_row_pitch.toNat + result.crop_x.toNat * 4 + bytes

theorem ValidImage.rowEnd_le {expected : Request} {result : Result} (h : ValidImage expected result)
    {row : Nat} (hrow : row < expected.client_height.toNat) :
    rowEnd result row (4 * expected.client_width.toNat) ≤ result.source_buffer_bytes.toNat := by
  have hcolumns := h.crop.columns
  have hrows := h.crop.rows
  have hpitch := h.source.row
  unfold rowEnd
  calc (result.crop_y.toNat + row) * result.source_row_pitch.toNat + result.crop_x.toNat * 4 +
        4 * expected.client_width.toNat
      ≤ (result.crop_y.toNat + row) * result.source_row_pitch.toNat +
        result.source_row_pitch.toNat := by omega
    _ = (result.crop_y.toNat + row + 1) * result.source_row_pitch.toNat := (Nat.succ_mul ..).symm
    _ ≤ result.content_height.toNat * result.source_row_pitch.toNat :=
        Nat.mul_le_mul_right _ (by omega)
    _ = result.source_buffer_bytes.toNat := by rw [h.source.bytes, Nat.mul_comm]

/-- A failure has no image at all. -/
theorem empty_of_validateFailure {result : Result} (h : validateFailure result = true) :
    result.source_row_pitch = 0 ∧ result.source_buffer_bytes = 0 ∧ result.crop_x = 0 ∧
      result.crop_y = 0 ∧ result.output_row_pitch = 0 ∧ result.payload_bytes = 0 := by
  unfold validateFailure at h
  simp only [Bool.and_eq_true, beq_iff_eq] at h
  obtain ⟨⟨⟨⟨⟨⟨⟨_, hpitch⟩, hbytes⟩, hx⟩, hy⟩, _⟩, houtput⟩, hpayload⟩ := h
  exact ⟨hpitch, hbytes, hx, hy, houtput, hpayload⟩

/-- **What is accepted.**  No operation of the checks wraps, whatever the fields are.  Where they
accept, the source buffer is at most 64 MiB and the rows that are copied, `output_row_pitch` bytes
each, lie in it and fill the payload.  The rows of a success are those of the client area, and the
payload is the one that the request has room for; a failure has rows of no bytes. -/
theorem accepted_rows_inside (expected : Request) (result : Result) (available : UInt64) :
    validateResult (checked 64) (signedChecked 64) expected result available =
        some (accepts expected result available) ∧
      (accepts expected result available = true →
        result.source_buffer_bytes.toNat ≤ 64 * 1024 * 1024 ∧
        (∀ row < expected.client_height.toNat,
          rowEnd result row result.output_row_pitch.toNat ≤ result.source_buffer_bytes.toNat) ∧
        expected.client_height.toNat * result.output_row_pitch.toNat = result.payload_bytes.toNat ∧
        (result.status = Status.kSuccess →
          (∀ row < expected.client_height.toNat,
            rowEnd result row (4 * expected.client_width.toNat) ≤
              result.source_buffer_bytes.toNat) ∧
          result.output_row_pitch.toNat = 4 * expected.client_width.toNat ∧
          result.payload_bytes = available)) := by
  classical
  have hwrapping : accepts expected result available =
      decide (Accepted expected result available) :=
    validateResult_eq (wrapping_faithful 64) (signedWrapping_faithful (by decide)) expected result
      available
  have hchecked := validateResult_eq (checked_faithful 64) (signedChecked_faithful 64)
    expected result available
  refine ⟨?_, ?_⟩
  · rw [hchecked, hwrapping]
    rfl
  rw [hwrapping]
  intro h
  have haccepted : Accepted expected result available := of_decide_eq_true h
  rcases haccepted.image with ⟨hstatus, hfailure⟩ | himage
  · obtain ⟨hpitch, hbytes, hx, hy, houtput, hpayload⟩ := empty_of_validateFailure hfailure
    refine ⟨?_, ?_, ?_, ?_⟩
    · rw [hbytes]
      decide
    · intro row _
      unfold rowEnd
      rw [hbytes, hpitch, hx, hy, houtput]
      simp
    · rw [houtput, hpayload]
      simp
    · intro hsuccess
      rw [hstatus] at hsuccess
      exact absurd hsuccess (by decide)
  · have hrow : result.output_row_pitch.toNat = 4 * expected.client_width.toNat := by
      rw [himage.crop.output_row_pitch, Nat.mul_comm]
    refine ⟨himage.source.bytes_le, ?_, ?_, fun _ => ⟨fun row => himage.rowEnd_le, hrow, ?_⟩⟩
    · rw [hrow]
      exact fun row => himage.rowEnd_le
    · rw [himage.crop.output_row_pitch, himage.crop.payload_bytes, Nat.mul_comm]
    · rw [haccepted.available, ← UInt64.toNat_inj, himage.crop.payload_bytes,
        haccepted.request.payload_capacity]

/-- A window's inner two by two of four by four, at negative coordinates. -/
def croppedRequest : Request :=
  { payload_capacity := 16, owner_pid := 7, owner_birth := 1, hwnd := 1, owner_thread := 8,
    client_x := -3, client_y := 5, client_width := 2, client_height := 2, dpi := 96,
    request_id := 1 }

/-- A success with a crop. -/
def croppedResult : Result :=
  { request := croppedRequest, status := Status.kSuccess, content_x := -4, content_y := 4,
    content_width := 4, content_height := 4, source_row_pitch := 20, source_buffer_bytes := 80,
    crop_x := 1, crop_y := 1, layout := Layout.kTopDownTightBgra8, output_row_pitch := 8,
    payload_bytes := 16 }

theorem accepted_rows_inside_cropped :
    accepts croppedRequest croppedResult 16 = true ∧ rowEnd croppedResult 1 8 ≤ 80 := by
  have haccepted : accepts croppedRequest croppedResult 16 = true := by decide
  obtain ⟨-, -, -, hsuccess⟩ := (accepted_rows_inside _ _ _).2 haccepted
  exact ⟨haccepted, (hsuccess rfl).1 1 (by decide)⟩

/-- A failure is accepted, and a row of the client area is not in its source buffer. -/
theorem accepted_failure_without_rows :
    let expected : Request :=
      { payload_capacity := 4, owner_pid := 7, owner_birth := 1, hwnd := 1, owner_thread := 8,
        client_width := 1, client_height := 1, dpi := 96, request_id := 1 }
    let result : Result :=
      { request := expected, status := Status.kFailure, failure := Failure.kTimeout }
    accepts expected result 4 = true ∧
      ¬ ∀ row < expected.client_height.toNat,
        rowEnd result row (4 * expected.client_width.toNat) ≤ result.source_buffer_bytes.toNat := by
  intro expected result
  refine ⟨by decide, fun h => ?_⟩
  have hrow := h 0 (by decide)
  revert hrow
  decide

end Mcla.ImageProtocol

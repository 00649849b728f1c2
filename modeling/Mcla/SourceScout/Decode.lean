import Mcla.SourceScout.Receipt

/-! # The decode of a source scout

`decode` of `mcla_game_source_scout_decode`: one pass over the frozen rows, which reads the image
of each collected slot once and keeps only the source and the pixels of the slot before.  The
constants of the results are left out.  What the reader does to the receipt changes nothing, since
the rows have been copied before.
-/
namespace Mcla.SourceScout
open NestedRecorder (need need_ok bind_ok pure_ok)
open KeyedStream (Follows fresh)
open List Option

/-- The injected reader: what it raises, or what it returns when that is bytes. -/
abbrev Reader := String → Except String (Option (List UInt8))

/-! ### Images -/

/-- A little-endian field of `struct`. -/
def unpack (data : List UInt8) (offset size : Nat) : Nat :=
  ((data.drop offset).take size).foldr (fun byte rest => byte.toNat + 256 * rest) 0

/-- `'<IHHI'` at 2 -/
def fileHeader (data : List UInt8) : List Nat :=
  [unpack data 2 4, unpack data 6 2, unpack data 8 2, unpack data 10 4]

/-- `'<IiiHHIIiiII'` at 14.  No signed field is negative that equals its constant. -/
def dibHeader (data : List UInt8) : List Nat :=
  [unpack data 14 4, unpack data 18 4, unpack data 22 4, unpack data 26 2, unpack data 28 2,
    unpack data 30 4, unpack data 34 4, unpack data 38 4, unpack data 42 4, unpack data 46 4,
    unpack data 50 4]

/-- The byte of the image at a place among its pixels, from the top row, red first. -/
def pixelByte (data : List UInt8) (place : Nat) : UInt8 :=
  let source := 54 + (HEIGHT - 1 - place / BMP_STRIDE) * BMP_STRIDE
  let column := place % BMP_STRIDE
  data.getD (source + (3 * (column / 3) + (2 - column % 3))) 0

/-- `_bmp_rgb` -/
def bmpRgb (raw : Option (List UInt8)) : Except String (List UInt8) := do
  let data ← known raw "canonical bounded immutable BMP bytes"
  need (data.length = BMP_BYTES) "canonical bounded immutable BMP bytes"
  need (data.take 2 = [0x42, 0x4D] ∧ fileHeader data = [BMP_BYTES, 0, 0, 54])
    "canonical BMP file header"
  need (dibHeader data = [40, WIDTH, HEIGHT, 1, 24, 0, BMP_STRIDE * HEIGHT, 0, 0, 0, 0])
    "canonical BMP DIB header"
  return (List.range (WIDTH * HEIGHT * 3)).map (pixelByte data)

/-! ### The results -/

/-- An image that the receipt names. -/
structure Image where
  slot : Nat
  name : String
  bytes : Nat
  sha256 : String

/-- A slot of the schedule, as it went. -/
structure Observation where
  (slot due_qpc observed_qpc : Nat)
  status : Status
  reason : JsonTree
  source_identity : Option (Nat × Nat)
  rgb_sha256 : Option String

/-- The clocks of a collected slot. -/
structure Window where
  slot : Nat
  source_identity : Nat × Nat
  (refresh_cpu_begin_qpc refresh_cpu_end_qpc pixels_ready_qpc external_after_qpc : Nat)
  (refresh_to_pixels_ready_ticks refresh_to_external_after_ticks
    copy_submit_to_completion_observed_ticks : Int)

/-- The clocks of an external call. -/
structure Call where
  (slot before_qpc after_qpc : Nat)
  call_ticks : Int

/-- What the receipt amounts to. -/
structure Census where
  status : String
  (scheduled_slots begin_qpc schedule_end_qpc qpc_frequency readiness_observed_qpc : Nat)
  counts : Status → Nat
  attempted_calls : Nat
  all_slots_collected : Bool
  (duplicate_sources unique_sources : Nat)
  observations : List Observation
  source_witness_spans : List (Option Window)
  external_call_costs : List (Option Call)

/-- What the decoder returns. -/
structure Decoded where
  images : List Image
  census : Census

/-! ### The pass -/

/-- What the loop keeps.  The source and the pixels before are set together. -/
structure Stream where
  counts : Status → Nat := fun _ => 0
  images : List Image := []
  observations : List Observation := []
  windows : List (Option Window) := []
  calls : List (Option Call) := []
  previous : Option ((Nat × Nat) × List UInt8) := none
  (duplicates unique : Nat := 0)

section Decode
variable (sha256 : List UInt8 → String) (read_image : Reader)

/-- What the row says of its slot. -/
def Row.observation (row : Row) (source_identity : Option (Nat × Nat))
    (rgb_sha256 : Option String) : Observation :=
  ⟨row.slot, row.due_qpc, row.observed_qpc, row.outcome.status, row.reason, source_identity,
    rgb_sha256⟩

/-- The clocks of the capture. -/
def Capture.window (p : Capture) (slot after : Nat) : Window where
  slot := slot
  source_identity := p.source
  refresh_cpu_begin_qpc := p.refresh_cpu_begin_qpc
  refresh_cpu_end_qpc := p.refresh_cpu_end_qpc
  pixels_ready_qpc := p.pixels_ready_qpc
  external_after_qpc := after
  refresh_to_pixels_ready_ticks := (p.pixels_ready_qpc : Int) - p.refresh_cpu_begin_qpc
  refresh_to_external_after_ticks := (after : Int) - p.refresh_cpu_begin_qpc
  copy_submit_to_completion_observed_ticks :=
    (p.copy_completion_observed_qpc : Int) - p.copy_submit_before_qpc

/-- What each row does first: its status is counted, and its call is written down. -/
def Stream.visit (s : Stream) (row : Row) : Stream :=
  { s with counts := fun status =>
             if status = row.outcome.status then s.counts status + 1 else s.counts status
           calls := s.calls ++ [row.outcome.call.map fun call =>
             ⟨row.slot, call.1, call.2, (call.2 : Int) - call.1⟩] }

/-- The source and the pixels of a collected slot. -/
def Stream.picture (s : Stream) (source : Nat × Nat) (rgb : List UInt8) : Except String Stream :=
  if s.previous.map Prod.fst = some source then do
    need (s.previous.map Prod.snd = some rgb) "same source identity changed RGB"
    return { s with duplicates := s.duplicates + 1, previous := some (source, rgb) }
  else
    return { s with unique := s.unique + 1, previous := some (source, rgb) }

/-- One slot of the receipt. -/
def decodeRow (s : Stream) (row : Row) : Except String Stream :=
  let s := s.visit row
  match row.outcome with
  | .collected _ after p => do
    let name := slotName row.slot
    let raw ← read_image name
    let rgb ← bmpRgb raw
    let s ← s.picture p.source rgb
    return { s with images := s.images ++
                      [⟨row.slot, name, (raw.getD []).length, sha256 (raw.getD [])⟩]
                    observations := s.observations ++
                      [row.observation (some p.source) (some (sha256 rgb))]
                    windows := s.windows ++ [some (p.window row.slot after)] }
  | _ => return { s with windows := s.windows ++ [none]
                         observations := s.observations ++ [row.observation none none] }

/-- All slots of the receipt. -/
def decodeRows (s : Stream) : List Row → Except String Stream
  | [] => .ok s
  | row :: rest => do
    let s ← decodeRow sha256 read_image s row
    decodeRows s rest

/-- The receipt and its images are read. -/
def decode (receipt : JsonTree) (token : String) (image_names : List String)
    (expected_profile : Option String) : Except String Decoded := do
  let schedule ← resolve receipt token expected_profile
  need (image_names.length ≤ schedule.scheduled_slots) "bounded BMP-only inventory"
  need (image_names.Nodup ∧ (∀ name ∈ image_names, name ∈ schedule.image_names) ∧
    ∀ name ∈ schedule.image_names, name ∈ image_names) "exact unique BMP-only inventory"
  let s ← decodeRows sha256 read_image {} schedule.slots
  let complete := s.counts .collected = schedule.scheduled_slots
  return { images := s.images
           census :=
             { status := if complete then COMPLETE else INCOMPLETE
               scheduled_slots := schedule.scheduled_slots
               begin_qpc := schedule.begin_qpc
               schedule_end_qpc := schedule.schedule_end_qpc
               qpc_frequency := schedule.qpc_frequency
               readiness_observed_qpc := schedule.readiness_observed_qpc
               counts := s.counts
               attempted_calls := s.counts .collected + s.counts .failed
               all_slots_collected := complete
               duplicate_sources := s.duplicates
               unique_sources := s.unique
               observations := s.observations
               source_witness_spans := s.windows
               external_call_costs := s.calls } }

end Decode

/-! ### What a decode that passes says -/

section Runs
variable (sha256 : List UInt8 → String) (read_image : Reader)

/-- The image of a slot, read and decoded. -/
def content (index : Nat) : Except String (List UInt8) := do
  let raw ← read_image (slotName index)
  bmpRgb raw

/-- The pixels of a slot whose image can be read. -/
def rgbOf (index : Nat) : List UInt8 := (content read_image index).toOption.getD []

/-- What the stream keeps of the collected slots before it is the last of them. -/
def Remembers (s : Stream) (last : Option (Nat × Capture)) : Prop :=
  s.previous = last.map fun shot => (shot.2.source, rgbOf read_image shot.1)

/-- What one row adds, collected or not. -/
structure DecodeStep (s s' : Stream) (row : Row) (last : Option (Nat × Capture)) : Prop where
  remembers : Remembers read_image s' (row.taken.or last)
  reads : ∀ shot ∈ row.taken, content read_image shot.1 = .ok (rgbOf read_image shot.1)
  same : ∀ shot ∈ row.taken, ∀ before ∈ last, before.2.source = shot.2.source →
    rgbOf read_image before.1 = rgbOf read_image shot.1
  unique : s'.unique = s.unique + fresh (last.map (·.2.source)) (row.taken.toList.map (·.2.source))
  total : s'.unique + s'.duplicates = s.unique + s.duplicates + row.taken.toList.length
  counted : s'.counts .collected = s.counts .collected + row.taken.toList.length
  observed : s'.observations.length = s.observations.length + 1
  kept : s'.images.map (·.slot) = s.images.map (·.slot) ++ row.taken.toList.map (·.1)

variable {sha256 read_image}

theorem rgbOf_eq {index : Nat} {raw : Option (List UInt8)} {rgb : List UInt8}
    (hraw : read_image (slotName index) = .ok raw) (hrgb : bmpRgb raw = .ok rgb) :
    content read_image index = .ok rgb ∧ rgbOf read_image index = rgb := by
  have hcontent : content read_image index = .ok rgb := by
    rw [content, bind_ok]
    exact ⟨raw, hraw, hrgb⟩
  exact ⟨hcontent, by rw [rgbOf, hcontent]; rfl⟩

theorem decodeRow_step {s s' : Stream} {row : Row}
    (h : decodeRow sha256 read_image s row = .ok s') {last : Option (Nat × Capture)}
    (hs : Remembers read_image s last) : DecodeStep read_image s s' row last := by
  cases houtcome : row.outcome with
  | collected before after p =>
    simp only [decodeRow, houtcome, bind_ok, pure_ok] at h
    obtain ⟨raw, hraw, rgb, hrgb, t, hpicture, rfl⟩ := h
    obtain ⟨hcontent, heq⟩ := rgbOf_eq hraw hrgb
    have htaken : row.taken = some (row.slot, p) := by rw [Row.taken, houtcome]; rfl
    have hprevious : (s.visit row).previous =
        last.map fun shot => (shot.2.source, rgbOf read_image shot.1) := hs
    have hfst : (s.visit row).previous.map Prod.fst = last.map (·.2.source) := by
      rw [hprevious, Option.map_map]
      rfl
    rw [Stream.picture, hfst] at hpicture
    by_cases hsame : last.map (·.2.source) = some p.source
    · -- the source before once more, and so are its pixels
      rw [if_pos hsame, bind_ok] at hpicture
      obtain ⟨_, hneed, hpicture⟩ := hpicture
      rw [pure_ok] at hpicture
      subst hpicture
      rw [need_ok, hprevious, Option.map_map] at hneed
      refine ⟨?_, ?_, ?_, ?_, ?_, ?_, ?_, ?_⟩
      · rw [Remembers, htaken, some_or, map_some, heq]
      · rintro shot hshot
        cases htaken.symm.trans hshot
        rw [hcontent, heq]
      · rintro shot hshot before' hbefore -
        cases htaken.symm.trans hshot
        rw [mem_def.mp hbefore] at hneed
        rw [heq]
        exact some.inj hneed
      · rw [htaken]
        simp [fresh, hsame, Stream.visit]
      · rw [htaken]
        simp [Stream.visit]
        omega
      · rw [htaken]
        simp [Stream.visit, houtcome, Outcome.status]
      · simp [Stream.visit]
      · rw [htaken]
        simp [Stream.visit]
    · rw [if_neg hsame, pure_ok] at hpicture
      subst hpicture
      refine ⟨?_, ?_, ?_, ?_, ?_, ?_, ?_, ?_⟩
      · rw [Remembers, htaken, some_or, map_some, heq]
      · rintro shot hshot
        cases htaken.symm.trans hshot
        rw [hcontent, heq]
      · rintro shot hshot before' hbefore hsource
        cases htaken.symm.trans hshot
        rw [mem_def.mp hbefore, map_some] at hsame
        exact absurd (congrArg some hsource) hsame
      · rw [htaken]
        simp [fresh, hsame, Stream.visit]
      · rw [htaken]
        simp [Stream.visit]
        omega
      · rw [htaken]
        simp [Stream.visit, houtcome, Outcome.status]
      · simp [Stream.visit]
      · rw [htaken]
        simp [Stream.visit]
  | notAttempted | missedDeadline | failed before after =>
    have htaken : row.taken = none := by rw [Row.taken, houtcome]; rfl
    simp only [decodeRow, houtcome, pure_ok] at h
    subst h
    refine ⟨?_, ?_, ?_, ?_, ?_, ?_, ?_, ?_⟩
    · rw [htaken]
      exact hs
    · rw [htaken]
      exact fun shot hshot => absurd hshot (not_mem_none shot)
    · rw [htaken]
      exact fun shot hshot => absurd hshot (not_mem_none shot)
    · simp [htaken, fresh, Stream.visit]
    · simp [htaken, Stream.visit]
    · simp [htaken, Stream.visit, houtcome, Outcome.status]
    · simp [Stream.visit]
    · simp [htaken, Stream.visit]

/-- What a run over the rows adds, when the sources of their slots never fall. -/
structure DecodeRun (read_image : Reader) (s s' : Stream) (shots : List (Nat × Capture))
    (last : Option (Nat × Capture)) : Prop where
  reads : ∀ shot ∈ shots, content read_image shot.1 = .ok (rgbOf read_image shot.1)
  same : (last.toList ++ shots).IsChain
    (Follows (fun shot => shot.2.source) fun shot => rgbOf read_image shot.1)
  unique : s'.unique = s.unique + fresh (last.map (·.2.source)) (shots.map (·.2.source))
  total : s'.unique + s'.duplicates = s.unique + s.duplicates + shots.length
  counted : s'.counts .collected = s.counts .collected + shots.length
  kept : s'.images.map (·.slot) = s.images.map (·.slot) ++ shots.map (·.1)

theorem decodeRows_run {s s' : Stream} {rows : List Row}
    (h : decodeRows sha256 read_image s rows = .ok s') {last : Option (Nat × Capture)}
    (hs : Remembers read_image s last)
    (hchain : (last.toList ++ rows.filterMap Row.taken).IsChain fun a b => Succeeds a.2 b.2) :
    DecodeRun read_image s s' (rows.filterMap Row.taken) last ∧
      s'.observations.length = s.observations.length + rows.length := by
  induction rows generalizing s last with
  | nil =>
    rw [decodeRows] at h
    cases h
    refine ⟨⟨forall_mem_nil _, ?_, rfl, rfl, rfl, (append_nil _).symm⟩, rfl⟩
    cases last <;> simp
  | cons row rest ih =>
    rw [decodeRows, bind_ok] at h
    obtain ⟨next, hrow, hrest⟩ := h
    have hstep := decodeRow_step hrow hs
    have hobserved := hstep.observed
    cases htaken : row.taken with
    | none =>
      rw [filterMap_cons_none htaken] at hchain ⊢
      have hnext : Remembers read_image next last := by
        have := hstep.remembers
        rwa [htaken, none_or] at this
      obtain ⟨hrun, hlength⟩ := ih hrest hnext hchain
      have hunique := hstep.unique
      have htotal := hstep.total
      have hcounted := hstep.counted
      have hkept := hstep.kept
      rw [htaken] at hunique htotal hcounted hkept
      refine ⟨⟨hrun.reads, hrun.same, ?_, ?_, ?_, ?_⟩, ?_⟩
      · rw [hrun.unique, hunique]
        rfl
      · rw [hrun.total, htotal]
        rfl
      · rw [hrun.counted, hcounted]
        rfl
      · rw [hrun.kept, hkept, toList_none, map_nil, append_nil]
      · rw [hlength, hobserved, length_cons]
        omega
    | some shot =>
      rw [filterMap_cons_some htaken] at hchain ⊢
      have hnext : Remembers read_image next (some shot) := by
        have := hstep.remembers
        rwa [htaken, some_or] at this
      have hshot : shot ∈ row.taken := htaken
      obtain ⟨hrun, hlength⟩ := ih hrest hnext hchain.right_of_append
      have hunique := hstep.unique
      have htotal := hstep.total
      have hcounted := hstep.counted
      have hkept := hstep.kept
      rw [htaken] at hunique htotal hcounted hkept
      refine ⟨⟨?_, ?_, ?_, ?_, ?_, ?_⟩, ?_⟩
      · exact forall_mem_cons.mpr ⟨hstep.reads shot hshot, hrun.reads⟩
      · cases last with
        | none => exact hrun.same
        | some before =>
          have hle := (isChain_cons_cons.mp hchain).1.2.1
          exact hrun.same.cons_of_ne_nil (cons_ne_nil _ _)
            ⟨hle, hstep.same shot hshot before rfl⟩
      · rw [hrun.unique, hunique]
        simp only [toList_some, map_cons, map_nil, fresh, map_some]
        omega
      · rw [hrun.total, htotal, length_cons, toList_some, length_singleton]
        omega
      · rw [hrun.counted, hcounted, length_cons, toList_some, length_singleton]
        omega
      · rw [hrun.kept, hkept, append_assoc]
        rfl
      · rw [hlength, hobserved, length_cons]
        omega

/-- A decode that passes is one run over the rows of a receipt that passes. -/
theorem decode_run {receipt : JsonTree} {token : String} {names : List String}
    {expected : Option String} {result : Decoded}
    (h : decode sha256 read_image receipt token names expected = .ok result) :
    ∃ s, DecodeRun read_image {} s (collectedSlots receipt) none ∧
      result.census.unique_sources = s.unique ∧ result.census.duplicate_sources = s.duplicates ∧
      result.census.counts = s.counts ∧ result.images = s.images ∧
      result.census.observations.length = (slotsOf receipt).length := by
  simp only [decode, bind_ok, pure_ok] at h
  obtain ⟨schedule, hresolve, _, -, _, -, s, hrows, rfl⟩ := h
  obtain ⟨hlength, htaken, -, hchain⟩ := resolve_rows hresolve
  have hstart : Remembers read_image {} none := rfl
  obtain ⟨hrun, hobserved⟩ := decodeRows_run hrows hstart (by rw [htaken]; exact hchain)
  rw [htaken] at hrun
  refine ⟨s, hrun, rfl, rfl, rfl, rfl, ?_⟩
  rw [← hlength]
  exact hobserved.trans (Nat.zero_add _)

/-- What a census says of the collected slots of a receipt. -/
structure Accounts (read_image : Reader) (receipt : JsonTree) (census : Census) : Prop where
  same : ∀ a ∈ collectedSlots receipt, ∀ b ∈ collectedSlots receipt, a.2.source = b.2.source →
    (∃ rgb, content read_image a.1 = .ok rgb ∧ content read_image b.1 = .ok rgb) ∧
      a.2.bounds = b.2.bounds
  total : census.unique_sources + census.duplicate_sources = (collectedSlots receipt).length
  collected : census.counts .collected = (collectedSlots receipt).length
  unique : census.unique_sources = ((collectedSlots receipt).map (·.2.source)).dedup.length

theorem decode_accounts {receipt : JsonTree} {token : String} {names : List String}
    {expected : Option String} {result : Decoded}
    (h : decode sha256 read_image receipt token names expected = .ok result) :
    Accounts read_image receipt result.census := by
  obtain ⟨s, hrun, hunique, hduplicates, hcounts, -, -⟩ := decode_run h
  simp only [decode, bind_ok, pure_ok] at h
  obtain ⟨schedule, hresolve, -⟩ := h
  have hchain := (resolve_rows hresolve).2.2.2
  have hbounds : (collectedSlots receipt).IsChain
      (Follows (fun shot => shot.2.source) fun shot => shot.2.bounds) :=
    hchain.imp fun _ _ hab => hab.2
  constructor
  · intro a ha b hb heq
    refine ⟨⟨rgbOf read_image a.1, hrun.reads a ha, ?_⟩, KeyedStream.agrees hbounds ha hb heq⟩
    rw [hrun.reads b hb, KeyedStream.agrees hrun.same ha hb heq]
  · rw [hunique, hduplicates, hrun.total]
    exact Nat.zero_add _
  · rw [hcounts, hrun.counted]
    exact Nat.zero_add _
  · have hkeys := KeyedStream.fresh_none (KeyedStream.keys_chain hbounds)
    rw [hunique, hrun.unique, ← hkeys]
    exact Nat.zero_add _

/-! ### Images that are accepted -/

/-- A reader that gives every slot the same image is never refused. -/
theorem decodeRows_of_still {raw : Option (List UInt8)} {rgb : List UInt8}
    (hread : ∀ name, read_image name = .ok raw) (hrgb : bmpRgb raw = .ok rgb) (rows : List Row)
    {s : Stream} (hs : ∀ previous ∈ s.previous, previous.2 = rgb) :
    ∃ s', decodeRows sha256 read_image s rows = .ok s' := by
  induction rows generalizing s with
  | nil => exact ⟨s, rfl⟩
  | cons row rest ih =>
    have hpicture : ∀ source, ∃ t, (s.visit row).picture source rgb = .ok t ∧
        ∀ previous ∈ t.previous, previous.2 = rgb := by
      intro source
      rw [Stream.picture]
      split
      · next hsame =>
        obtain ⟨previous, hprevious, -⟩ := map_eq_some_iff.mp hsame
        have hneed : (s.visit row).previous.map Prod.snd = some rgb := by
          rw [hprevious, map_some, hs previous hprevious]
        refine ⟨_, bind_ok.mpr ⟨(), need_ok.mpr hneed, rfl⟩, ?_⟩
        rintro _ ⟨⟩
        rfl
      · refine ⟨_, rfl, ?_⟩
        rintro _ ⟨⟩
        rfl
    have hrow : ∃ t, decodeRow sha256 read_image s row = .ok t ∧
        ∀ previous ∈ t.previous, previous.2 = rgb := by
      cases houtcome : row.outcome with
      | collected before after p =>
        obtain ⟨t, ht, hprevious⟩ := hpicture p.source
        simp only [decodeRow, houtcome, hread, bind_ok, pure_ok]
        exact ⟨_, ⟨raw, rfl, rgb, hrgb, t, ht, rfl⟩, hprevious⟩
      | notAttempted | missedDeadline | failed before after =>
        simp only [decodeRow, houtcome, pure_ok]
        exact ⟨_, rfl, hs⟩
    obtain ⟨t, ht, hprevious⟩ := hrow
    obtain ⟨s', hs'⟩ := ih hprevious
    exact ⟨s', bind_ok.mpr ⟨t, ht, hs'⟩⟩

/-- The header of every image. -/
def bmpHeader : List UInt8 :=
  [0x42, 0x4D, 0x36, 0x30, 0x2A, 0, 0, 0, 0, 0, 54, 0, 0, 0,
    40, 0, 0, 0, 0, 5, 0, 0, 0xD0, 2, 0, 0, 1, 0, 24, 0, 0, 0, 0, 0, 0, 0x30, 0x2A, 0,
    0, 0, 0, 0, 0, 0, 0, 0, 0, 0, 0, 0, 0, 0, 0, 0]

theorem unpack_append {header rest : List UInt8} {offset size : Nat}
    (h : offset + size ≤ header.length) :
    unpack (header ++ rest) offset size = unpack header offset size := by
  rw [unpack, unpack, drop_append_of_le_length (by omega),
    take_append_of_le_length (by rw [length_drop]; omega)]

/-- Any pixels of the right size are an image. -/
theorem bmpRgb_of_pixels {pixels : List UInt8} (h : pixels.length = BMP_STRIDE * HEIGHT) :
    ∃ rgb, bmpRgb (some (bmpHeader ++ pixels)) = .ok rgb := by
  have hheader : bmpHeader.length = 54 := rfl
  refine ⟨_, bind_ok.mpr ⟨bmpHeader ++ pixels, rfl, bind_ok.mpr ⟨(), need_ok.mpr ?_,
    bind_ok.mpr ⟨(), need_ok.mpr ?_, bind_ok.mpr ⟨(), need_ok.mpr ?_, rfl⟩⟩⟩⟩⟩
  · rw [length_append, hheader, h, BMP_BYTES]
  · refine ⟨rfl, ?_⟩
    simp only [fileHeader, unpack_append, hheader, Nat.reduceAdd, Nat.reduceLeDiff]
    decide
  · simp only [dibHeader, unpack_append, hheader, Nat.reduceAdd, Nat.reduceLeDiff]
    decide

end Runs

end Mcla.SourceScout

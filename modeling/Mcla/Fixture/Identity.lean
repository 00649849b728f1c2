import Mcla.Library.NestedRecorder
import Mcla.Library.PackedBlocks

/-! # Pixel identities

`mcla_fixture_identity_v2`: a session nonce, a challenge and a paint number, packed with a checksum
into 320 bits, and drawn as a grid of black and white cells that fills the client area.  The decoder
samples one pixel of each cell, and accepts only what the encoder draws.

The checksum is any function of the packet.
-/
namespace Mcla.Fixture
open NestedRecorder PackedBlocks List

def WIDTH : Nat := 1280
def HEIGHT : Nat := 720
def COLS : Nat := 32
def ROWS : Nat := 10
def CELL_W : Nat := WIDTH / COLS
def CELL_H : Nat := HEIGHT / ROWS
def BLACK : List UInt8 := [24, 24, 24, 255]
def WHITE : List UInt8 := [232, 232, 232, 255]
def U64_MAX : Nat := 2 ^ 64 - 1

/-- `b'MFV2'` -/
def MFV2 : List UInt8 := [77, 70, 86, 50]

/-- `Identity`, with what `__post_init__` checks. -/
structure Identity where
  session : List UInt8
  (challenge paint : Nat)
  session_nonce : session.length = 16 ∧ session.any (· ≠ 0) = true
  challenge_uint : 1 ≤ challenge ∧ challenge ≤ U64_MAX
  paint_uint : 1 ≤ paint ∧ paint ≤ U64_MAX
deriving DecidableEq

/-- The constructor. -/
def Identity.make (session : List UInt8) (challenge paint : Nat) : Except String Identity :=
  if hsession : session.length = 16 ∧ session.any (· ≠ 0) = true then
    if hchallenge : 1 ≤ challenge ∧ challenge ≤ U64_MAX then
      if hpaint : 1 ≤ paint ∧ paint ≤ U64_MAX then
        .ok ⟨session, challenge, paint, hsession, hchallenge, hpaint⟩
      else .error "unsigned nonwrapping integer required"
    else .error "unsigned nonwrapping integer required"
  else .error "nonzero 128-bit session nonce required"

/-! ### The codec -/

section Codec
variable (crc32 : List UInt8 → UInt32)

/-- `_PACKET.pack` with the magic. -/
def packetBody (identity : Identity) : List UInt8 :=
  MFV2 ++ identity.session ++ bigEndian 8 identity.challenge ++ bigEndian 8 identity.paint

/-- `_PACKET.unpack` -/
def unpackBody (body : List UInt8) : List UInt8 × List UInt8 × Nat × Nat :=
  (body.take 4, (body.drop 4).take 16, ofBigEndian ((body.drop 20).take 8),
    ofBigEndian ((body.drop 28).take 8))

/-- The packet of an identity, with its checksum. -/
def packet (identity : Identity) : List UInt8 :=
  packetBody identity ++ bigEndian 4 (crc32 (packetBody identity)).toNat

/-- The colour of a bit. -/
def colour (bit : Bool) : List UInt8 := if bit then WHITE else BLACK

/-- One line of a cell. -/
def cell (bit : Bool) : List UInt8 := (replicate CELL_W (colour bit)).flatten

/-- The lines of one row of cells. -/
def gridRow (rowBits : List Bool) : List UInt8 :=
  (replicate CELL_H (rowBits.map cell).flatten).flatten

/-- The pixels of a frame that shows the bits. -/
def grid (gridBits : List Bool) : List UInt8 :=
  ((List.range ROWS).map fun row => gridRow ((gridBits.drop (row * COLS)).take COLS)).flatten

/-- The frame that shows an identity. -/
def encode (identity : Identity) : List UInt8 := grid (bits (packet crc32 identity))

/-- The cells in the order in which they are read. -/
def cells : List (Nat × Nat) :=
  (List.range ROWS).flatMap fun row => (List.range COLS).map fun column => (row, column)

/-- The bit of a cell. -/
def sample (pixels : List UInt8) (place : Nat × Nat) : Except String Bool := do
  let offset := (place.1 * CELL_H * WIDTH + place.2 * CELL_W) * 4
  let pixel := (pixels.drop offset).take 4
  need (pixel = BLACK ∨ pixel = WHITE) "unknown palette or alpha"
  return pixel = WHITE

/-- The identity that a frame shows. -/
def decode (pixels : List UInt8) : Except String Identity := do
  need (pixels.length = WIDTH * HEIGHT * 4) "exact full-client BGRA payload required"
  let read ← cells.mapM (sample pixels)
  let packet := pack read
  let body := packet.take (packet.length - 4)
  let checksum := packet.drop (packet.length - 4)
  need (checksum = bigEndian 4 (crc32 body).toNat) "identity checksum mismatch"
  need ((unpackBody body).1 = MFV2) "unknown pixel identity schema"
  let identity ← Identity.make (unpackBody body).2.1 (unpackBody body).2.2.1 (unpackBody body).2.2.2
  need (pixels = encode crc32 identity) "mixed or noncanonical full-grid pixels"
  return identity

end Codec

/-! ### The packet -/

section Packet
variable {crc32 : List UInt8 → UInt32} {identity : Identity}

theorem make_ok {session : List UInt8} {challenge paint : Nat} :
    Identity.make session challenge paint = .ok identity ↔
      identity.session = session ∧ identity.challenge = challenge ∧ identity.paint = paint := by
  unfold Identity.make
  constructor
  · intro h
    split_ifs at h
    cases h
    exact ⟨rfl, rfl, rfl⟩
  · rintro ⟨rfl, rfl, rfl⟩
    rw [dif_pos identity.session_nonce, dif_pos identity.challenge_uint,
      dif_pos identity.paint_uint]

theorem length_packetBody : (packetBody identity).length = 36 := by
  simp only [packetBody, length_append, length_bigEndian, identity.session_nonce.1]
  rfl

theorem length_packet : (packet crc32 identity).length = 40 := by
  rw [packet, length_append, length_packetBody, length_bigEndian]

/-- The fixed payload size. -/
theorem length_packet_bits : (bits (packet crc32 identity)).length = ROWS * COLS := by
  rw [length_bits, length_packet]
  rfl

theorem unpack_packetBody : unpackBody (packetBody identity) =
    (MFV2, identity.session, identity.challenge, identity.paint) := by
  have hmagic : MFV2.length = 4 := rfl
  have hsession := identity.session_nonce.1
  have hmax : U64_MAX < 256 ^ 8 := by decide
  have hchallenge := ofBigEndian_bigEndian (identity.challenge_uint.2.trans_lt hmax)
  have hpaint := ofBigEndian_bigEndian (identity.paint_uint.2.trans_lt hmax)
  have h8 (n : Nat) : (bigEndian 8 n).length = 8 := length_bigEndian 8 n
  have h20 : (MFV2 ++ identity.session).length = 20 := by
    rw [length_append, hmagic, hsession]
  have h28 : (MFV2 ++ identity.session ++ bigEndian 8 identity.challenge).length = 28 := by
    rw [length_append, h20, h8]
  refine Prod.ext ?_ (Prod.ext ?_ (Prod.ext ?_ ?_))
  · change (packetBody identity).take 4 = MFV2
    rw [packetBody, append_assoc, append_assoc, ← hmagic, take_left]
  · change ((packetBody identity).drop 4).take 16 = _
    rw [packetBody, append_assoc, append_assoc, ← hmagic, drop_left, ← hsession, take_left]
  · change ofBigEndian (((packetBody identity).drop 20).take 8) = _
    rw [packetBody, append_assoc, ← h20, drop_left, take_left' (h8 _), hchallenge]
  · change ofBigEndian (((packetBody identity).drop 28).take 8) = _
    rw [packetBody, ← h28, drop_left, take_of_length_le (h8 _).le, hpaint]

end Packet

/-! ### The grid -/

section Grid
variable {gridBits rowBits : List Bool} {row column : Nat}

theorem length_colour (bit : Bool) : (colour bit).length = 4 := by
  cases bit <;> rfl

theorem length_cell (bit : Bool) : (cell bit).length = CELL_W * 4 := by
  rw [cell, length_flatten_of fun c hc => (eq_of_mem_replicate hc) ▸ length_colour bit,
    length_replicate]

theorem length_cells_line :
    ((rowBits.map cell).flatten).length = rowBits.length * (CELL_W * 4) := by
  rw [length_flatten_of (n := CELL_W * 4) (forall_mem_map.mpr fun b _ => length_cell b), length_map]

theorem length_gridRow (h : rowBits.length = COLS) :
    (gridRow rowBits).length = CELL_H * (WIDTH * 4) := by
  have hline : ∀ line ∈ replicate CELL_H (rowBits.map cell).flatten, line.length = WIDTH * 4 := by
    intro line hline
    rw [eq_of_mem_replicate hline, length_cells_line, h]
    rfl
  rw [gridRow, length_flatten_of hline, length_replicate]

theorem length_rowBits (h : gridBits.length = ROWS * COLS) (hrow : row < ROWS) :
    ((gridBits.drop (row * COLS)).take COLS).length = COLS := by
  have hrow : row < 10 := hrow
  have hcols : COLS = 32 := rfl
  have hrows : ROWS = 10 := rfl
  rw [length_take, length_drop, h, hcols, hrows]
  omega

theorem gridRows_length (h : gridBits.length = ROWS * COLS) :
    ∀ block ∈ (List.range ROWS).map fun row => gridRow ((gridBits.drop (row * COLS)).take COLS),
      block.length = CELL_H * (WIDTH * 4) := by
  refine forall_mem_map.mpr fun row hrow => ?_
  exact length_gridRow (length_rowBits h (mem_range.mp hrow))

theorem length_grid (h : gridBits.length = ROWS * COLS) :
    (grid gridBits).length = WIDTH * HEIGHT * 4 := by
  rw [grid, length_flatten_of (gridRows_length h), length_map, length_range]
  rfl

/-- A cell begins with its colour. -/
theorem at_cell (bit : Bool) : At (cell bit) 0 (colour bit) := by
  have hcell : cell bit = colour bit ++ (replicate (CELL_W - 1) (colour bit)).flatten := rfl
  rw [hcell]
  exact At.head

theorem at_gridRow (hcolumn : column < rowBits.length) :
    At (gridRow rowBits) (column * (CELL_W * 4)) (colour rowBits[column]) := by
  have hlines : gridRow rowBits = (rowBits.map cell).flatten ++
      (replicate (CELL_H - 1) (rowBits.map cell).flatten).flatten := rfl
  have hline : At (gridRow rowBits) 0 (rowBits.map cell).flatten := hlines ▸ At.head
  have hcells : ∀ block ∈ rowBits.map cell, block.length = CELL_W * 4 :=
    forall_mem_map.mpr fun b _ => length_cell b
  have hblock := at_block hcells (hcolumn.trans_eq (length_map ..).symm)
  rw [getElem_map] at hblock
  have hle : column * (CELL_W * 4) ≤ (rowBits.map cell).flatten.length := by
    rw [length_cells_line]
    exact Nat.mul_le_mul_right _ hcolumn.le
  have hcell := (hline.inner hblock hle).inner (at_cell _) (Nat.zero_le _)
  rwa [Nat.zero_add, Nat.add_zero] at hcell

/-- **At each cell stands its bit.** -/
theorem at_grid (h : gridBits.length = ROWS * COLS) (hrow : row < ROWS) (hcolumn : column < COLS)
    (hindex : row * COLS + column < gridBits.length) :
    At (grid gridBits) ((row * CELL_H * WIDTH + column * CELL_W) * 4)
      (colour gridBits[row * COLS + column]) := by
  have hlength := length_rowBits h hrow
  have hblock := at_block (i := row) (gridRows_length h)
    (by rwa [length_map, length_range])
  rw [getElem_map, getElem_range] at hblock
  have hbit := at_gridRow (hcolumn.trans_eq hlength.symm)
  rw [getElem_take, getElem_drop] at hbit
  have hle : column * (CELL_W * 4) ≤ (gridRow ((gridBits.drop (row * COLS)).take COLS)).length := by
    have hw : CELL_W * 4 = 160 := rfl
    have hh : CELL_H * (WIDTH * 4) = 368640 := rfl
    have hcolumn : column < 32 := hcolumn
    rw [length_gridRow hlength, hw, hh]
    omega
  have hplace : row * (CELL_H * (WIDTH * 4)) + column * (CELL_W * 4) =
      (row * CELL_H * WIDTH + column * CELL_W) * 4 := by
    ring
  rw [← hplace]
  exact hblock.inner hbit hle

theorem sample_grid (h : gridBits.length = ROWS * COLS) (hrow : row < ROWS)
    (hcolumn : column < COLS) (hindex : row * COLS + column < gridBits.length) :
    sample (grid gridBits) (row, column) = .ok gridBits[row * COLS + column] := by
  have hpixel := (at_grid h hrow hcolumn hindex).take
  rw [length_colour] at hpixel
  rw [sample]
  dsimp only
  rw [hpixel]
  cases gridBits[row * COLS + column] <;> rfl

theorem mem_cells : (row, column) ∈ cells ↔ row < ROWS ∧ column < COLS := by
  simp [cells]

/-- The samples of a grid are its bits. -/
theorem samples_grid (h : gridBits.length = ROWS * COLS) :
    cells.mapM (sample (grid gridBits)) = .ok gridBits := by
  have hread : ∀ place ∈ cells, sample (grid gridBits) place =
      .ok (gridBits.getD (place.1 * COLS + place.2) false) := by
    rintro ⟨row, column⟩ hmem
    obtain ⟨hrow, hcolumn⟩ := mem_cells.mp hmem
    have hindex : row * COLS + column < gridBits.length := by
      have hrow : row < 10 := hrow
      have hcolumn : column < 32 := hcolumn
      have hcols : COLS = 32 := rfl
      have hrows : ROWS = 10 := rfl
      rw [h, hcols, hrows]
      omega
    rw [sample_grid h hrow hcolumn hindex, getD_eq_getElem _ _ hindex]
  have hmap : cells.map (fun place => gridBits.getD (place.1 * COLS + place.2) false) =
      (List.range (ROWS * COLS)).map (gridBits.getD · false) := by
    rw [← flatMap_range_mul (gridBits.getD · false), cells, map_flatMap]
    simp only [map_map, Function.comp_def]
  rw [mapM_ok hread, hmap, ← h]
  refine congrArg Except.ok (ext_getElem (by simp) fun i hi hi' => ?_)
  rw [getElem_map, getElem_range, getD_eq_getElem _ _ hi']

end Grid

section Exact
variable (crc32 : List UInt8 → UInt32)

theorem decode_encode (identity : Identity) :
    decode crc32 (encode crc32 identity) = .ok identity := by
  have hlength : (bits (packet crc32 identity)).length = ROWS * COLS := length_packet_bits
  have hbody : (packet crc32 identity).take ((packet crc32 identity).length - 4) =
      packetBody identity := by
    rw [length_packet, packet, take_left' length_packetBody]
  have hchecksum : (packet crc32 identity).drop ((packet crc32 identity).length - 4) =
      bigEndian 4 (crc32 (packetBody identity)).toNat := by
    rw [length_packet, packet, drop_left' length_packetBody]
  have hmake : Identity.make identity.session identity.challenge identity.paint = .ok identity :=
    make_ok.mpr ⟨rfl, rfl, rfl⟩
  have hsamples : cells.mapM (sample (encode crc32 identity)) =
      .ok (bits (packet crc32 identity)) := samples_grid hlength
  rw [decode]
  refine bind_ok.mpr ⟨(), need_ok.mpr (length_grid hlength), bind_ok.mpr ⟨_, hsamples, ?_⟩⟩
  rw [pack_bits]
  dsimp only
  rw [hbody, hchecksum, unpack_packetBody]
  exact bind_ok.mpr ⟨(), need_ok.mpr rfl, bind_ok.mpr ⟨(), need_ok.mpr rfl,
    bind_ok.mpr ⟨identity, hmake, bind_ok.mpr ⟨(), need_ok.mpr rfl, rfl⟩⟩⟩⟩

/-- What is decoded is what is drawn. -/
theorem decode_ok {pixels : List UInt8} {identity : Identity} :
    decode crc32 pixels = .ok identity ↔ pixels = encode crc32 identity := by
  constructor
  · intro h
    rw [decode] at h
    obtain ⟨_, -, h⟩ := bind_ok.mp h
    obtain ⟨read, -, h⟩ := bind_ok.mp h
    obtain ⟨_, -, h⟩ := bind_ok.mp h
    obtain ⟨_, -, h⟩ := bind_ok.mp h
    obtain ⟨made, -, h⟩ := bind_ok.mp h
    obtain ⟨_, hpixels, h⟩ := bind_ok.mp h
    exact pure_ok.mp h ▸ need_ok.mp hpixels
  · rintro rfl
    exact decode_encode crc32 identity

/-- **The decoder gives back every identity, and accepts the grids of identities and nothing
else.** -/
theorem decode_exact : (∀ identity, decode crc32 (encode crc32 identity) = .ok identity) ∧
    ∀ pixels, (∃ identity, decode crc32 pixels = .ok identity) ↔
      ∃ identity, pixels = encode crc32 identity :=
  ⟨decode_encode crc32, fun _ => exists_congr fun _ => decode_ok crc32⟩

end Exact

end Mcla.Fixture

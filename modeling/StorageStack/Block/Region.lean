import StorageStack.Block.Devices

/-! # Byte regions

A region addresses a block device by the byte. A transfer is cut into pieces, one for
each sector that it meets. A sector that a write covers in part is read first, and the
bytes around the written ones go back unchanged.
-/

namespace StorageStack

/-- The part of a transfer that lies in one sector. -/
structure Piece where
  lba : Nat
  /-- The first byte within the sector. -/
  within : Nat
  size : Nat
deriving DecidableEq, Repr

/-- Cut a byte range at the sector boundaries. -/
def pieces (sectorSize offset length : Nat) : List Piece :=
  if _ : sectorSize = 0 ∨ length = 0 then []
  else
    let within := offset % sectorSize
    let size := min (sectorSize - within) length
    ⟨offset / sectorSize, within, size⟩ :: pieces sectorSize (offset + size) (length - size)
termination_by length
decreasing_by
  have hwithin : offset % sectorSize < sectorSize := Nat.mod_lt _ (by omega)
  omega

@[simp] theorem pieces_zero (sectorSize offset : Nat) : pieces sectorSize offset 0 = [] := by
  rw [pieces, dif_pos (Or.inr rfl)]

/-- No piece is empty, and none leaves its sector. -/
theorem bounds_of_mem_pieces {sectorSize offset length : Nat} {piece : Piece}
    (hpiece : piece ∈ pieces sectorSize offset length) :
    0 < piece.size ∧ piece.within + piece.size ≤ sectorSize := by
  induction length using Nat.strongRecOn generalizing offset with
  | ind length ih =>
      rw [pieces] at hpiece
      split at hpiece
      · cases hpiece
      · next hrange =>
        have hwithin : offset % sectorSize < sectorSize := Nat.mod_lt _ (by omega)
        cases hpiece with
        | head => exact ⟨by dsimp only; omega, by dsimp only; omega⟩
        | tail _ htail => exact ih _ (by omega) htail

/-- What a read delivered: the bytes up to the first failure, and that failure. -/
structure Delivery where
  bytes : Bytes
  failure : Option StorageError
deriving DecidableEq, Repr

/-- A block device addressed by the byte, with the size it had when it was opened. -/
structure Region where
  device : DeviceHandle
  info : BlockInfo
deriving DecidableEq, Repr

namespace Region

variable {δ : Type}

/-- The region of a device that exists. -/
def ofDevice (blocks : BlockDevices δ) (device : DeviceHandle) : Except StorageError Region :=
  match blocks.info device with
  | .error cause => .error cause
  | .ok info => .ok ⟨device, info⟩

/-- Bytes of the region. -/
def capacity (region : Region) : Nat := region.info.sizeBytes

variable [DiskDriver δ]

/-- Read pieces one sector at a time, up to the first failure. -/
def readPieces (region : Region) : List Piece → BlockDevices δ → Delivery × BlockDevices δ
  | [], blocks => (⟨[], none⟩, blocks)
  | piece :: rest, blocks =>
      match BlockDevices.read region.device piece.lba region.info.sectorSize blocks with
      | .error cause blocks => (⟨[], some cause⟩, blocks)
      | .ok sector blocks =>
          let later := region.readPieces rest blocks
          (⟨(sector.drop piece.within).take piece.size ++ later.1.bytes, later.1.failure⟩, later.2)

/-- Read `length` bytes from `offset`. A range that leaves the region is refused before
any sector is read. -/
def read (region : Region) (offset length : Nat) (blocks : BlockDevices δ) :
    Delivery × BlockDevices δ :=
  if region.capacity < offset + length then (⟨[], some .outOfRange⟩, blocks)
  else region.readPieces (pieces region.info.sectorSize offset length) blocks

/-- Write one piece. A whole sector is written as it is; otherwise the sector is read,
changed and written back. -/
def writePiece (region : Region) (piece : Piece) (bytes : Bytes) : Action (BlockDevices δ) Unit :=
  fun blocks =>
    if piece.size = region.info.sectorSize then
      BlockDevices.write region.device piece.lba bytes blocks
    else
      -- The bytes around the piece have to be known before the sector can be written.
      match BlockDevices.read region.device piece.lba region.info.sectorSize blocks with
      | .error cause blocks => .error cause blocks
      | .ok sector blocks =>
          BlockDevices.write region.device piece.lba (sector.splice piece.within bytes) blocks

/-- Write pieces in order, each with its share of the payload, up to the first failure. -/
def writePieces (region : Region) : List Piece → Bytes → Action (BlockDevices δ) Unit
  | [], _, blocks => .ok () blocks
  | piece :: rest, bytes, blocks =>
      match region.writePiece piece (bytes.take piece.size) blocks with
      | .error cause blocks => .error cause blocks
      | .ok _ blocks => region.writePieces rest (bytes.drop piece.size) blocks

/-- Write a payload from `offset`. A range that leaves the region is refused before any
sector is touched. -/
def write (region : Region) (offset : Nat) (bytes : Bytes) : Action (BlockDevices δ) Unit :=
  fun blocks =>
    if region.capacity < offset + bytes.length then .error .outOfRange blocks
    else region.writePieces (pieces region.info.sectorSize offset bytes.length) bytes blocks

end Region

end StorageStack

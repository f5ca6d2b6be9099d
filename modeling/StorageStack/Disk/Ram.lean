import StorageStack.Disk.Driver
import StorageStack.Disk.Medium

/-! # RAM disks

A disk held in memory, with counters of the calls it received and a switch that makes
every call fail. The counters have 32 bits and wrap around. A last part of a sector at
the end belongs to the image and to no sector.
-/

namespace StorageStack

/-- A disk in memory over an image of `size` bytes. -/
structure RamDisk where
  contents : Medium
  size : Nat
  sectorSize : Nat
  eraseGroup : Nat := 1024
  readCount : UInt32 := 0
  writeCount : UInt32 := 0
  failing : Bool := false

namespace RamDisk

/-- A disk of zeros. -/
def zeroed (sectorCount sectorSize : Nat) : RamDisk where
  contents := .blank
  size := sectorCount * sectorSize
  sectorSize := sectorSize

/-- Whole sectors of the image. -/
def sectorCount (disk : RamDisk) : Nat := disk.size / disk.sectorSize

/-- The whole image. -/
def image (disk : RamDisk) : Bytes := disk.contents.read 0 disk.size

/-- The number of reads on the counter. -/
def reads (disk : RamDisk) : Nat := disk.readCount.toNat

/-- The number of writes on the counter. -/
def writes (disk : RamDisk) : Nat := disk.writeCount.toNat

/-- Driver calls that transferred or tried to. -/
def transfers (disk : RamDisk) : Nat := (disk.readCount + disk.writeCount).toNat

/-- Switch the injected failure on or off. -/
def setFailing (disk : RamDisk) (failing : Bool) : RamDisk := { disk with failing }

/-- A range is served when the disk is not failing and the range ends inside the image. -/
def Serves (disk : RamDisk) (lba length : Nat) : Prop :=
  disk.failing = false ∧ lba * disk.sectorSize + length ≤ disk.size

instance (disk : RamDisk) (lba length : Nat) : Decidable (disk.Serves lba length) :=
  inferInstanceAs (Decidable (_ ∧ _))

/-- The geometry, unless the disk is failing or its sectors have no size. -/
def geometry : DriverAction RamDisk Geometry := fun disk =>
  if disk.failing || disk.sectorSize == 0 then .error .notReady disk
  else .ok ⟨disk.sectorSize, disk.sectorCount, disk.eraseGroup⟩ disk

/-- Read a range. The call is counted even if it is refused. -/
def read (lba length : Nat) : DriverAction RamDisk Bytes := fun disk =>
  let counted := { disk with readCount := disk.readCount + 1 }
  if disk.Serves lba length then
    .ok (disk.contents.read (lba * disk.sectorSize) length) counted
  else .error .hardware counted

/-- Write a range. The call is counted even if it is refused. -/
def write (lba : Nat) (bytes : Bytes) : DriverAction RamDisk Unit := fun disk =>
  let counted := { disk with writeCount := disk.writeCount + 1 }
  if disk.Serves lba bytes.length then
    .ok () { counted with contents := disk.contents.write (lba * disk.sectorSize) bytes }
  else .error .hardware counted

theorem length_of_read {lba length : Nat} {disk after : RamDisk} {bytes : Bytes}
    (hread : read lba length disk = .ok bytes after) : bytes.length = length := by
  unfold read at hread
  dsimp only at hread
  split at hread
  · cases hread
    exact Medium.length_read ..
  · cases hread

instance : DiskDriver RamDisk where
  geometry := geometry
  read := read
  write := write
  length_read := length_of_read

end RamDisk

end StorageStack

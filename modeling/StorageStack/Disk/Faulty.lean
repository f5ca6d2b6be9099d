import StorageStack.Disk.Driver
import StorageStack.Disk.Medium
import StorageStack.Limits

/-! # Faulty disks

A disk without end, on which chosen sectors cannot be read or written and whose
geometry can be made to disagree with its storage. Transfers go sector by sector and
stop at the first bad one.
-/

namespace StorageStack

/-- A sparse disk with bad sectors. `blockSize` is the size of a stored sector and does
not follow the reported geometry. -/
structure FaultyDisk where
  contents : Medium
  blockSize : Nat
  reported : Geometry
  geometryFailure : Option DriverError := none
  badReads : List (Nat × DriverError) := []
  badWrites : List (Nat × DriverError) := []

namespace FaultyDisk

/-- The size of stored sectors: that of the geometry at creation, where it can be known and
is not zero. -/
def initialBlockSize (reported : Geometry) (geometryFailure : Option DriverError) : Nat :=
  if geometryFailure.isSome || reported.sectorSize == 0 then Limits.sectorSize
  else reported.sectorSize

/-- Report another geometry from now on. A geometry failure is over with it. -/
def report (disk : FaultyDisk) (reported : Geometry) : FaultyDisk :=
  { disk with reported, geometryFailure := none }

/-- The stored sectors that a transfer of `length` bytes touches; the last may be cut short. -/
def touched (disk : FaultyDisk) (length : Nat) : Nat :=
  (length + disk.blockSize - 1) / disk.blockSize

/-- The first bad sector of a transfer: its index in the transfer and the failure there. -/
def firstBad? (bad : List (Nat × DriverError)) (lba count : Nat) : Option (Nat × DriverError) :=
  (List.range count).findSome? fun index =>
    (bad.find? fun entry => entry.1 == lba + index).map fun entry => (index, entry.2)

/-- The reported geometry, or the failure put in its place. -/
def geometry : DriverAction FaultyDisk Geometry := fun disk =>
  match disk.geometryFailure with
  | some cause => .error cause disk
  | none => .ok disk.reported disk

/-- Read a range, unless a sector of it is bad. -/
def read (lba length : Nat) : DriverAction FaultyDisk Bytes := fun disk =>
  match firstBad? disk.badReads lba (disk.touched length) with
  | some (_, cause) => .error cause disk
  | none => .ok (disk.contents.read (lba * disk.blockSize) length) disk

/-- Write a range up to the first bad sector. The sectors before it stay written. -/
def write (lba : Nat) (bytes : Bytes) : DriverAction FaultyDisk Unit := fun disk =>
  let store (written : Bytes) : FaultyDisk :=
    { disk with contents := disk.contents.write (lba * disk.blockSize) written }
  match firstBad? disk.badWrites lba (disk.touched bytes.length) with
  | some (index, cause) => .error cause (store (bytes.take (index * disk.blockSize)))
  | none => .ok () (store bytes)

theorem length_of_read {lba length : Nat} {disk after : FaultyDisk} {bytes : Bytes}
    (hread : read lba length disk = .ok bytes after) : bytes.length = length := by
  unfold read at hread
  split at hread
  · cases hread
  · cases hread
    exact Medium.length_read ..

instance : DiskDriver FaultyDisk where
  geometry := geometry
  read := read
  write := write
  length_read := length_of_read

end FaultyDisk

end StorageStack

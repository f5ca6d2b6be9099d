import StorageStack.Device.Handle
import StorageStack.Limits
import StorageStack.Partition.Scan

/-! # Block devices

The disks of the system and the devices on them. Probing a disk learns its geometry
and its partitions. A transfer is addressed to a partition, admitted if it keeps to
that partition, and then handed to the driver as one call.
-/

namespace StorageStack

/-- What probing found out about a disk. -/
structure Layout where
  geometry : Geometry
  /-- The partition table. Slot 0 is the whole disk. -/
  partitions : List Partition
  /-- The outcome of the scan, if there was one. -/
  scan : Option (Except StorageError ScanStatus)

/-- A disk of the system. A disk without a layout has not been probed with success. -/
structure AttachedDisk (δ : Type) where
  id : DiskId
  driver : δ
  /-- Whether the disk carries a partition table. -/
  partitionable : Bool
  layout : Option Layout := none

/-- Size of a block device. The erase group is that of the disk. -/
structure BlockInfo where
  sectorSize : Nat
  sectorCount : Nat
  eraseGroup : Nat
deriving DecidableEq, Repr

namespace BlockInfo

/-- Bytes of a block device, as a word. A number of bytes that a word cannot hold wraps around. -/
def sizeBytes (info : BlockInfo) : Nat := info.sectorCount * info.sectorSize % UInt64.size

theorem sizeBytes_le (info : BlockInfo) : info.sizeBytes ≤ info.sectorCount * info.sectorSize :=
  Nat.mod_le _ _

theorem sizeBytes_of_fits {info : BlockInfo}
    (hfits : info.sectorCount * info.sectorSize < UInt64.size) :
    info.sizeBytes = info.sectorCount * info.sectorSize :=
  Nat.mod_eq_of_lt hfits

end BlockInfo

namespace AttachedDisk

variable {δ : Type}

/-- The partition table, empty as long as the geometry is unknown. -/
def partitions (disk : AttachedDisk δ) : List Partition :=
  match disk.layout with
  | some layout => layout.partitions
  | none => []

/-- The geometry that probing found. -/
def geometry? (disk : AttachedDisk δ) : Option Geometry := disk.layout.map (·.geometry)

/-- The outcome of the last scan; none if the disk was not scanned. -/
def scan? (disk : AttachedDisk δ) : Option (Except StorageError ScanStatus) :=
  disk.layout.bind (·.scan)

variable [DiskDriver δ]

/-- Learn the geometry and the partitions, whatever was known before. A disk whose scan
fails keeps the whole disk as its only partition. -/
def probe : Action (AttachedDisk δ) Unit := fun disk =>
  match DiskDriver.geometry disk.driver with
  -- Without a geometry nothing learned earlier can be trusted.
  | .error cause driver => .error cause.toStorageError { disk with driver, layout := none }
  | .ok geometry driver =>
      if geometry.sectorSize = 0 then .error .corrupt { disk with driver, layout := none }
      else
        let whole := [Partition.wholeDisk geometry.sectorCount]
        if disk.partitionable then
          match Scan.run geometry ⟨driver, whole⟩ with
          | .ok status scan =>
              .ok () { disk with
                driver := scan.driver
                layout := some ⟨geometry, scan.table, some (.ok status)⟩ }
          | .error cause scan =>
              .error cause { disk with
                driver := scan.driver
                layout := some ⟨geometry, scan.table, some (.error cause)⟩ }
        else .ok () { disk with driver, layout := some ⟨geometry, whole, none⟩ }

/-- Probe disks one after the other. A failure does not keep the next disk from being
probed; the first cause is remembered. -/
def probeEach : List (AttachedDisk δ) → Option StorageError × List (AttachedDisk δ)
  | [] => (none, [])
  | disk :: rest =>
      let later := probeEach rest
      match probe disk with
      | .ok _ probed => (later.1, probed :: later.2)
      | .error cause probed => (some cause, probed :: later.2)

end AttachedDisk

/-- The disks of the system, in the order in which they were attached. -/
structure BlockDevices (δ : Type) where
  disks : List (AttachedDisk δ) := []

namespace BlockDevices

variable {δ : Type}

/-- The disk of a number. -/
def disk? (blocks : BlockDevices δ) (id : DiskId) : Option (AttachedDisk δ) :=
  blocks.disks.find? fun disk => disk.id = id

/-- Put a changed disk back in the place of the one with its number. -/
def replace (blocks : BlockDevices δ) (changed : AttachedDisk δ) : BlockDevices δ :=
  ⟨blocks.disks.map fun disk => if disk.id = changed.id then changed else disk⟩

/-- Change the driver of a disk from outside, if the disk is attached. -/
def mapDriver (blocks : BlockDevices δ) (id : DiskId) (change : δ → δ) : BlockDevices δ :=
  ⟨blocks.disks.map fun disk =>
    if disk.id = id then { disk with driver := change disk.driver } else disk⟩

/-- Attach a disk. Its number has to be below the bound and new. -/
def addDisk (id : DiskId) (driver : δ) (partitionable : Bool) : Action (BlockDevices δ) Unit :=
  fun blocks =>
    if Limits.maxDisks ≤ id.number.toNat then .error .invalidArgument blocks
    else if (blocks.disk? id).isSome then .error .alreadyExists blocks
    else if Limits.maxDisks ≤ blocks.disks.length then .error .outOfMemory blocks
    else .ok () ⟨blocks.disks ++ [⟨id, driver, partitionable, none⟩]⟩

/-- The numbers of the attached disks. -/
def diskIds (blocks : BlockDevices δ) : List DiskId := blocks.disks.map (·.id)

/-- The outcome of the last scan of a disk. -/
def scanStatus? (blocks : BlockDevices δ) (id : DiskId) : Option (Except StorageError ScanStatus) :=
  (blocks.disk? id).bind (·.scan?)

/-- The partition table of a device's disk. The partition of the handle plays no part. -/
def partitions (blocks : BlockDevices δ) (device : DeviceHandle) :
    Except StorageError (List Partition) :=
  match blocks.disk? device.disk with
  | none => .error .notFound
  | some disk => .ok disk.partitions

/-- The partition of a device. -/
def partition (blocks : BlockDevices δ) (device : DeviceHandle) : Except StorageError Partition :=
  match blocks.disk? device.disk with
  | none => .error .notFound
  | some disk =>
      match disk.partitions[device.partition.toNat]? with
      | none => .error .notFound
      | some partition => .ok partition

/-- Sector size and erase group of the disk with the sector count of the partition. -/
def info (blocks : BlockDevices δ) (device : DeviceHandle) : Except StorageError BlockInfo :=
  match (blocks.disk? device.disk).bind (·.layout) with
  | none => .error .notFound
  | some layout =>
      match layout.partitions[device.partition.toNat]? with
      | none => .error .notFound
      | some partition =>
          .ok ⟨layout.geometry.sectorSize, partition.count, layout.geometry.eraseGroup⟩

/-- Admit a transfer of `length` bytes from sector `lba` of a device. The answer is the
disk and the absolute sector. The causes for refusal are tried in this order: the disk
is unknown or not probed, the length is not a positive number of whole sectors, the
partition does not exist, the range leaves the partition. -/
def locate (blocks : BlockDevices δ) (device : DeviceHandle) (lba length : Nat) :
    Except StorageError (AttachedDisk δ × Nat) :=
  match blocks.disk? device.disk with
  | none => .error .notFound
  | some disk =>
      match disk.layout with
      | none => .error .notFound
      | some layout =>
          -- The length is refused even where the partition does not exist.
          if length = 0 ∨ length % layout.geometry.sectorSize ≠ 0 then .error .invalidArgument
          else
            match layout.partitions[device.partition.toNat]? with
            | none => .error .notFound
            | some partition =>
                if partition.count < lba + length / layout.geometry.sectorSize then
                  .error .outOfRange
                else .ok (disk, partition.start + lba)

variable [DiskDriver δ]

/-- Probe every disk. The answer is the cause of the first disk that failed. -/
def probeAll : Action (BlockDevices δ) Unit := fun blocks =>
  match AttachedDisk.probeEach blocks.disks with
  | (none, disks) => .ok () ⟨disks⟩
  | (some cause, disks) => .error cause ⟨disks⟩

/-- Read whole sectors of a device. -/
def read (device : DeviceHandle) (lba length : Nat) : Action (BlockDevices δ) Bytes := fun blocks =>
  match blocks.locate device lba length with
  | .error cause => .error cause blocks
  | .ok (disk, absolute) =>
      match DiskDriver.read absolute length disk.driver with
      | .ok bytes driver => .ok bytes (blocks.replace { disk with driver })
      | .error cause driver => .error cause.toStorageError (blocks.replace { disk with driver })

/-- Write whole sectors of a device. -/
def write (device : DeviceHandle) (lba : Nat) (bytes : Bytes) : Action (BlockDevices δ) Unit :=
  fun blocks =>
    match blocks.locate device lba bytes.length with
    | .error cause => .error cause blocks
    | .ok (disk, absolute) =>
        match DiskDriver.write absolute bytes disk.driver with
        | .ok _ driver => .ok () (blocks.replace { disk with driver })
        | .error cause driver => .error cause.toStorageError (blocks.replace { disk with driver })

end BlockDevices

end StorageStack

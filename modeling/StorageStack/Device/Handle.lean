/-! # Device handles

A block device is one partition of one disk. Partition 0 is the whole disk. A handle
packs into sixteen bits, the disk in the high byte.
-/

namespace StorageStack

/-- The number of a disk. -/
structure DiskId where
  number : UInt8
deriving DecidableEq, Repr

namespace DiskId

/-- The user data area. -/
def user : DiskId := ⟨0⟩

/-- The first boot area. -/
def boot0 : DiskId := ⟨1⟩

/-- The second boot area. -/
def boot1 : DiskId := ⟨2⟩

/-- The name under which mount tables mention a disk; only three disks have one. -/
def name? (disk : DiskId) : Option String :=
  if disk = user then some "emmc-user"
  else if disk = boot0 then some "emmc-boot0"
  else if disk = boot1 then some "emmc-boot1"
  else none

/-- The disk of a name. -/
def ofName? (name : String) : Option DiskId :=
  if name = "emmc-user" then some user
  else if name = "emmc-boot0" then some boot0
  else if name = "emmc-boot1" then some boot1
  else none

/-- The name of a disk, or its number where it has none. -/
def display (disk : DiskId) : String :=
  disk.name?.getD s!"disk{disk.number.toNat}"

theorem ofName?_eq_some_iff {name : String} {disk : DiskId} :
    ofName? name = some disk ↔ disk.name? = some name := by
  unfold ofName? name?
  constructor
  · intro hname
    split at hname
    · next heq => cases hname; simp [heq]
    · split at hname
      · next heq => cases hname; simp [heq, user, boot0]
      · split at hname
        · next heq => cases hname; simp [heq, user, boot0, boot1]
        · cases hname
  · intro hdisk
    split at hdisk
    · next heq => cases hdisk; simp [heq]
    · split at hdisk
      · next heq => cases hdisk; simp [heq]
      · split at hdisk
        · next heq => cases hdisk; simp [heq]
        · cases hdisk

end DiskId

/-- A block device: a disk and the number of one of its partitions. -/
structure DeviceHandle where
  disk : DiskId
  partition : UInt8
deriving DecidableEq, Repr

namespace DeviceHandle

/-- The handle of a whole disk. -/
def whole (disk : DiskId) : DeviceHandle := ⟨disk, 0⟩

/-- The packed form: the disk in the high byte, the partition in the low one. -/
def raw (device : DeviceHandle) : UInt16 :=
  device.disk.number.toUInt16 <<< 8 ||| device.partition.toUInt16

/-- The handle of a packed form. Every sixteen-bit number is one. -/
def ofRaw (raw : UInt16) : DeviceHandle :=
  ⟨⟨(raw >>> 8).toUInt8⟩, raw.toUInt8⟩

/-- The disk, the letter `p` and the partition number. -/
def display (device : DeviceHandle) : String :=
  s!"{device.disk.display}p{device.partition.toNat}"

end DeviceHandle

end StorageStack

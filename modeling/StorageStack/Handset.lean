import StorageStack.Partition.Image
import StorageStack.Storage.Mounting

/-! # The handset

The disk layout of the handset: a FAT and a Linux primary partition, and an extended
chain with two Linux partitions and one for littlefs; beside it a raw boot area.
-/

namespace StorageStack.Handset

/-- Sectors of the user area. -/
def sectorCount : Nat := 65536

/-- The first sector of the extended chain. -/
def chainHead : Nat := 32768

/-- The patches of one chain sector: a partition that starts 64 sectors behind it, and a
link to the sector at the given distance from the head. -/
def chainSector (offset : Nat) (typeCode : UInt8) (count : UInt32) (next : Option UInt32) :
    List Patch :=
  let lba := chainHead + offset
  let link := match next with
    | some distance => [Patch.entry lba 1 ⟨0, TypeCode.extendedLba, distance, 8192⟩]
    | none => []
  .entry lba 0 ⟨0, typeCode, 64, count⟩ :: link ++ [.sign lba]

/-- The boot sectors of the user area. -/
def patches : List Patch :=
  [.entry 0 0 ⟨0x80, TypeCode.fat32Lba, 2048, 8192⟩,
    .entry 0 1 ⟨0, TypeCode.linux, 10240, 16384⟩,
    .entry 0 2 ⟨0, TypeCode.extendedLba, 32768, 32768⟩,
    .sign 0] ++
  chainSector 0 TypeCode.linux 4096 (some 8192) ++
  chainSector 8192 TypeCode.linux 4096 (some 16384) ++
  chainSector 16384 TypeCode.littleFs 8192 none

/-- The user area. -/
def userDisk : RamDisk := .ofPatches sectorCount patches

/-- The first boot area. -/
def bootDisk : RamDisk := .zeroed 1024 Limits.sectorSize

/-- The block devices of a handset after start-up, with drivers made from RAM disks. -/
def blocks {δ : Type} [DiskDriver δ] (driver : RamDisk → δ) : BlockDevices δ :=
  let attached : BlockDevices δ :=
    ⟨[{ id := .user, driver := driver userDisk, partitionable := true },
      { id := .boot0, driver := driver bootDisk, partitionable := false }]⟩
  (BlockDevices.probeAll.outcome attached).2

/-- The storage layer of a handset after start-up. -/
def storage {δ ω : Type} [DiskDriver δ] (driver : RamDisk → δ) (host : ω) : Storage δ ω :=
  .ofBlocks (blocks driver) host

end StorageStack.Handset

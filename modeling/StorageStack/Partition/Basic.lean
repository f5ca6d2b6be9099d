import StorageStack.Partition.BootSector

/-! # Partitions

A partition is a range of sectors of one disk. A partition table lists the whole disk
in slot 0 and behind it the partitions found, numbered by their slot.
-/

namespace StorageStack

/-- One slot of a partition table. Sector numbers are absolute. -/
structure Partition where
  /-- The slot in the table; the whole disk has slot 0. -/
  logicalNum : Nat
  /-- The slot of a primary entry counted from 1, and 0 for anything else. -/
  mbrNum : Nat
  start : Nat
  count : Nat
  bootable : Bool := false
  bootUnit : UInt8 := 0
  typeCode : UInt8 := TypeCode.empty
  /-- The erase-block size in sectors, where the boot sector gives one. -/
  eraseBlock : Option UInt32 := none
deriving DecidableEq, Repr

namespace Partition

/-- Slot 0: all sectors of the disk. -/
def wholeDisk (sectorCount : Nat) : Partition where
  logicalNum := 0
  mbrNum := 0
  start := 0
  count := sectorCount

/-- The first sector behind the partition. -/
def finish (partition : Partition) : Nat := partition.start + partition.count

/-- Whether the partition was found in an extended chain. -/
def isLogical (partition : Partition) : Bool :=
  partition.logicalNum != 0 && partition.mbrNum == 0

/-- The partition shares a sector with the range, where neither is empty. -/
def Overlaps (partition : Partition) (start finish : Nat) : Prop :=
  start < partition.finish ∧ partition.start < finish

instance (partition : Partition) (start finish : Nat) :
    Decidable (partition.Overlaps start finish) :=
  inferInstanceAs (Decidable (_ ∧ _))

private def describeOption : Option UInt32 → String
  | none => "None"
  | some size => s!"Some({size.toNat})"

/-- The partition on one line, for diagnostics. The type code is shown in hexadecimal. -/
def describe (partition : Partition) : String :=
  let code := partition.typeCode.toNat
  let digits := String.ofList [(Nat.digitChar (code / 16)).toUpper, (Nat.digitChar (code % 16)).toUpper]
  "Partition \x7b logical: " ++ toString partition.logicalNum ++
    ", mbr: " ++ toString partition.mbrNum ++
    ", type: 0x" ++ digits ++
    ", start: " ++ toString partition.start ++
    ", count: " ++ toString partition.count ++
    ", bootable: " ++ (if partition.bootable then "true" else "false") ++
    ", erase_block: " ++ describeOption partition.eraseBlock ++ " \x7d"

end Partition

end StorageStack

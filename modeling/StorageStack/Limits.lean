/-! # Capacities and layout constants

Every table of the storage stack has a fixed capacity. The numbers below are the
whole configuration: no operation allocates past them, and each is named where an
operation refuses because of it.
-/

namespace StorageStack.Limits

/-- Bytes of a boot sector, and the default size of a sector. -/
def sectorSize : Nat := 512

/-- Attached disks; a disk number is below this bound. -/
def maxDisks : Nat := 4

/-- Entries of one partition table, slot 0 for the whole disk included. -/
def maxPartitions : Nat := 32

/-- Boot sectors visited along one extended chain. The bound ends cyclic chains. -/
def maxExtendedHops : Nat := 100

/-- Live mounts. -/
def maxMounts : Nat := 16

/-- Registered backends; there is at most one for each filesystem type. -/
def maxBackends : Nat := 4

/-- Bytes of a mount path. -/
def maxMountPathLength : Nat := 64

/-- Bytes of a directory entry's name. -/
def maxNameLength : Nat := 64

/-- Offset, in the first sector of a disk, of the four erase-block sizes. -/
def eraseTableOffset : Nat := 0x1A8

end StorageStack.Limits

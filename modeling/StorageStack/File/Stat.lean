import StorageStack.File.Kind

/-! # File and volume status

The records with which a filesystem describes a file and itself.
-/

namespace StorageStack

/-- The status of a file. What a filesystem does not track is zero. -/
structure Stat where
  ino : Nat := 0
  /-- The kind and the permissions. -/
  mode : UInt32 := 0
  nlink : Nat := 0
  uid : Nat := 0
  gid : Nat := 0
  size : Nat := 0
  blockSize : Nat := 0
  blocks : Nat := 0
  /-- The packed handle of the device. -/
  device : UInt16 := 0
deriving DecidableEq, Repr

/-- The kind that the mode carries. -/
def Stat.kind? (stat : Stat) : Option FileKind := FileKind.ofMode? stat.mode

/-- The status of a volume. What a filesystem does not track is zero. -/
structure VolumeStat where
  blockSize : Nat := 0
  fragmentSize : Nat := 0
  blocks : Nat := 0
  blocksFree : Nat := 0
  blocksAvailable : Nat := 0
  files : Nat := 0
  filesFree : Nat := 0
  nameMax : Nat := 0
deriving DecidableEq, Repr

end StorageStack

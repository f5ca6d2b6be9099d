import StorageStack.Partition.TypeCode

/-! # Filesystem types

The type that a mount asks for. A backend serves one concrete type; `auto` leaves the
choice to detection.
-/

namespace StorageStack

/-- A filesystem type as mount tables name it. -/
inductive FsType where
  | fat
  | littleFs
  | ext4
  | auto
deriving DecidableEq, Repr

namespace FsType

/-- The type that a partition's type code suggests. -/
def ofTypeCode? (code : UInt8) : Option FsType :=
  if TypeCode.isFat code then some fat
  else if code = TypeCode.littleFs then some littleFs
  else if code = TypeCode.linux then some ext4
  else none

/-- The name written in mount tables. -/
def name : FsType → String
  | fat => "vfat"
  | littleFs => "littlefs"
  | ext4 => "ext4"
  | auto => "auto"

/-- The type of a name. Two of the types have a second, short name. -/
def ofName? (name : String) : Option FsType :=
  if name = "vfat" ∨ name = "fat" then some fat
  else if name = "littlefs" ∨ name = "lfs" then some littleFs
  else if name = "ext4" then some ext4
  else if name = "auto" then some auto
  else none

theorem ofName?_name (fsType : FsType) : ofName? fsType.name = some fsType := by
  cases fsType <;> simp [ofName?, name]

end FsType

end StorageStack

import StorageStack.Bytes
import StorageStack.Error

/-! # Disk drivers

A driver answers three questions about one physical disk: its geometry, the bytes of
a range of sectors, and whether a range could be written. It keeps a state of its
own, may answer differently at each call, and keeps the effect of a call that fails.
-/

namespace StorageStack

/-- Why a driver call failed. -/
inductive DriverError where
  | notReady
  | timeout
  | crc
  | writeProtected
  | hardware
deriving DecidableEq, Repr

namespace DriverError

/-- Every failure. -/
def all : List DriverError := [notReady, timeout, crc, writeProtected, hardware]

/-- The text shown for a driver failure. -/
def message : DriverError → String
  | notReady => "Device not ready"
  | timeout => "Command timeout"
  | crc => "Data CRC error"
  | writeProtected => "Write protected"
  | hardware => "Hardware error"

/-- Above the drivers every hardware cause is an input or output error. -/
def toStorageError (_ : DriverError) : StorageError := .ioError

end DriverError

/-- What a driver says about its disk. The erase group counts sectors. -/
structure Geometry where
  sectorSize : Nat
  sectorCount : Nat
  eraseGroup : Nat
deriving DecidableEq, Repr

/-- A fallible operation of a driver. The state survives a failure. -/
abbrev DriverAction (δ α : Type) := EStateM DriverError δ α

/-- A physical disk. Sector numbers are absolute, and lengths count bytes. A read that
succeeds delivers exactly the length asked for. -/
class DiskDriver (δ : Type) where
  geometry : DriverAction δ Geometry
  read : (lba length : Nat) → DriverAction δ Bytes
  write : (lba : Nat) → Bytes → DriverAction δ Unit
  length_read : ∀ {lba length : Nat} {disk after : δ} {bytes : Bytes},
    read lba length disk = .ok bytes after → bytes.length = length

end StorageStack

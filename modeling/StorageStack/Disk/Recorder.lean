import StorageStack.Disk.Driver

/-! # Recorded disks

A recorder passes every call on to the disk behind it and notes the call first, so
the record shows what a driver was asked and not what it answered.
-/

namespace StorageStack

/-- One driver call. Lengths count bytes. -/
inductive Access where
  | geometry
  | read (lba length : Nat)
  | write (lba length : Nat)
deriving DecidableEq, Repr

/-- The line written for a call. -/
def Access.describe : Access → String
  | geometry => "geometry"
  | read lba length => s!"read {lba} {length}"
  | write lba length => s!"write {lba} {length}"

/-- A disk and the calls it received, the oldest first. -/
structure Recorder (δ : Type) where
  disk : δ
  record : List Access := []

namespace Recorder

variable {δ : Type}

/-- Note a call, then make it. -/
def noting {α : Type} (access : Access) (action : DriverAction δ α) :
    DriverAction (Recorder δ) α := fun recorder =>
  let record := recorder.record ++ [access]
  match action recorder.disk with
  | .ok value disk => .ok value ⟨disk, record⟩
  | .error cause disk => .error cause ⟨disk, record⟩

instance [DiskDriver δ] : DiskDriver (Recorder δ) where
  geometry := noting .geometry DiskDriver.geometry
  read lba length := noting (.read lba length) (DiskDriver.read lba length)
  write lba bytes := noting (.write lba bytes.length) (DiskDriver.write lba bytes)
  length_read := by
    intro lba length recorder after bytes hread
    unfold noting at hread
    dsimp only at hread
    split at hread
    · next hdisk =>
      cases hread
      exact DiskDriver.length_read hdisk
    · cases hread

/-- The disk with an empty record. -/
def cleared (recorder : Recorder δ) : Recorder δ := { recorder with record := [] }

end Recorder

end StorageStack

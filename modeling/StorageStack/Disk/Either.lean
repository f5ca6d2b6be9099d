import StorageStack.Disk.Driver

/-! # Disks of two kinds

A disk that is of one kind or of another, driven by the driver of its kind. A system
with disks of several kinds attaches them at a sum of their types.
-/

namespace StorageStack.Disk

variable {δ κ α : Type}

/-- An operation of one kind of disk, on a sum. The state stays of its kind. -/
def tagged {τ : Type} (tag : τ → δ ⊕ κ) (action : DriverAction τ α) (disk : τ) :
    EStateM.Result DriverError (δ ⊕ κ) α :=
  match action disk with
  | .ok value after => .ok value (tag after)
  | .error cause after => .error cause (tag after)

/-- Choose the operation by the kind of the disk. -/
def either (left : DriverAction δ α) (right : DriverAction κ α) : DriverAction (δ ⊕ κ) α
  | .inl disk => tagged Sum.inl left disk
  | .inr disk => tagged Sum.inr right disk

instance [DiskDriver δ] [DiskDriver κ] : DiskDriver (δ ⊕ κ) where
  geometry := either DiskDriver.geometry DiskDriver.geometry
  read lba length := either (DiskDriver.read lba length) (DiskDriver.read lba length)
  write lba bytes := either (DiskDriver.write lba bytes) (DiskDriver.write lba bytes)
  length_read := by
    intro lba length disk after bytes hread
    cases disk with
    | inl disk =>
        simp only [either, tagged] at hread
        split at hread
        · next hdisk => cases hread; exact DiskDriver.length_read hdisk
        · cases hread
    | inr disk =>
        simp only [either, tagged] at hread
        split at hread
        · next hdisk => cases hread; exact DiskDriver.length_read hdisk
        · cases hread

end StorageStack.Disk

import Mathlib.Data.Set.Basic
import StorageStack.Proofs.Disk.Stores

/-! # Agreement of RAM disks

Two RAM disks agree on some positions if they hold the same bytes there and are otherwise
told apart by their counters alone. Reads inside those positions cannot tell them apart.
-/

namespace StorageStack.RamDisk

/-- A RAM disk reports its geometry and stays as it is. -/
theorem state_geometry (disk : RamDisk) :
    (DriverAction.outcome DiskDriver.geometry disk).2 = disk := by
  change (DriverAction.outcome RamDisk.geometry disk).2 = disk
  unfold DriverAction.outcome RamDisk.geometry
  by_cases hready : (disk.failing || disk.sectorSize == 0) = true
  · simp only [if_pos hready]
  · simp only [if_neg hready]

/-- The same disk, up to the counters and the bytes at other positions. -/
structure Agrees (positions : Set Nat) (left right : RamDisk) : Prop where
  size_eq : right.size = left.size
  sectorSize_eq : right.sectorSize = left.sectorSize
  eraseGroup_eq : right.eraseGroup = left.eraseGroup
  failing_eq : right.failing = left.failing
  bytes_eq : ∀ position ∈ positions, right.contents.get position = left.contents.get position

namespace Agrees

variable {positions : Set Nat} {left middle right : RamDisk}

theorem refl (positions : Set Nat) (disk : RamDisk) : Agrees positions disk disk :=
  ⟨rfl, rfl, rfl, rfl, fun _ _ => rfl⟩

theorem trans (hleft : Agrees positions left middle) (hright : Agrees positions middle right) :
    Agrees positions left right where
  size_eq := hright.size_eq.trans hleft.size_eq
  sectorSize_eq := hright.sectorSize_eq.trans hleft.sectorSize_eq
  eraseGroup_eq := hright.eraseGroup_eq.trans hleft.eraseGroup_eq
  failing_eq := hright.failing_eq.trans hleft.failing_eq
  bytes_eq position hposition :=
    (hright.bytes_eq position hposition).trans (hleft.bytes_eq position hposition)

theorem mono {fewer : Set Nat} (hagrees : Agrees positions left right) (hfewer : fewer ⊆ positions) :
    Agrees fewer left right :=
  { hagrees with bytes_eq := fun position hposition => hagrees.bytes_eq position (hfewer hposition) }

theorem geometry_eq (hagrees : Agrees positions left right) :
    (DriverAction.outcome DiskDriver.geometry right).1 =
      (DriverAction.outcome DiskDriver.geometry left).1 := by
  change (DriverAction.outcome RamDisk.geometry right).1 = (DriverAction.outcome RamDisk.geometry left).1
  unfold DriverAction.outcome RamDisk.geometry sectorCount
  rw [hagrees.failing_eq, hagrees.sectorSize_eq, hagrees.size_eq, hagrees.eraseGroup_eq]
  by_cases hready : (left.failing || left.sectorSize == 0) = true
  · simp only [if_pos hready]
  · simp only [if_neg hready]

/-- A sector of agreed bytes is the same on both disks. -/
theorem sectors_eq (hagrees : Agrees positions left right) {lba length : Nat}
    (hinside : ∀ position, lba * left.sectorSize ≤ position →
      position < lba * left.sectorSize + length → position ∈ positions) :
    right.sectors length lba = left.sectors length lba := by
  have hserves : right.Serves lba length ↔ left.Serves lba length := by
    simp only [Serves, hagrees.size_eq, hagrees.sectorSize_eq, hagrees.failing_eq]
  have hbytes : Row.slice right.contents.get (lba * left.sectorSize) length =
      Row.slice left.contents.get (lba * left.sectorSize) length := by
    apply Row.slice_congr
    intro position hlower hupper
    exact hagrees.bytes_eq position (hinside position hlower hupper)
  unfold sectors
  by_cases hserved : left.Serves lba length
  · rw [if_pos hserved, if_pos (hserves.mpr hserved), Medium.read_eq_slice, Medium.read_eq_slice,
      hagrees.sectorSize_eq, hbytes]
  · rw [if_neg hserved, if_neg (mt hserves.mp hserved)]

/-- A read of agreed bytes is answered alike. -/
theorem read_eq (hagrees : Agrees positions left right) {lba length : Nat}
    (hinside : ∀ position, lba * left.sectorSize ≤ position →
      position < lba * left.sectorSize + length → position ∈ positions) :
    (DriverAction.outcome (DiskDriver.read lba length) right).1 =
      (DriverAction.outcome (DiskDriver.read lba length) left).1 := by
  rw [outcome_read, outcome_read]
  exact hagrees.sectors_eq hinside

/-- A read changes nothing but a counter. -/
theorem after_read (positions : Set Nat) (disk : RamDisk) (lba length : Nat) :
    Agrees positions disk (DriverAction.outcome (DiskDriver.read lba length) disk).2 := by
  rw [outcome_read]
  exact ⟨rfl, rfl, rfl, rfl, fun _ _ => rfl⟩

theorem read (hagrees : Agrees positions left right) (lba length : Nat) :
    Agrees positions (DriverAction.outcome (DiskDriver.read lba length) left).2
      (DriverAction.outcome (DiskDriver.read lba length) right).2 := by
  rw [outcome_read, outcome_read]
  exact ⟨hagrees.size_eq, hagrees.sectorSize_eq, hagrees.eraseGroup_eq, hagrees.failing_eq,
    hagrees.bytes_eq⟩

/-- A write changes nothing outside the range that it is given. -/
theorem after_write (disk : RamDisk) {lba : Nat} {bytes : Bytes}
    (houtside : ∀ position ∈ positions,
      position < lba * disk.sectorSize ∨ lba * disk.sectorSize + bytes.length ≤ position) :
    Agrees positions disk (DriverAction.outcome (DiskDriver.write lba bytes) disk).2 := by
  rw [outcome_write]
  split
  · refine ⟨rfl, rfl, rfl, rfl, fun position hposition => ?_⟩
    rw [Medium.get_write_eq_overlay]
    exact Row.overlay_of_outside _ (houtside position hposition)
  · exact ⟨rfl, rfl, rfl, rfl, fun _ _ => rfl⟩

end Agrees

end StorageStack.RamDisk

import StorageStack.Proofs.Disk.Reads
import StorageStack.Proofs.Disk.Row

/-! # Stores of sectors

A store is a driver that keeps a row of bytes and serves it by the sector. A call for one
sector is answered from the row, or fails and leaves the row as it is.
-/

namespace StorageStack

/-- A driver for which `holds` tells the row that it keeps. Calls on the bad sectors may fail. -/
structure SectorStore {δ : Type} [DiskDriver δ] (sectorSize sectorCount : Nat)
    (badReads badWrites : Nat → Prop) (holds : δ → Row → Prop) : Prop where
  read : ∀ {driver : δ} {row : Row} {lba : Nat}, holds driver row → lba < sectorCount →
    ∃ after, holds after row ∧
      (DiskDriver.read lba sectorSize driver =
          .ok (row.slice (lba * sectorSize) sectorSize) after ∨
        badReads lba ∧ ∃ cause, DiskDriver.read lba sectorSize driver = .error cause after)
  write : ∀ {driver : δ} {row : Row} {lba : Nat} {bytes : Bytes}, holds driver row →
    lba < sectorCount → bytes.length = sectorSize →
    ∃ after, holds after (row.overlay (lba * sectorSize) bytes) ∧
          DiskDriver.write lba bytes driver = .ok () after ∨
        badWrites lba ∧ holds after row ∧
          ∃ cause, DiskDriver.write lba bytes driver = .error cause after

namespace RamDisk

/-- A write is counted, whether it is served or refused. -/
theorem outcome_write (disk : RamDisk) (lba : Nat) (bytes : Bytes) :
    DriverAction.outcome (DiskDriver.write lba bytes) disk =
      if disk.Serves lba bytes.length then
        (.ok (), { disk with
          contents := disk.contents.write (lba * disk.sectorSize) bytes
          writeCount := disk.writeCount + 1 })
      else (.error .hardware, { disk with writeCount := disk.writeCount + 1 }) := by
  change DriverAction.outcome (RamDisk.write lba bytes) disk = _
  unfold DriverAction.outcome RamDisk.write
  by_cases hserves : disk.Serves lba bytes.length
  · simp only [if_pos hserves]
  · simp only [if_neg hserves]

/-- The disk as it was but for its bytes and its counters, with the bytes of the row. -/
def Holds (disk driver : RamDisk) (row : Row) : Prop :=
  ∃ contents readCount writeCount,
    driver = { disk with contents, readCount, writeCount } ∧ contents.get = row

/-- The whole sectors end inside the image. -/
theorem fits_of_le_sectorCount {disk : RamDisk} {finish : Nat} (hfinish : finish ≤ disk.sectorCount) :
    finish * disk.sectorSize ≤ disk.size :=
  Nat.le_trans (Nat.mul_le_mul_right _ hfinish) (Nat.div_mul_le_self _ _)

theorem holds_self (disk : RamDisk) : disk.Holds disk disk.contents.get :=
  ⟨disk.contents, disk.readCount, disk.writeCount, rfl, rfl⟩

/-- A disk that is not failing has no bad sector. -/
theorem sectorStore {disk : RamDisk} (hserving : disk.failing = false) :
    SectorStore disk.sectorSize disk.sectorCount (fun _ => False) (fun _ => False) disk.Holds where
  read := by
    rintro driver row lba ⟨contents, readCount, writeCount, rfl, rfl⟩ hlba
    have hfits := fits_of_le_sectorCount (Nat.succ_le_of_lt hlba)
    rw [Nat.succ_mul] at hfits
    refine ⟨_, ⟨contents, readCount + 1, writeCount, rfl, rfl⟩, Or.inl ?_⟩
    exact if_pos ⟨hserving, hfits⟩
  write := by
    rintro driver row lba bytes ⟨contents, readCount, writeCount, rfl, rfl⟩ hlba hlength
    have hfits : lba * disk.sectorSize + bytes.length ≤ disk.size := by
      rw [hlength, ← Nat.succ_mul]
      exact fits_of_le_sectorCount (Nat.succ_le_of_lt hlba)
    refine ⟨_, Or.inl ⟨⟨_, readCount, writeCount + 1, rfl, Medium.get_write_eq_overlay _ _ _⟩, ?_⟩⟩
    exact if_pos ⟨hserving, hfits⟩

end RamDisk

end StorageStack

import StorageStack.Disk.Faulty
import StorageStack.Proofs.Disk.Stores

/-! # Bad sectors

A faulty disk is a store: a call for one sector is served, or the sector is listed as bad
and stays as it is.
-/

namespace StorageStack.FaultyDisk

/-- The disk as it was but for its bytes, with the bytes of the row. -/
def Holds (disk driver : FaultyDisk) (row : Row) : Prop :=
  ∃ contents, driver = { disk with contents } ∧ contents.get = row

/-- The sector stands in a list of bad sectors. -/
def Listed (bad : List (Nat × DriverError)) (lba : Nat) : Prop := ∃ cause, (lba, cause) ∈ bad

theorem holds_self (disk : FaultyDisk) : disk.Holds disk disk.contents.get :=
  ⟨disk.contents, rfl, rfl⟩

theorem touched_blockSize {disk : FaultyDisk} (hsize : 0 < disk.blockSize) :
    disk.touched disk.blockSize = 1 := by
  unfold touched
  rw [Nat.add_sub_assoc hsize, Nat.add_div_left _ hsize,
    Nat.div_eq_of_lt (Nat.sub_one_lt_of_lt hsize)]

/-- A transfer of one sector fails at that sector or nowhere. -/
theorem firstBad?_one (bad : List (Nat × DriverError)) (lba : Nat) :
    firstBad? bad lba 1 = none ∨ Listed bad lba ∧ ∃ cause, firstBad? bad lba 1 = some (0, cause) := by
  have hone : firstBad? bad lba 1 =
      (bad.find? fun entry => entry.1 == lba).map fun entry => (0, entry.2) := by
    simp [firstBad?, List.range_succ]
  rw [hone]
  cases hfound : bad.find? fun entry => entry.1 == lba with
  | none => exact Or.inl rfl
  | some entry =>
      obtain rfl : entry.1 = lba := by simpa using List.find?_some hfound
      exact Or.inr ⟨⟨entry.2, List.mem_of_find?_eq_some hfound⟩, entry.2, rfl⟩

/-- The bad sectors of the store are those that the disk lists. -/
theorem sectorStore {disk : FaultyDisk} (hsize : 0 < disk.blockSize) (sectorCount : Nat) :
    SectorStore disk.blockSize sectorCount (Listed disk.badReads) (Listed disk.badWrites)
      disk.Holds where
  read := by
    rintro driver row lba ⟨contents, rfl, rfl⟩ -
    have htouched : ({ disk with contents } : FaultyDisk).touched disk.blockSize = 1 :=
      touched_blockSize hsize
    refine ⟨{ disk with contents }, ⟨contents, rfl, rfl⟩, ?_⟩
    change FaultyDisk.read lba disk.blockSize _ = _ ∨ _ ∧ ∃ cause, FaultyDisk.read _ _ _ = _
    unfold FaultyDisk.read
    rw [htouched]
    rcases firstBad?_one disk.badReads lba with hgood | ⟨hlisted, cause, hbad⟩
    · exact Or.inl (by rw [hgood, Medium.read_eq_slice])
    · exact Or.inr ⟨hlisted, cause, by rw [hbad]⟩
  write := by
    rintro driver row lba bytes ⟨contents, rfl, rfl⟩ - hlength
    have htouched : ({ disk with contents } : FaultyDisk).touched bytes.length = 1 := by
      rw [hlength]
      exact touched_blockSize hsize
    change ∃ after, _ ∧ FaultyDisk.write lba bytes _ = _ ∨
      _ ∧ _ ∧ ∃ cause, FaultyDisk.write lba bytes _ = _
    unfold FaultyDisk.write
    rw [htouched]
    rcases firstBad?_one disk.badWrites lba with hgood | ⟨hlisted, cause, hbad⟩
    · refine ⟨_, Or.inl ⟨⟨_, rfl, Medium.get_write_eq_overlay _ _ _⟩, ?_⟩⟩
      rw [hgood]
    · refine ⟨{ disk with contents }, Or.inr ⟨hlisted, ⟨contents, rfl, rfl⟩, cause, ?_⟩⟩
      -- The transfer stops at its first sector: nothing of it is stored.
      rw [hbad]
      dsimp only
      rw [Nat.zero_mul, List.take_zero]
      rfl

end StorageStack.FaultyDisk

import StorageStack.Proofs.Disk.Transcript

/-! # Where partitions come from

Each partition behind the whole disk was listed by a boot sector that the scan read, and
starts behind that sector. So no partition holds the sector that lists it, and none holds
the first sector of the disk.
-/

namespace StorageStack

/-- The boot sector at `lba` lists the range of the partition, which starts behind it. -/
structure BootSector.Lists (sector : BootSector) (lba : Nat) (partition : Partition) : Prop where
  behind : lba < partition.start
  listed : ∃ slot entry, (slot, entry) ∈ sector.dataEntries ∧
    partition.start = lba + entry.start.toNat ∧ partition.count = entry.count.toNat

namespace BootSector

variable {sector : BootSector} {candidate : Candidate}

theorem lists_primary {sectorCount : Nat} (hcandidate : candidate ∈ sector.primaries sectorCount)
    (hbounds : candidate.InBounds) (slot : Nat) : sector.Lists 0 (candidate.toPartition slot) := by
  obtain ⟨⟨index, entry⟩, hentry, rfl⟩ := List.mem_map.mp hcandidate
  exact ⟨hbounds.1, index, entry, hentry, rfl, rfl⟩

theorem lists_logical {lba finish : Nat} (hcandidate : candidate ∈ sector.logicals lba finish)
    (hbounds : candidate.InBounds) (slot : Nat) : sector.Lists lba (candidate.toPartition slot) := by
  obtain ⟨⟨index, entry⟩, hentry, rfl⟩ := List.mem_map.mp hcandidate
  exact ⟨hbounds.1, index, entry, hentry, rfl, rfl⟩

end BootSector

namespace Scan

/-- A partition that admission adds is the record of a candidate within its bounds. -/
theorem mem_admitAll {candidates : List Candidate} {table : List Partition} {partition : Partition}
    (hmem : partition ∈ (admitAll candidates table).2.tail) :
    partition ∈ table.tail ∨
      ∃ candidate ∈ candidates, candidate.InBounds ∧ ∃ slot, partition = candidate.toPartition slot := by
  induction candidates generalizing table with
  | nil => exact Or.inl hmem
  | cons candidate rest ih =>
      unfold admitAll at hmem
      split at hmem
      · next hfits =>
        split at hmem
        · rcases ih hmem with hadded | ⟨other, hother, hfound⟩
          · cases table with
            | nil => cases hadded
            | cons whole listed =>
                rcases List.mem_append.mp hadded with hold | hnew
                · exact Or.inl hold
                · exact Or.inr ⟨candidate, List.mem_cons_self, hfits.1, _, List.mem_singleton.mp hnew⟩
          · exact Or.inr ⟨other, List.mem_cons_of_mem _ hother, hfound⟩
        · exact Or.inl hmem
      · rcases ih hmem with hold | ⟨other, hother, hfound⟩
        · exact Or.inl hold
        · exact Or.inr ⟨other, List.mem_cons_of_mem _ hother, hfound⟩

variable {δ : Type}

/-- Each partition behind the whole disk is listed by a boot sector among the answers. -/
def Traced (sectorSize : Nat) (scan : Scan (Transcript δ)) : Prop :=
  ∀ partition ∈ scan.table.tail, ∃ lba answer sector,
    Exchange.read lba sectorSize answer ∈ scan.driver.exchanges ∧
      BootSector.ofAnswer answer = .ok sector ∧ sector.Lists lba partition

variable {sectorSize lba : Nat} {table : List Partition} {answer : Except DriverError Bytes}

theorem traced_whole (transcript : Transcript δ) (whole : Partition) :
    Traced sectorSize ⟨transcript, [whole]⟩ := by
  intro partition hmem
  cases hmem

variable [DiskDriver δ] {after : Transcript δ} {transcript : Transcript δ}

theorem Traced.read (htraced : Traced sectorSize ⟨transcript, table⟩)
    (hread : DriverAction.outcome (DiskDriver.read lba sectorSize) transcript = (answer, after)) :
    Traced sectorSize ⟨after, table⟩ := by
  intro partition hmem
  obtain ⟨origin, found, sector, hfound, hlists⟩ := htraced partition hmem
  exact ⟨origin, found, sector, Transcript.exchanges_of_read hread ▸ List.mem_append_left _ hfound,
    hlists⟩

/-- What a boot sector lists can be admitted once that sector has been read. -/
theorem Traced.admitAll (htraced : Traced sectorSize ⟨transcript, table⟩)
    (hread : DriverAction.outcome (DiskDriver.read lba sectorSize) transcript = (answer, after))
    {sector : BootSector} (hsector : BootSector.ofAnswer answer = .ok sector)
    {candidates : List Candidate}
    (hlists : ∀ candidate ∈ candidates, candidate.InBounds → ∀ slot,
      sector.Lists lba (candidate.toPartition slot)) :
    Traced sectorSize ⟨after, (admitAll candidates table).2⟩ := by
  intro partition hmem
  rcases mem_admitAll hmem with hold | ⟨candidate, hcandidate, hbounds, slot, rfl⟩
  · exact htraced.read hread partition hold
  · exact ⟨lba, answer, sector, by simp [Transcript.exchanges_of_read hread], hsector,
      hlists candidate hcandidate hbounds slot⟩

/-- A scan adds nothing to a table that it has not read from a boot sector in front of it. -/
theorem traced_run (geometry : Geometry) {scan : Scan (Transcript δ)}
    (htraced : Traced geometry.sectorSize scan) :
    Traced geometry.sectorSize ((run geometry).outcome scan).2 := by
  refine run_induct htraced (fun hread => ⟨htraced.read hread, fun hsector => ?_⟩)
    fun _ _ _ => ⟨fun htraced hread => htraced.read hread, fun htraced hread hsector => ?_⟩
  · exact htraced.admitAll hread hsector fun _ hcandidate => BootSector.lists_primary hcandidate
  · exact htraced.admitAll hread hsector fun _ hcandidate => BootSector.lists_logical hcandidate

end Scan

end StorageStack

import StorageStack.Proofs.Block.FlatRegion
import StorageStack.Proofs.Disk.BadSectors

/-! # Failing regions

A transfer of bytes that meets a bad sector moves what lies in front of that sector and
nothing else. It stops between two sectors, even where a sector is changed in part and so
takes two calls.
-/

namespace StorageStack

/-- The buffer of a caller after a read: what was delivered lies at the front, and the rest is
as it was. -/
def Delivery.fill (delivery : Delivery) (buffer : Bytes) : Bytes :=
  delivery.bytes ++ buffer.drop delivery.bytes.length

namespace BlockDevices

/-- Through a region of a store, a range that leaves the region is refused before any driver is
called. Within the region, a write lays a front part of its payload over the bytes of the
partition and a read delivers a front part of its range. Both are complete, or end as input or
output errors at the boundary of a sector that is bad. The region is the whole partition if a
word can count the bytes. -/
theorem region_stops_at_bad_sector {δ : Type} [DiskDriver δ] {outside : Set (δ → δ)}
    {blocks : BlockDevices δ} (hreach : Reachable outside blocks) {device : DeviceHandle}
    {disk : AttachedDisk δ} {layout : Layout} {partition : Partition}
    (hresolves : Resolves blocks device disk layout partition)
    {badReads badWrites : Nat → Prop} {holds : δ → Row → Prop}
    (hstore : SectorStore layout.geometry.sectorSize layout.geometry.sectorCount
      badReads badWrites holds)
    {row : Row} (hholds : holds disk.driver row) {region : Region}
    (hregion : Region.ofDevice blocks device = .ok region) :
    let sectorSize := layout.geometry.sectorSize
    let origin := partition.start * sectorSize
    (partition.count * sectorSize < UInt64.size →
      region.capacity = partition.count * sectorSize) ∧
    (∀ offset bytes,
      (region.capacity < offset + bytes.length →
        region.write offset bytes blocks = .error .outOfRange blocks) ∧
      (offset + bytes.length ≤ region.capacity → ∃ done driver,
        done ≤ bytes.length ∧
        (done < bytes.length → (done = 0 ∨ sectorSize ∣ offset + done) ∧
          (badReads (partition.start + (offset + done) / sectorSize) ∨
            badWrites (partition.start + (offset + done) / sectorSize))) ∧
        holds driver (row.overlay (origin + offset) (bytes.take done)) ∧
        region.write offset bytes blocks =
          if done = bytes.length then .ok () (blocks.replace { disk with driver })
          else .error .ioError (blocks.replace { disk with driver }))) ∧
    ∀ offset buffer,
      (region.capacity < offset + buffer.length →
        region.read offset buffer.length blocks = (⟨[], some .outOfRange⟩, blocks)) ∧
      (offset + buffer.length ≤ region.capacity → ∃ done driver,
        done ≤ buffer.length ∧
        (done < buffer.length → (done = 0 ∨ sectorSize ∣ offset + done) ∧
          badReads (partition.start + (offset + done) / sectorSize)) ∧
        holds driver row ∧
        (region.read offset buffer.length blocks).1.failure =
          (if done = buffer.length then none else some .ioError) ∧
        (region.read offset buffer.length blocks).1.fill buffer =
          row.slice (origin + offset) done ++ buffer.drop done ∧
        (region.read offset buffer.length blocks).2 = blocks.replace { disk with driver }) := by
  intro sectorSize origin
  obtain rfl : Region.onLayout device layout partition = region :=
    Except.ok.inj (hresolves.ofDevice_eq.symm.trans hregion)
  have hsound := hreach.sound hresolves.mem
  have hsize : 0 < sectorSize := hsound.sectorSize_pos layout hresolves.known
  have hfinish := hresolves.finish_le hsound
  have hself := hresolves.replace_self hreach.nodup_diskIds
  refine ⟨Region.capacity_of_fits, fun offset bytes => ⟨?_, ?_⟩, fun offset buffer => ⟨?_, ?_⟩⟩
  · intro hrange
    exact Region.write_outside hrange blocks
  · intro hrange
    obtain ⟨done, driver, hprogress, hdriver, hwrite⟩ :=
      hresolves.writePieces_stored hstore hsize hfinish hholds (Region.le_of_le_capacity hrange)
    rw [hself] at hwrite
    refine ⟨done, driver, hprogress.done_le,
      fun hearly => ⟨hprogress.aligned hearly, hprogress.stopped hearly⟩, hdriver, ?_⟩
    exact (Region.write_of_le hrange blocks).trans hwrite
  · intro hrange
    exact Region.read_outside hrange blocks
  · intro hrange
    obtain ⟨done, driver, hprogress, hdriver, hread⟩ :=
      hresolves.readPieces_stored hstore hsize hfinish hholds (Region.le_of_le_capacity hrange)
    rw [hself] at hread
    refine ⟨done, driver, hprogress.done_le,
      fun hearly => ⟨hprogress.aligned hearly, hprogress.stopped hearly⟩, hdriver, ?_⟩
    rw [(Region.read_of_le hrange blocks).trans hread]
    refine ⟨rfl, ?_, rfl⟩
    rw [Delivery.fill, Row.length_slice]

/-- Three sectors are written, the last of them in part, and the middle one is bad. -/
theorem region_stops_at_bad_sector_crc :
    let disk : FaultyDisk :=
      { contents := .blank, blockSize := 4, reported := ⟨4, 8, 1⟩, badWrites := [(3, .crc)] }
    let attached := (addDisk .boot0 disk false).outcome {}
    let blocks := (probeAll.outcome attached.2).2
    ∃ region, Region.ofDevice blocks (.whole .boot0) = .ok region ∧ ∃ driver,
      disk.Holds driver (Row.overlay disk.contents.get 10 [1, 2]) ∧
      region.write 10 [1, 2, 3, 4, 5, 6, 7] blocks =
        .error .ioError (blocks.replace ⟨.boot0, driver, false,
          some ⟨⟨4, 8, 1⟩, [Partition.wholeDisk 8], none⟩⟩) := by
  intro disk attached blocks
  let layout : Layout := ⟨⟨4, 8, 1⟩, [Partition.wholeDisk 8], none⟩
  have hreach : Reachable (∅ : Set (FaultyDisk → FaultyDisk)) blocks :=
    .probeAll (.addDisk .boot0 disk false .empty)
  have hresolves : Resolves blocks (.whole .boot0) ⟨.boot0, disk, false, some layout⟩ layout
      (Partition.wholeDisk 8) := ⟨rfl, rfl, rfl⟩
  obtain ⟨-, hwrites, -⟩ := region_stops_at_bad_sector hreach hresolves
    (FaultyDisk.sectorStore (show 0 < disk.blockSize by decide) 8) disk.holds_self
    hresolves.ofDevice_eq
  obtain ⟨done, driver, hle, hearly, hdriver, hwrite⟩ :=
    (hwrites 10 [1, 2, 3, 4, 5, 6, 7]).2 (by decide)
  have hfailed : ((Region.onLayout (.whole .boot0) layout (Partition.wholeDisk 8)).write 10
      [1, 2, 3, 4, 5, 6, 7] |>.outcome blocks).1 = .error .ioError := by decide +kernel
  have hdone : done = 2 := by
    rcases Nat.lt_or_eq_of_le hle with hlt | heq
    · obtain ⟨haligned, hbad⟩ := hearly hlt
      have hsector : (10 + done) / 4 = 3 := by
        simpa [FaultyDisk.Listed, disk, layout, Partition.wholeDisk] using hbad
      have haligned : done = 0 ∨ 4 ∣ 10 + done := haligned
      omega
    · rw [if_pos heq] at hwrite
      rw [Action.outcome, hwrite] at hfailed
      cases hfailed
  subst hdone
  exact ⟨_, hresolves.ofDevice_eq, driver, hdriver, hwrite⟩

end BlockDevices

end StorageStack

import StorageStack.Proofs.Block.RamDevices
import StorageStack.Proofs.Disk.Agreement
import StorageStack.Proofs.Partition.Origin
import StorageStack.Proofs.Partition.Replay

/-! # What a probe depends on

A probe asks for the geometry and scans the disk if it carries a partition table. What it
finds on a RAM disk is decided by the sectors that the scan reads.
-/

namespace StorageStack

namespace AttachedDisk

variable {δ : Type} [DiskDriver δ] {disk : AttachedDisk δ} {driver : δ} {geometry : Geometry}

theorem outcome_probe_of_error {cause : DriverError}
    (hgeometry : DriverAction.outcome DiskDriver.geometry disk.driver = (.error cause, driver)) :
    probe.outcome disk = (.error cause.toStorageError, { disk with driver, layout := none }) := by
  unfold Action.outcome probe
  rw [DriverAction.outcome_eq_error_iff.mp hgeometry]

theorem outcome_probe_of_zero
    (hgeometry : DriverAction.outcome DiskDriver.geometry disk.driver = (.ok geometry, driver))
    (hzero : geometry.sectorSize = 0) :
    probe.outcome disk = (.error .corrupt, { disk with driver, layout := none }) := by
  unfold Action.outcome probe
  rw [DriverAction.outcome_eq_ok_iff.mp hgeometry]
  dsimp only
  rw [if_pos hzero]

theorem outcome_probe_of_raw
    (hgeometry : DriverAction.outcome DiskDriver.geometry disk.driver = (.ok geometry, driver))
    (hsize : geometry.sectorSize ≠ 0) (hraw : disk.partitionable = false) :
    probe.outcome disk = (.ok (), { disk with
      driver
      layout := some ⟨geometry, [Partition.wholeDisk geometry.sectorCount], none⟩ }) := by
  unfold Action.outcome probe
  rw [DriverAction.outcome_eq_ok_iff.mp hgeometry]
  dsimp only
  rw [if_neg hsize, hraw]
  rfl

theorem outcome_probe_of_scan
    (hgeometry : DriverAction.outcome DiskDriver.geometry disk.driver = (.ok geometry, driver))
    (hsize : geometry.sectorSize ≠ 0) (htable : disk.partitionable = true) :
    probe.outcome disk =
      let scanned := (Scan.run geometry).outcome ⟨driver, [Partition.wholeDisk geometry.sectorCount]⟩
      (scanned.1.map fun _ => (), { disk with
        driver := scanned.2.driver
        layout := some ⟨geometry, scanned.2.table, some scanned.1⟩ }) := by
  unfold Action.outcome probe
  rw [DriverAction.outcome_eq_ok_iff.mp hgeometry]
  dsimp only
  rw [if_neg hsize, if_pos htable]
  cases Scan.run geometry ⟨driver, [Partition.wholeDisk geometry.sectorCount]⟩ <;> rfl

/-- The disk behind a transcript. -/
def transcribed (disk : AttachedDisk δ) : AttachedDisk (Transcript δ) where
  id := disk.id
  driver := ⟨disk.driver, []⟩
  partitionable := disk.partitionable
  layout := disk.layout

/-- The sectors that a probe of the disk reads. -/
def sectorsRead (disk : AttachedDisk δ) : List Nat :=
  (probe.outcome disk.transcribed).2.driver.exchanges.filterMap Exchange.sectorRead?

/-- The scan of a probe with its transcript. Any RAM disk that holds the sectors of the
transcript is scanned alike. -/
theorem exists_scanned (disk : AttachedDisk RamDisk) {geometry : Geometry}
    (hgeometry : DriverAction.outcome DiskDriver.geometry disk.driver = (.ok geometry, disk.driver))
    (hsize : geometry.sectorSize ≠ 0) (htable : disk.partitionable = true) :
    ∃ answer table,
      (∀ driver : RamDisk, (∀ lba ∈ disk.sectorsRead,
          driver.sectors geometry.sectorSize lba = disk.driver.sectors geometry.sectorSize lba) →
        ∃ after, (Scan.run geometry).outcome ⟨driver, [Partition.wholeDisk geometry.sectorCount]⟩ =
          (answer, ⟨after, table⟩)) ∧
      ∀ partition ∈ table.tail, ∃ lba ∈ disk.sectorsRead, ∃ sector,
        (disk.driver.sectors geometry.sectorSize).bootSector? lba = some sector ∧
          sector.Lists lba partition := by
  have hkept := Transcript.outcome_geometry [] hgeometry
  have hprobe : probe.outcome disk.transcribed = _ := outcome_probe_of_scan hkept hsize htable
  generalize hstart : (⟨⟨disk.driver, [] ++ [.geometry (.ok geometry)]⟩,
    [Partition.wholeDisk geometry.sectorCount]⟩ : Scan (Transcript RamDisk)) = start at hprobe
  generalize hscanned : (Scan.run geometry).outcome start = scanned at hprobe
  have hread : disk.sectorsRead = scanned.2.driver.exchanges.filterMap Exchange.sectorRead? := by
    rw [sectorsRead, hprobe]
  have hmem : ∀ {lba answer}, Exchange.read lba geometry.sectorSize answer ∈
      scanned.2.driver.exchanges → lba ∈ disk.sectorsRead := by
    intro lba answer hexchange
    rw [hread]
    exact List.mem_filterMap.mpr ⟨_, hexchange, rfl⟩
  -- The transcript holds what the disk holds, for it was taken from it.
  have hrepeats : (disk.driver.sectors geometry.sectorSize).Repeats geometry.sectorSize
      scanned.2.driver.exchanges := by
    have hreads := Scan.readsTo_run geometry start
    rw [hscanned, ← hstart] at hreads
    refine ((disk.driver.steady geometry.sectorSize).repeats ?_ hreads).2
    intro lba answer hexchange
    cases List.mem_singleton.mp hexchange
  refine ⟨scanned.1, scanned.2.table, fun driver hsectors => ?_, fun partition hpartition => ?_⟩
  · have hreplay := Scan.run_replay geometry start (driver.steady geometry.sectorSize)
    rw [hscanned, ← hstart] at hreplay
    refine hreplay fun lba answer hexchange => ?_
    rw [hsectors lba (hmem hexchange)]
    exact hrepeats lba answer hexchange
  · have hwhole : Scan.Traced geometry.sectorSize start := hstart ▸ Scan.traced_whole _ _
    have htraced := Scan.traced_run geometry hwhole
    rw [hscanned] at htraced
    obtain ⟨lba, answer, sector, hexchange, hsector, hlists⟩ := htraced partition hpartition
    refine ⟨lba, hmem hexchange, sector, Contents.bootSector?_eq_some_iff.mpr ?_, hlists⟩
    rw [hrepeats lba answer hexchange]
    exact hsector

/-- A probe of a RAM disk finds again what it found before, as long as the sectors that it
read are unchanged. -/
theorem probe_replay (disk other : AttachedDisk RamDisk)
    (hpartitionable : other.partitionable = disk.partitionable)
    (hagrees : disk.driver.Agrees ∅ other.driver)
    (hsectors : ∀ lba ∈ disk.sectorsRead, other.driver.sectors disk.driver.sectorSize lba =
      disk.driver.sectors disk.driver.sectorSize lba) :
    (probe.outcome other).1 = (probe.outcome disk).1 ∧
      (probe.outcome other).2.layout = (probe.outcome disk).2.layout := by
  rcases hgeometry : DriverAction.outcome DiskDriver.geometry disk.driver with ⟨answer, driver⟩
  obtain rfl : disk.driver = driver := (hgeometry ▸ disk.driver.state_geometry).symm
  have hreported : DriverAction.outcome DiskDriver.geometry other.driver = (answer, other.driver) :=
    Prod.ext (by rw [hagrees.geometry_eq, hgeometry]) other.driver.state_geometry
  cases answer with
  | error cause =>
      rw [outcome_probe_of_error hgeometry, outcome_probe_of_error hreported]
      exact ⟨rfl, rfl⟩
  | ok geometry =>
      by_cases hsize : geometry.sectorSize = 0
      · rw [outcome_probe_of_zero hgeometry hsize, outcome_probe_of_zero hreported hsize]
        exact ⟨rfl, rfl⟩
      · cases htable : disk.partitionable with
        | false =>
            rw [outcome_probe_of_raw hgeometry hsize htable,
              outcome_probe_of_raw hreported hsize (hpartitionable.trans htable)]
            exact ⟨rfl, rfl⟩
        | true =>
            obtain ⟨-, hsame, -⟩ :=
              RamDisk.of_geometry_eq_ok (DriverAction.outcome_eq_ok_iff.mp hgeometry)
            obtain ⟨answer, table, hscans, -⟩ := exists_scanned disk hgeometry hsize htable
            obtain ⟨first, hfirst⟩ := hscans disk.driver fun _ _ => rfl
            obtain ⟨second, hsecond⟩ := hscans other.driver (hsame ▸ hsectors)
            rw [outcome_probe_of_scan hgeometry hsize htable,
              outcome_probe_of_scan hreported hsize (hpartitionable.trans htable), hfirst, hsecond]
            exact ⟨rfl, rfl⟩

/-- Each partition that a probe finds is listed by a boot sector that it read, and starts
behind it. -/
theorem lists_of_probe {disk : AttachedDisk RamDisk} {partition : Partition}
    (hpartition : partition ∈ (probe.outcome disk).2.partitions.tail) :
    ∃ lba ∈ disk.sectorsRead, ∃ sector,
      (disk.driver.sectors disk.driver.sectorSize).bootSector? lba = some sector ∧
        sector.Lists lba partition := by
  rcases hgeometry : DriverAction.outcome DiskDriver.geometry disk.driver with ⟨answer, driver⟩
  obtain rfl : disk.driver = driver := (hgeometry ▸ disk.driver.state_geometry).symm
  cases answer with
  | error cause =>
      rw [outcome_probe_of_error hgeometry] at hpartition
      cases hpartition
  | ok geometry =>
      by_cases hsize : geometry.sectorSize = 0
      · rw [outcome_probe_of_zero hgeometry hsize] at hpartition
        cases hpartition
      · cases htable : disk.partitionable with
        | false =>
            rw [outcome_probe_of_raw hgeometry hsize htable] at hpartition
            cases hpartition
        | true =>
            obtain ⟨-, hsame, -⟩ :=
              RamDisk.of_geometry_eq_ok (DriverAction.outcome_eq_ok_iff.mp hgeometry)
            obtain ⟨answer, table, hscans, hlists⟩ := exists_scanned disk hgeometry hsize htable
            obtain ⟨after, hscan⟩ := hscans disk.driver fun _ _ => rfl
            rw [outcome_probe_of_scan hgeometry hsize htable, hscan] at hpartition
            exact hsame ▸ hlists partition hpartition

end AttachedDisk

end StorageStack

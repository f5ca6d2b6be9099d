import StorageStack.Proofs.Block.Resolve
import StorageStack.Proofs.Disk.Stores

/-! # Devices on RAM disks

The size of a RAM disk and of its sectors never changes. So what probing found out about it
remains true, and a partition of it lies inside its image.
-/

namespace StorageStack

namespace RamDisk

/-- The changes made to a RAM disk from outside: its failures are switched on and off. -/
def switches : Set (RamDisk → RamDisk) :=
  Set.range fun (failing : Bool) (disk : RamDisk) => disk.setFailing failing

theorem sizes_of_driverStep {disk after : RamDisk} (hstep : DriverStep switches disk after) :
    after.size = disk.size ∧ after.sectorSize = disk.sectorSize := by
  cases hstep with
  | read lba length =>
      rw [outcome_read]
      exact ⟨rfl, rfl⟩
  | write lba bytes =>
      rw [outcome_write]
      split <;> exact ⟨rfl, rfl⟩
  | outside change hchange =>
      obtain ⟨failing, rfl⟩ := hchange
      exact ⟨rfl, rfl⟩

theorem of_geometry_eq_ok {disk after : RamDisk} {reported : Geometry}
    (hgeometry : DiskDriver.geometry disk = .ok reported after) :
    after = disk ∧ reported.sectorSize = disk.sectorSize ∧
      reported.sectorCount = disk.sectorCount := by
  change RamDisk.geometry disk = _ at hgeometry
  unfold RamDisk.geometry at hgeometry
  split at hgeometry
  · cases hgeometry
  · cases hgeometry
    exact ⟨rfl, rfl, rfl⟩

end RamDisk

/-- What is known of the disk agrees with the disk. -/
structure AttachedDisk.Mirrors (disk : AttachedDisk RamDisk) : Prop where
  sectorSize_eq : ∀ layout, disk.layout = some layout →
    layout.geometry.sectorSize = disk.driver.sectorSize
  sectorCount_eq : ∀ layout, disk.layout = some layout →
    layout.geometry.sectorCount = disk.driver.sectorCount

namespace AttachedDisk

theorem Mirrors.with_driver {disk : AttachedDisk RamDisk} {driver : RamDisk}
    (hmirrors : disk.Mirrors) (hsize : driver.size = disk.driver.size)
    (hsector : driver.sectorSize = disk.driver.sectorSize) : Mirrors { disk with driver } := by
  refine ⟨fun layout hlayout => ?_, fun layout hlayout => ?_⟩
  · exact (hmirrors.sectorSize_eq layout hlayout).trans hsector.symm
  · rw [hmirrors.sectorCount_eq layout hlayout, RamDisk.sectorCount, RamDisk.sectorCount, hsize,
      hsector]

theorem mirrors_probe (disk : AttachedDisk RamDisk) : (probe.outcome disk).2.Mirrors := by
  rcases probe_cases disk with hstate |
    ⟨geometry, driver, hgeometry, _, ⟨_, hstate⟩ | ⟨_, result, scan, hrun, hstate⟩⟩
  · rw [hstate]
    constructor <;> rintro layout ⟨⟩
  · obtain ⟨-, hsize, hcount⟩ := RamDisk.of_geometry_eq_ok hgeometry
    obtain ⟨rfl, -, -⟩ := RamDisk.of_geometry_eq_ok hgeometry
    rw [hstate]
    constructor <;> rintro layout ⟨⟩
    · exact hsize
    · exact hcount
  · obtain ⟨rfl, hsize, hcount⟩ := RamDisk.of_geometry_eq_ok hgeometry
    have hreads := Scan.readsTo_run geometry ⟨disk.driver, [Partition.wholeDisk geometry.sectorCount]⟩
    rw [hrun] at hreads
    obtain ⟨reads, hdriver⟩ := RamDisk.eq_of_readsTo hreads
    rw [hstate, hdriver]
    constructor <;> rintro layout ⟨⟩
    · exact hsize
    · exact hcount

end AttachedDisk

namespace BlockDevices

/-- In every reachable state of RAM disks the layouts agree with the disks. -/
theorem Reachable.mirrors {blocks : BlockDevices RamDisk}
    (hreach : Reachable RamDisk.switches blocks) {disk : AttachedDisk RamDisk}
    (hdisk : disk ∈ blocks.disks) : disk.Mirrors := by
  suffices hall : ∀ disk ∈ blocks.disks, disk.Mirrors from hall disk hdisk
  refine (hreach.induct (motive := fun blocks => ∀ disk ∈ blocks.disks, disk.Mirrors)
    ?_ ?_ ?_ ?_).2
  · simp
  · intro blocks id driver partitionable hprior _ _ _ disk hdisk
    rcases List.mem_append.mp hdisk with hold | hnew
    · exact hprior disk hold
    · rw [List.mem_singleton.mp hnew]
      constructor <;> rintro layout ⟨⟩
  · intro blocks _ disk hdisk
    obtain ⟨old, _, rfl⟩ := List.mem_map.mp hdisk
    exact AttachedDisk.mirrors_probe old
  · intro blocks changed driver hprior hchanged hstep disk hdisk
    rcases of_mem_replace hdisk with rfl | hold
    · obtain ⟨hsize, hsector⟩ := RamDisk.sizes_of_driverStep hstep
      exact (hprior changed hchanged).with_driver hsize hsector
    · exact hprior disk hold

/-- A partition with the sectors of its RAM disk, inside the image. -/
structure OnRam (disk : AttachedDisk RamDisk) (layout : Layout) (partition : Partition) : Prop where
  sectorSize_eq : layout.geometry.sectorSize = disk.driver.sectorSize
  sectorSize_pos : 0 < layout.geometry.sectorSize
  finish_le : partition.finish ≤ disk.driver.sectorCount

theorem Resolves.onRam {blocks : BlockDevices RamDisk} {device : DeviceHandle}
    {disk : AttachedDisk RamDisk} {layout : Layout} {partition : Partition}
    (hresolves : Resolves blocks device disk layout partition)
    (hreach : Reachable RamDisk.switches blocks) : OnRam disk layout partition := by
  have hsound := hreach.sound hresolves.mem
  have hmirrors := hreach.mirrors hresolves.mem
  refine ⟨hmirrors.sectorSize_eq layout hresolves.known,
    hsound.sectorSize_pos layout hresolves.known, ?_⟩
  rw [← hmirrors.sectorCount_eq layout hresolves.known]
  exact hresolves.finish_le hsound

/-- A read of whole sectors inside a partition is served, unless the disk is failing. -/
theorem Resolves.outcome_read_sectors {blocks : BlockDevices RamDisk} {device : DeviceHandle}
    {disk : AttachedDisk RamDisk} {layout : Layout} {partition : Partition}
    (hresolves : Resolves blocks device disk layout partition) (hram : OnRam disk layout partition)
    {lba sectors : Nat} (hsectors : 0 < sectors) (hfits : lba + sectors ≤ partition.count) :
    ((read device lba (sectors * layout.geometry.sectorSize)).outcome blocks).1 =
      if disk.driver.failing then .error .ioError
      else .ok (disk.driver.contents.read ((partition.start + lba) * disk.driver.sectorSize)
        (sectors * layout.geometry.sectorSize)) := by
  have hlocate := hresolves.locate_sectors hram.sectorSize_pos lba hsectors
  rw [if_neg (Nat.not_lt_of_le hfits)] at hlocate
  have hinside : (partition.start + lba) * disk.driver.sectorSize +
      sectors * layout.geometry.sectorSize ≤ disk.driver.size := by
    rw [hram.sectorSize_eq, ← Nat.add_mul]
    refine RamDisk.fits_of_le_sectorCount (Nat.le_trans ?_ hram.finish_le)
    rw [Partition.finish]
    omega
  rw [outcome_read_of_located hlocate, RamDisk.outcome_read]
  unfold RamDisk.sectors RamDisk.Serves
  by_cases hfailing : disk.driver.failing = true
  · simp [hfailing, Except.mapError, DriverError.toStorageError]
  · simp [hfailing, hinside, Except.mapError]

end BlockDevices

end StorageStack

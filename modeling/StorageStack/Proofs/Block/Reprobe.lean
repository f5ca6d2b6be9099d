import StorageStack.Proofs.Block.Isolation
import StorageStack.Proofs.Block.Probe

/-! # Probing again after writes

A write through a partition stays inside it. A second probe finds what the first one found
unless some partition that was written through holds a chain sector that the first one read,
and that sector was changed. The first sector of a disk lies in no partition.
-/

namespace StorageStack

namespace DeviceWrite

variable {δ : Type} [DiskDriver δ]

/-- The devices after writes, each through a handle of its own. -/
def run (writes : List (DeviceHandle × DeviceWrite)) (blocks : BlockDevices δ) : BlockDevices δ :=
  writes.foldl (fun blocks write => state write.1 blocks write.2) blocks

/-- A write through a handle that does not resolve changes nothing. -/
theorem resolves_or_state_eq (device : DeviceHandle) (blocks : BlockDevices δ)
    (write : DeviceWrite) :
    (∃ disk layout partition, blocks.Resolves device disk layout partition) ∨
      state device blocks write = blocks := by
  cases write with
  | sectors lba bytes =>
      cases hlocate : blocks.locate device lba bytes.length with
      | error cause =>
          right
          rw [state, BlockDevices.outcome_write_of_refused hlocate]
      | ok located =>
          left
          obtain ⟨disk, absolute⟩ := located
          obtain ⟨hdisk, layout, hlayout, -, -, partition, hpartition, -⟩ :=
            BlockDevices.locate_eq_ok hlocate
          exact ⟨disk, layout, partition, hdisk, hlayout, hpartition⟩
  | region offset bytes =>
      cases hregion : Region.ofDevice blocks device with
      | error cause =>
          right
          rw [state, hregion]
      | ok opened =>
          left
          obtain ⟨disk, layout, partition, hresolves, -⟩ := BlockDevices.resolves_of_ofDevice hregion
          exact ⟨disk, layout, partition, hresolves⟩

end DeviceWrite

namespace BlockDevices

/-- The sector lies in a partition that one of the writes goes through. -/
def Written {δ : Type} (writes : List (DeviceHandle × DeviceWrite)) (disk : AttachedDisk δ)
    (lba : Nat) : Prop :=
  ∃ write ∈ writes, write.1.disk = disk.id ∧
    ∃ partition ∈ disk.partitions[write.1.partition.toNat]?,
      partition.start ≤ lba ∧ lba < partition.finish

instance {δ : Type} (writes : List (DeviceHandle × DeviceWrite)) (disk : AttachedDisk δ) (lba : Nat) :
    Decidable (Written writes disk lba) :=
  inferInstanceAs (Decidable (∃ write ∈ writes, _ ∧ ∃ partition ∈ _, _))

/-- The bytes of a disk that no write goes near. -/
def spared (writes : List (DeviceHandle × DeviceWrite)) (disk : AttachedDisk RamDisk) : Set Nat :=
  { position | ¬ Written writes disk (position / disk.driver.sectorSize) }

/-- The same devices with other drivers. -/
def withDrivers {δ : Type} (driver : AttachedDisk δ → δ) (blocks : BlockDevices δ) : BlockDevices δ :=
  ⟨blocks.disks.map fun disk => { disk with driver := driver disk }⟩

/-- The devices have changed in nothing but what their drivers hold, and each holds what it
held wherever the writes do not reach. -/
def Spares (writes : List (DeviceHandle × DeviceWrite)) (before after : BlockDevices RamDisk) : Prop :=
  ∃ driver : AttachedDisk RamDisk → RamDisk, after = before.withDrivers driver ∧
    ∀ disk ∈ before.disks, disk.driver.Agrees (spared writes disk) (driver disk)

theorem withDrivers_self {δ : Type} (blocks : BlockDevices δ) :
    blocks.withDrivers (fun disk => disk.driver) = blocks :=
  congrArg mk (List.map_id _)

theorem diskIds_withDrivers {δ : Type} (driver : AttachedDisk δ → δ) (blocks : BlockDevices δ) :
    (blocks.withDrivers driver).diskIds = blocks.diskIds := by
  simp only [diskIds, withDrivers, List.map_map]
  rfl

/-- Putting a disk back with a new driver exchanges that driver. -/
theorem replace_withDrivers {δ : Type} {blocks : BlockDevices δ} (hdistinct : blocks.diskIds.Nodup)
    {disk : AttachedDisk δ} (hdisk : disk ∈ blocks.disks) (driver : AttachedDisk δ → δ) (next : δ) :
    (blocks.withDrivers driver).replace { disk with driver := next } =
      blocks.withDrivers fun old => if old.id = disk.id then next else driver old := by
  simp only [withDrivers, replace, List.map_map, mk.injEq]
  refine List.map_congr_left fun old hold => ?_
  rw [Function.comp_apply]
  by_cases hid : old.id = disk.id
  · obtain rfl := List.inj_on_of_nodup_map hdistinct hold hdisk hid
    rw [if_pos rfl, if_pos rfl]
  · rw [if_neg hid, if_neg hid]

theorem spared_subset_outside {writes : List (DeviceHandle × DeviceWrite)}
    {write : DeviceHandle × DeviceWrite} (hwrite : write ∈ writes) (disk : AttachedDisk RamDisk)
    (hid : write.1.disk = disk.id) {partition : Partition}
    (hlisted : disk.partitions[write.1.partition.toNat]? = some partition)
    (hsize : 0 < disk.driver.sectorSize) :
    spared writes disk ⊆ partition.outside disk.driver.sectorSize := by
  intro position hspared
  by_contra hinside
  simp only [Partition.outside, Set.mem_ofPred_eq, not_or, Nat.not_lt, Nat.not_le] at hinside
  refine hspared ⟨write, hwrite, hid, partition, hlisted, ?_, ?_⟩
  · exact (Nat.le_div_iff_mul_le hsize).mpr hinside.1
  · exact (Nat.div_lt_iff_lt_mul hsize).mpr hinside.2

section Writing

variable {writes : List (DeviceHandle × DeviceWrite)} {before after : BlockDevices RamDisk}

theorem spares_refl (writes : List (DeviceHandle × DeviceWrite)) (blocks : BlockDevices RamDisk) :
    Spares writes blocks blocks := by
  refine ⟨AttachedDisk.driver, ?_, fun disk _ => RamDisk.Agrees.refl _ disk.driver⟩
  exact congrArg BlockDevices.mk (List.map_id _).symm

/-- One of the writes, whether it succeeds or not. -/
theorem Spares.state (hspares : Spares writes before after)
    (hreach : Reachable RamDisk.switches after) {write : DeviceHandle × DeviceWrite}
    (hwrite : write ∈ writes) : Spares writes before (DeviceWrite.state write.1 after write.2) := by
  rcases DeviceWrite.resolves_or_state_eq write.1 after write.2 with
    ⟨found, layout, partition, hresolves⟩ | hsame
  · have hdistinct := hreach.nodup_diskIds
    have hram := hresolves.onRam hreach
    obtain ⟨next, hstate, hagrees⟩ := confined_states hdistinct hresolves hram [write.2]
    obtain ⟨driver, rfl, hbefore⟩ := hspares
    rw [diskIds_withDrivers] at hdistinct
    obtain ⟨disk, hdisk, rfl⟩ := List.mem_map.mp hresolves.mem
    refine ⟨_, hstate.trans (replace_withDrivers hdistinct hdisk driver next), fun old hold => ?_⟩
    by_cases hid : old.id = disk.id
    · obtain rfl := List.inj_on_of_nodup_map hdistinct hold hdisk hid
      rw [if_pos rfl]
      have hprior := hbefore old hold
      have hlisted : old.partitions[write.1.partition.toNat]? = some partition := by
        rw [AttachedDisk.partitions, show old.layout = some layout from hresolves.known]
        exact hresolves.listed
      have hsize : 0 < old.driver.sectorSize := by
        rw [← hprior.sectorSize_eq]
        exact hram.sectorSize_eq ▸ hram.sectorSize_pos
      have houtside := spared_subset_outside hwrite old hresolves.id_eq.symm hlisted hsize
      refine hprior.trans (hagrees.mono ?_)
      rw [hprior.sectorSize_eq]
      exact houtside
    · rw [if_neg hid]
      exact hbefore old hold
  · rw [hsame]
    exact hspares

/-- All writes, one after the other. -/
theorem spares_run (hreach : Reachable RamDisk.switches before)
    (writes : List (DeviceHandle × DeviceWrite)) :
    Spares writes before (DeviceWrite.run writes before) := by
  suffices hall : Reachable RamDisk.switches (DeviceWrite.run writes before) ∧
      Spares writes before (DeviceWrite.run writes before) from hall.2
  refine List.foldlRecOn (motive := fun after => Reachable RamDisk.switches after ∧
    Spares writes before after) writes _ ⟨hreach, spares_refl writes before⟩ ?_
  intro after ⟨hreachAfter, hspares⟩ write hwrite
  exact ⟨reachable_states hreachAfter write.1 [write.2], hspares.state hreachAfter hwrite⟩

end Writing

/-- A change of each disk that keeps its number changes what is found under a number. -/
theorem disk?_map {δ : Type} {disks : List (AttachedDisk δ)}
    (change : AttachedDisk δ → AttachedDisk δ) (hid : ∀ disk, (change disk).id = disk.id)
    (id : DiskId) :
    disk? ⟨disks.map change⟩ id = (disk? ⟨disks⟩ id).map change := by
  simp only [disk?, List.find?_map, Function.comp_def, hid]

theorem disk?_withDrivers {δ : Type} (driver : AttachedDisk δ → δ) (blocks : BlockDevices δ)
    (id : DiskId) :
    (blocks.withDrivers driver).disk? id =
      (blocks.disk? id).map fun disk => { disk with driver := driver disk } :=
  disk?_map (fun disk => { disk with driver := driver disk }) (fun _ => rfl) id

theorem disk?_probeAll {δ : Type} [DiskDriver δ] (blocks : BlockDevices δ) (id : DiskId) :
    (probeAll.outcome blocks).2.disk? id =
      (blocks.disk? id).map fun disk => (AttachedDisk.probe.outcome disk).2 := by
  rw [← disk?_map _ AttachedDisk.id_probe, ← state_probeAll]

/-- A sector that the writes spare is answered as before. -/
theorem sectors_eq_of_spared {writes : List (DeviceHandle × DeviceWrite)}
    {disk : AttachedDisk RamDisk} {driver : RamDisk}
    (hagrees : disk.driver.Agrees (spared writes disk) driver) {lba : Nat}
    (hspared : ¬ Written writes disk lba) :
    driver.sectors disk.driver.sectorSize lba = disk.driver.sectors disk.driver.sectorSize lba := by
  refine hagrees.sectors_eq fun position hlower hupper => ?_
  have hlba : position / disk.driver.sectorSize = lba :=
    Nat.div_eq_of_lt_le hlower (by rw [Nat.succ_mul]; exact hupper)
  change ¬ Written writes disk (position / disk.driver.sectorSize)
  rw [hlba]
  exact hspared

end BlockDevices

namespace AttachedDisk

theorem partitionable_probe {δ : Type} [DiskDriver δ] (disk : AttachedDisk δ) :
    (probe.outcome disk).2.partitionable = disk.partitionable := by
  rcases probe_cases disk with hstate | ⟨_, _, _, _, ⟨_, hstate⟩ | ⟨_, _, _, _, hstate⟩⟩ <;>
    rw [hstate]

/-- A probe changes nothing that a RAM disk holds. -/
theorem agrees_probe (positions : Set Nat) (disk : AttachedDisk RamDisk) :
    disk.driver.Agrees positions (probe.outcome disk).2.driver := by
  rcases probe_cases disk with hstate |
    ⟨geometry, driver, hgeometry, _, ⟨_, hstate⟩ | ⟨_, result, scan, hrun, hstate⟩⟩
  · rw [hstate, RamDisk.state_geometry]
    exact .refl positions disk.driver
  · obtain ⟨rfl, -, -⟩ := RamDisk.of_geometry_eq_ok hgeometry
    rw [hstate]
    exact .refl positions disk.driver
  · obtain ⟨rfl, -, -⟩ := RamDisk.of_geometry_eq_ok hgeometry
    have hreads := Scan.readsTo_run geometry ⟨disk.driver, [Partition.wholeDisk geometry.sectorCount]⟩
    rw [hrun] at hreads
    obtain ⟨reads, hdriver⟩ := RamDisk.eq_of_readsTo hreads
    rw [hstate, hdriver]
    exact ⟨rfl, rfl, rfl, rfl, fun _ _ => rfl⟩

end AttachedDisk

namespace BlockDevices

/-- What is written through partitions does not show in a second probe of the disk, unless a
partition written through holds a boot sector that the first probe read, and there the bytes
have changed. Each partition starts behind the boot sector that lists it, so none holds the
first sector of the disk; but it may hold other boot sectors. -/
theorem probe_after_writes {blocks : BlockDevices RamDisk}
    (hreach : Reachable RamDisk.switches blocks) {id : DiskId} {disk : AttachedDisk RamDisk}
    (hdisk : blocks.disk? id = some disk) {writes : List (DeviceHandle × DeviceWrite)}
    (hslots : ∀ write ∈ writes, 1 ≤ write.1.partition.toNat) :
    let probed := (AttachedDisk.probe.outcome disk).2
    let first := (probeAll.outcome blocks).2
    let after := DeviceWrite.run writes first
    let second := (probeAll.outcome after).2
    first.disk? id = some probed ∧
    (∀ partition ∈ probed.partitions.tail, 1 ≤ partition.start ∧
      ∃ lba ∈ disk.sectorsRead, ∃ sector,
        (disk.driver.sectors disk.driver.sectorSize).bootSector? lba = some sector ∧
          sector.Lists lba partition) ∧
    ¬ Written writes probed 0 ∧
    ∃ driver, after.disk? id = some { probed with driver } ∧
      (∀ lba, ¬ Written writes probed lba →
        driver.sectors disk.driver.sectorSize lba =
          disk.driver.sectors disk.driver.sectorSize lba) ∧
      ((∀ lba ∈ disk.sectorsRead, Written writes probed lba →
          driver.sectors disk.driver.sectorSize lba =
            disk.driver.sectors disk.driver.sectorSize lba) →
        (∀ slot, second.partitions ⟨id, slot⟩ = first.partitions ⟨id, slot⟩) ∧
          second.scanStatus? id = first.scanStatus? id) := by
  intro probed first after second
  have hfirst : first.disk? id = some probed := by
    rw [disk?_probeAll, hdisk]
    rfl
  obtain ⟨driver, hstate, hagrees⟩ := spares_run hreach.probeAll writes
  have hspared := hagrees probed (of_disk?_eq_some hfirst).1
  have hafter : after.disk? id = some { probed with driver := driver probed } := by
    rw [show after = first.withDrivers driver from hstate, disk?_withDrivers, hfirst]
    rfl
  have hprobed := AttachedDisk.agrees_probe Set.univ disk
  have hsectors : ∀ lba, ¬ Written writes probed lba →
      (driver probed).sectors disk.driver.sectorSize lba =
        disk.driver.sectors disk.driver.sectorSize lba := by
    intro lba hoff
    have hsame := sectors_eq_of_spared hspared hoff
    rw [hprobed.sectorSize_eq] at hsame
    rw [hsame]
    exact hprobed.sectors_eq fun position _ _ => Set.mem_univ position
  have hlists : ∀ partition ∈ probed.partitions.tail, 1 ≤ partition.start ∧
      ∃ lba ∈ disk.sectorsRead, ∃ sector,
        (disk.driver.sectors disk.driver.sectorSize).bootSector? lba = some sector ∧
          sector.Lists lba partition := by
    intro partition hpartition
    obtain ⟨lba, hlba, sector, hsector, hlists⟩ := AttachedDisk.lists_of_probe hpartition
    exact ⟨Nat.lt_of_le_of_lt (Nat.zero_le lba) hlists.behind, lba, hlba, sector, hsector, hlists⟩
  refine ⟨hfirst, hlists, ?_, driver probed, hafter, hsectors, ?_⟩
  · rintro ⟨write, hwrite, -, partition, hlisted, hstart, -⟩
    obtain ⟨slot, hslot⟩ := Nat.exists_eq_add_of_le' (hslots write hwrite)
    rw [hslot, ← List.getElem?_tail] at hlisted
    exact absurd hstart (Nat.not_le_of_lt (hlists partition (List.mem_of_getElem? hlisted)).1)
  · intro hintact
    have hagain := AttachedDisk.probe_replay disk { probed with driver := driver probed }
      (AttachedDisk.partitionable_probe disk)
      ((AttachedDisk.agrees_probe ∅ disk).trans (hspared.mono (Set.empty_subset _)))
      fun lba hlba => by
        by_cases hwritten : Written writes probed lba
        · exact hintact lba hlba hwritten
        · exact hsectors lba hwritten
    have hsecond : second.disk? id =
        some (AttachedDisk.probe.outcome { probed with driver := driver probed }).2 := by
      rw [disk?_probeAll, hafter]
      rfl
    constructor
    · intro slot
      unfold partitions
      rw [hsecond, hfirst]
      dsimp only [AttachedDisk.partitions]
      rw [hagain.2]
    · unfold scanStatus?
      rw [hsecond, hfirst]
      dsimp only [AttachedDisk.scan?, Option.bind_some]
      rw [hagain.2]

/-- The chain sector 20 lies behind the partition that is written, which ends at 20. -/
theorem probe_after_writes_below_chain :
    let disk : AttachedDisk RamDisk :=
      { id := .user
        driver := .ofPatches 64
          [.entry 0 0 ⟨0, TypeCode.linux, 10, 10⟩, .entry 0 1 ⟨0, TypeCode.extendedLba, 20, 30⟩,
            .sign 0, .entry 20 0 ⟨0, TypeCode.linux, 15, 5⟩, .sign 20]
        partitionable := true }
    let first := (probeAll.outcome ⟨[disk]⟩).2
    let writes : List (DeviceHandle × DeviceWrite) :=
      [(⟨.user, 1⟩, .sectors 9 (List.replicate 512 0)), (⟨.user, 2⟩, .region 600 [1, 2, 3])]
    let second := (probeAll.outcome (DeviceWrite.run writes first)).2
    disk.sectorsRead = [0, 20] ∧ second.partitions ⟨.user, 0⟩ = first.partitions ⟨.user, 0⟩ := by
  intro disk first writes second
  have hread : disk.sectorsRead = [0, 20] := by decide +kernel
  have hoff : ∀ lba ∈ [0, 20], ¬ Written writes (AttachedDisk.probe.outcome disk).2 lba := by
    decide +kernel
  have hreach : Reachable RamDisk.switches ⟨[disk]⟩ := .addDisk .user disk.driver true .empty
  obtain ⟨-, -, -, driver, -, -, hsame⟩ :=
    @probe_after_writes ⟨[disk]⟩ hreach .user disk rfl writes (by decide)
  refine ⟨hread, (hsame (fun lba hlba hwritten => ?_)).1 0⟩
  exact absurd hwritten (hoff lba (hread ▸ hlba))

/-- The chain sector 20 lies inside the first partition. Zeros written over it there cut off
the chain, and the second probe misses the partition that the sector lists. -/
theorem partitions_lost_after_write :
    let disk := RamDisk.ofPatches 64
      [.entry 0 0 ⟨0, TypeCode.linux, 10, 20⟩, .entry 0 1 ⟨0, TypeCode.extendedLba, 20, 30⟩,
        .sign 0, .entry 20 0 ⟨0, TypeCode.linux, 15, 5⟩, .sign 20]
    let blocks : BlockDevices RamDisk := ⟨[{ id := .user, driver := disk, partitionable := true }]⟩
    let first := probeAll.outcome blocks
    let after := DeviceWrite.run [(⟨.user, 1⟩, .sectors 10 (List.replicate 512 0))] first.2
    let second := probeAll.outcome after
    first.1 = .ok () ∧ second.1 = .ok () ∧
      (first.2.partitions ⟨.user, 0⟩).map (List.map (·.start)) = .ok [0, 10, 35] ∧
      (second.2.partitions ⟨.user, 0⟩).map (List.map (·.start)) = .ok [0, 10] := by
  decide +kernel

end BlockDevices

end StorageStack

import Mathlib.Data.List.Nodup
import Mathlib.Data.Set.Basic
import StorageStack.Block.Devices
import StorageStack.Proofs.Disk.Reads
import StorageStack.Proofs.Partition.Table

/-! # Reachable block devices

The states that attaching, probing, reading and writing lead to, with drivers that answer
as they like. In each of them every disk is either unknown or carries a sound table.
-/

namespace StorageStack

/-- What can happen to a driver between two probes: a call of the block layer, or one of
the changes made from outside. -/
inductive DriverStep {δ : Type} [DiskDriver δ] (outside : Set (δ → δ)) (driver : δ) : δ → Prop
  | read (lba length : Nat) :
      DriverStep outside driver (DriverAction.outcome (DiskDriver.read lba length) driver).2
  | write (lba : Nat) (bytes : Bytes) :
      DriverStep outside driver (DriverAction.outcome (DiskDriver.write lba bytes) driver).2
  | outside (change : δ → δ) (hchange : change ∈ outside) : DriverStep outside driver (change driver)

namespace AttachedDisk

/-- What a probe leaves behind: either nothing is known of the disk, or its geometry and a
sound table, with the whole disk alone if the scan failed or there was none. -/
structure Sound {δ : Type} (disk : AttachedDisk δ) : Prop where
  sectorSize_pos : ∀ layout, disk.layout = some layout → 0 < layout.geometry.sectorSize
  table : ∀ layout, disk.layout = some layout →
    SoundTable layout.geometry.sectorCount layout.partitions
  failed : ∀ layout cause, disk.layout = some layout → layout.scan = some (.error cause) →
    layout.partitions = [Partition.wholeDisk layout.geometry.sectorCount]
  raw : ∀ layout, disk.layout = some layout → disk.partitionable = false →
    layout.scan = none ∧ layout.partitions = [Partition.wholeDisk layout.geometry.sectorCount]

variable {δ : Type}

/-- A disk of which nothing is known is sound. -/
theorem sound_of_layout_eq_none {disk : AttachedDisk δ} (hlayout : disk.layout = none) :
    disk.Sound := by
  constructor <;> simp [hlayout]

/-- Soundness does not depend on the driver. -/
theorem Sound.with_driver {disk : AttachedDisk δ} (hsound : disk.Sound) (driver : δ) :
    Sound { disk with driver } :=
  ⟨hsound.sectorSize_pos, hsound.table, hsound.failed, hsound.raw⟩

variable [DiskDriver δ]

/-- A probe either learns nothing, or learns the geometry; then it lists the whole disk, and
scans for more if the disk carries a partition table. -/
theorem probe_cases (disk : AttachedDisk δ) :
    (probe.outcome disk).2 =
        { disk with driver := (DriverAction.outcome DiskDriver.geometry disk.driver).2, layout := none } ∨
      ∃ geometry driver, DiskDriver.geometry disk.driver = .ok geometry driver ∧
        0 < geometry.sectorSize ∧
        (disk.partitionable = false ∧ (probe.outcome disk).2 =
            { disk with
              driver
              layout := some ⟨geometry, [Partition.wholeDisk geometry.sectorCount], none⟩ } ∨
          disk.partitionable = true ∧ ∃ result scan,
            (Scan.run geometry).outcome
              ⟨driver, [Partition.wholeDisk geometry.sectorCount]⟩ = (result, scan) ∧
            (probe.outcome disk).2 =
              { disk with
                driver := scan.driver
                layout := some ⟨geometry, scan.table, some result⟩ }) := by
  unfold DriverAction.outcome Action.outcome probe
  cases hgeometry : DiskDriver.geometry disk.driver with
  | error cause driver => exact Or.inl rfl
  | ok geometry driver =>
      dsimp only
      by_cases hsize : geometry.sectorSize = 0
      · rw [if_pos hsize]
        exact Or.inl rfl
      · refine Or.inr ⟨geometry, driver, rfl, Nat.pos_of_ne_zero hsize, ?_⟩
        rw [if_neg hsize]
        cases hpartitionable : disk.partitionable with
        | false => exact Or.inl ⟨rfl, rfl⟩
        | true =>
            refine Or.inr ⟨rfl, ?_⟩
            rw [if_pos rfl]
            cases Scan.run geometry ⟨driver, [Partition.wholeDisk geometry.sectorCount]⟩ with
            | ok status scan => exact ⟨_, scan, rfl, rfl⟩
            | error cause scan => exact ⟨_, scan, rfl, rfl⟩

/-- Probing changes what is known of a disk, and not which disk it is. -/
theorem id_probe (disk : AttachedDisk δ) : (probe.outcome disk).2.id = disk.id := by
  rcases probe_cases disk with hstate | ⟨_, _, _, _, ⟨_, hstate⟩ | ⟨_, _, _, _, hstate⟩⟩ <;> rw [hstate]

/-- A disk is sound after a probe, whatever it was before. -/
theorem sound_probe (disk : AttachedDisk δ) : (probe.outcome disk).2.Sound := by
  rcases probe_cases disk with hstate |
    ⟨geometry, driver, _, hsize, ⟨_, hstate⟩ | ⟨hpartitionable, result, scan, hrun, hstate⟩⟩
  · rw [hstate]
    exact sound_of_layout_eq_none rfl
  · rw [hstate]
    refine ⟨?_, ?_, ?_, ?_⟩
    · rintro layout ⟨⟩
      exact hsize
    · rintro layout ⟨⟩
      exact soundTable_whole _
    · rintro layout cause ⟨⟩ ⟨⟩
    · rintro layout ⟨⟩ _
      exact ⟨rfl, rfl⟩
  · rw [hstate]
    refine ⟨?_, ?_, ?_, ?_⟩
    · rintro layout ⟨⟩
      exact hsize
    · rintro layout ⟨⟩
      cases result with
      | ok status => exact Scan.soundTable_run rfl (Action.outcome_eq_ok_iff.mp hrun)
      | error cause =>
          have htable := Scan.table_of_run_error (Action.outcome_eq_error_iff.mp hrun)
          rw [htable]
          exact soundTable_whole _
    · rintro layout cause ⟨⟩ ⟨⟩
      exact Scan.table_of_run_error (Action.outcome_eq_error_iff.mp hrun)
    · rintro layout ⟨⟩ hraw
      rw [hpartitionable] at hraw
      cases hraw

end AttachedDisk

namespace BlockDevices

variable {δ : Type}

theorem of_disk?_eq_some {blocks : BlockDevices δ} {id : DiskId} {disk : AttachedDisk δ}
    (hdisk : blocks.disk? id = some disk) : disk ∈ blocks.disks ∧ disk.id = id :=
  ⟨List.mem_of_find?_eq_some hdisk, by simpa using List.find?_some hdisk⟩

theorem of_mem_replace {blocks : BlockDevices δ} {changed disk : AttachedDisk δ}
    (hdisk : disk ∈ (blocks.replace changed).disks) : disk = changed ∨ disk ∈ blocks.disks := by
  obtain ⟨old, hold, rfl⟩ := List.mem_map.mp hdisk
  split
  · exact Or.inl rfl
  · exact Or.inr hold

@[simp] theorem diskIds_replace (blocks : BlockDevices δ) (changed : AttachedDisk δ) :
    (blocks.replace changed).diskIds = blocks.diskIds := by
  simp only [diskIds, replace, List.map_map]
  refine List.map_congr_left fun disk _ => ?_
  simp only [Function.comp_apply]
  split
  · next hid => exact hid.symm
  · rfl

/-- Putting a changed disk back changes what is found under its number, if anything was. -/
theorem disk?_replace (blocks : BlockDevices δ) (changed : AttachedDisk δ) (id : DiskId) :
    (blocks.replace changed).disk? id =
      if id = changed.id then (blocks.disk? id).map fun _ => changed else blocks.disk? id := by
  simp only [disk?, replace]
  induction blocks.disks with
  | nil => simp
  | cons disk rest ih =>
      rw [List.map_cons, List.find?_cons, List.find?_cons, ih]
      by_cases hdisk : disk.id = changed.id
      · by_cases hid : id = changed.id
        · simp [hdisk, hid]
        · simp [hdisk, hid, Ne.symm hid]
      · by_cases hid : id = changed.id
        · simp [hdisk, hid]
        · simp [hdisk, hid]

/-- Changing a driver from outside is putting the changed disk back, where ids are distinct. -/
theorem mapDriver_eq_replace {blocks : BlockDevices δ} {disk : AttachedDisk δ}
    (hdistinct : blocks.diskIds.Nodup) (hdisk : blocks.disk? disk.id = some disk)
    (change : δ → δ) :
    blocks.mapDriver disk.id change = blocks.replace { disk with driver := change disk.driver } := by
  have hmem := (of_disk?_eq_some hdisk).1
  simp only [mapDriver, replace, mk.injEq]
  refine List.map_congr_left fun other hother => ?_
  by_cases hid : other.id = disk.id
  · have hsame : other = disk := List.inj_on_of_nodup_map hdistinct hother hmem hid
    rw [if_pos hid, if_pos hid, hsame]
  · rw [if_neg hid, if_neg hid]

theorem mapDriver_eq_self {blocks : BlockDevices δ} {id : DiskId} (hdisk : blocks.disk? id = none)
    (change : δ → δ) : blocks.mapDriver id change = blocks := by
  have hne : ∀ disk ∈ blocks.disks, disk.id ≠ id := by
    intro disk hmem
    simpa using List.find?_eq_none.mp hdisk disk hmem
  have hmap : (blocks.mapDriver id change).disks = blocks.disks :=
    (List.map_congr_left fun disk hmem => if_neg (hne disk hmem)).trans (List.map_id _)
  exact congrArg BlockDevices.mk hmap

theorem locate_eq_ok {blocks : BlockDevices δ} {device : DeviceHandle} {lba length absolute : Nat}
    {disk : AttachedDisk δ} (hlocate : blocks.locate device lba length = .ok (disk, absolute)) :
    blocks.disk? device.disk = some disk ∧ ∃ layout, disk.layout = some layout ∧
      length ≠ 0 ∧ length % layout.geometry.sectorSize = 0 ∧
      ∃ partition, layout.partitions[device.partition.toNat]? = some partition ∧
        lba + length / layout.geometry.sectorSize ≤ partition.count ∧
        absolute = partition.start + lba := by
  unfold locate at hlocate
  split at hlocate
  · cases hlocate
  · next found hdisk =>
    split at hlocate
    · cases hlocate
    · next layout hlayout =>
      split at hlocate
      · cases hlocate
      · next hlength =>
        split at hlocate
        · cases hlocate
        · next partition hpartition =>
          split at hlocate
          · cases hlocate
          · next hrange =>
            cases hlocate
            exact ⟨hdisk, layout, hlayout, fun hzero => hlength (Or.inl hzero),
              by omega, partition, hpartition, Nat.le_of_not_lt hrange, rfl⟩

/-- Attaching a disk changes nothing or puts an unknown disk with a new number at the end. -/
theorem state_addDisk (blocks : BlockDevices δ) (id : DiskId) (driver : δ) (partitionable : Bool) :
    ((addDisk id driver partitionable).outcome blocks).2 = blocks ∨
      id.number.toNat < Limits.maxDisks ∧ blocks.disk? id = none ∧
        ((addDisk id driver partitionable).outcome blocks).2 =
          ⟨blocks.disks ++ [⟨id, driver, partitionable, none⟩]⟩ := by
  unfold Action.outcome addDisk
  by_cases hnumber : Limits.maxDisks ≤ id.number.toNat
  · exact Or.inl (by rw [if_pos hnumber])
  · by_cases hknown : (blocks.disk? id).isSome
    · exact Or.inl (by rw [if_neg hnumber, if_pos hknown])
    · by_cases hfull : Limits.maxDisks ≤ blocks.disks.length
      · exact Or.inl (by rw [if_neg hnumber, if_neg hknown, if_pos hfull])
      · refine Or.inr ⟨Nat.lt_of_not_le hnumber, by simpa using hknown, ?_⟩
        rw [if_neg hnumber, if_neg hknown, if_neg hfull]

variable [DiskDriver δ]

theorem outcome_read_of_refused {blocks : BlockDevices δ} {device : DeviceHandle} {lba length : Nat}
    {cause : StorageError} (hlocate : blocks.locate device lba length = .error cause) :
    (read device lba length).outcome blocks = (.error cause, blocks) := by
  unfold Action.outcome read
  rw [hlocate]

/-- An admitted read is one call to the driver. -/
theorem outcome_read_of_located {blocks : BlockDevices δ} {device : DeviceHandle}
    {lba length absolute : Nat} {disk : AttachedDisk δ}
    (hlocate : blocks.locate device lba length = .ok (disk, absolute)) :
    (read device lba length).outcome blocks =
      ((DriverAction.outcome (DiskDriver.read absolute length) disk.driver).1.mapError
          DriverError.toStorageError,
        blocks.replace { disk with
          driver := (DriverAction.outcome (DiskDriver.read absolute length) disk.driver).2 }) := by
  unfold Action.outcome DriverAction.outcome read
  rw [hlocate]
  dsimp only
  cases DiskDriver.read absolute length disk.driver <;> rfl

theorem outcome_write_of_refused {blocks : BlockDevices δ} {device : DeviceHandle} {lba : Nat}
    {bytes : Bytes} {cause : StorageError}
    (hlocate : blocks.locate device lba bytes.length = .error cause) :
    (write device lba bytes).outcome blocks = (.error cause, blocks) := by
  unfold Action.outcome write
  rw [hlocate]

/-- An admitted write is one call to the driver. -/
theorem outcome_write_of_located {blocks : BlockDevices δ} {device : DeviceHandle}
    {lba absolute : Nat} {bytes : Bytes} {disk : AttachedDisk δ}
    (hlocate : blocks.locate device lba bytes.length = .ok (disk, absolute)) :
    (write device lba bytes).outcome blocks =
      ((DriverAction.outcome (DiskDriver.write absolute bytes) disk.driver).1.mapError
          DriverError.toStorageError,
        blocks.replace { disk with
          driver := (DriverAction.outcome (DiskDriver.write absolute bytes) disk.driver).2 }) := by
  unfold Action.outcome DriverAction.outcome write
  rw [hlocate]
  dsimp only
  cases DiskDriver.write absolute bytes disk.driver <;> rfl

/-- A read leaves the devices alone or makes one call to the driver of the addressed disk. -/
theorem state_read (blocks : BlockDevices δ) (outside : Set (δ → δ)) (device : DeviceHandle)
    (lba length : Nat) :
    ((read device lba length).outcome blocks).2 = blocks ∨
      ∃ disk driver, blocks.disk? device.disk = some disk ∧
        DriverStep outside disk.driver driver ∧
        ((read device lba length).outcome blocks).2 = blocks.replace { disk with driver } := by
  cases hlocate : blocks.locate device lba length with
  | error cause => exact Or.inl (by rw [outcome_read_of_refused hlocate])
  | ok located =>
      obtain ⟨disk, absolute⟩ := located
      refine Or.inr ⟨disk, _, (locate_eq_ok hlocate).1, DriverStep.read absolute length, ?_⟩
      rw [outcome_read_of_located hlocate]

/-- A write leaves the devices alone or makes one call to the driver of the addressed disk. -/
theorem state_write (blocks : BlockDevices δ) (outside : Set (δ → δ)) (device : DeviceHandle)
    (lba : Nat) (bytes : Bytes) :
    ((write device lba bytes).outcome blocks).2 = blocks ∨
      ∃ disk driver, blocks.disk? device.disk = some disk ∧
        DriverStep outside disk.driver driver ∧
        ((write device lba bytes).outcome blocks).2 = blocks.replace { disk with driver } := by
  cases hlocate : blocks.locate device lba bytes.length with
  | error cause => exact Or.inl (by rw [outcome_write_of_refused hlocate])
  | ok located =>
      obtain ⟨disk, absolute⟩ := located
      refine Or.inr ⟨disk, _, (locate_eq_ok hlocate).1, DriverStep.write absolute bytes, ?_⟩
      rw [outcome_write_of_located hlocate]

/-- The states of the block layer, from no disk on, with `outside` the changes that may be
made to a driver behind its back. -/
inductive Reachable (outside : Set (δ → δ)) : BlockDevices δ → Prop
  | empty : Reachable outside {}
  | addDisk {blocks : BlockDevices δ} (id : DiskId) (driver : δ) (partitionable : Bool)
      (hprior : Reachable outside blocks) :
      Reachable outside ((addDisk id driver partitionable).outcome blocks).2
  | probeAll {blocks : BlockDevices δ} (hprior : Reachable outside blocks) :
      Reachable outside (BlockDevices.probeAll.outcome blocks).2
  | read {blocks : BlockDevices δ} (device : DeviceHandle) (lba length : Nat)
      (hprior : Reachable outside blocks) :
      Reachable outside ((read device lba length).outcome blocks).2
  | write {blocks : BlockDevices δ} (device : DeviceHandle) (lba : Nat) (bytes : Bytes)
      (hprior : Reachable outside blocks) :
      Reachable outside ((write device lba bytes).outcome blocks).2
  | outside {blocks : BlockDevices δ} (id : DiskId) (change : δ → δ) (hchange : change ∈ outside)
      (hprior : Reachable outside blocks) : Reachable outside (blocks.mapDriver id change)

theorem probeEach_disks (disks : List (AttachedDisk δ)) :
    (AttachedDisk.probeEach disks).2 =
      disks.map fun disk => (AttachedDisk.probe.outcome disk).2 := by
  induction disks with
  | nil => rfl
  | cons disk rest ih =>
      simp only [AttachedDisk.probeEach, Action.outcome, List.map_cons] at ih ⊢
      rw [← ih]
      cases AttachedDisk.probe disk <;> rfl

/-- Probing all disks is probing each, whatever the others answer. -/
theorem state_probeAll (blocks : BlockDevices δ) :
    (probeAll.outcome blocks).2.disks =
      blocks.disks.map fun disk => (AttachedDisk.probe.outcome disk).2 := by
  rw [← probeEach_disks]
  unfold Action.outcome probeAll
  rcases AttachedDisk.probeEach blocks.disks with ⟨failure, disks⟩
  cases failure <;> rfl

/-- A property of the block layer holds in every reachable state if it holds without disks
and is kept by attaching, by probing and by any step of one driver. -/
theorem Reachable.induct {outside : Set (δ → δ)} {motive : BlockDevices δ → Prop}
    (empty : motive {})
    (addDisk : ∀ {blocks : BlockDevices δ} (id : DiskId) (driver : δ) (partitionable : Bool),
      motive blocks → blocks.diskIds.Nodup → id.number.toNat < Limits.maxDisks →
      blocks.disk? id = none → motive ⟨blocks.disks ++ [⟨id, driver, partitionable, none⟩]⟩)
    (probeAll : ∀ {blocks : BlockDevices δ}, motive blocks →
      motive ⟨blocks.disks.map fun disk => (AttachedDisk.probe.outcome disk).2⟩)
    (step : ∀ {blocks : BlockDevices δ} {disk : AttachedDisk δ} {driver : δ}, motive blocks →
      disk ∈ blocks.disks → DriverStep outside disk.driver driver →
      motive (blocks.replace { disk with driver }))
    {blocks : BlockDevices δ} (hreach : Reachable outside blocks) :
    blocks.diskIds.Nodup ∧ motive blocks := by
  -- Distinct numbers come first: they make a change from outside a step of one driver.
  have hreplace : ∀ {blocks : BlockDevices δ} {id : DiskId} {disk : AttachedDisk δ} {driver : δ},
      blocks.diskIds.Nodup ∧ motive blocks → blocks.disk? id = some disk →
      DriverStep outside disk.driver driver →
      (blocks.replace { disk with driver }).diskIds.Nodup ∧
        motive (blocks.replace { disk with driver }) := by
    intro blocks id disk driver hprior hdisk hstep
    refine ⟨?_, step hprior.2 (of_disk?_eq_some hdisk).1 hstep⟩
    rw [diskIds_replace]
    exact hprior.1
  induction hreach with
  | empty => exact ⟨List.nodup_nil, empty⟩
  | @addDisk blocks id driver partitionable _ ih =>
      rcases state_addDisk blocks id driver partitionable with hsame | ⟨hnumber, hnew, hstate⟩
      · rw [hsame]
        exact ih
      · rw [hstate]
        refine ⟨?_, addDisk id driver partitionable ih.2 ih.1 hnumber hnew⟩
        rw [diskIds, List.map_append]
        refine List.nodup_append.mpr ⟨ih.1, List.nodup_singleton _, ?_⟩
        intro old hold new hnewId
        obtain ⟨disk, hdisk, rfl⟩ := List.mem_map.mp hold
        rw [List.mem_singleton.mp hnewId]
        simpa using List.find?_eq_none.mp hnew disk hdisk
  | @probeAll blocks _ ih =>
      have hstate := state_probeAll blocks
      have heq : (BlockDevices.probeAll.outcome blocks).2 =
          ⟨blocks.disks.map fun disk => (AttachedDisk.probe.outcome disk).2⟩ :=
        congrArg BlockDevices.mk hstate
      rw [heq]
      refine ⟨?_, probeAll ih.2⟩
      have hids : ∀ disk : AttachedDisk δ, (AttachedDisk.probe.outcome disk).2.id = disk.id :=
        AttachedDisk.id_probe
      simpa only [diskIds, List.map_map, Function.comp_def, hids] using ih.1
  | @read blocks device lba length _ ih =>
      rcases state_read blocks outside device lba length with hsame | ⟨disk, driver, hdisk, hstep, hstate⟩
      · rw [hsame]
        exact ih
      · rw [hstate]
        exact hreplace ih hdisk hstep
  | @write blocks device lba bytes _ ih =>
      rcases state_write blocks outside device lba bytes with hsame | ⟨disk, driver, hdisk, hstep, hstate⟩
      · rw [hsame]
        exact ih
      · rw [hstate]
        exact hreplace ih hdisk hstep
  | @outside blocks id change hchange _ ih =>
      cases hdisk : blocks.disk? id with
      | none =>
          rw [mapDriver_eq_self hdisk]
          exact ih
      | some disk =>
          obtain rfl := (of_disk?_eq_some hdisk).2
          rw [mapDriver_eq_replace ih.1 hdisk]
          exact hreplace ih hdisk (DriverStep.outside change hchange)

/-- Every disk of a reachable state is sound. -/
theorem Reachable.sound {outside : Set (δ → δ)} {blocks : BlockDevices δ}
    (hreach : Reachable outside blocks) {disk : AttachedDisk δ} (hdisk : disk ∈ blocks.disks) :
    disk.Sound := by
  suffices hall : ∀ disk ∈ blocks.disks, disk.Sound from hall disk hdisk
  refine (hreach.induct (motive := fun blocks => ∀ disk ∈ blocks.disks, disk.Sound)
    ?_ ?_ ?_ ?_).2
  · simp
  · intro blocks id driver partitionable hprior _ _ _ disk hdisk
    rcases List.mem_append.mp hdisk with hold | hnew
    · exact hprior disk hold
    · rw [List.mem_singleton.mp hnew]
      exact AttachedDisk.sound_of_layout_eq_none rfl
  · intro blocks _ disk hdisk
    obtain ⟨old, _, rfl⟩ := List.mem_map.mp hdisk
    exact AttachedDisk.sound_probe old
  · intro blocks changed driver hprior hchanged _ disk hdisk
    rcases of_mem_replace hdisk with rfl | hold
    · exact (hprior changed hchanged).with_driver driver
    · exact hprior disk hold

/-- The disks of a reachable state have distinct numbers. -/
theorem Reachable.nodup_diskIds {outside : Set (δ → δ)} {blocks : BlockDevices δ}
    (hreach : Reachable outside blocks) : blocks.diskIds.Nodup :=
  (hreach.induct (motive := fun _ => True) trivial (fun _ _ _ _ _ _ _ => trivial)
    (fun _ => trivial) (fun _ _ _ => trivial)).1

/-- The disks of a reachable state have numbers below the bound. -/
theorem Reachable.number_lt {outside : Set (δ → δ)} {blocks : BlockDevices δ}
    (hreach : Reachable outside blocks) {disk : AttachedDisk δ} (hdisk : disk ∈ blocks.disks) :
    disk.id.number.toNat < Limits.maxDisks := by
  suffices hall : ∀ id ∈ blocks.diskIds, id.number.toNat < Limits.maxDisks from
    hall disk.id (List.mem_map_of_mem hdisk)
  refine (hreach.induct (motive := fun blocks => ∀ id ∈ blocks.diskIds,
    id.number.toNat < Limits.maxDisks) ?_ ?_ ?_ ?_).2
  · simp [diskIds]
  · intro blocks id driver partitionable hprior _ hnumber _ other hother
    rw [diskIds, List.map_append] at hother
    rcases List.mem_append.mp hother with hold | hnew
    · exact hprior other hold
    · rw [List.mem_singleton.mp hnew]
      exact hnumber
  · intro blocks hprior other hother
    simp only [diskIds, List.map_map, Function.comp_def, AttachedDisk.id_probe] at hother
    exact hprior other hother
  · intro blocks changed driver hprior _ _ other hother
    rw [diskIds_replace] at hother
    exact hprior other hother

end BlockDevices

end StorageStack

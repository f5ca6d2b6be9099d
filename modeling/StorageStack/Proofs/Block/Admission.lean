import StorageStack.Proofs.Block.Resolve
import StorageStack.Proofs.Block.TableInvariant
import StorageStack.Proofs.Disk.Transcript

/-! # Admission of sector transfers

A transfer of sectors is admitted or refused before any driver is called. An admitted one is
a single call of one driver, inside the partition; a refused one is no call at all.
-/

namespace StorageStack.BlockDevices

variable {δ : Type}

/-- The handle leads to a partition, and the transfer consists of whole sectors inside it. -/
structure Admitted (blocks : BlockDevices δ) (device : DeviceHandle) (lba length : Nat)
    (disk : AttachedDisk δ) (layout : Layout) (partition : Partition) : Prop
    extends Resolves blocks device disk layout partition where
  length_ne_zero : length ≠ 0
  whole : layout.geometry.sectorSize ∣ length
  inside : lba + length / layout.geometry.sectorSize ≤ partition.count

/-- The cause for which a transfer is refused. Each rule excludes the causes before it. -/
inductive Refused (blocks : BlockDevices δ) (device : DeviceHandle) (lba length : Nat) :
    StorageError → Prop
  | unknown (hdisk : blocks.disk? device.disk = none) : Refused blocks device lba length .notFound
  | unprobed {disk : AttachedDisk δ} (hdisk : blocks.disk? device.disk = some disk)
      (hlayout : disk.layout = none) : Refused blocks device lba length .notFound
  | length {disk : AttachedDisk δ} {layout : Layout} (hdisk : blocks.disk? device.disk = some disk)
      (hlayout : disk.layout = some layout)
      (hlength : length = 0 ∨ ¬ layout.geometry.sectorSize ∣ length) :
      Refused blocks device lba length .invalidArgument
  | partition {disk : AttachedDisk δ} {layout : Layout}
      (hdisk : blocks.disk? device.disk = some disk) (hlayout : disk.layout = some layout)
      (hlength : length ≠ 0) (hwhole : layout.geometry.sectorSize ∣ length)
      (hpartition : layout.partitions[device.partition.toNat]? = none) :
      Refused blocks device lba length .notFound
  | range {disk : AttachedDisk δ} {layout : Layout} {partition : Partition}
      (hresolves : Resolves blocks device disk layout partition)
      (hlength : length ≠ 0) (hwhole : layout.geometry.sectorSize ∣ length)
      (hrange : partition.count < lba + length / layout.geometry.sectorSize) :
      Refused blocks device lba length .outOfRange

section Decision

variable {blocks : BlockDevices δ} {device : DeviceHandle} {lba length : Nat}
  {disk : AttachedDisk δ} {layout : Layout} {partition : Partition} {cause : StorageError}

theorem Admitted.locate_eq (hadmitted : Admitted blocks device lba length disk layout partition) :
    blocks.locate device lba length = .ok (disk, partition.start + lba) := by
  have hlength : ¬ (length = 0 ∨ length % layout.geometry.sectorSize ≠ 0) := by
    rintro (hzero | hpart)
    · exact hadmitted.length_ne_zero hzero
    · exact hpart (Nat.mod_eq_zero_of_dvd hadmitted.whole)
  rw [hadmitted.toResolves.locate_eq, if_neg hlength, if_neg (Nat.not_lt_of_le hadmitted.inside)]

theorem Refused.locate_eq (hrefused : Refused blocks device lba length cause) :
    blocks.locate device lba length = .error cause := by
  unfold locate
  cases hrefused with
  | unknown hdisk => rw [hdisk]
  | unprobed hdisk hlayout => simp only [hdisk, hlayout]
  | length hdisk hlayout hlength =>
      rw [Nat.dvd_iff_mod_eq_zero] at hlength
      simp only [hdisk, hlayout, if_pos hlength]
  | partition hdisk hlayout hlength hwhole hpartition =>
      have hwhole := Nat.mod_eq_zero_of_dvd hwhole
      simp [hdisk, hlayout, hlength, hwhole, hpartition]
  | range hresolves hlength hwhole hrange =>
      have hwhole := Nat.mod_eq_zero_of_dvd hwhole
      simp [hresolves.found, hresolves.known, hresolves.listed, hlength, hwhole, hrange]

variable (blocks device lba length) in
theorem admitted_or_refused :
    (∃ disk layout partition, Admitted blocks device lba length disk layout partition) ∨
      ∃ cause, Refused blocks device lba length cause := by
  cases hdisk : blocks.disk? device.disk with
  | none => exact Or.inr ⟨_, .unknown hdisk⟩
  | some disk =>
      cases hlayout : disk.layout with
      | none => exact Or.inr ⟨_, .unprobed hdisk hlayout⟩
      | some layout =>
          by_cases hlength : length = 0 ∨ ¬ layout.geometry.sectorSize ∣ length
          · exact Or.inr ⟨_, .length hdisk hlayout hlength⟩
          · obtain ⟨hne, hwhole⟩ := not_or.mp hlength
            have hwhole := not_not.mp hwhole
            cases hpartition : layout.partitions[device.partition.toNat]? with
            | none => exact Or.inr ⟨_, .partition hdisk hlayout hne hwhole hpartition⟩
            | some partition =>
                have hresolves : Resolves blocks device disk layout partition :=
                  ⟨hdisk, hlayout, hpartition⟩
                by_cases hrange : partition.count < lba + length / layout.geometry.sectorSize
                · exact Or.inr ⟨_, .range hresolves hne hwhole hrange⟩
                · exact Or.inl ⟨disk, layout, partition,
                    ⟨hresolves, hne, hwhole, Nat.le_of_not_lt hrange⟩⟩

variable (blocks device lba length) in
/-- A transfer is either admitted or refused, and not both. -/
theorem exists_refused_iff :
    (∃ cause, Refused blocks device lba length cause) ↔
      ¬ ∃ disk layout partition, Admitted blocks device lba length disk layout partition := by
  constructor
  · rintro ⟨cause, hrefused⟩ ⟨disk, layout, partition, hadmitted⟩
    cases hrefused.locate_eq.symm.trans hadmitted.locate_eq
  · intro hnone
    exact (admitted_or_refused blocks device lba length).resolve_left hnone

end Decision

/-- Putting a changed disk back leaves the disks on both sides of it alone. -/
theorem Resolves.exists_replace_eq {blocks : BlockDevices δ} {device : DeviceHandle}
    {disk : AttachedDisk δ} {layout : Layout} {partition : Partition}
    (hresolves : Resolves blocks device disk layout partition) (hdistinct : blocks.diskIds.Nodup) :
    ∃ before behind, blocks.disks = before ++ disk :: behind ∧ ∀ driver,
      (blocks.replace { disk with driver }).disks = before ++ { disk with driver } :: behind := by
  obtain ⟨before, behind, hdisks⟩ := List.append_of_mem hresolves.mem
  refine ⟨before, behind, hdisks, fun driver => ?_⟩
  rw [diskIds, hdisks, List.map_append, List.map_cons, List.nodup_middle, List.nodup_cons,
    ← List.map_append] at hdistinct
  have hkept : ∀ other ∈ before ++ behind,
      (if other.id = disk.id then { disk with driver } else other) = other := by
    intro other hother
    refine if_neg fun heq => hdistinct.1 ?_
    rw [← heq]
    exact List.mem_map_of_mem hother
  obtain ⟨hbefore, hbehind⟩ := List.forall_mem_append.mp hkept
  rw [BlockDevices.replace, hdisks, List.map_append, List.map_cons, if_pos rfl,
    List.map_congr_left hbefore, List.map_congr_left hbehind, List.map_id', List.map_id']

/-- One exchange more stands in the transcript of the disk, and nothing else has changed. -/
def Called (blocks : BlockDevices (Transcript δ)) (disk : AttachedDisk (Transcript δ)) (driver : δ)
    (exchange : Exchange) (after : BlockDevices (Transcript δ)) : Prop :=
  ∃ before behind, blocks.disks = before ++ disk :: behind ∧
    after.disks = before ++
      { disk with driver := ⟨driver, disk.driver.exchanges ++ [exchange]⟩ } :: behind

variable [DiskDriver δ]

/-- In every reachable state a transfer is either refused or admitted, and sectors have a size to
decide that by. Refused, it answers the first cause that applies and calls no driver. Admitted,
it stays inside the partition and the disk, and is one call of the driver of that disk for the
whole of the payload. -/
theorem transfers_admitted {outside : Set (Transcript δ → Transcript δ)}
    {blocks : BlockDevices (Transcript δ)} (hreach : Reachable outside blocks)
    (device : DeviceHandle) (lba : Nat) :
    (∀ disk ∈ blocks.disks, ∀ layout, disk.layout = some layout →
      layout.geometry.sectorSize ≠ 0) ∧
    (∀ length, (∃ cause, Refused blocks device lba length cause) ↔
      ¬ ∃ disk layout partition, Admitted blocks device lba length disk layout partition) ∧
    (∀ length cause, Refused blocks device lba length cause →
      (read device lba length).outcome blocks = (.error cause, blocks)) ∧
    (∀ bytes cause, Refused blocks device lba bytes.length cause →
      (write device lba bytes).outcome blocks = (.error cause, blocks)) ∧
    ∀ length disk layout partition, Admitted blocks device lba length disk layout partition →
      let absolute := partition.start + lba
      absolute + length / layout.geometry.sectorSize ≤ partition.finish ∧
      partition.finish ≤ layout.geometry.sectorCount ∧
      (let called := DriverAction.outcome (DiskDriver.read absolute length) disk.driver.driver
       ((read device lba length).outcome blocks).1 = called.1.mapError (fun _ => .ioError) ∧
       Called blocks disk called.2 (.read absolute length called.1)
         ((read device lba length).outcome blocks).2) ∧
      ∀ bytes, bytes.length = length →
        let called := DriverAction.outcome (DiskDriver.write absolute bytes) disk.driver.driver
        ((write device lba bytes).outcome blocks).1 = called.1.mapError (fun _ => .ioError) ∧
        Called blocks disk called.2 (.write absolute bytes called.1)
          ((write device lba bytes).outcome blocks).2 := by
  refine ⟨?_, exists_refused_iff blocks device lba, ?_, ?_, ?_⟩
  · intro disk hdisk layout hlayout
    exact Nat.ne_of_gt ((hreach.sound hdisk).sectorSize_pos layout hlayout)
  · intro length cause hrefused
    exact outcome_read_of_refused hrefused.locate_eq
  · intro bytes cause hrefused
    exact outcome_write_of_refused hrefused.locate_eq
  · intro length disk layout partition hadmitted absolute
    have hlocate := hadmitted.locate_eq
    have hinside := hadmitted.inside
    obtain ⟨before, behind, hdisks, hreplace⟩ :=
      hadmitted.toResolves.exists_replace_eq hreach.nodup_diskIds
    refine ⟨?_, hadmitted.toResolves.finish_le (hreach.sound hadmitted.mem), ?_, ?_⟩
    · rw [Partition.finish]
      omega
    · intro called
      have hkept : DriverAction.outcome (DiskDriver.read absolute length) disk.driver =
          (called.1, ⟨called.2, disk.driver.exchanges ++ [.read absolute length called.1]⟩) :=
        Transcript.outcome_read disk.driver.exchanges rfl
      rw [outcome_read_of_located hlocate, hkept]
      exact ⟨rfl, before, behind, hdisks, hreplace _⟩
    · rintro bytes rfl called
      have hkept : DriverAction.outcome (DiskDriver.write absolute bytes) disk.driver =
          (called.1, ⟨called.2, disk.driver.exchanges ++ [.write absolute bytes called.1]⟩) :=
        Transcript.outcome_write disk.driver.exchanges rfl
      rw [outcome_write_of_located hlocate, hkept]
      exact ⟨rfl, before, behind, hdisks, hreplace _⟩

/-- The last sector of the first partition of the handset can be read; with the sector behind
it, the transfer is refused. -/
theorem transfers_admitted_handset :
    let blocks : BlockDevices (Transcript RamDisk) := Handset.blocks fun disk => ⟨disk, []⟩
    (∃ disk layout partition, Admitted blocks ⟨.user, 1⟩ 8191 512 disk layout partition ∧
      ∃ driver answer, Called blocks disk driver (.read (partition.start + 8191) 512 answer)
        ((read ⟨.user, 1⟩ 8191 512).outcome blocks).2) ∧
    Refused blocks ⟨.user, 1⟩ 8191 1024 .outOfRange ∧
    (read ⟨.user, 1⟩ 8191 1024).outcome blocks = (.error .outOfRange, blocks) := by
  intro blocks
  have hopened : Region.ofDevice blocks ⟨.user, 1⟩ = .ok ⟨⟨.user, 1⟩, ⟨512, 8192, 1024⟩⟩ := by
    decide +kernel
  obtain ⟨disk, layout, partition, hresolves, hregion⟩ := resolves_of_ofDevice hopened
  have hsize : layout.geometry.sectorSize = 512 := congrArg (·.info.sectorSize) hregion.symm
  have hcount : partition.count = 8192 := congrArg (·.info.sectorCount) hregion.symm
  have hadmitted : Admitted blocks ⟨.user, 1⟩ 8191 512 disk layout partition :=
    ⟨hresolves, by decide, by simp [hsize], by simp [hsize, hcount]⟩
  have hrefused : Refused blocks ⟨.user, 1⟩ 8191 1024 .outOfRange :=
    .range hresolves (by decide) (by simp [hsize]) (by simp [hsize, hcount])
  obtain ⟨-, -, hreads, -, hcalls⟩ :=
    transfers_admitted (reachable_handset ∅ fun disk => (⟨disk, []⟩ : Transcript RamDisk))
      ⟨.user, 1⟩ 8191
  obtain ⟨-, -, ⟨-, hcalled⟩, -⟩ := hcalls 512 disk layout partition hadmitted
  exact ⟨⟨disk, layout, partition, hadmitted, _, _, hcalled⟩, hrefused,
    hreads 1024 .outOfRange hrefused⟩

end StorageStack.BlockDevices

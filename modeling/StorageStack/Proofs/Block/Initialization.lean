import StorageStack.Proofs.Block.Admission
import StorageStack.Proofs.Block.Reprobe
import StorageStack.Proofs.Partition.Failures

/-! # Initialization

All disks are probed in the order in which they were attached, each of them once and whatever
the others answer. What a probe finds depends on the driver of the disk and on whether the disk
carries a partition table, and on nothing that was known before.
-/

namespace StorageStack

variable {δ : Type} [DiskDriver δ]

/-- The drivers that questions for the geometry and reads lead to. -/
inductive QueriesTo (driver : δ) : δ → Prop
  | refl : QueriesTo driver driver
  | geometry {before : δ} (hprior : QueriesTo driver before) :
      QueriesTo driver (DriverAction.outcome DiskDriver.geometry before).2
  | read {before : δ} (lba length : Nat) (hprior : QueriesTo driver before) :
      QueriesTo driver (DriverAction.outcome (DiskDriver.read lba length) before).2

/-- As long as nothing is written, the driver gives the same answer to the same question. -/
def Unchanging (reported : Except DriverError Geometry) (contents : Nat → Contents) (driver : δ) :
    Prop :=
  ∀ after, QueriesTo driver after →
    (DriverAction.outcome DiskDriver.geometry after).1 = reported ∧
      ∀ length lba, (DriverAction.outcome (DiskDriver.read lba length) after).1 = contents length lba

namespace QueriesTo

variable {first second third : δ}

theorem trans (hfirst : QueriesTo first second) (hsecond : QueriesTo second third) :
    QueriesTo first third := by
  induction hsecond with
  | refl => exact hfirst
  | geometry _ ih => exact ih.geometry
  | read lba length _ ih => exact ih.read lba length

theorem next_geometry {answer : Except DriverError Geometry} (hprior : QueriesTo first second)
    (hgeometry : DriverAction.outcome DiskDriver.geometry second = (answer, third)) :
    QueriesTo first third := by
  obtain rfl : (DriverAction.outcome DiskDriver.geometry second).2 = third :=
    congrArg Prod.snd hgeometry
  exact hprior.geometry

theorem of_readsTo {sectorSize : Nat} (hreads : ReadsTo sectorSize first second) :
    QueriesTo first second := by
  induction hreads with
  | refl => exact .refl
  | read lba _ ih => exact ih.read lba sectorSize

end QueriesTo

namespace Unchanging

variable {reported : Except DriverError Geometry} {contents : Nat → Contents} {driver after : δ}

theorem of_queriesTo (hdriver : Unchanging reported contents driver)
    (hqueries : QueriesTo driver after) : Unchanging reported contents after :=
  fun _ hlater => hdriver _ (hqueries.trans hlater)

theorem steady (hdriver : Unchanging reported contents driver) (sectorSize : Nat) :
    Steady sectorSize (contents sectorSize) driver :=
  fun _ hreads lba => (hdriver _ (.of_readsTo hreads)).2 sectorSize lba

theorem outcome_geometry (hdriver : Unchanging reported contents driver) :
    ∃ after, Unchanging reported contents after ∧
      DriverAction.outcome DiskDriver.geometry driver = (reported, after) :=
  ⟨_, hdriver.of_queriesTo (.geometry .refl), Prod.ext (hdriver driver .refl).1 rfl⟩

end Unchanging

theorem RamDisk.unchanging (disk : RamDisk) :
    Unchanging (DriverAction.outcome DiskDriver.geometry disk).1 disk.sectors disk := by
  have hcounted : ∀ after, QueriesTo disk after → ∃ readCount, after = { disk with readCount } := by
    intro after hqueries
    induction hqueries with
    | refl => exact ⟨disk.readCount, rfl⟩
    | geometry _ ih =>
        obtain ⟨readCount, rfl⟩ := ih
        exact ⟨readCount, state_geometry _⟩
    | read lba length _ ih =>
        obtain ⟨readCount, rfl⟩ := ih
        exact ⟨readCount + 1, by rw [outcome_read]⟩
  intro after hqueries
  obtain ⟨readCount, rfl⟩ := hcounted after hqueries
  have hagrees : disk.Agrees ∅ { disk with readCount } := ⟨rfl, rfl, rfl, rfl, fun _ _ => rfl⟩
  refine ⟨hagrees.geometry_eq, fun length lba => ?_⟩
  rw [outcome_read]
  rfl

/-- Reads of sectors leave a transcript with reads behind its old end. -/
theorem ReadsTo.exists_readings {sectorSize : Nat} {start after : Transcript δ}
    (hreads : ReadsTo sectorSize start after) :
    ∃ readings, after.exchanges = start.exchanges ++ readings ∧
      ∀ call ∈ readings, ∃ lba answer, call = .read lba sectorSize answer := by
  induction hreads with
  | refl => exact ⟨[], (List.append_nil _).symm, by simp⟩
  | @read before lba _ ih =>
      obtain ⟨readings, hbefore, hcalls⟩ := ih
      rcases hread : DriverAction.outcome (DiskDriver.read lba sectorSize) before with
        ⟨answer, after⟩
      refine ⟨readings ++ [.read lba sectorSize answer], ?_, ?_⟩
      · rw [Transcript.exchanges_of_read hread, hbefore, List.append_assoc]
      · exact List.forall_mem_append.mpr
          ⟨hcalls, List.forall_mem_singleton.mpr ⟨lba, answer, rfl⟩⟩

namespace Scan

/-- Two drivers that hold the same sectors are scanned into the same table. -/
theorem run_of_steady {geometry : Geometry} {contents : Contents} {first second : δ}
    (hfirst : Steady geometry.sectorSize contents first)
    (hsecond : Steady geometry.sectorSize contents second) (table : List Partition) :
    ((run geometry).outcome ⟨first, table⟩).1 = ((run geometry).outcome ⟨second, table⟩).1 ∧
      ((run geometry).outcome ⟨first, table⟩).2.table =
        ((run geometry).outcome ⟨second, table⟩).2.table := by
  let start : Scan (Transcript δ) := ⟨⟨first, []⟩, table⟩
  have hrepeats : contents.Repeats geometry.sectorSize
      ((run geometry).outcome start).2.driver.exchanges :=
    (hfirst.repeats (fun _ _ hmem => absurd hmem List.not_mem_nil) (readsTo_run geometry start)).2
  obtain ⟨_, hrun⟩ := run_replay geometry start hfirst hrepeats
  obtain ⟨_, hagain⟩ := run_replay geometry start hsecond hrepeats
  rw [show start.table = table from rfl] at hrun hagain
  rw [hrun, hagain]
  exact ⟨rfl, rfl⟩

end Scan

/-- What a probe answers, and what it leaves of a driver and of what is known of its disk. -/
structure Finding (δ : Type) where
  answer : Except StorageError Unit
  driver : δ
  layout : Option Layout

namespace AttachedDisk

/-- The findings of a probe, with nothing to go by but the driver and whether the disk carries a
partition table. -/
def finding (partitionable : Bool) (driver : δ) : Finding δ :=
  match DriverAction.outcome DiskDriver.geometry driver with
  | (.error cause, after) => ⟨.error cause.toStorageError, after, none⟩
  | (.ok geometry, after) =>
      if geometry.sectorSize = 0 then ⟨.error .corrupt, after, none⟩
      else if partitionable then
        let scanned :=
          (Scan.run geometry).outcome ⟨after, [Partition.wholeDisk geometry.sectorCount]⟩
        ⟨scanned.1.map fun _ => (), scanned.2.driver,
          some ⟨geometry, scanned.2.table, some scanned.1⟩⟩
      else ⟨.ok (), after, some ⟨geometry, [Partition.wholeDisk geometry.sectorCount], none⟩⟩

/-- The disk as a probe leaves it. -/
def probed (disk : AttachedDisk δ) : AttachedDisk δ :=
  let found := finding disk.partitionable disk.driver
  { disk with driver := found.driver, layout := found.layout }

theorem outcome_probe (disk : AttachedDisk δ) :
    probe.outcome disk = ((finding disk.partitionable disk.driver).answer, disk.probed) := by
  unfold probed finding
  rcases hgeometry : DriverAction.outcome DiskDriver.geometry disk.driver with
    ⟨cause | geometry, after⟩
  · exact outcome_probe_of_error hgeometry
  · by_cases hsize : geometry.sectorSize = 0
    · rw [outcome_probe_of_zero hgeometry hsize]
      simp only [if_pos hsize]
    · cases htable : disk.partitionable with
      | false =>
          rw [outcome_probe_of_raw hgeometry hsize htable]
          simp [hsize, htable]
      | true =>
          rw [outcome_probe_of_scan hgeometry hsize htable]
          simp [hsize, htable]

/-- A probe does nothing to a driver but ask. -/
theorem queriesTo_finding (partitionable : Bool) (driver : δ) :
    QueriesTo driver (finding partitionable driver).driver := by
  unfold finding
  rcases hgeometry : DriverAction.outcome DiskDriver.geometry driver with ⟨answer, after⟩
  have hafter : QueriesTo driver after := QueriesTo.refl.next_geometry hgeometry
  cases answer with
  | error cause => exact hafter
  | ok geometry =>
      dsimp only
      split
      · exact hafter
      · split
        · have hreads := Scan.readsTo_run geometry
            ⟨after, [Partition.wholeDisk geometry.sectorCount]⟩
          exact hafter.trans (.of_readsTo hreads)
        · exact hafter

/-- Drivers that give the same answers are found to have the same on them. -/
theorem finding_of_unchanging {reported : Except DriverError Geometry} {contents : Nat → Contents}
    {first second : δ} (hfirst : Unchanging reported contents first)
    (hsecond : Unchanging reported contents second) (partitionable : Bool) :
    (finding partitionable first).answer = (finding partitionable second).answer ∧
      (finding partitionable first).layout = (finding partitionable second).layout := by
  obtain ⟨afterFirst, hafterFirst, hgeometryFirst⟩ := hfirst.outcome_geometry
  obtain ⟨afterSecond, hafterSecond, hgeometrySecond⟩ := hsecond.outcome_geometry
  unfold finding
  rw [hgeometryFirst, hgeometrySecond]
  cases reported with
  | error cause => exact ⟨rfl, rfl⟩
  | ok geometry =>
      obtain ⟨hanswer, htable⟩ := Scan.run_of_steady (hafterFirst.steady geometry.sectorSize)
        (hafterSecond.steady geometry.sectorSize) [Partition.wholeDisk geometry.sectorCount]
      dsimp only
      by_cases hsize : geometry.sectorSize = 0
      · rw [if_pos hsize, if_pos hsize]
        exact ⟨rfl, rfl⟩
      · rw [if_neg hsize, if_neg hsize]
        cases partitionable with
        | false => exact ⟨rfl, rfl⟩
        | true =>
            rw [if_pos rfl, if_pos rfl, hanswer, htable]
            exact ⟨rfl, rfl⟩

/-- The calls of a probe: one question for the geometry, and then reads only. -/
theorem finding_transcript (partitionable : Bool) (driver : δ) (exchanges : List Exchange) :
    let found := finding partitionable driver
    ∃ reported readings,
      finding partitionable (⟨driver, exchanges⟩ : Transcript δ) =
        ⟨found.answer, ⟨found.driver, exchanges ++ .geometry reported :: readings⟩, found.layout⟩ ∧
      ∀ call ∈ readings, ∃ geometry, reported = .ok geometry ∧
        ∃ lba answer, call = .read lba geometry.sectorSize answer := by
  intro found
  unfold found finding
  rcases hgeometry : DriverAction.outcome DiskDriver.geometry driver with ⟨cause | geometry, after⟩
  all_goals rw [Transcript.outcome_geometry exchanges hgeometry]
  · exact ⟨.error cause, [], rfl, by simp⟩
  · by_cases hsize : geometry.sectorSize = 0
    · dsimp only
      rw [if_pos hsize, if_pos hsize]
      exact ⟨.ok geometry, [], rfl, by simp⟩
    · dsimp only
      rw [if_neg hsize, if_neg hsize]
      cases partitionable with
      | false => exact ⟨.ok geometry, [], rfl, by simp⟩
      | true =>
          let start : Scan (Transcript δ) := ⟨⟨after, exchanges ++ [.geometry (.ok geometry)]⟩,
            [Partition.wholeDisk geometry.sectorCount]⟩
          obtain ⟨readings, hexchanges, hcalls⟩ := (Scan.readsTo_run geometry start).exists_readings
          have hforget : (Scan.run geometry).outcome
              ⟨after, [Partition.wholeDisk geometry.sectorCount]⟩ = _ :=
            Scan.forget_outcome_run geometry start
          have hdriver : ((Scan.run geometry).outcome start).2.driver =
              ⟨((Scan.run geometry).outcome start).2.forget.driver,
                exchanges ++ .geometry (.ok geometry) :: readings⟩ :=
            congrArg (Transcript.mk _) (hexchanges.trans (List.append_cons ..).symm)
          refine ⟨.ok geometry, readings, ?_, fun call hcall => ⟨geometry, rfl, hcalls call hcall⟩⟩
          rw [if_pos rfl, if_pos rfl, hforget, ← hdriver]
          rfl

/-- The driver of the disk reports a geometry that the disk can be used with. -/
def Reports (disk : AttachedDisk δ) (geometry : Geometry) : Prop :=
  (DriverAction.outcome DiskDriver.geometry disk.driver).1 = .ok geometry ∧ geometry.sectorSize ≠ 0

theorem layout_probed_of_reports {disk : AttachedDisk δ} {geometry : Geometry}
    (hreports : disk.Reports geometry) :
    ∃ layout, disk.probed.layout = some layout ∧ layout.geometry = geometry := by
  obtain ⟨hgeometry, hsize⟩ := hreports
  rcases hcall : DriverAction.outcome DiskDriver.geometry disk.driver with ⟨answer, after⟩
  rw [hcall] at hgeometry
  obtain rfl : answer = .ok geometry := hgeometry
  unfold probed finding
  rw [hcall]
  dsimp only
  rw [if_neg hsize]
  split
  · exact ⟨_, rfl, rfl⟩
  · exact ⟨_, rfl, rfl⟩

theorem layout_probed_eq_none {disk : AttachedDisk δ}
    (hsilent : ∀ geometry, ¬ disk.Reports geometry) : disk.probed.layout = none := by
  unfold probed finding
  rcases hcall : DriverAction.outcome DiskDriver.geometry disk.driver with ⟨cause | geometry, after⟩
  · rfl
  · by_cases hsize : geometry.sectorSize = 0
    · dsimp only
      rw [if_pos hsize]
    · exact absurd ⟨congrArg Prod.fst hcall, hsize⟩ (hsilent geometry)

/-- One round of the loop over the disks: the disk is probed, and the first cause is kept. -/
def probeNext (progress : Option StorageError × List (AttachedDisk δ)) (disk : AttachedDisk δ) :
    Option StorageError × List (AttachedDisk δ) :=
  match probe disk with
  | .ok _ probed => (progress.1, progress.2 ++ [probed])
  | .error cause probed => (progress.1.or (some cause), progress.2 ++ [probed])

theorem foldl_probeNext (disks : List (AttachedDisk δ))
    (progress : Option StorageError × List (AttachedDisk δ)) :
    disks.foldl probeNext progress =
      (progress.1.or (probeEach disks).1, progress.2 ++ (probeEach disks).2) := by
  induction disks generalizing progress with
  | nil => simp [probeEach]
  | cons disk rest ih =>
      rw [List.foldl_cons, ih, probeEach, probeNext]
      cases probe disk with
      | ok _ probed => simp
      | error cause probed => cases progress.1 <;> simp

/-- Why the probe of a disk fails, if it does. -/
def failure? (disk : AttachedDisk δ) : Option StorageError :=
  match (finding disk.partitionable disk.driver).answer with
  | .ok _ => none
  | .error cause => some cause

theorem failure?_eq_some_iff {disk : AttachedDisk δ} {cause : StorageError} :
    disk.failure? = some cause ↔
      (finding disk.partitionable disk.driver).answer = .error cause := by
  unfold failure?
  cases (finding disk.partitionable disk.driver).answer <;> simp

theorem failure?_eq_none_iff {disk : AttachedDisk δ} :
    disk.failure? = none ↔ (finding disk.partitionable disk.driver).answer = .ok () := by
  unfold failure?
  cases (finding disk.partitionable disk.driver).answer <;> simp

theorem probeEach_eq (disks : List (AttachedDisk δ)) :
    probeEach disks = (disks.findSome? failure?, disks.map probed) := by
  induction disks with
  | nil => rfl
  | cons disk rest ih =>
      have hprobe := outcome_probe disk
      rw [probeEach, ih, List.findSome?_cons, List.map_cons, failure?]
      rcases hanswer : (finding disk.partitionable disk.driver).answer with cause | _
      · rw [hanswer, Action.outcome_eq_error_iff] at hprobe
        rw [hprobe]
      · rw [hanswer, Action.outcome_eq_ok_iff] at hprobe
        rw [hprobe]

end AttachedDisk

namespace BlockDevices

theorem outcome_probeAll (blocks : BlockDevices δ) :
    probeAll.outcome blocks =
      (match blocks.disks.findSome? AttachedDisk.failure? with
        | none => .ok ()
        | some cause => .error cause,
        ⟨blocks.disks.map AttachedDisk.probed⟩) := by
  unfold Action.outcome probeAll
  rw [AttachedDisk.probeEach_eq]
  cases blocks.disks.findSome? AttachedDisk.failure? <;> rfl

theorem probeAll_eq_ok_iff (blocks : BlockDevices δ) :
    (probeAll.outcome blocks).1 = .ok () ↔ ∀ disk ∈ blocks.disks,
      (AttachedDisk.finding disk.partitionable disk.driver).answer = .ok () := by
  simp only [← AttachedDisk.failure?_eq_none_iff]
  rw [outcome_probeAll, ← List.findSome?_eq_none_iff]
  cases blocks.disks.findSome? AttachedDisk.failure? <;> simp

/-- The cause is that of the first disk whose probe fails. -/
theorem probeAll_eq_error_iff (blocks : BlockDevices δ) (cause : StorageError) :
    (probeAll.outcome blocks).1 = .error cause ↔ ∃ before disk behind,
      blocks.disks = before ++ disk :: behind ∧
      (∀ earlier ∈ before,
        (AttachedDisk.finding earlier.partitionable earlier.driver).answer = .ok ()) ∧
      (AttachedDisk.finding disk.partitionable disk.driver).answer = .error cause := by
  have hfirst : (probeAll.outcome blocks).1 = .error cause ↔
      blocks.disks.findSome? AttachedDisk.failure? = some cause := by
    rw [outcome_probeAll]
    cases blocks.disks.findSome? AttachedDisk.failure? <;> simp
  rw [hfirst, List.findSome?_eq_some_iff]
  simp only [AttachedDisk.failure?_eq_none_iff, AttachedDisk.failure?_eq_some_iff]
  constructor
  · rintro ⟨before, disk, behind, hdisks, hfailed, hearlier⟩
    exact ⟨before, disk, behind, hdisks, hearlier, hfailed⟩
  · rintro ⟨before, disk, behind, hdisks, hearlier, hfailed⟩
    exact ⟨before, disk, behind, hdisks, hfailed, hearlier⟩

/-- The outcome of a transfer that is one driver call: its answer, and the devices with the
driver that the call leaves. -/
def served {α : Type} (blocks : BlockDevices δ) (disk : AttachedDisk δ)
    (call : Except DriverError α × δ) : Except StorageError α × BlockDevices δ :=
  (call.1.mapError DriverError.toStorageError, blocks.replace { disk with driver := call.2 })

section Probed

variable {blocks : BlockDevices δ}

/-- A disk whose geometry is known after a probe can be addressed as a whole. -/
theorem resolves_probed (hdistinct : blocks.diskIds.Nodup) {disk : AttachedDisk δ}
    (hdisk : disk ∈ blocks.disks) {geometry : Geometry} (hreports : disk.Reports geometry) :
    ∃ layout, layout.geometry = geometry ∧
      Resolves (probeAll.outcome blocks).2 (.whole disk.id) disk.probed layout
        (Partition.wholeDisk geometry.sectorCount) := by
  obtain ⟨layout, hlayout, rfl⟩ := AttachedDisk.layout_probed_of_reports hreports
  have hprobed : (AttachedDisk.probe.outcome disk).2 = disk.probed := by
    rw [AttachedDisk.outcome_probe]
  have hsound := hprobed ▸ AttachedDisk.sound_probe disk
  have hfound : (probeAll.outcome blocks).2.disk? disk.id = some disk.probed := by
    rw [disk?_probeAll, disk?_of_mem hdistinct hdisk, Option.map_some, hprobed]
  have hwhole := (hsound.table layout hlayout).whole
  rw [List.head?_eq_getElem?] at hwhole
  exact ⟨layout, rfl, hfound, hlayout, hwhole⟩

/-- A device whose disk is not attached, or has no usable geometry, is refused. -/
theorem refused_probed {device : DeviceHandle}
    (hsilent : ∀ disk ∈ blocks.disks, disk.id = device.disk →
      ∀ geometry, ¬ disk.Reports geometry) :
    (probeAll.outcome blocks).2.info device = .error .notFound ∧
      ∀ lba length, (probeAll.outcome blocks).2.locate device lba length = .error .notFound := by
  have hdisk? := disk?_probeAll blocks device.disk
  cases hfound : blocks.disk? device.disk with
  | none =>
      rw [hfound, Option.map_none] at hdisk?
      refine ⟨?_, fun lba length => (Refused.unknown hdisk?).locate_eq⟩
      rw [info, hdisk?]
      rfl
  | some disk =>
      obtain ⟨hmem, hid⟩ := of_disk?_eq_some hfound
      have hlayout := AttachedDisk.layout_probed_eq_none (hsilent disk hmem hid)
      rw [hfound, Option.map_some, AttachedDisk.outcome_probe] at hdisk?
      refine ⟨?_, fun lba length => (Refused.unprobed hdisk? hlayout).locate_eq⟩
      rw [info, hdisk?, Option.bind_some, hlayout]

/-- Whole sectors inside the disk are one call of its driver. -/
theorem whole_probed (hdistinct : blocks.diskIds.Nodup) {disk : AttachedDisk δ}
    (hdisk : disk ∈ blocks.disks) {geometry : Geometry} (hreports : disk.Reports geometry)
    {lba sectors : Nat} (hsectors : 0 < sectors) (hrange : lba + sectors ≤ geometry.sectorCount) :
    (probeAll.outcome blocks).2.locate (.whole disk.id) lba (sectors * geometry.sectorSize) =
      .ok (disk.probed, lba) := by
  obtain ⟨layout, rfl, hresolves⟩ := resolves_probed hdistinct hdisk hreports
  have hinside : ¬ (Partition.wholeDisk layout.geometry.sectorCount).count < lba + sectors :=
    Nat.not_lt_of_le hrange
  rw [hresolves.locate_sectors (Nat.pos_of_ne_zero hreports.2) lba hsectors, if_neg hinside,
    Partition.wholeDisk, Nat.zero_add]

/-- Disks whose drivers answer as before are found again as they were found before. -/
theorem probeAll_again {driver : AttachedDisk δ → δ}
    (hsame : ∀ disk ∈ blocks.disks, ∃ reported contents,
      Unchanging reported contents disk.driver ∧
        Unchanging reported contents (driver disk.probed)) :
    let first := probeAll.outcome blocks
    let second := probeAll.outcome (first.2.withDrivers driver)
    second.1 = first.1 ∧ ∃ after, second.2 = first.2.withDrivers after := by
  intro first second
  let again (disk : AttachedDisk δ) : AttachedDisk δ :=
    { disk.probed with driver := driver disk.probed }
  have hfound : ∀ disk ∈ blocks.disks,
      (AttachedDisk.finding disk.partitionable (driver disk.probed)).answer =
          (AttachedDisk.finding disk.partitionable disk.driver).answer ∧
        (AttachedDisk.finding disk.partitionable (driver disk.probed)).layout =
          (AttachedDisk.finding disk.partitionable disk.driver).layout := by
    intro disk hdisk
    obtain ⟨reported, contents, hbefore, hafter⟩ := hsame disk hdisk
    exact AttachedDisk.finding_of_unchanging hafter hbefore disk.partitionable
  have hfirst : first = _ := outcome_probeAll blocks
  have hlater : first.2.withDrivers driver = ⟨blocks.disks.map again⟩ := by
    rw [hfirst, withDrivers, List.map_map]
    rfl
  have hsecond : second = _ := (congrArg probeAll.outcome hlater).trans (outcome_probeAll _)
  constructor
  · have hfailures : (blocks.disks.map again).findSome? AttachedDisk.failure? =
        blocks.disks.findSome? AttachedDisk.failure? := by
      have hsame : (blocks.disks.map again).map AttachedDisk.failure? =
          blocks.disks.map AttachedDisk.failure? := by
        rw [List.map_map]
        refine List.map_congr_left fun disk hdisk => ?_
        have hanswer : (AttachedDisk.finding (again disk).partitionable (again disk).driver).answer =
            (AttachedDisk.finding disk.partitionable disk.driver).answer := (hfound disk hdisk).1
        rw [Function.comp_apply, AttachedDisk.failure?, hanswer, AttachedDisk.failure?]
      rw [← Function.id_comp AttachedDisk.failure?, ← List.findSome?_map, hsame, List.findSome?_map]
    rw [hsecond, hfirst]
    dsimp only
    rw [hfailures]
  · refine ⟨fun disk => (AttachedDisk.finding disk.partitionable (driver disk)).driver, ?_⟩
    rw [hsecond, hfirst, withDrivers, List.map_map, List.map_map]
    refine congrArg mk (List.map_congr_left fun disk hdisk => ?_)
    have hlayout : (again disk).probed.layout = disk.probed.layout := (hfound disk hdisk).2
    exact congrArg (AttachedDisk.mk _ _ _) hlayout

end Probed

/-- In every reachable state, probing all disks is a loop over them. Each disk is asked once for
its geometry, and otherwise only read. What is found out about it is decided by its own driver and
by whether it carries a table, and the answer is the first cause in the order of the disks. Where
the geometry is usable, whole sectors of the disk reach the driver, even after a scan that failed;
every other device is refused. As long as the drivers give the same answers, whatever they are
asked in between, probing all disks again changes nothing but the state of the drivers. -/
theorem initialization {outside : Set (δ → δ)} {blocks : BlockDevices δ}
    (hreach : Reachable outside blocks) :
    let found (disk : AttachedDisk δ) := AttachedDisk.finding disk.partitionable disk.driver
    let first := probeAll.outcome blocks
    AttachedDisk.probeEach blocks.disks = blocks.disks.foldl AttachedDisk.probeNext (none, []) ∧
    (∀ disk ∈ blocks.disks, ∃ reported readings,
      AttachedDisk.finding disk.partitionable (⟨disk.driver, []⟩ : Transcript δ) =
        ⟨(found disk).answer, ⟨(found disk).driver, .geometry reported :: readings⟩,
          (found disk).layout⟩ ∧
      ∀ call ∈ readings, ∃ geometry, reported = .ok geometry ∧
        ∃ lba answer, call = .read lba geometry.sectorSize answer) ∧
    first.2.disks = blocks.disks.map (fun disk =>
      { disk with driver := (found disk).driver, layout := (found disk).layout }) ∧
    (first.1 = .ok () ↔ ∀ disk ∈ blocks.disks, (found disk).answer = .ok ()) ∧
    (∀ cause, first.1 = .error cause ↔ ∃ before disk behind,
      blocks.disks = before ++ disk :: behind ∧
      (∀ earlier ∈ before, (found earlier).answer = .ok ()) ∧
      (found disk).answer = .error cause) ∧
    (∀ disk ∈ blocks.disks, ∀ geometry, disk.Reports geometry →
      first.2.info (.whole disk.id) =
        .ok ⟨geometry.sectorSize, geometry.sectorCount, geometry.eraseGroup⟩ ∧
      ∀ lba sectors, 0 < sectors → lba + sectors ≤ geometry.sectorCount →
        (read (.whole disk.id) lba (sectors * geometry.sectorSize)).outcome first.2 =
            first.2.served disk.probed (DriverAction.outcome
              (DiskDriver.read lba (sectors * geometry.sectorSize)) (found disk).driver) ∧
        ∀ bytes : Bytes, bytes.length = sectors * geometry.sectorSize →
          (write (.whole disk.id) lba bytes).outcome first.2 =
            first.2.served disk.probed (DriverAction.outcome
              (DiskDriver.write lba bytes) (found disk).driver)) ∧
    (∀ device : DeviceHandle, (∀ disk ∈ blocks.disks, disk.id = device.disk →
        ∀ geometry, ¬ disk.Reports geometry) →
      first.2.info device = .error .notFound ∧
      (∀ lba length, (read device lba length).outcome first.2 = (.error .notFound, first.2)) ∧
      ∀ lba bytes, (write device lba bytes).outcome first.2 = (.error .notFound, first.2)) ∧
    ∀ driver : AttachedDisk δ → δ, (∀ disk ∈ blocks.disks,
        (∃ reported contents, Unchanging reported contents disk.driver) ∧
        QueriesTo (found disk).driver (driver disk.probed)) →
      let second := probeAll.outcome (first.2.withDrivers driver)
      second.1 = first.1 ∧ ∃ after, second.2 = first.2.withDrivers after := by
  intro found first
  have hdistinct := hreach.nodup_diskIds
  refine ⟨?_, ?_, ?_, probeAll_eq_ok_iff blocks, probeAll_eq_error_iff blocks, ?_, ?_, ?_⟩
  · rw [AttachedDisk.foldl_probeNext]
    simp
  · intro disk _
    exact AttachedDisk.finding_transcript disk.partitionable disk.driver []
  · exact congrArg disks (congrArg Prod.snd (outcome_probeAll blocks))
  · intro disk hdisk geometry hreports
    obtain ⟨layout, hlayout, hresolves⟩ := resolves_probed hdistinct hdisk hreports
    refine ⟨hlayout ▸ hresolves.info_eq, fun lba sectors hsectors hrange => ?_⟩
    have hlocate := whole_probed hdistinct hdisk hreports hsectors hrange
    refine ⟨outcome_read_of_located hlocate, fun bytes hbytes => ?_⟩
    rw [← hbytes] at hlocate
    exact outcome_write_of_located hlocate
  · intro device hsilent
    obtain ⟨hinfo, hlocate⟩ := refused_probed hsilent
    exact ⟨hinfo, fun lba length => outcome_read_of_refused (hlocate lba length),
      fun lba bytes => outcome_write_of_refused (hlocate lba bytes.length)⟩
  · intro driver hdriver
    refine probeAll_again fun disk hdisk => ?_
    obtain ⟨⟨reported, contents, hunchanging⟩, hqueries⟩ := hdriver disk hdisk
    have hprobed := AttachedDisk.queriesTo_finding disk.partitionable disk.driver
    exact ⟨reported, contents, hunchanging, hunchanging.of_queriesTo (hprobed.trans hqueries)⟩

/-- The first disk carries no boot sector, and the second does not tell its geometry. -/
theorem initialization_zeroed :
    let attached := (addDisk .boot0 (RamDisk.zeroed 4 512) true).outcome {}
    let blocks := ((addDisk .user ((RamDisk.zeroed 8 512).setFailing true) true).outcome
      attached.2).2
    let first := probeAll.outcome blocks
    first.1 = .error .corrupt ∧
      first.2.info (.whole .boot0) = .ok ⟨512, 4, 1024⟩ ∧
      first.2.info (.whole .user) = .error .notFound ∧
      (probeAll.outcome first.2).1 = .error .corrupt := by
  intro attached blocks first
  have hreach : Reachable RamDisk.switches blocks :=
    .addDisk .user _ true (.addDisk .boot0 _ true .empty)
  obtain ⟨-, -, -, -, hcauses, hwhole, hgone, hagain⟩ := initialization hreach
  have hfirst : first.1 = .error .corrupt :=
    (hcauses .corrupt).mpr ⟨[], _, _, rfl, by simp, by decide +kernel⟩
  have hboot := (hwhole ⟨.boot0, RamDisk.zeroed 4 512, true, none⟩ List.mem_cons_self ⟨512, 4, 1024⟩
    ⟨by decide +kernel, by decide⟩).1
  have hsilent : ∀ disk ∈ blocks.disks, disk.id = .user → ∀ geometry, ¬ disk.Reports geometry := by
    intro disk hdisk hid geometry hreports
    obtain rfl | hlast := List.mem_cons.mp hdisk
    · exact absurd hid (by decide)
    · obtain rfl := List.mem_singleton.mp hlast
      exact nomatch hreports.1
  have hsecond := (hagain (·.driver) fun disk _ =>
    ⟨⟨_, _, disk.driver.unchanging⟩, QueriesTo.refl⟩).1
  rw [withDrivers_self] at hsecond
  exact ⟨hfirst, hboot, (hgone (.whole .user) hsilent).1, hsecond.trans hfirst⟩

end BlockDevices

end StorageStack

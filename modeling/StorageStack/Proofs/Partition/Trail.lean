import StorageStack.Partition.Image
import StorageStack.Proofs.Disk.Transcript

/-! # What a scan reads

A scan reads the first sector of the disk and then, container by container, the sectors of
the chains, one at a time. However the driver answers, it stays on the disk and behind the
head of each chain, and the bound on a chain ends every walk.
-/

namespace StorageStack

/-- A sector that a scan asked for, with the answer. -/
structure Reading where
  lba : Nat
  answer : Except DriverError Bytes

namespace Reading

/-- The call of a reading, for sectors of the given size. -/
def exchange (sectorSize : Nat) (reading : Reading) : Exchange :=
  .read reading.lba sectorSize reading.answer

/-- The link that a reading found, if it found a signed boot sector with a link. -/
def link? (reading : Reading) : Option Nat :=
  match BootSector.ofAnswer reading.answer with
  | .error _ => none
  | .ok sector => sector.link?

theorem link?_of_sector {reading : Reading} {sector : BootSector}
    (hsector : BootSector.ofAnswer reading.answer = .ok sector) : reading.link? = sector.link? := by
  rw [link?, hsector]

end Reading

namespace Scan

variable {δ : Type} [DiskDriver δ]

/-- A scan of the driver behind a transcript. -/
def forget (scan : Scan (Transcript δ)) : Scan δ := ⟨scan.driver.driver, scan.table⟩

/-- The readings of a walk along one chain, from `lba` on. -/
structure Trail (geometry : Geometry) (container : Container) (hops lba : Nat)
    (readings : List Reading) (status : ScanStatus) : Prop where
  length_le : readings.length ≤ hops
  inside : ∀ reading ∈ readings, reading.lba < geometry.sectorCount
  behind : container.head ≤ lba → ∀ reading ∈ readings, container.head ≤ reading.lba
  /-- A link that is still pending behind the last sector allowed truncates the walk. -/
  capped : readings.length = hops → (∀ last ∈ readings.getLast?, last.link?.isSome) →
    status = .truncated

namespace Trail

variable {geometry : Geometry} {container : Container} {hops lba offset : Nat}
  {reading : Reading} {readings : List Reading} {status : ScanStatus}

theorem nil_zero : Trail geometry container 0 lba [] .truncated where
  length_le := Nat.le_refl 0
  inside := by simp
  behind := by simp
  capped _ _ := rfl

theorem nil_succ : Trail geometry container (hops + 1) lba [] status where
  length_le := Nat.zero_le _
  inside := by simp
  behind := by simp
  capped hlength _ := absurd hlength (Nat.succ_ne_zero hops).symm

/-- A walk ends at its first sector if there is no link, or if it is truncated there. -/
theorem singleton (hlba : reading.lba = lba) (hinside : lba < geometry.sectorCount)
    (hend : reading.link? = none ∨ status = .truncated) :
    Trail geometry container (hops + 1) lba [reading] status where
  length_le := Nat.succ_le_succ (Nat.zero_le _)
  inside := by simpa [hlba] using hinside
  behind := by simp [hlba]
  capped _ hlast := by
    rcases hend with hnone | htruncated
    · have hsome := hlast reading rfl
      rw [hnone] at hsome
      cases hsome
    · exact htruncated

theorem cons (hlba : reading.lba = lba) (hinside : lba < geometry.sectorCount)
    (hrest : Trail geometry container hops (container.head + offset) readings status) :
    Trail geometry container (hops + 1) lba (reading :: readings) status where
  length_le := Nat.succ_le_succ hrest.length_le
  inside := List.forall_mem_cons.mpr ⟨hlba.symm ▸ hinside, hrest.inside⟩
  behind hhead := List.forall_mem_cons.mpr
    ⟨hlba.symm ▸ hhead, hrest.behind (Nat.le_add_right _ _)⟩
  capped hlength hlast := by
    refine hrest.capped (Nat.succ.inj hlength) fun last hmem => hlast last ?_
    cases readings with
    | nil => cases hmem
    | cons next rest => rwa [List.getLast?_cons_cons]

end Trail

/-- A walk with its transcript: what it read, and that it is the walk without the transcript. -/
theorem walk_transcript (geometry : Geometry) (container : Container) (hops lba : Nat)
    (scan : Scan (Transcript δ)) :
    let walked := walk geometry container hops lba scan
    walk geometry container hops lba scan.forget = (walked.1, walked.2.forget) ∧
      ∃ readings, Trail geometry container hops lba readings walked.1 ∧
        walked.2.driver.exchanges =
          scan.driver.exchanges ++ readings.map (Reading.exchange geometry.sectorSize) := by
  induction hops generalizing lba scan with
  | zero => exact ⟨rfl, [], .nil_zero, (List.append_nil _).symm⟩
  | succ hops ih =>
      obtain ⟨⟨driver, exchanges⟩, table⟩ := scan
      rcases Nat.lt_or_ge lba geometry.sectorCount with hinside | houtside
      · -- Both walks make the same call, and go on from the same answer.
        rcases hread : DriverAction.outcome (DiskDriver.read lba geometry.sectorSize) driver with
          ⟨answer, after⟩
        unfold forget
        dsimp only
        rw [walk_succ container hops table hinside (Transcript.outcome_read exchanges hread),
          walk_succ container hops table hinside hread]
        cases hsector : BootSector.ofAnswer answer with
        | error cause =>
            refine ⟨rfl, [⟨lba, answer⟩], .singleton rfl hinside (Or.inl ?_), rfl⟩
            rw [Reading.link?, hsector]
        | ok sector =>
            dsimp only
            rcases admitAll (sector.logicals lba container.finish) table with ⟨_ | _, admitted⟩
            · cases hlink : sector.link? with
              | none =>
                  refine ⟨rfl, [⟨lba, answer⟩], .singleton rfl hinside (Or.inl ?_), rfl⟩
                  exact (Reading.link?_of_sector hsector).trans hlink
              | some offset =>
                  obtain ⟨hforget, readings, htrail, hexchanges⟩ := ih (container.head + offset)
                    ⟨⟨after, exchanges ++ [.read lba geometry.sectorSize answer]⟩, admitted⟩
                  refine ⟨hforget, ⟨lba, answer⟩ :: readings, .cons rfl hinside htrail, ?_⟩
                  rw [hexchanges, List.append_assoc]
                  rfl
            · exact ⟨rfl, [⟨lba, answer⟩], .singleton rfl hinside (Or.inr rfl), rfl⟩
      · rw [walk_outside container hops _ houtside, walk_outside container hops _ houtside]
        exact ⟨rfl, [], .nil_succ, (List.append_nil _).symm⟩

theorem join_truncated (status : ScanStatus) : status.join .truncated = .truncated := by
  cases status <;> rfl

theorem walkAll_transcript (geometry : Geometry) (containers : List Container)
    (scan : Scan (Transcript δ)) :
    let walked := walkAll geometry containers scan
    walkAll geometry containers scan.forget = (walked.1, walked.2.forget) ∧
      ∃ walks : List (Container × List Reading), walks.map Prod.fst = containers ∧
        walked.2.driver.exchanges = scan.driver.exchanges ++
          (walks.flatMap Prod.snd).map (Reading.exchange geometry.sectorSize) ∧
        ∀ trail ∈ walks, ∃ status,
          Trail geometry trail.1 Limits.maxExtendedHops trail.1.head trail.2 status ∧
          (status = .truncated → walked.1 = .truncated) := by
  induction containers generalizing scan with
  | nil => exact ⟨rfl, [], rfl, (List.append_nil _).symm, by simp⟩
  | cons container rest ih =>
      obtain ⟨hfirst, readings, htrail, hread⟩ := walk_transcript geometry container
        Limits.maxExtendedHops container.head scan
      unfold walkAll
      rw [hfirst]
      generalize walk geometry container Limits.maxExtendedHops container.head scan = walked
        at htrail hread ⊢
      obtain ⟨hlater, walks, hcontainers, hexchanges, hwalks⟩ := ih walked.2
      dsimp only
      rw [hlater]
      refine ⟨rfl, (container, readings) :: walks, by rw [List.map_cons, hcontainers], ?_, ?_⟩
      · rw [hexchanges, hread, List.flatMap_cons, List.map_append, List.append_assoc]
      · refine List.forall_mem_cons.mpr ⟨⟨walked.1, htrail, fun htruncated => ?_⟩, ?_⟩
        · rw [htruncated]
          rfl
        · intro trail hmem
          obtain ⟨status, hstatus, htruncates⟩ := hwalks trail hmem
          refine ⟨status, hstatus, fun htruncated => ?_⟩
          rw [htruncates htruncated, join_truncated]

end Scan

/-- There are no more containers than entries. -/
theorem BootSector.length_containers_le (sector : BootSector) (sectorCount : Nat) :
    (sector.containers sectorCount).length ≤ entrySlots := by
  unfold containers extendedEntries entries
  rw [List.length_map, List.length_map]
  calc _ ≤ _ := List.length_filter_le _ _
    _ ≤ (List.range entrySlots).length := List.length_filterMap_le _ _
    _ = entrySlots := List.length_range

namespace Scan

variable {δ : Type} [DiskDriver δ]

/-- Walks along so many chains read no more sectors than the bound allows for each. -/
theorem length_readings_le {walks : List (Container × List Reading)}
    (hwalks : ∀ trail ∈ walks, trail.2.length ≤ Limits.maxExtendedHops) :
    (walks.flatMap Prod.snd).length ≤ walks.length * Limits.maxExtendedHops := by
  induction walks with
  | nil => exact Nat.zero_le _
  | cons trail rest ih =>
      obtain ⟨hfirst, hrest⟩ := List.forall_mem_cons.mp hwalks
      have hlater := ih hrest
      rw [List.flatMap_cons, List.length_append, List.length_cons, Nat.succ_mul]
      omega

/-- A scan with its transcript: what it read, and that it is the scan without the transcript. -/
theorem run_transcript {geometry : Geometry} (hsize : Limits.sectorSize ≤ geometry.sectorSize)
    (driver : δ) (table : List Partition) :
    let scanned := (run geometry).outcome ⟨(⟨driver, []⟩ : Transcript δ), table⟩
    (run geometry).outcome ⟨driver, table⟩ = (scanned.1, scanned.2.forget) ∧
    ∃ (first : Except DriverError Bytes) (walks : List (Container × List Reading)),
      scanned.2.driver.exchanges = .read 0 geometry.sectorSize first ::
        (walks.flatMap Prod.snd).map (Reading.exchange geometry.sectorSize) ∧
      (walks = [] ∨ ∃ mbr, BootSector.ofAnswer first = .ok mbr ∧
        walks.map Prod.fst = mbr.containers geometry.sectorCount) ∧
      ∀ trail ∈ walks, ∃ status,
        Trail geometry trail.1 Limits.maxExtendedHops trail.1.head trail.2 status ∧
        (status = .truncated → scanned.1 = .ok .truncated) := by
  rcases hread : DriverAction.outcome (DiskDriver.read 0 geometry.sectorSize) driver with
    ⟨answer, after⟩
  rw [outcome_run table hsize (Transcript.outcome_read [] hread), outcome_run table hsize hread]
  cases hsector : BootSector.ofAnswer answer with
  | error cause => exact ⟨rfl, answer, [], rfl, Or.inl rfl, by simp⟩
  | ok mbr =>
      dsimp only
      rcases admitAll (mbr.primaries geometry.sectorCount) table with ⟨_ | _, admitted⟩
      · obtain ⟨hforget, walks, hcontainers, hexchanges, hwalks⟩ := walkAll_transcript geometry
          (mbr.containers geometry.sectorCount)
          ⟨⟨after, [] ++ [.read 0 geometry.sectorSize answer]⟩, admitted⟩
        unfold forget at hforget
        dsimp only at hforget ⊢
        rw [hforget]
        refine ⟨rfl, answer, walks, hexchanges, Or.inr ⟨mbr, hsector, hcontainers⟩, ?_⟩
        intro trail hmem
        obtain ⟨status, htrail, htruncates⟩ := hwalks trail hmem
        exact ⟨status, htrail, fun htruncated => congrArg Except.ok (htruncates htruncated)⟩
      · exact ⟨rfl, answer, [], rfl, Or.inl rfl, by simp⟩

/-- Whatever the driver answers, a scan makes no other calls than reads of single sectors: the
first sector of the disk, and then for each container of that sector no more sectors than the
bound allows, all of them on the disk and none before the head of the container. A link that
is still pending at the bound makes the scan truncated. -/
theorem run_reads {geometry : Geometry} (hsize : Limits.sectorSize ≤ geometry.sectorSize)
    (driver : δ) (table : List Partition) :
    let scanned := (run geometry).outcome ⟨(⟨driver, []⟩ : Transcript δ), table⟩
    (run geometry).outcome ⟨driver, table⟩ = (scanned.1, scanned.2.forget) ∧
    ∃ (first : Except DriverError Bytes) (walks : List (Container × List Reading)),
      scanned.2.driver.exchanges = Exchange.read 0 geometry.sectorSize first ::
        (walks.flatMap Prod.snd).map (fun reading =>
          Exchange.read reading.lba geometry.sectorSize reading.answer) ∧
      (walks = [] ∨ ∃ mbr, BootSector.ofAnswer first = .ok mbr ∧
        walks.map Prod.fst = mbr.containers geometry.sectorCount) ∧
      (∀ container readings, (container, readings) ∈ walks →
        readings.length ≤ Limits.maxExtendedHops ∧
        (∀ reading ∈ readings, container.head ≤ reading.lba ∧ reading.lba < geometry.sectorCount) ∧
        (readings.length = Limits.maxExtendedHops →
          ∀ last, readings.getLast? = some last → last.link?.isSome →
            scanned.1 = .ok .truncated)) ∧
      scanned.2.driver.exchanges.length ≤ 1 + 4 * Limits.maxExtendedHops := by
  obtain ⟨hforget, first, walks, hexchanges, hcontainers, hwalks⟩ :=
    run_transcript hsize driver table
  refine ⟨hforget, first, walks, hexchanges, hcontainers, ?_, ?_⟩
  · intro container readings hmem
    obtain ⟨status, htrail, htruncates⟩ := hwalks _ hmem
    refine ⟨htrail.length_le, fun reading hreading => ?_, fun hlength last hlast hlink => ?_⟩
    · exact ⟨htrail.behind (Nat.le_refl _) reading hreading, htrail.inside reading hreading⟩
    · refine htruncates (htrail.capped hlength fun other hother => ?_)
      cases hlast.symm.trans hother
      exact hlink
  · have hread := length_readings_le fun trail hmem => (hwalks trail hmem).elim fun _ h => h.1.length_le
    have hcount : walks.length ≤ entrySlots := by
      rcases hcontainers with rfl | ⟨mbr, -, hmap⟩
      · exact Nat.zero_le _
      · rw [← List.length_map, hmap]
        exact mbr.length_containers_le _
    rw [hexchanges, List.length_cons, List.length_map]
    calc (walks.flatMap Prod.snd).length + 1
        ≤ walks.length * Limits.maxExtendedHops + 1 := Nat.succ_le_succ hread
      _ ≤ 4 * Limits.maxExtendedHops + 1 := Nat.succ_le_succ (Nat.mul_le_mul_right _ hcount)
      _ = 1 + 4 * Limits.maxExtendedHops := Nat.add_comm _ _

/-- A chain of two sectors: the second is reached through its link. -/
theorem run_reads_chain :
    let disk := RamDisk.ofPatches 1024
      [.entry 0 0 ⟨0, TypeCode.extendedChs, 100, 200⟩, .sign 0,
        .entry 100 0 ⟨0, TypeCode.extendedLba, 50, 100⟩, .sign 100, .sign 150]
    let scanned := (run ⟨512, 1024, 1024⟩).outcome
      ⟨(⟨disk, []⟩ : Transcript RamDisk), [Partition.wholeDisk 1024]⟩
    scanned.2.driver.exchanges.filterMap Exchange.sectorRead? = [0, 100, 150] ∧
      scanned.2.driver.exchanges.length ≤ 1 + 4 * Limits.maxExtendedHops := by
  intro disk scanned
  refine ⟨by decide +kernel, ?_⟩
  obtain ⟨-, _, _, -, -, -, hlength⟩ := @run_reads RamDisk _ ⟨512, 1024, 1024⟩
    (Nat.le_refl 512) disk [Partition.wholeDisk 1024]
  simpa only [scanned] using hlength

end Scan

end StorageStack

import StorageStack.Disk.Ram
import StorageStack.Partition.Scan

/-! # Reads of single sectors

A scan asks its driver for single sectors and for nothing else. A driver is steady if each
sector is answered the same way whatever was read before.
-/

namespace StorageStack

/-- The answer of a driver call and the driver that it leaves, side by side. -/
def DriverAction.outcome {δ α : Type} (action : DriverAction δ α) (driver : δ) :
    Except DriverError α × δ :=
  match action driver with
  | .ok value after => (.ok value, after)
  | .error cause after => (.error cause, after)

theorem DriverAction.outcome_eq_ok_iff {δ α : Type} {action : DriverAction δ α} {driver after : δ}
    {value : α} : action.outcome driver = (.ok value, after) ↔ action driver = .ok value after := by
  unfold outcome
  cases action driver <;> simp

theorem DriverAction.outcome_eq_error_iff {δ α : Type} {action : DriverAction δ α}
    {driver after : δ} {cause : DriverError} :
    action.outcome driver = (.error cause, after) ↔ action driver = .error cause after := by
  unfold outcome
  cases action driver <;> simp

/-- For each sector its bytes, or the failure to read it. -/
abbrev Contents := Nat → Except DriverError Bytes

/-- What an answer to a read comes to for a caller that wants a signed boot sector. -/
def BootSector.ofAnswer : Except DriverError Bytes → Except StorageError BootSector
  | .error cause => .error cause.toStorageError
  | .ok bytes =>
      match BootSector.ofBytes? bytes with
      | none => .error .invalidArgument
      | some sector => if sector.signed then .ok sector else .error .corrupt

/-- The boot sector at a position, if the sector there can be read and is signed. -/
def Contents.bootSector? (contents : Contents) (lba : Nat) : Option BootSector :=
  match contents lba with
  | .error _ => none
  | .ok bytes => (BootSector.ofBytes? bytes).filter BootSector.signed

variable {δ : Type} [DiskDriver δ]

/-- The drivers that reads of single sectors lead to. -/
inductive ReadsTo (sectorSize : Nat) (driver : δ) : δ → Prop
  | refl : ReadsTo sectorSize driver driver
  | read {before : δ} (lba : Nat) (hprior : ReadsTo sectorSize driver before) :
      ReadsTo sectorSize driver (DriverAction.outcome (DiskDriver.read lba sectorSize) before).2

/-- Each sector is answered from `contents`, whatever sectors were read before. -/
def Steady (sectorSize : Nat) (contents : Contents) (driver : δ) : Prop :=
  ∀ after, ReadsTo sectorSize driver after → ∀ lba,
    (DriverAction.outcome (DiskDriver.read lba sectorSize) after).1 = contents lba

theorem ReadsTo.trans {sectorSize : Nat} {first second third : δ}
    (hfirst : ReadsTo sectorSize first second) (hsecond : ReadsTo sectorSize second third) :
    ReadsTo sectorSize first third := by
  induction hsecond with
  | refl => exact hfirst
  | read lba _ ih => exact ih.read lba

theorem ReadsTo.next {sectorSize lba : Nat} {driver before after : δ}
    {answer : Except DriverError Bytes} (hprior : ReadsTo sectorSize driver before)
    (hread : DriverAction.outcome (DiskDriver.read lba sectorSize) before = (answer, after)) :
    ReadsTo sectorSize driver after := by
  obtain rfl : (DriverAction.outcome (DiskDriver.read lba sectorSize) before).2 = after :=
    congrArg Prod.snd hread
  exact hprior.read lba

theorem Steady.of_readsTo {sectorSize : Nat} {contents : Contents} {driver after : δ}
    (hsteady : Steady sectorSize contents driver) (hreads : ReadsTo sectorSize driver after) :
    Steady sectorSize contents after :=
  fun _ hlater => hsteady _ (hreads.trans hlater)

namespace Scan

variable {sectorSize lba : Nat} {driver after : δ} {answer : Except DriverError Bytes}

/-- To read a boot sector is to read its sector and to decide over the answer. -/
theorem outcome_readBootSector
    (hread : DriverAction.outcome (DiskDriver.read lba sectorSize) driver = (answer, after)) :
    (readBootSector sectorSize lba).outcome driver = (BootSector.ofAnswer answer, after) := by
  unfold Action.outcome readBootSector
  cases answer with
  | error cause =>
      rw [DriverAction.outcome_eq_error_iff.mp hread]
      rfl
  | ok bytes =>
      rw [DriverAction.outcome_eq_ok_iff.mp hread]
      dsimp only [BootSector.ofAnswer]
      cases BootSector.ofBytes? bytes with
      | none => rfl
      | some sector => cases hsigned : sector.signed <;> simp [hsigned]

theorem readBootSector_eq_ok {sector : BootSector}
    (hread : DriverAction.outcome (DiskDriver.read lba sectorSize) driver = (answer, after))
    (hsector : BootSector.ofAnswer answer = .ok sector) :
    readBootSector sectorSize lba driver = .ok sector after :=
  Action.outcome_eq_ok_iff.mp (hsector ▸ outcome_readBootSector hread)

theorem readBootSector_eq_error {cause : StorageError}
    (hread : DriverAction.outcome (DiskDriver.read lba sectorSize) driver = (answer, after))
    (hsector : BootSector.ofAnswer answer = .error cause) :
    readBootSector sectorSize lba driver = .error cause after :=
  Action.outcome_eq_error_iff.mp (hsector ▸ outcome_readBootSector hread)

/-- A walk that has left the disk is over. -/
theorem walk_outside {geometry : Geometry} (container : Container) (hops : Nat) (scan : Scan δ)
    (houtside : geometry.sectorCount ≤ lba) :
    walk geometry container (hops + 1) lba scan = (.complete, scan) := by
  rw [walk, if_pos houtside]

/-- One step of a walk on the disk: what follows depends on the answer to one read. -/
theorem walk_succ {geometry : Geometry} (container : Container) (hops : Nat)
    (table : List Partition) (hinside : lba < geometry.sectorCount)
    (hread : DriverAction.outcome (DiskDriver.read lba geometry.sectorSize) driver =
      (answer, after)) :
    walk geometry container (hops + 1) lba ⟨driver, table⟩ =
      match BootSector.ofAnswer answer with
      | .error _ => (.complete, ⟨after, table⟩)
      | .ok sector =>
          match admitAll (sector.logicals lba container.finish) table with
          | (.truncated, kept) => (.truncated, ⟨after, kept⟩)
          | (.complete, kept) =>
              match sector.link? with
              | none => (.complete, ⟨after, kept⟩)
              | some offset => walk geometry container hops (container.head + offset) ⟨after, kept⟩ := by
  rw [walk, if_neg (Nat.not_le_of_lt hinside)]
  cases hsector : BootSector.ofAnswer answer with
  | error cause => rw [readBootSector_eq_error hread hsector]
  | ok sector => exact readBootSector_eq_ok hread hsector ▸ rfl

theorem outcome_run_of_short {geometry : Geometry} (scan : Scan δ)
    (hshort : geometry.sectorSize < Limits.sectorSize) :
    (run geometry).outcome scan = (.error .invalidArgument, scan) := by
  unfold Action.outcome
  rw [run, if_pos hshort]

/-- A scan of a disk whose sectors are long enough: what follows depends on its first sector. -/
theorem outcome_run {geometry : Geometry} (table : List Partition)
    (hsize : Limits.sectorSize ≤ geometry.sectorSize)
    (hread : DriverAction.outcome (DiskDriver.read 0 geometry.sectorSize) driver =
      (answer, after)) :
    (run geometry).outcome ⟨driver, table⟩ =
      match BootSector.ofAnswer answer with
      | .error cause => (.error cause, ⟨after, table⟩)
      | .ok mbr =>
          match admitAll (mbr.primaries geometry.sectorCount) table with
          | (.truncated, kept) => (.ok .truncated, ⟨after, kept⟩)
          | (.complete, kept) =>
              let walked := walkAll geometry (mbr.containers geometry.sectorCount) ⟨after, kept⟩
              (.ok walked.1, walked.2) := by
  unfold Action.outcome
  rw [run, if_neg (Nat.not_lt.mpr hsize)]
  cases hsector : BootSector.ofAnswer answer with
  | error cause => rw [readBootSector_eq_error hread hsector]
  | ok mbr =>
      rw [readBootSector_eq_ok hread hsector]
      dsimp only
      rcases admitAll (mbr.primaries geometry.sectorCount) table with ⟨_ | _, kept⟩ <;> rfl

/-- Every step along a chain keeps the property: to read a sector, and to take in what a boot
sector lists. -/
structure Keeps (geometry : Geometry) (container : Container) (motive : Scan δ → Prop) : Prop where
  read : ∀ {driver after : δ} {table : List Partition} {lba : Nat}
    {answer : Except DriverError Bytes}, motive ⟨driver, table⟩ →
    DriverAction.outcome (DiskDriver.read lba geometry.sectorSize) driver = (answer, after) →
    motive ⟨after, table⟩
  take : ∀ {driver after : δ} {table : List Partition} {lba : Nat}
    {answer : Except DriverError Bytes} {sector : BootSector}, motive ⟨driver, table⟩ →
    DriverAction.outcome (DiskDriver.read lba geometry.sectorSize) driver = (answer, after) →
    BootSector.ofAnswer answer = .ok sector →
    motive ⟨after, (admitAll (sector.logicals lba container.finish) table).2⟩

section Keeps

variable {geometry : Geometry} {motive : Scan δ → Prop} {scan : Scan δ}

theorem Keeps.walk {container : Container} (hkeeps : Keeps geometry container motive)
    (hops lba : Nat) (hscan : motive scan) :
    motive (Scan.walk geometry container hops lba scan).2 := by
  induction hops generalizing lba scan with
  | zero => exact hscan
  | succ hops ih =>
      rcases Nat.lt_or_ge lba geometry.sectorCount with hinside | houtside
      · rcases hread : DriverAction.outcome (DiskDriver.read lba geometry.sectorSize) scan.driver with
          ⟨answer, after⟩
        rw [walk_succ container hops scan.table hinside hread]
        cases hsector : BootSector.ofAnswer answer with
        | error cause => exact hkeeps.read hscan hread
        | ok sector =>
            have htaken := hkeeps.take hscan hread hsector
            dsimp only
            generalize admitAll (sector.logicals lba container.finish) scan.table = admitted
              at htaken ⊢
            obtain ⟨_ | _, kept⟩ := admitted
            · cases sector.link? with
              | none => exact htaken
              | some offset => exact ih _ htaken
            · exact htaken
      · rw [walk_outside container hops scan houtside]
        exact hscan

theorem walkAll_induct {containers : List Container}
    (hkeeps : ∀ container ∈ containers, Keeps geometry container motive) (hscan : motive scan) :
    motive (walkAll geometry containers scan).2 := by
  induction containers generalizing scan with
  | nil => exact hscan
  | cons container rest ih =>
      obtain ⟨hfirst, hrest⟩ := List.forall_mem_cons.mp hkeeps
      exact ih hrest (hfirst.walk _ _ hscan)

/-- What the first sector of the disk brings about, and every step along a chain keeps, holds
after a scan. -/
theorem run_induct (hscan : motive scan)
    (hfirst : ∀ {answer after},
      DriverAction.outcome (DiskDriver.read 0 geometry.sectorSize) scan.driver = (answer, after) →
      motive ⟨after, scan.table⟩ ∧ ∀ {mbr}, BootSector.ofAnswer answer = .ok mbr →
        motive ⟨after, (admitAll (mbr.primaries geometry.sectorCount) scan.table).2⟩)
    (hkeeps : ∀ mbr : BootSector, ∀ container ∈ mbr.containers geometry.sectorCount,
      Keeps geometry container motive) :
    motive ((run geometry).outcome scan).2 := by
  rcases Nat.lt_or_ge geometry.sectorSize Limits.sectorSize with hshort | hsize
  · rw [outcome_run_of_short scan hshort]
    exact hscan
  · rcases hread : DriverAction.outcome (DiskDriver.read 0 geometry.sectorSize) scan.driver with
      ⟨answer, after⟩
    obtain ⟨hrefused, htaken⟩ := hfirst hread
    rw [outcome_run scan.table hsize hread]
    cases hsector : BootSector.ofAnswer answer with
    | error cause => exact hrefused
    | ok mbr =>
        have hadmitted := htaken hsector
        dsimp only
        generalize admitAll (mbr.primaries geometry.sectorCount) scan.table = admitted
          at hadmitted ⊢
        obtain ⟨_ | _, kept⟩ := admitted
        · exact walkAll_induct (hkeeps mbr) hadmitted
        · exact hadmitted

end Keeps

end Scan

theorem Contents.bootSector?_eq_some_iff {contents : Contents} {lba : Nat} {sector : BootSector} :
    contents.bootSector? lba = some sector ↔ BootSector.ofAnswer (contents lba) = .ok sector := by
  unfold bootSector? BootSector.ofAnswer
  cases contents lba with
  | error cause => simp
  | ok bytes =>
      dsimp only
      cases BootSector.ofBytes? bytes with
      | none => simp
      | some found => cases hsigned : found.signed <;> simp [Option.filter, hsigned]

/-- The outcome of a read that a steady driver is asked for. -/
theorem Steady.outcome_read {sectorSize : Nat} {contents : Contents} {driver : δ}
    (hsteady : Steady sectorSize contents driver) (lba : Nat) :
    ∃ after, Steady sectorSize contents after ∧
      DriverAction.outcome (DiskDriver.read lba sectorSize) driver = (contents lba, after) :=
  ⟨_, hsteady.of_readsTo (ReadsTo.refl.read lba), Prod.ext (hsteady driver .refl lba) rfl⟩

theorem Steady.readBootSector_eq_ok {sectorSize : Nat} {contents : Contents} {driver : δ}
    (hsteady : Steady sectorSize contents driver) {lba : Nat} {sector : BootSector}
    (hsector : contents.bootSector? lba = some sector) :
    ∃ after, Steady sectorSize contents after ∧
      Scan.readBootSector sectorSize lba driver = .ok sector after := by
  obtain ⟨after, hafter, hread⟩ := hsteady.outcome_read lba
  exact ⟨after, hafter, Scan.readBootSector_eq_ok hread (Contents.bootSector?_eq_some_iff.mp hsector)⟩

theorem Steady.readBootSector_eq_error {sectorSize : Nat} {contents : Contents} {driver : δ}
    (hsteady : Steady sectorSize contents driver) {lba : Nat}
    (hnone : contents.bootSector? lba = none) :
    ∃ cause after, Steady sectorSize contents after ∧
      Scan.readBootSector sectorSize lba driver = .error cause after := by
  obtain ⟨after, hafter, hread⟩ := hsteady.outcome_read lba
  cases hsector : BootSector.ofAnswer (contents lba) with
  | error cause => exact ⟨cause, after, hafter, Scan.readBootSector_eq_error hread hsector⟩
  | ok sector =>
      rw [Contents.bootSector?_eq_some_iff.mpr hsector] at hnone
      cases hnone

namespace Scan

/-- A scan does nothing to its driver but read single sectors. -/
theorem readsTo_run (geometry : Geometry) (scan : Scan δ) :
    ReadsTo geometry.sectorSize scan.driver ((run geometry).outcome scan).2.driver := by
  refine run_induct (motive := fun scanned => ReadsTo geometry.sectorSize scan.driver scanned.driver)
    .refl (fun hread => ⟨ReadsTo.refl.next hread, fun _ => ReadsTo.refl.next hread⟩) fun _ _ _ => ?_
  exact ⟨fun hprior hread => hprior.next hread, fun hprior hread _ => hprior.next hread⟩

end Scan

namespace RamDisk

/-- The sectors of a RAM disk, for calls of the given length. -/
def sectors (disk : RamDisk) (sectorSize : Nat) : Contents := fun lba =>
  if disk.Serves lba sectorSize then
    .ok (disk.contents.read (lba * disk.sectorSize) sectorSize)
  else .error .hardware

/-- A read is counted, whether it is served or refused. -/
theorem outcome_read (disk : RamDisk) (lba length : Nat) :
    DriverAction.outcome (DiskDriver.read lba length) disk =
      (disk.sectors length lba, { disk with readCount := disk.readCount + 1 }) := by
  change DriverAction.outcome (RamDisk.read lba length) disk = _
  unfold DriverAction.outcome RamDisk.read sectors
  by_cases hserves : disk.Serves lba length
  · simp only [if_pos hserves]
  · simp only [if_neg hserves]

theorem eq_of_readsTo {disk after : RamDisk} {sectorSize : Nat}
    (hreads : ReadsTo sectorSize disk after) : ∃ readCount, after = { disk with readCount } := by
  induction hreads with
  | refl => exact ⟨disk.readCount, rfl⟩
  | read lba _ ih =>
      obtain ⟨readCount, rfl⟩ := ih
      exact ⟨readCount + 1, by rw [outcome_read]⟩

theorem steady (disk : RamDisk) (sectorSize : Nat) :
    Steady sectorSize (disk.sectors sectorSize) disk := by
  intro after hreads
  obtain ⟨readCount, rfl⟩ := eq_of_readsTo hreads
  intro lba
  rw [outcome_read]
  rfl

end RamDisk

end StorageStack

import Mathlib.Data.List.Basic
import StorageStack.Proofs.Partition.Trail

/-! # Failures of a scan

A scan fails over the first sector of the disk or not at all. When it fails, at most that one
sector has been read and the table is as it was; when it succeeds, it has put partitions behind
those that the table already had.
-/

namespace StorageStack

namespace BootSector

/-- The signature stands at the end of the first 512 bytes. -/
def Marked (bytes : Bytes) : Prop := bytes[510]? = some 0x55 ∧ bytes[511]? = some 0xAA

variable {bytes : Bytes}

theorem signed_iff_marked (long : Limits.sectorSize ≤ bytes.length) :
    (⟨bytes, long⟩ : BootSector).signed = true ↔ Marked bytes := by
  have hlong : 512 ≤ bytes.length := long
  have hlow : bytes[510]? = some bytes[510] := List.getElem?_eq_getElem (by omega)
  have hhigh : bytes[511]? = some bytes[511] := List.getElem?_eq_getElem (by omega)
  unfold signed Marked signatureOffset
  simp [List.getD_eq_getElem?_getD, hlow, hhigh]

/-- A payload long enough is a boot sector if it is marked, and otherwise it is corrupt. -/
theorem ofAnswer_ok (long : Limits.sectorSize ≤ bytes.length) :
    (Marked bytes → ofAnswer (.ok bytes) = .ok ⟨bytes, long⟩) ∧
      (¬ Marked bytes → ofAnswer (.ok bytes) = .error .corrupt) := by
  have hsigned := signed_iff_marked long
  have hsector : ofBytes? bytes = some ⟨bytes, long⟩ := dif_pos long
  unfold ofAnswer
  dsimp only
  rw [hsector]
  exact ⟨fun hmarked => if_pos (hsigned.mpr hmarked),
    fun hunmarked => if_neg (mt hsigned.mp hunmarked)⟩

end BootSector

namespace Scan

/-- Admission puts partitions behind those that the table has. -/
theorem prefix_admitAll (candidates : List Candidate) (table : List Partition) :
    table <+: (admitAll candidates table).2 := by
  induction candidates generalizing table with
  | nil => exact List.prefix_rfl
  | cons candidate rest ih =>
      unfold admitAll
      split
      · split
        · exact (List.prefix_append table _).trans (ih _)
        · exact List.prefix_rfl
      · exact ih table

variable {δ : Type} [DiskDriver δ]

theorem prefix_run (geometry : Geometry) (scan : Scan δ) :
    scan.table <+: ((run geometry).outcome scan).2.table := by
  refine run_induct (motive := fun scanned => scan.table <+: scanned.table) List.prefix_rfl
    (fun _ => ⟨List.prefix_rfl, fun _ => prefix_admitAll _ _⟩) fun _ _ _ => ?_
  exact ⟨fun hprior _ => hprior, fun hprior _ _ => hprior.trans (prefix_admitAll _ _)⟩

/-- Why a scan fails, with the calls that it has made by then and the driver that they leave. -/
inductive Fails (geometry : Geometry) (driver : δ) : StorageError → List Exchange → δ → Prop
  | short (hshort : geometry.sectorSize < Limits.sectorSize) :
      Fails geometry driver .invalidArgument [] driver
  | unreadable {cause : DriverError} {after : δ}
      (hsize : Limits.sectorSize ≤ geometry.sectorSize)
      (hread : DriverAction.outcome (DiskDriver.read 0 geometry.sectorSize) driver =
        (.error cause, after)) :
      Fails geometry driver .ioError [.read 0 geometry.sectorSize (.error cause)] after
  | unmarked {bytes : Bytes} {after : δ} (hsize : Limits.sectorSize ≤ geometry.sectorSize)
      (hread : DriverAction.outcome (DiskDriver.read 0 geometry.sectorSize) driver =
        (.ok bytes, after))
      (hunmarked : ¬ BootSector.Marked bytes) :
      Fails geometry driver .corrupt [.read 0 geometry.sectorSize (.ok bytes)] after

variable {geometry : Geometry} {driver : δ}

theorem length_le_of_fails {cause : StorageError} {calls : List Exchange} {after : δ}
    (hfails : Fails geometry driver cause calls after) : calls.length ≤ 1 := by
  cases hfails with
  | short => exact Nat.zero_le 1
  | unreadable | unmarked => exact Nat.le_refl 1

theorem sectorSize_le_length {bytes : Bytes} {after : δ}
    (hsize : Limits.sectorSize ≤ geometry.sectorSize)
    (hread : DriverAction.outcome (DiskDriver.read 0 geometry.sectorSize) driver =
      (.ok bytes, after)) : Limits.sectorSize ≤ bytes.length := by
  rw [DiskDriver.length_read (DriverAction.outcome_eq_ok_iff.mp hread)]
  exact hsize

/-- A scan that has a reason to fail does so at once. -/
theorem outcome_run_of_fails {cause : StorageError} {calls : List Exchange} {after : δ}
    (hfails : Fails geometry driver cause calls after) (table : List Partition) :
    (run geometry).outcome ⟨(⟨driver, []⟩ : Transcript δ), table⟩ =
      (.error cause, ⟨⟨after, calls⟩, table⟩) := by
  cases hfails with
  | short hshort => exact outcome_run_of_short _ hshort
  | unreadable hsize hread =>
      rw [outcome_run table hsize (Transcript.outcome_read [] hread)]
      rfl
  | unmarked hsize hread hunmarked =>
      rw [outcome_run table hsize (Transcript.outcome_read [] hread),
        (BootSector.ofAnswer_ok (sectorSize_le_length hsize hread)).2 hunmarked]
      rfl

/-- Once the first sector has been read as a boot sector, nothing makes a scan fail. -/
theorem outcome_run_of_marked {bytes : Bytes} {after : δ}
    (hsize : Limits.sectorSize ≤ geometry.sectorSize)
    (hread : DriverAction.outcome (DiskDriver.read 0 geometry.sectorSize) driver =
      (.ok bytes, after))
    (hmarked : BootSector.Marked bytes) (table : List Partition) :
    ∃ status, ((run geometry).outcome ⟨driver, table⟩).1 = .ok status := by
  rw [outcome_run table hsize hread,
    (BootSector.ofAnswer_ok (sectorSize_le_length hsize hread)).1 hmarked]
  dsimp only
  split
  · exact ⟨.truncated, rfl⟩
  · exact ⟨_, rfl⟩

/-- The first sector gives a scan a reason to fail, or it is a boot sector. -/
theorem fails_or_marked (geometry : Geometry) (driver : δ) :
    (∃ cause calls after, Fails geometry driver cause calls after) ∨
      Limits.sectorSize ≤ geometry.sectorSize ∧ ∃ bytes after,
        DriverAction.outcome (DiskDriver.read 0 geometry.sectorSize) driver = (.ok bytes, after) ∧
          BootSector.Marked bytes := by
  rcases Nat.lt_or_ge geometry.sectorSize Limits.sectorSize with hshort | hsize
  · exact Or.inl ⟨_, _, _, .short hshort⟩
  · rcases hread : DriverAction.outcome (DiskDriver.read 0 geometry.sectorSize) driver with
      ⟨cause | bytes, after⟩
    · exact Or.inl ⟨_, _, _, .unreadable hsize hread⟩
    · by_cases hmarked : BootSector.Marked bytes
      · exact Or.inr ⟨hsize, bytes, after, rfl, hmarked⟩
      · exact Or.inl ⟨_, _, _, .unmarked hsize hread hmarked⟩

/-- A scan goes the same way with and without a transcript. -/
theorem forget_outcome_run (geometry : Geometry) (scan : Scan (Transcript δ)) :
    let scanned := (run geometry).outcome scan
    (run geometry).outcome scan.forget = (scanned.1, scanned.2.forget) := by
  obtain ⟨⟨driver, exchanges⟩, table⟩ := scan
  rcases Nat.lt_or_ge geometry.sectorSize Limits.sectorSize with hshort | hsize
  · rw [outcome_run_of_short _ hshort, outcome_run_of_short _ hshort]
  · rcases hread : DriverAction.outcome (DiskDriver.read 0 geometry.sectorSize) driver with
      ⟨answer, after⟩
    rw [outcome_run table hsize (Transcript.outcome_read exchanges hread), forget,
      outcome_run table hsize hread]
    cases BootSector.ofAnswer answer with
    | error cause => rfl
    | ok mbr =>
        dsimp only
        rcases admitAll (mbr.primaries geometry.sectorCount) table with ⟨_ | _, admitted⟩
        · obtain ⟨hforget, -⟩ := walkAll_transcript geometry (mbr.containers geometry.sectorCount)
            ⟨⟨after, exchanges ++ [.read 0 geometry.sectorSize answer]⟩, admitted⟩
          unfold forget at hforget
          dsimp only at hforget ⊢
          rw [hforget]
          rfl
        · rfl

end Scan

end StorageStack

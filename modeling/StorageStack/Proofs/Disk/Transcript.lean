import StorageStack.Proofs.Disk.Reads

/-! # Transcripts

A transcript stands between a driver and its caller and keeps each call with its answer.
The caller is served as the driver itself would serve it.
-/

namespace StorageStack

/-- A driver call with its answer. -/
inductive Exchange where
  | geometry (answer : Except DriverError Geometry)
  | read (lba length : Nat) (answer : Except DriverError Bytes)
  | write (lba : Nat) (bytes : Bytes) (answer : Except DriverError Unit)

/-- The sector with which a read begins. -/
def Exchange.sectorRead? : Exchange → Option Nat
  | read lba _ _ => some lba
  | geometry _ => none
  | write _ _ _ => none

/-- A driver and the calls that it has answered, the oldest first. -/
structure Transcript (δ : Type) where
  driver : δ
  exchanges : List Exchange := []

namespace Transcript

variable {δ α : Type}

/-- Make a call and keep it with its answer. -/
def keeping (exchange : Except DriverError α → Exchange) (action : DriverAction δ α) :
    DriverAction (Transcript δ) α := fun transcript =>
  match action transcript.driver with
  | .ok value driver => .ok value ⟨driver, transcript.exchanges ++ [exchange (.ok value)]⟩
  | .error cause driver => .error cause ⟨driver, transcript.exchanges ++ [exchange (.error cause)]⟩

theorem outcome_keeping (exchange : Except DriverError α → Exchange) (action : DriverAction δ α)
    (transcript : Transcript δ) :
    (keeping exchange action).outcome transcript =
      let (answer, driver) := action.outcome transcript.driver
      (answer, ⟨driver, transcript.exchanges ++ [exchange answer]⟩) := by
  unfold DriverAction.outcome keeping
  cases action transcript.driver <;> rfl

instance [DiskDriver δ] : DiskDriver (Transcript δ) where
  geometry := keeping .geometry DiskDriver.geometry
  read lba length := keeping (.read lba length) (DiskDriver.read lba length)
  write lba bytes := keeping (.write lba bytes) (DiskDriver.write lba bytes)
  length_read := by
    intro lba length transcript after bytes hread
    unfold keeping at hread
    split at hread
    · next hdriver =>
      cases hread
      exact DiskDriver.length_read hdriver
    · cases hread

variable [DiskDriver δ]

theorem outcome_geometry {driver after : δ} {answer : Except DriverError Geometry}
    (exchanges : List Exchange)
    (hgeometry : DriverAction.outcome DiskDriver.geometry driver = (answer, after)) :
    DriverAction.outcome DiskDriver.geometry (⟨driver, exchanges⟩ : Transcript δ) =
      (answer, ⟨after, exchanges ++ [.geometry answer]⟩) := by
  have hkept := outcome_keeping .geometry DiskDriver.geometry (⟨driver, exchanges⟩ : Transcript δ)
  rw [hgeometry] at hkept
  exact hkept

theorem outcome_read {lba length : Nat} {driver after : δ} {answer : Except DriverError Bytes}
    (exchanges : List Exchange)
    (hread : DriverAction.outcome (DiskDriver.read lba length) driver = (answer, after)) :
    DriverAction.outcome (DiskDriver.read lba length) (⟨driver, exchanges⟩ : Transcript δ) =
      (answer, ⟨after, exchanges ++ [.read lba length answer]⟩) := by
  have hkept := outcome_keeping (.read lba length) (DiskDriver.read lba length)
    (⟨driver, exchanges⟩ : Transcript δ)
  rw [hread] at hkept
  exact hkept

theorem outcome_write {lba : Nat} {bytes : Bytes} {driver after : δ}
    {answer : Except DriverError Unit} (exchanges : List Exchange)
    (hwrite : DriverAction.outcome (DiskDriver.write lba bytes) driver = (answer, after)) :
    DriverAction.outcome (DiskDriver.write lba bytes) (⟨driver, exchanges⟩ : Transcript δ) =
      (answer, ⟨after, exchanges ++ [.write lba bytes answer]⟩) := by
  have hkept := outcome_keeping (.write lba bytes) (DiskDriver.write lba bytes)
    (⟨driver, exchanges⟩ : Transcript δ)
  rw [hwrite] at hkept
  exact hkept

/-- A read leaves a transcript with one more exchange. -/
theorem exchanges_of_read {lba length : Nat} {transcript after : Transcript δ}
    {answer : Except DriverError Bytes}
    (hread : DriverAction.outcome (DiskDriver.read lba length) transcript = (answer, after)) :
    after.exchanges = transcript.exchanges ++ [.read lba length answer] := by
  cases (outcome_read transcript.exchanges rfl).symm.trans hread
  rfl

end Transcript

end StorageStack

import StorageStack.Action
import StorageStack.Disk.Driver
import StorageStack.Partition.Basic

/-! # Partition scan

A scan turns the boot sector of a disk and its extended chains into one flat table.
Candidates are tried in a fixed order, primaries before logical partitions, and each
is kept if it lies within its bounds and meets no partition kept before. A scan fails
only over the first sector of the disk; anything wrong further on ends one chain.
-/

namespace StorageStack

/-- Whether the table lists everything that the disk describes. -/
inductive ScanStatus where
  | complete
  | truncated
deriving DecidableEq, Repr

namespace ScanStatus

/-- The word shown for a status. -/
def display : ScanStatus → String
  | complete => "complete"
  | truncated => "truncated"

/-- Two parts of a scan are complete together if each is. -/
def join : ScanStatus → ScanStatus → ScanStatus
  | complete, status => status
  | truncated, _ => truncated

end ScanStatus

/-- A partition that a boot sector proposes. The entry's start counts from `base`, and
the range has to lie between `lower` and `upper`. -/
structure Candidate where
  entry : Entry
  base : Nat
  lower : Nat
  upper : Nat
  mbrNum : Nat := 0
  eraseBlock : Option UInt32 := none
deriving DecidableEq, Repr

namespace Candidate

/-- The first sector, absolute. -/
def start (candidate : Candidate) : Nat := candidate.base + candidate.entry.start.toNat

/-- The first sector behind the range, absolute. -/
def finish (candidate : Candidate) : Nat := candidate.start + candidate.entry.count.toNat

/-- The range keeps to the candidate's bounds. -/
def InBounds (candidate : Candidate) : Prop :=
  candidate.lower ≤ candidate.start ∧ candidate.finish ≤ candidate.upper

instance (candidate : Candidate) : Decidable candidate.InBounds :=
  inferInstanceAs (Decidable (_ ∧ _))

/-- The range meets no partition of the table, the whole disk in slot 0 left aside. -/
def Fits (candidate : Candidate) (table : List Partition) : Prop :=
  candidate.InBounds ∧
    ∀ partition ∈ table.tail, ¬ partition.Overlaps candidate.start candidate.finish

instance (candidate : Candidate) (table : List Partition) : Decidable (candidate.Fits table) :=
  inferInstanceAs (Decidable (_ ∧ _))

/-- The record of the candidate in the given slot. -/
def toPartition (candidate : Candidate) (slot : Nat) : Partition where
  logicalNum := slot
  mbrNum := candidate.mbrNum
  start := candidate.start
  count := candidate.entry.count.toNat
  bootable := candidate.entry.bootable
  bootUnit := candidate.entry.bootUnit
  typeCode := candidate.entry.typeCode
  eraseBlock := candidate.eraseBlock

end Candidate

/-- An extended entry of the first sector: where its chain starts and where its
partitions have to end. -/
structure Container where
  head : Nat
  finish : Nat
deriving DecidableEq, Repr

namespace BootSector

/-- The primary candidates of the first sector. They keep clear of sector 0. -/
def primaries (sector : BootSector) (sectorCount : Nat) : List Candidate :=
  sector.dataEntries.map fun (slot, entry) =>
    { entry, base := 0, lower := 1, upper := sectorCount, mbrNum := slot + 1,
      eraseBlock := sector.eraseBlock? slot }

/-- The containers of the first sector, cut off at the end of the disk. -/
def containers (sector : BootSector) (sectorCount : Nat) : List Container :=
  sector.extendedEntries.map fun entry =>
    ⟨entry.start.toNat, min (entry.start.toNat + entry.count.toNat) sectorCount⟩

/-- The logical candidates of a chain sector at `lba`. They start behind that sector. -/
def logicals (sector : BootSector) (lba finish : Nat) : List Candidate :=
  sector.dataEntries.map fun (_, entry) =>
    { entry, base := lba, lower := lba + 1, upper := finish }

/-- The distance from the head of the chain to its next sector. Only the first link of
a sector counts. -/
def link? (sector : BootSector) : Option Nat :=
  sector.extendedEntries.head?.map fun entry => entry.start.toNat

end BootSector

/-- A disk under scan and the table built so far. -/
structure Scan (δ : Type) where
  driver : δ
  table : List Partition

namespace Scan

/-- Try candidates in order. The table is truncated at the first one that would be kept
and finds no free slot; the candidates behind it are not tried. -/
def admitAll : List Candidate → List Partition → ScanStatus × List Partition
  | [], table => (.complete, table)
  | candidate :: rest, table =>
      if candidate.Fits table then
        -- Only a candidate that would be kept can find the table full.
        if table.length < Limits.maxPartitions then
          admitAll rest (table ++ [candidate.toPartition table.length])
        else (.truncated, table)
      else admitAll rest table

variable {δ : Type} [DiskDriver δ]

/-- Read one sector as a signed boot sector. -/
def readBootSector (sectorSize lba : Nat) : Action δ BootSector := fun driver =>
  match DiskDriver.read lba sectorSize driver with
  | .error cause driver => .error cause.toStorageError driver
  | .ok bytes driver =>
      match BootSector.ofBytes? bytes with
      | none => .error .invalidArgument driver
      | some sector => if sector.signed then .ok sector driver else .error .corrupt driver

/-- Follow an extended chain for a bounded number of sectors. The chain ends at a sector
that is off the disk, unreadable or unsigned; it is truncated by a full table and by a
link that is still pending when the bound is reached. -/
def walk (geometry : Geometry) (container : Container) :
    Nat → Nat → Scan δ → ScanStatus × Scan δ
  | 0, _, scan => (.truncated, scan)
  | hops + 1, lba, scan =>
      if geometry.sectorCount ≤ lba then (.complete, scan)
      else
        match readBootSector geometry.sectorSize lba scan.driver with
        -- A chain that breaks off keeps what it listed before.
        | .error _ driver => (.complete, { scan with driver })
        | .ok sector driver =>
            match admitAll (sector.logicals lba container.finish) scan.table with
            | (.truncated, table) => (.truncated, ⟨driver, table⟩)
            | (.complete, table) =>
                match sector.link? with
                | none => (.complete, ⟨driver, table⟩)
                -- Links count from the head of the chain, logical partitions from `lba`.
                | some offset => walk geometry container hops (container.head + offset) ⟨driver, table⟩

/-- Walk every container. A chain that is cut short does not keep the next from being read. -/
def walkAll (geometry : Geometry) : List Container → Scan δ → ScanStatus × Scan δ
  | [], scan => (.complete, scan)
  | container :: rest, scan =>
      let first := walk geometry container Limits.maxExtendedHops container.head scan
      let later := walkAll geometry rest first.2
      (first.1.join later.1, later.2)

/-- Scan the disk into the table that was passed in, whose slot 0 stands for the disk. -/
def run (geometry : Geometry) : Action (Scan δ) ScanStatus := fun scan =>
  if geometry.sectorSize < Limits.sectorSize then .error .invalidArgument scan
  else
    match readBootSector geometry.sectorSize 0 scan.driver with
    | .error cause driver => .error cause { scan with driver }
    | .ok sector driver =>
        match admitAll (sector.primaries geometry.sectorCount) scan.table with
        -- With the table full no chain is read.
        | (.truncated, table) => .ok .truncated ⟨driver, table⟩
        | (.complete, table) =>
            let walked := walkAll geometry (sector.containers geometry.sectorCount) ⟨driver, table⟩
            .ok walked.1 walked.2

end Scan

end StorageStack

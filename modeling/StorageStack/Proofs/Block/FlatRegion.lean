import StorageStack.Proofs.Block.RamDevices
import StorageStack.Proofs.Block.Transfer

/-! # Regions as flat bytes

A region on a store without bad sectors behaves like a list of bytes, however its ranges
meet the sectors.
-/

namespace StorageStack

/-- A transfer of bytes asked of a region. -/
inductive RegionCall where
  | read (offset length : Nat)
  | write (offset : Nat) (bytes : Bytes)
deriving DecidableEq, Repr

namespace RegionCall

variable {σ : Type}

/-- A call on a region. A write delivers nothing but its failure. -/
def run {δ : Type} [DiskDriver δ] (region : Region) (blocks : BlockDevices δ) :
    RegionCall → Delivery × BlockDevices δ
  | read offset length => region.read offset length blocks
  | write offset bytes =>
      match region.write offset bytes blocks with
      | .ok _ after => (⟨[], none⟩, after)
      | .error cause after => (⟨[], some cause⟩, after)

/-- The same call on a list of bytes. -/
def runFlat (flat : Bytes) : RegionCall → Delivery × Bytes
  | read offset length =>
      if flat.length < offset + length then (⟨[], some .outOfRange⟩, flat)
      else (⟨(flat.drop offset).take length, none⟩, flat)
  | write offset bytes =>
      if flat.length < offset + bytes.length then (⟨[], some .outOfRange⟩, flat)
      else (⟨[], none⟩, flat.splice offset bytes)

/-- The answers to calls made one after the other, and the state that they leave. -/
def runAll (step : σ → RegionCall → Delivery × σ) : List RegionCall → σ → List Delivery × σ
  | [], state => ([], state)
  | call :: rest, state =>
      let later := runAll step rest (step state call).2
      ((step state call).1 :: later.1, later.2)

/-- If each call keeps two states related and is answered alike, so is every list of calls. -/
theorem runAll_related {τ : Type} {related : σ → τ → Prop}
    {left : σ → RegionCall → Delivery × σ} {right : τ → RegionCall → Delivery × τ}
    (hstep : ∀ {first second}, related first second → ∀ call,
      (left first call).1 = (right second call).1 ∧
        related (left first call).2 (right second call).2)
    (calls : List RegionCall) {first : σ} {second : τ} (hrelated : related first second) :
    (runAll left calls first).1 = (runAll right calls second).1 ∧
      related (runAll left calls first).2 (runAll right calls second).2 := by
  induction calls generalizing first second with
  | nil => exact ⟨rfl, hrelated⟩
  | cons call rest ih =>
      obtain ⟨hanswer, hafter⟩ := hstep hrelated call
      obtain ⟨hanswers, hlast⟩ := ih hafter
      exact ⟨congrArg₂ List.cons hanswer hanswers, hlast⟩

end RegionCall

/-- The bytes of a partition on a RAM disk, sector after sector. -/
def Partition.bytes (partition : Partition) (disk : RamDisk) : Bytes :=
  (List.range' partition.start partition.count).flatMap fun lba =>
    disk.contents.read (lba * disk.sectorSize) disk.sectorSize

theorem Partition.bytes_eq_slice (partition : Partition) (disk : RamDisk) :
    partition.bytes disk = Row.slice disk.contents.get (partition.start * disk.sectorSize)
      (partition.count * disk.sectorSize) :=
  Row.flatMap_slice _ _ _ _

theorem RamDisk.Holds.bytes_eq {disk driver : RamDisk} {row : Row} (hholds : disk.Holds driver row)
    (partition : Partition) :
    partition.bytes driver =
      row.slice (partition.start * disk.sectorSize) (partition.count * disk.sectorSize) := by
  obtain ⟨contents, readCount, writeCount, rfl, rfl⟩ := hholds
  exact partition.bytes_eq_slice _

namespace BlockDevices

/-- The devices after changes to the driver of one disk, and the bytes that a partition has
in the row that this driver keeps. -/
def Shows {δ : Type} (blocks : BlockDevices δ) (disk : AttachedDisk δ) (layout : Layout)
    (partition : Partition) (holds : δ → Row → Prop) (after : BlockDevices δ) (flat : Bytes) : Prop :=
  ∃ driver row, after = blocks.replace { disk with driver } ∧ holds driver row ∧
    flat = row.slice (partition.start * layout.geometry.sectorSize)
      (partition.count * layout.geometry.sectorSize)

namespace Resolves

variable {δ : Type} [DiskDriver δ] {blocks : BlockDevices δ} {device : DeviceHandle}
  {disk : AttachedDisk δ} {layout : Layout} {partition : Partition} {sectorCount : Nat}
  {holds : δ → Row → Prop}

variable (hresolves : Resolves blocks device disk layout partition)
  (hstore : SectorStore layout.geometry.sectorSize sectorCount
    (fun _ => False) (fun _ => False) holds)
  (hsize : 0 < layout.geometry.sectorSize) (hfinish : partition.finish ≤ sectorCount)

include hresolves hstore hsize hfinish

section Inside

variable {driver : δ} {row : Row} (hholds : holds driver row) {offset : Nat}

include hholds

theorem read_inside {length : Nat}
    (hrange : offset + length ≤ (Region.onLayout device layout partition).capacity) :
    ∃ after, holds after row ∧
      (Region.onLayout device layout partition).read offset length
          (blocks.replace { disk with driver }) =
        (⟨row.slice (partition.start * layout.geometry.sectorSize + offset) length, none⟩,
          blocks.replace { disk with driver := after }) := by
  obtain ⟨done, after, hprogress, hafter, hread⟩ :=
    hresolves.readPieces_stored hstore hsize hfinish hholds (Region.le_of_le_capacity hrange)
  obtain rfl := hprogress.eq_length
  rw [if_pos rfl] at hread
  exact ⟨after, hafter, (Region.read_of_le hrange _).trans hread⟩

theorem write_inside {bytes : Bytes}
    (hrange : offset + bytes.length ≤ (Region.onLayout device layout partition).capacity) :
    ∃ after, holds after
        (row.overlay (partition.start * layout.geometry.sectorSize + offset) bytes) ∧
      (Region.onLayout device layout partition).write offset bytes
          (blocks.replace { disk with driver }) =
        .ok () (blocks.replace { disk with driver := after }) := by
  obtain ⟨done, after, hprogress, hafter, hwrite⟩ :=
    hresolves.writePieces_stored hstore hsize hfinish hholds (Region.le_of_le_capacity hrange)
  have hdone : done = bytes.length := by
    refine Nat.le_antisymm hprogress.done_le (Nat.le_of_not_lt fun hearly => ?_)
    exact (hprogress.stopped hearly).elim id id
  rw [if_pos hdone] at hwrite
  rw [hdone, List.take_length] at hafter
  exact ⟨after, hafter, (Region.write_of_le hrange _).trans hwrite⟩

end Inside

/-- One call on the region is answered, and changes the bytes, as on the flat list. -/
theorem run_shows (hfits : partition.count * layout.geometry.sectorSize < UInt64.size)
    {after : BlockDevices δ} {flat : Bytes}
    (hshows : Shows blocks disk layout partition holds after flat) (call : RegionCall) :
    (RegionCall.run (Region.onLayout device layout partition) after call).1 =
        (RegionCall.runFlat flat call).1 ∧
      Shows blocks disk layout partition holds
        (RegionCall.run (Region.onLayout device layout partition) after call).2
        (RegionCall.runFlat flat call).2 := by
  obtain ⟨driver, row, rfl, hholds, rfl⟩ := hshows
  have hcapacity : (Region.onLayout device layout partition).capacity =
      partition.count * layout.geometry.sectorSize := Region.capacity_of_fits hfits
  cases call with
  | read offset length =>
      rw [RegionCall.run, RegionCall.runFlat, Row.length_slice]
      by_cases hrange : partition.count * layout.geometry.sectorSize < offset + length
      · rw [if_pos hrange, Region.read_outside (hcapacity ▸ hrange)]
        exact ⟨rfl, driver, row, rfl, hholds, rfl⟩
      · have hinside := Nat.le_of_not_lt hrange
        obtain ⟨last, hlast, hread⟩ :=
          read_inside hresolves hstore hsize hfinish hholds (hcapacity ▸ hinside)
        rw [if_neg hrange, Row.take_drop_slice row _ hinside, hread]
        exact ⟨rfl, last, row, rfl, hlast, rfl⟩
  | write offset bytes =>
      rw [RegionCall.run, RegionCall.runFlat, Row.length_slice]
      by_cases hrange : partition.count * layout.geometry.sectorSize < offset + bytes.length
      · rw [if_pos hrange, Region.write_outside (hcapacity ▸ hrange)]
        exact ⟨rfl, driver, row, rfl, hholds, rfl⟩
      · have hinside := Nat.le_of_not_lt hrange
        obtain ⟨last, hlast, hwrite⟩ :=
          write_inside hresolves hstore hsize hfinish hholds (hcapacity ▸ hinside)
        rw [if_neg hrange, hwrite]
        exact ⟨rfl, last, _, rfl, hlast, (Row.slice_overlay row _ hinside).symm⟩

end Resolves

/-- On a RAM disk that is not failing, a region is the flat list of the bytes of its
partition, if a word can count them. A call outside it is refused and changes nothing; a call
inside it succeeds, and moves exactly the bytes of its range. -/
theorem region_eq_flat {blocks : BlockDevices RamDisk} (hreach : Reachable RamDisk.switches blocks)
    {device : DeviceHandle} {disk : AttachedDisk RamDisk} {layout : Layout} {partition : Partition}
    (hresolves : Resolves blocks device disk layout partition)
    (hserving : disk.driver.failing = false) {region : Region}
    (hregion : Region.ofDevice blocks device = .ok region) :
    (partition.count * disk.driver.sectorSize < UInt64.size →
      region.capacity = partition.count * disk.driver.sectorSize ∧
      (partition.bytes disk.driver).length = region.capacity) ∧
    (∀ offset length,
      (region.capacity < offset + length →
        region.read offset length blocks = (⟨[], some .outOfRange⟩, blocks)) ∧
      (offset + length ≤ region.capacity → ∃ driver,
        disk.driver.Holds driver disk.driver.contents.get ∧
        region.read offset length blocks =
          (⟨((partition.bytes disk.driver).drop offset).take length, none⟩,
            blocks.replace { disk with driver }))) ∧
    (∀ offset bytes,
      (region.capacity < offset + bytes.length →
        region.write offset bytes blocks = .error .outOfRange blocks) ∧
      (offset + bytes.length ≤ region.capacity → ∃ driver,
        disk.driver.Holds driver (Row.overlay disk.driver.contents.get
          (partition.start * disk.driver.sectorSize + offset) bytes) ∧
        partition.bytes driver = (partition.bytes disk.driver).splice offset bytes ∧
        region.write offset bytes blocks = .ok () (blocks.replace { disk with driver }))) ∧
    (partition.count * disk.driver.sectorSize < UInt64.size →
      ∀ calls, ∃ driver row, disk.driver.Holds driver row ∧
        RegionCall.runAll (RegionCall.run region) calls blocks =
          ((RegionCall.runAll RegionCall.runFlat calls (partition.bytes disk.driver)).1,
            blocks.replace { disk with driver }) ∧
        partition.bytes driver =
          (RegionCall.runAll RegionCall.runFlat calls (partition.bytes disk.driver)).2) := by
  obtain rfl : Region.onLayout device layout partition = region :=
    Except.ok.inj (hresolves.ofDevice_eq.symm.trans hregion)
  have hram := hresolves.onRam hreach
  have hsector := hram.sectorSize_eq
  have hsize := hram.sectorSize_pos
  have hstore := RamDisk.sectorStore hserving
  rw [← hsector] at hstore
  have hself := hresolves.replace_self hreach.nodup_diskIds
  have hholds := disk.driver.holds_self
  have hbytes := hholds.bytes_eq partition
  rw [← hsector] at hbytes
  refine ⟨?_, fun offset length => ⟨?_, ?_⟩, fun offset bytes => ⟨?_, ?_⟩, ?_⟩
  · intro hfits
    rw [← hsector] at hfits ⊢
    have hcapacity : (Region.onLayout device layout partition).capacity =
        partition.count * layout.geometry.sectorSize := Region.capacity_of_fits hfits
    exact ⟨hcapacity, by rw [hcapacity, hbytes, Row.length_slice]⟩
  · intro hrange
    exact Region.read_outside hrange blocks
  · intro hrange
    obtain ⟨driver, hdriver, hread⟩ :=
      hresolves.read_inside hstore hsize hram.finish_le hholds hrange
    rw [hself] at hread
    refine ⟨driver, hdriver, ?_⟩
    rw [hbytes, Row.take_drop_slice _ _ (Region.le_of_le_capacity hrange)]
    exact hread
  · intro hrange
    exact Region.write_outside hrange blocks
  · intro hrange
    obtain ⟨driver, hdriver, hwrite⟩ :=
      hresolves.write_inside hstore hsize hram.finish_le hholds hrange
    rw [hself] at hwrite
    rw [hsector] at hdriver
    refine ⟨driver, hdriver, ?_, hwrite⟩
    rw [hdriver.bytes_eq partition, hbytes, ← hsector]
    exact Row.slice_overlay _ _ (Region.le_of_le_capacity hrange)
  · intro hfits calls
    rw [← hsector] at hfits
    have hshows : Shows blocks disk layout partition disk.driver.Holds blocks
        (partition.bytes disk.driver) := ⟨disk.driver, _, hself.symm, hholds, hbytes⟩
    obtain ⟨hanswers, driver, row, hstate, hlast, hflat⟩ :=
      RegionCall.runAll_related (hresolves.run_shows hstore hsize hram.finish_le hfits) calls
        hshows
    refine ⟨driver, row, hlast, Prod.ext hanswers hstate, ?_⟩
    rw [hflat, hlast.bytes_eq partition, hsector]

theorem region_eq_flat_zeroed :
    let attached := (addDisk .boot0 (RamDisk.zeroed 4 3) false).outcome {}
    let blocks := (probeAll.outcome attached.2).2
    let calls := [RegionCall.write 2 [1, 2, 3, 4, 5], .read 0 12, .write 10 [6, 7, 8], .read 10 2]
    ∃ region, Region.ofDevice blocks (.whole .boot0) = .ok region ∧
      (RegionCall.runAll (RegionCall.run region) calls blocks).1 =
        [⟨[], none⟩, ⟨[0, 0, 1, 2, 3, 4, 5, 0, 0, 0, 0, 0], none⟩, ⟨[], some .outOfRange⟩,
          ⟨[0, 0], none⟩] := by
  intro attached blocks calls
  let layout : Layout := ⟨⟨3, 4, 1024⟩, [Partition.wholeDisk 4], none⟩
  have hreach : Reachable RamDisk.switches blocks :=
    .probeAll (.addDisk .boot0 (RamDisk.zeroed 4 3) false .empty)
  have hresolves : Resolves blocks (.whole .boot0)
      ⟨.boot0, RamDisk.zeroed 4 3, false, some layout⟩ layout (Partition.wholeDisk 4) :=
    ⟨rfl, rfl, rfl⟩
  obtain ⟨-, -, -, hcalls⟩ := region_eq_flat hreach hresolves rfl hresolves.ofDevice_eq
  obtain ⟨driver, row, -, hrun, -⟩ := hcalls (by decide) calls
  refine ⟨_, hresolves.ofDevice_eq, ?_⟩
  rw [hrun]
  change (RegionCall.runAll RegionCall.runFlat calls
    ((Partition.wholeDisk 4).bytes (RamDisk.zeroed 4 3))).1 = _
  subst calls
  decide +kernel

end BlockDevices

end StorageStack

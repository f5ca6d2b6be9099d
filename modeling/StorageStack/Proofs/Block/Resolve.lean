import StorageStack.Block.Region
import StorageStack.Proofs.Block.Reachable

/-! # Resolved handles

A handle resolves to a disk, what probing found out about it, and one of its partitions.
A transfer through a resolved handle is one call to the driver of that disk, or none.
-/

namespace StorageStack

/-- The region of a partition on a disk with the given layout. -/
def Region.onLayout (device : DeviceHandle) (layout : Layout) (partition : Partition) : Region :=
  ⟨device, ⟨layout.geometry.sectorSize, partition.count, layout.geometry.eraseGroup⟩⟩

/-- A range within the region lies within the partition. -/
theorem Region.le_of_le_capacity {device : DeviceHandle} {layout : Layout} {partition : Partition}
    {position : Nat} (hrange : position ≤ (Region.onLayout device layout partition).capacity) :
    position ≤ partition.count * layout.geometry.sectorSize :=
  Nat.le_trans hrange (BlockInfo.sizeBytes_le _)

/-- The region has the bytes of the partition if a word can count them. -/
theorem Region.capacity_of_fits {device : DeviceHandle} {layout : Layout} {partition : Partition}
    (hfits : partition.count * layout.geometry.sectorSize < UInt64.size) :
    (Region.onLayout device layout partition).capacity =
      partition.count * layout.geometry.sectorSize :=
  BlockInfo.sizeBytes_of_fits hfits

namespace BlockDevices

variable {δ : Type}

theorem replace_replace (blocks : BlockDevices δ) {first second : AttachedDisk δ}
    (hid : second.id = first.id) : (blocks.replace first).replace second = blocks.replace second := by
  simp only [replace, List.map_map, mk.injEq]
  refine List.map_congr_left fun disk _ => ?_
  by_cases hdisk : disk.id = first.id
  · simp [hdisk, hid]
  · simp [hdisk, hid]

theorem replace_eq_self {blocks : BlockDevices δ} {disk : AttachedDisk δ}
    (hdistinct : blocks.diskIds.Nodup) (hdisk : blocks.disk? disk.id = some disk) :
    blocks.replace disk = blocks := by
  rw [show disk = { disk with driver := id disk.driver } from rfl,
    ← mapDriver_eq_replace hdistinct hdisk id]
  have hmap : (blocks.mapDriver disk.id id).disks = blocks.disks :=
    (List.map_congr_left fun other _ => ite_self other).trans (List.map_id _)
  exact congrArg BlockDevices.mk hmap

theorem disk?_of_mem {blocks : BlockDevices δ} {disk : AttachedDisk δ}
    (hdistinct : blocks.diskIds.Nodup) (hdisk : disk ∈ blocks.disks) :
    blocks.disk? disk.id = some disk := by
  cases hfound : blocks.disk? disk.id with
  | none => simpa using List.find?_eq_none.mp hfound disk hdisk
  | some found =>
      obtain ⟨hmem, hid⟩ := of_disk?_eq_some hfound
      rw [List.inj_on_of_nodup_map hdistinct hmem hdisk hid]

/-- The disk, its layout and the partition that a handle leads to. -/
structure Resolves (blocks : BlockDevices δ) (device : DeviceHandle) (disk : AttachedDisk δ)
    (layout : Layout) (partition : Partition) : Prop where
  found : blocks.disk? device.disk = some disk
  known : disk.layout = some layout
  listed : layout.partitions[device.partition.toNat]? = some partition

namespace Resolves

variable {blocks : BlockDevices δ} {device : DeviceHandle} {disk : AttachedDisk δ}
  {layout : Layout} {partition : Partition}

theorem id_eq (hresolves : Resolves blocks device disk layout partition) :
    disk.id = device.disk :=
  (of_disk?_eq_some hresolves.found).2

theorem mem (hresolves : Resolves blocks device disk layout partition) : disk ∈ blocks.disks :=
  (of_disk?_eq_some hresolves.found).1

/-- The handle leads to the same partition after a change of the driver. -/
theorem replace (hresolves : Resolves blocks device disk layout partition) (driver : δ) :
    Resolves (blocks.replace { disk with driver }) device { disk with driver } layout partition := by
  refine ⟨?_, hresolves.known, hresolves.listed⟩
  rw [disk?_replace, if_pos hresolves.id_eq.symm, hresolves.found, Option.map_some]

theorem replace_self (hresolves : Resolves blocks device disk layout partition)
    (hdistinct : blocks.diskIds.Nodup) :
    blocks.replace { disk with driver := disk.driver } = blocks := by
  apply replace_eq_self hdistinct
  rw [hresolves.id_eq]
  exact hresolves.found

theorem locate_eq (hresolves : Resolves blocks device disk layout partition) (lba length : Nat) :
    blocks.locate device lba length =
      if length = 0 ∨ length % layout.geometry.sectorSize ≠ 0 then .error .invalidArgument
      else if partition.count < lba + length / layout.geometry.sectorSize then .error .outOfRange
      else .ok (disk, partition.start + lba) := by
  unfold locate
  simp only [hresolves.found, hresolves.known, hresolves.listed]

/-- Whole sectors are admitted where they stay inside the partition. -/
theorem locate_sectors (hresolves : Resolves blocks device disk layout partition)
    (hsize : 0 < layout.geometry.sectorSize) (lba : Nat) {sectors : Nat} (hsectors : 0 < sectors) :
    blocks.locate device lba (sectors * layout.geometry.sectorSize) =
      if partition.count < lba + sectors then .error .outOfRange
      else .ok (disk, partition.start + lba) := by
  have hlength : ¬ (sectors * layout.geometry.sectorSize = 0 ∨
      sectors * layout.geometry.sectorSize % layout.geometry.sectorSize ≠ 0) := by
    rintro (hzero | hpart)
    · exact absurd hzero (Nat.mul_ne_zero (Nat.ne_of_gt hsectors) (Nat.ne_of_gt hsize))
    · exact hpart (Nat.mul_mod_left _ _)
  rw [hresolves.locate_eq, if_neg hlength, Nat.mul_div_cancel _ hsize]

theorem info_eq (hresolves : Resolves blocks device disk layout partition) :
    blocks.info device =
      .ok ⟨layout.geometry.sectorSize, partition.count, layout.geometry.eraseGroup⟩ := by
  unfold info
  simp only [hresolves.found, Option.bind_some, hresolves.known, hresolves.listed]

theorem ofDevice_eq (hresolves : Resolves blocks device disk layout partition) :
    Region.ofDevice blocks device = .ok (Region.onLayout device layout partition) := by
  rw [Region.ofDevice, hresolves.info_eq]
  rfl

/-- The whole disk can be addressed wherever one of its partitions can. -/
theorem whole (hresolves : Resolves blocks device disk layout partition) (hsound : disk.Sound) :
    Resolves blocks (DeviceHandle.whole device.disk) disk layout
      (Partition.wholeDisk layout.geometry.sectorCount) := by
  refine ⟨hresolves.found, hresolves.known, ?_⟩
  have hwhole := (hsound.table layout hresolves.known).whole
  rw [List.head?_eq_getElem?] at hwhole
  exact hwhole

theorem finish_le (hresolves : Resolves blocks device disk layout partition)
    (hsound : disk.Sound) : partition.finish ≤ layout.geometry.sectorCount :=
  (hsound.table layout hresolves.known).finish_le hresolves.listed

/-- Two partitions of a disk, the whole disk apart, have no sector in common. -/
theorem apart (hresolves : Resolves blocks device disk layout partition) (hsound : disk.Sound)
    {other : UInt8} {neighbour : Partition} (hdevice : 1 ≤ device.partition.toNat)
    (hother : 1 ≤ other.toNat) (hne : other ≠ device.partition)
    (hneighbour : layout.partitions[other.toNat]? = some neighbour) :
    partition.Apart neighbour := by
  have hindex : device.partition.toNat ≠ other.toNat := fun heq => hne (UInt8.toNat_inj.mp heq.symm)
  exact (hsound.table layout hresolves.known).apart_of_ne hdevice hother hindex
    hresolves.listed hneighbour

variable [DiskDriver δ]

theorem read_sector (hresolves : Resolves blocks device disk layout partition)
    (hsize : 0 < layout.geometry.sectorSize) {lba : Nat} (hlba : lba < partition.count) :
    read device lba layout.geometry.sectorSize blocks =
      match DiskDriver.read (partition.start + lba) layout.geometry.sectorSize disk.driver with
      | .ok bytes driver => .ok bytes (blocks.replace { disk with driver })
      | .error _ driver => .error .ioError (blocks.replace { disk with driver }) := by
  have hlocate := hresolves.locate_sectors hsize lba Nat.one_pos
  rw [Nat.one_mul, if_neg (Nat.not_lt_of_le hlba)] at hlocate
  unfold read
  rw [hlocate]
  rfl

theorem write_sector (hresolves : Resolves blocks device disk layout partition)
    (hsize : 0 < layout.geometry.sectorSize) {lba : Nat} (hlba : lba < partition.count)
    {bytes : Bytes} (hbytes : bytes.length = layout.geometry.sectorSize) :
    write device lba bytes blocks =
      match DiskDriver.write (partition.start + lba) bytes disk.driver with
      | .ok _ driver => .ok () (blocks.replace { disk with driver })
      | .error _ driver => .error .ioError (blocks.replace { disk with driver }) := by
  have hlocate := hresolves.locate_sectors hsize lba Nat.one_pos
  rw [Nat.one_mul, if_neg (Nat.not_lt_of_le hlba), ← hbytes] at hlocate
  unfold write
  rw [hlocate]
  rfl

end Resolves

/-- A region is opened through a handle that resolves. -/
theorem resolves_of_ofDevice {blocks : BlockDevices δ} {device : DeviceHandle} {region : Region}
    (hregion : Region.ofDevice blocks device = .ok region) :
    ∃ disk layout partition, Resolves blocks device disk layout partition ∧
      region = Region.onLayout device layout partition := by
  unfold Region.ofDevice info at hregion
  cases hlayout : (blocks.disk? device.disk).bind (·.layout) with
  | none =>
      rw [hlayout] at hregion
      cases hregion
  | some layout =>
      obtain ⟨disk, hdisk, hknown⟩ := Option.bind_eq_some_iff.mp hlayout
      cases hpartition : layout.partitions[device.partition.toNat]? with
      | none =>
          simp only [hlayout, hpartition] at hregion
          cases hregion
      | some partition =>
          simp only [hlayout, hpartition] at hregion
          cases hregion
          exact ⟨disk, layout, partition, ⟨hdisk, hknown, hpartition⟩, rfl⟩

end BlockDevices

namespace Region

variable {δ : Type} [DiskDriver δ] {motive : BlockDevices δ → Prop} {region : Region}
  (read : ∀ {blocks} (lba length : Nat), motive blocks →
    motive ((BlockDevices.read region.device lba length).outcome blocks).2)
  (write : ∀ {blocks} (lba : Nat) (bytes : Bytes), motive blocks →
    motive ((BlockDevices.write region.device lba bytes).outcome blocks).2)

include read write

theorem writePiece_induct {blocks : BlockDevices δ} (hblocks : motive blocks) (piece : Piece)
    (bytes : Bytes) : motive ((region.writePiece piece bytes).outcome blocks).2 := by
  by_cases hwhole : piece.size = region.info.sectorSize
  · have hstep := write piece.lba bytes hblocks
    unfold Action.outcome writePiece
    rw [if_pos hwhole]
    exact hstep
  · have hstep := read piece.lba region.info.sectorSize hblocks
    unfold Action.outcome at hstep
    unfold Action.outcome writePiece
    rw [if_neg hwhole]
    cases hread : BlockDevices.read region.device piece.lba region.info.sectorSize blocks with
    | error cause after =>
        rw [hread] at hstep
        exact hstep
    | ok sector after =>
        rw [hread] at hstep
        exact write piece.lba (sector.splice piece.within bytes) hstep

theorem writePieces_induct {blocks : BlockDevices δ} (hblocks : motive blocks) (list : List Piece)
    (bytes : Bytes) : motive ((region.writePieces list bytes).outcome blocks).2 := by
  induction list generalizing blocks bytes with
  | nil => exact hblocks
  | cons piece rest ih =>
      have hstep := writePiece_induct read write hblocks piece (bytes.take piece.size)
      unfold Action.outcome at hstep
      unfold Action.outcome writePieces
      cases hwrite : region.writePiece piece (bytes.take piece.size) blocks with
      | error cause after =>
          rw [hwrite] at hstep
          exact hstep
      | ok _ after =>
          rw [hwrite] at hstep
          exact ih hstep (bytes.drop piece.size)

/-- What transfers of sectors keep, a write of bytes keeps. -/
theorem write_induct {blocks : BlockDevices δ} (hblocks : motive blocks) (offset : Nat)
    (bytes : Bytes) : motive ((region.write offset bytes).outcome blocks).2 := by
  unfold Action.outcome Region.write
  by_cases hrange : region.capacity < offset + bytes.length
  · rw [if_pos hrange]
    exact hblocks
  · rw [if_neg hrange]
    exact writePieces_induct read write hblocks _ bytes

end Region

end StorageStack

import StorageStack.Handset
import StorageStack.Proofs.Block.Reachable

/-! # The partition tables of reachable devices

In every reachable state the disks have distinct numbers, and each disk is either unknown,
with no partition at all, or has a geometry and a sound table for it.
-/

namespace StorageStack

namespace AttachedDisk.Sound

variable {δ : Type} {disk : AttachedDisk δ}

/-- A disk without partitions is one without a geometry. -/
theorem partitions_eq_nil_iff (hsound : disk.Sound) :
    disk.partitions = [] ↔ disk.geometry? = none := by
  unfold partitions geometry?
  cases hlayout : disk.layout with
  | none => simp
  | some layout => simp [(hsound.table layout hlayout).ne_nil]

theorem exists_layout {geometry : Geometry} (hgeometry : disk.geometry? = some geometry) :
    ∃ layout, disk.layout = some layout ∧ layout.geometry = geometry ∧
      disk.partitions = layout.partitions := by
  obtain ⟨layout, hlayout, rfl⟩ := Option.map_eq_some_iff.mp hgeometry
  exact ⟨layout, hlayout, rfl, by rw [partitions, hlayout]⟩

/-- A failed scan leaves the whole disk as its only partition. -/
theorem partitions_of_failed (hsound : disk.Sound) {cause : StorageError}
    (hfailed : disk.scan? = some (.error cause)) :
    ∃ geometry, disk.geometry? = some geometry ∧
      disk.partitions = [Partition.wholeDisk geometry.sectorCount] := by
  obtain ⟨layout, hlayout, hscan⟩ := Option.bind_eq_some_iff.mp hfailed
  refine ⟨layout.geometry, by rw [AttachedDisk.geometry?, hlayout, Option.map_some], ?_⟩
  rw [partitions, hlayout]
  exact hsound.failed layout cause hlayout hscan

/-- A disk that carries no table is not scanned and has no partition but itself. -/
theorem partitions_of_raw (hsound : disk.Sound) (hraw : disk.partitionable = false) :
    disk.scan? = none ∧ disk.partitions.length ≤ 1 := by
  unfold scan? partitions
  cases hlayout : disk.layout with
  | none => exact ⟨rfl, Nat.zero_le _⟩
  | some layout =>
      obtain ⟨hscan, hpartitions⟩ := hsound.raw layout hlayout hraw
      refine ⟨hscan, ?_⟩
      change layout.partitions.length ≤ 1
      rw [hpartitions, List.length_singleton]

end AttachedDisk.Sound

namespace BlockDevices

/-- A handset starts up in a reachable state. -/
theorem reachable_handset {δ : Type} [DiskDriver δ] (outside : Set (δ → δ)) (driver : RamDisk → δ) :
    Reachable outside (Handset.blocks driver) :=
  .probeAll (.addDisk .boot0 (driver Handset.bootDisk) false
    (.addDisk .user (driver Handset.userDisk) true .empty))

/-- Every reachable state has sound tables, whatever drivers answer and however often the
disks are probed. -/
theorem partitionTables_of_reachable {δ : Type} [DiskDriver δ] {outside : Set (δ → δ)}
    {blocks : BlockDevices δ} (hreach : Reachable outside blocks) :
    blocks.diskIds.Nodup ∧ ∀ disk ∈ blocks.disks,
      disk.id.number.toNat < Limits.maxDisks ∧
      (disk.partitions = [] ↔ disk.geometry? = none) ∧
      (∀ cause, disk.scan? = some (.error cause) → ∃ geometry, disk.geometry? = some geometry ∧
        disk.partitions = [Partition.wholeDisk geometry.sectorCount]) ∧
      (disk.partitionable = false → disk.scan? = none ∧ disk.partitions.length ≤ 1) ∧
      ∀ geometry, disk.geometry? = some geometry →
        geometry.sectorSize ≠ 0 ∧
        disk.partitions[0]? = some (Partition.wholeDisk geometry.sectorCount) ∧
        disk.partitions.length ≤ Limits.maxPartitions ∧
        (∀ index partition, 1 ≤ index → disk.partitions[index]? = some partition →
          partition.logicalNum = index ∧ 1 ≤ partition.start ∧ 1 ≤ partition.count ∧
          partition.start + partition.count ≤ geometry.sectorCount ∧
          partition.typeCode ≠ TypeCode.empty ∧ TypeCode.isExtended partition.typeCode = false ∧
          ∀ other neighbour, 1 ≤ other → other ≠ index →
            disk.partitions[other]? = some neighbour → partition.Apart neighbour) ∧
        ∃ primaries logicals, disk.partitions.tail = primaries ++ logicals ∧
          (∀ primary ∈ primaries, 1 ≤ primary.mbrNum ∧ primary.mbrNum ≤ 4) ∧
          primaries.Pairwise (fun earlier later => earlier.mbrNum < later.mbrNum) ∧
          ∀ logical ∈ logicals, logical.mbrNum = 0 ∧ logical.eraseBlock = none := by
  refine ⟨hreach.nodup_diskIds, fun disk hdisk => ?_⟩
  have hsound := hreach.sound hdisk
  refine ⟨hreach.number_lt hdisk, hsound.partitions_eq_nil_iff,
    fun _ hfailed => hsound.partitions_of_failed hfailed, hsound.partitions_of_raw, ?_⟩
  intro geometry hgeometry
  obtain ⟨layout, hlayout, rfl, hpartitions⟩ := AttachedDisk.Sound.exists_layout hgeometry
  have htable := hsound.table layout hlayout
  rw [hpartitions]
  refine ⟨Nat.ne_of_gt (hsound.sectorSize_pos layout hlayout), ?_, htable.length_le, ?_,
    htable.exists_primaries_append_logicals⟩
  · rw [← List.head?_eq_getElem?]
    exact htable.whole
  · intro index partition hindex hpartition
    have hplaced := htable.placed_of_getElem? hindex hpartition
    refine ⟨htable.numbered _ _ hpartition, hplaced.start_pos, hplaced.count_pos,
      hplaced.finish_le, hplaced.typeCode_ne_empty, hplaced.not_extended, ?_⟩
    intro other neighbour hother hne hneighbour
    exact htable.apart_of_ne hindex hother (Ne.symm hne) hpartition hneighbour

theorem partitionTables_handset :
    Reachable (∅ : Set (RamDisk → RamDisk)) (Handset.blocks id) ∧
      ((Handset.blocks id).disks.map fun disk => disk.partitions.map (·.mbrNum)) =
        [[0, 1, 2, 0, 0, 0], [0]] ∧
      (Handset.blocks id).diskIds.Nodup ∧
      ∀ disk ∈ (Handset.blocks id).disks,
        ∀ geometry, disk.geometry? = some geometry →
          disk.partitions[0]? = some (Partition.wholeDisk geometry.sectorCount) := by
  have hreach := reachable_handset (∅ : Set (RamDisk → RamDisk)) id
  obtain ⟨hdistinct, htables⟩ := partitionTables_of_reachable hreach
  refine ⟨hreach, by decide +kernel, hdistinct, fun disk hdisk geometry hgeometry => ?_⟩
  exact ((htables disk hdisk).2.2.2.2 geometry hgeometry).2.1

end BlockDevices

end StorageStack

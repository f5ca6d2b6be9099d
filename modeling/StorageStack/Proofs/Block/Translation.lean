import StorageStack.Disk.Faulty
import StorageStack.Partition.Image
import StorageStack.Proofs.Block.Reachable
import StorageStack.Proofs.Partition.BoundedSums

/-! # Sector numbers in words

The sums of a scan and of the translation to absolute sectors fit into words of 64 bits, on
disks of any size that such a word can report. Where a range would leave the words, it leaves
its partition too, and is refused.
-/

namespace StorageStack

/-- Below the size of a word, the sum of two numbers is the sum of the words that does not
overflow. -/
theorem sum?_words (left right : UInt64) :
    sum? UInt64.size left.toNat right.toNat =
      if left.toBitVec.uaddOverflow right.toBitVec then none else some (left + right).toNat := by
  unfold sum? BitVec.uaddOverflow
  simp only [UInt64.toNat_toBitVec, ge_iff_le, decide_eq_true_eq, UInt64.toNat_add]
  by_cases hsum : left.toNat + right.toNat < UInt64.size
  · rw [if_pos hsum, if_neg (Nat.not_le.mpr hsum), Nat.mod_eq_of_lt hsum]
  · rw [if_neg hsum, if_pos (Nat.le_of_not_lt hsum)]

namespace Scan

variable {δ : Type} [DiskDriver δ]

/-- A scan of a table with only the whole disk leaves a sound table, also if it fails. -/
theorem soundTable_outcome (geometry : Geometry) (driver : δ) :
    SoundTable geometry.sectorCount
      ((run geometry).outcome ⟨driver, [Partition.wholeDisk geometry.sectorCount]⟩).2.table := by
  rcases hrun : (run geometry).outcome ⟨driver, [Partition.wholeDisk geometry.sectorCount]⟩ with
    ⟨_ | _, after⟩
  · have htable := table_of_run_error (Action.outcome_eq_error_iff.mp hrun)
    dsimp only at htable ⊢
    rw [htable]
    exact soundTable_whole _
  · exact soundTable_run rfl (Action.outcome_eq_ok_iff.mp hrun)

end Scan

namespace BlockDevices

variable {δ : Type}

/-- Admit a transfer. The end of the range and the absolute sector are sums; an end that reaches
the limit lies outside every partition. -/
def locate? (limit : Nat) (blocks : BlockDevices δ) (device : DeviceHandle) (lba length : Nat) :
    Option (Except StorageError (AttachedDisk δ × Nat)) :=
  match blocks.disk? device.disk with
  | none => some (.error .notFound)
  | some disk =>
      match disk.layout with
      | none => some (.error .notFound)
      | some layout =>
          if length = 0 ∨ length % layout.geometry.sectorSize ≠ 0 then some (.error .invalidArgument)
          else
            match layout.partitions[device.partition.toNat]? with
            | none => some (.error .notFound)
            | some partition =>
                match sum? limit lba (length / layout.geometry.sectorSize) with
                -- This sum may reach the limit: the range is refused.
                | none => some (.error .outOfRange)
                | some finish =>
                    if partition.count < finish then some (.error .outOfRange)
                    else (sum? limit partition.start lba).map fun absolute => .ok (disk, absolute)

variable [DiskDriver δ]

/-- The absolute sector never reaches a limit above the sectors of the disks. -/
theorem locate?_eq {limit : Nat} {outside : Set (δ → δ)} {blocks : BlockDevices δ}
    (hreach : Reachable outside blocks)
    (hlimit : ∀ disk ∈ blocks.disks, ∀ geometry, disk.geometry? = some geometry →
      geometry.sectorCount < limit) (device : DeviceHandle) (lba length : Nat) :
    blocks.locate? limit device lba length = some (blocks.locate device lba length) := by
  unfold locate? locate
  cases hdisk : blocks.disk? device.disk with
  | none => rfl
  | some disk =>
      dsimp only
      cases hlayout : disk.layout with
      | none => rfl
      | some layout =>
          dsimp only
          split
          · rfl
          · cases hpartition : layout.partitions[device.partition.toNat]? with
            | none => rfl
            | some partition =>
                have hmem := (of_disk?_eq_some hdisk).1
                have hfinish := ((hreach.sound hmem).table layout hlayout).finish_le hpartition
                have hcount := hlimit disk hmem layout.geometry
                  (by rw [AttachedDisk.geometry?, hlayout, Option.map_some])
                rw [Partition.finish] at hfinish
                dsimp only
                by_cases hsum : lba + length / layout.geometry.sectorSize < limit
                · rw [sum?_of_lt hsum]
                  dsimp only
                  split
                  · rfl
                  · next hrange =>
                    have hwithin := Nat.le_trans (Nat.le_add_right lba _) (Nat.le_of_not_lt hrange)
                    rw [sum?_of_lt (by omega), Option.map_some]
                · rw [sum?, if_neg hsum, if_pos (by omega)]

/-- Every sum of a scan stays below 2 ^ 35 and every slot number is a byte, for all drivers and all
geometries. In every reachable state the translation of a sector of a partition fits into a word,
if the disks have no more sectors than a word can tell. -/
theorem sums_fit :
    (∀ (geometry : Geometry) (driver : δ) (limit : Nat), 1 <<< 35 ≤ limit →
      let seed : Scan δ := ⟨driver, [Partition.wholeDisk geometry.sectorCount]⟩
      let scanned := (Scan.run geometry).outcome seed
      Scan.run? limit geometry seed = some scanned ∧
        (∀ partition ∈ scanned.2.table.tail, partition.finish < 1 <<< 35) ∧
        ∀ partition ∈ scanned.2.table, partition.logicalNum < UInt8.size) ∧
      (∀ (outside : Set (δ → δ)) (blocks : BlockDevices δ), Reachable outside blocks →
        (∀ disk ∈ blocks.disks, ∀ geometry, disk.geometry? = some geometry →
          geometry.sectorCount < UInt64.size) →
        ∀ (device : DeviceHandle) (lba length : Nat),
          blocks.locate? UInt64.size device lba length = some (blocks.locate device lba length) ∧
          ∀ disk absolute, blocks.locate device lba length = .ok (disk, absolute) →
            ∃ partition ∈ disk.partitions,
              absolute = partition.start + lba ∧ absolute < UInt64.size) ∧
      ∀ left right : UInt64, sum? UInt64.size left.toNat right.toNat =
        if left.toBitVec.uaddOverflow right.toBitVec then none else some (left + right).toNat := by
  refine ⟨fun geometry driver limit hlimit => ?_,
    fun outside blocks hreach hbounded device lba length => ?_,
    sum?_words⟩
  · obtain ⟨hrun, hbounded⟩ := @Scan.run?_eq limit hlimit δ _ geometry
      ⟨driver, [Partition.wholeDisk geometry.sectorCount]⟩ (Scan.bounded_whole _)
    refine ⟨hrun, hbounded.finish_lt, fun partition hmem => ?_⟩
    obtain ⟨index, hindex⟩ := List.mem_iff_getElem?.mp hmem
    have htable := Scan.soundTable_outcome geometry driver
    rw [htable.numbered index partition hindex]
    calc index < _ := (List.getElem?_eq_some_iff.mp hindex).1
      _ ≤ Limits.maxPartitions := htable.length_le
      _ < UInt8.size := by decide
  · refine ⟨locate?_eq hreach hbounded device lba length, fun disk absolute hlocate => ?_⟩
    obtain ⟨hdisk, layout, hlayout, hlength, -, partition, hpartition, hrange, rfl⟩ :=
      locate_eq_ok hlocate
    have hmem := (of_disk?_eq_some hdisk).1
    have hfinish := ((hreach.sound hmem).table layout hlayout).finish_le hpartition
    have hcount := hbounded disk hmem layout.geometry
      (by rw [AttachedDisk.geometry?, hlayout, Option.map_some])
    have hwithin := Nat.le_trans (Nat.le_add_right lba _) hrange
    rw [Partition.finish] at hfinish
    refine ⟨partition, ?_, rfl, by omega⟩
    rw [AttachedDisk.partitions, hlayout]
    exact List.mem_of_getElem? hpartition

/-- The largest disk that a word can report, with the largest primary that an entry can describe. -/
theorem sums_fit_largest :
    let sectorCount := UInt64.size - 1
    let contents := Medium.ofPatches 512
      [.entry 0 0 ⟨0, TypeCode.linux, 0xFFFFFFFF, 0xFFFFFFFF⟩, .sign 0]
    let driver : FaultyDisk := ⟨contents, 512, ⟨512, sectorCount, 1024⟩, none, [], []⟩
    let blocks := (probeAll.outcome ((addDisk .user driver true).outcome {}).2).2
    let absolute (lba : Nat) := (blocks.locate? UInt64.size (.whole .user) lba 512).map
      fun answer => answer.toOption.map Prod.snd
    Reachable ∅ blocks ∧
      (blocks.disks.map fun disk => disk.partitions.map Partition.finish) =
        [[sectorCount, 2 * 0xFFFFFFFF]] ∧
      absolute (sectorCount - 1) = some (some (sectorCount - 1)) ∧
      absolute sectorCount = some none := by
  intro sectorCount contents driver blocks absolute
  have hreach : Reachable (∅ : Set (FaultyDisk → FaultyDisk)) blocks :=
    .probeAll (.addDisk .user driver true .empty)
  have hknown : blocks.disks.map AttachedDisk.geometry? = [some ⟨512, sectorCount, 1024⟩] := by
    decide +kernel
  have hbounded : ∀ disk ∈ blocks.disks, ∀ geometry, disk.geometry? = some geometry →
      geometry.sectorCount < UInt64.size := by
    intro disk hdisk geometry hgeometry
    have hlisted := List.mem_map_of_mem (f := AttachedDisk.geometry?) hdisk
    rw [hknown, hgeometry, List.mem_singleton] at hlisted
    cases hlisted
    decide
  have htranslated := fun lba =>
    (sums_fit.2.1 ∅ blocks hreach hbounded (.whole .user) lba 512).1
  refine ⟨hreach, by decide +kernel, ?_, ?_⟩
  · dsimp only [absolute]
    rw [htranslated]
    decide +kernel
  · dsimp only [absolute]
    rw [htranslated]
    decide +kernel

end BlockDevices

end StorageStack

import Mathlib.Data.List.Basic
import StorageStack.Proofs.Disk.Reads

/-! # Sound partition tables

A table is sound for a disk if slot 0 is the whole disk and every slot behind it holds
a partition that keeps to the disk, stays clear of sector 0 and meets no other. A scan
of a table with only slot 0 leaves a sound table, whatever the driver answers.
-/

namespace StorageStack

namespace Partition

/-- Two partitions without a common sector. -/
def Apart (left right : Partition) : Prop :=
  left.finish ≤ right.start ∨ right.finish ≤ left.start

/-- The order of entries in a table: primaries by their slot, and behind them the logical
partitions, which have slot 0. -/
def SlotOrder (earlier later : Nat) : Prop := later = 0 ∨ 0 < earlier ∧ earlier < later

/-- A partition that holds data on a disk of so many sectors, clear of sector 0. -/
structure Placed (sectorCount : Nat) (partition : Partition) : Prop where
  start_pos : 1 ≤ partition.start
  count_pos : 1 ≤ partition.count
  finish_le : partition.finish ≤ sectorCount
  typeCode_ne_empty : partition.typeCode ≠ TypeCode.empty
  not_extended : TypeCode.isExtended partition.typeCode = false
  mbrNum_le : partition.mbrNum ≤ entrySlots
  eraseBlock_logical : partition.mbrNum = 0 → partition.eraseBlock = none

end Partition

/-- A table that lists the whole disk first and behind it disjoint partitions of the disk. -/
structure SoundTable (sectorCount : Nat) (table : List Partition) : Prop where
  whole : table.head? = some (Partition.wholeDisk sectorCount)
  length_le : table.length ≤ Limits.maxPartitions
  numbered : ∀ (index : Nat) (partition : Partition),
    table[index]? = some partition → partition.logicalNum = index
  placed : ∀ partition ∈ table.tail, partition.Placed sectorCount
  apart : table.tail.Pairwise Partition.Apart
  ordered : table.tail.Pairwise fun earlier later =>
    Partition.SlotOrder earlier.mbrNum later.mbrNum

theorem SoundTable.eq_cons {sectorCount : Nat} {table : List Partition}
    (htable : SoundTable sectorCount table) :
    table = Partition.wholeDisk sectorCount :: table.tail :=
  List.eq_cons_of_mem_head? htable.whole

namespace SoundTable

variable {sectorCount index : Nat} {table : List Partition} {partition : Partition}

theorem getElem?_tail (htable : SoundTable sectorCount table) (hindex : 1 ≤ index) :
    table.tail[index - 1]? = table[index]? := by
  conv_rhs => rw [htable.eq_cons, show index = index - 1 + 1 by omega]
  rfl

theorem placed_of_getElem? (htable : SoundTable sectorCount table) (hindex : 1 ≤ index)
    (hpartition : table[index]? = some partition) : partition.Placed sectorCount := by
  rw [← htable.getElem?_tail hindex] at hpartition
  exact htable.placed _ (List.mem_of_getElem? hpartition)

/-- Two slots behind the whole disk hold partitions without a common sector. -/
theorem apart_of_ne (htable : SoundTable sectorCount table) {other : Nat} {neighbour : Partition}
    (hindex : 1 ≤ index) (hother : 1 ≤ other) (hne : index ≠ other)
    (hpartition : table[index]? = some partition) (hneighbour : table[other]? = some neighbour) :
    partition.Apart neighbour := by
  rw [← htable.getElem?_tail hindex] at hpartition
  rw [← htable.getElem?_tail hother] at hneighbour
  obtain ⟨hfirst, rfl⟩ := List.getElem?_eq_some_iff.mp hpartition
  obtain ⟨hsecond, rfl⟩ := List.getElem?_eq_some_iff.mp hneighbour
  have hapart := List.pairwise_iff_getElem.mp htable.apart
  rcases Nat.lt_or_gt_of_ne hne with hlt | hgt
  · exact hapart _ _ hfirst hsecond (by omega)
  · exact (hapart _ _ hsecond hfirst (by omega)).symm

/-- No slot reaches past the end of the disk, the whole disk included. -/
theorem finish_le (htable : SoundTable sectorCount table)
    (hpartition : table[index]? = some partition) : partition.finish ≤ sectorCount := by
  rcases Nat.eq_zero_or_pos index with rfl | hpos
  · rw [← List.head?_eq_getElem?, htable.whole] at hpartition
    cases hpartition
    exact Nat.le_of_eq (Nat.zero_add _)
  · exact (htable.placed_of_getElem? hpos hpartition).finish_le

/-- Behind the whole disk the primaries stand first, in the order of their slots, and then
the logical partitions. -/
theorem exists_primaries_append_logicals (htable : SoundTable sectorCount table) :
    ∃ primaries logicals, table.tail = primaries ++ logicals ∧
      (∀ primary ∈ primaries, 1 ≤ primary.mbrNum ∧ primary.mbrNum ≤ entrySlots) ∧
      primaries.Pairwise (fun earlier later => earlier.mbrNum < later.mbrNum) ∧
      ∀ logical ∈ logicals, logical.mbrNum = 0 ∧ logical.eraseBlock = none := by
  have hplaced := htable.placed
  have hordered := htable.ordered
  generalize table.tail = found at hplaced hordered
  induction found with
  | nil => exact ⟨[], [], rfl, by simp, List.Pairwise.nil, by simp⟩
  | cons first rest ih =>
      obtain ⟨hfirst, hrest⟩ := List.forall_mem_cons.mp hplaced
      obtain ⟨hlater, hrestOrder⟩ := List.pairwise_cons.mp hordered
      by_cases hlogical : first.mbrNum = 0
      · -- Nothing but logical partitions comes behind a logical one.
        refine ⟨[], first :: rest, rfl, by simp, List.Pairwise.nil, ?_⟩
        intro logical hmem
        have hzero : logical.mbrNum = 0 := by
          rcases List.mem_cons.mp hmem with rfl | hmem
          · exact hlogical
          · rcases hlater logical hmem with hzero | ⟨hpos, -⟩
            · exact hzero
            · exact absurd hlogical (Nat.ne_of_gt hpos)
        exact ⟨hzero, (hplaced logical hmem).eraseBlock_logical hzero⟩
      · obtain ⟨primaries, logicals, hsplit, hslots, hincreasing, hlogicals⟩ := ih hrest hrestOrder
        refine ⟨first :: primaries, logicals, by rw [hsplit, List.cons_append], ?_, ?_, hlogicals⟩
        · exact List.forall_mem_cons.mpr ⟨⟨Nat.pos_of_ne_zero hlogical, hfirst.mbrNum_le⟩, hslots⟩
        · refine List.pairwise_cons.mpr ⟨fun primary hmem => ?_, hincreasing⟩
          rcases hlater primary (hsplit ▸ List.mem_append_left _ hmem) with hzero | ⟨-, hlt⟩
          · exact absurd hzero (Nat.ne_of_gt (hslots primary hmem).1)
          · exact hlt

end SoundTable

theorem SoundTable.ne_nil {sectorCount : Nat} {table : List Partition}
    (htable : SoundTable sectorCount table) : table ≠ [] := by
  rw [htable.eq_cons]
  exact List.cons_ne_nil _ _

/-- The table of a disk that was not scanned, or whose scan failed. -/
theorem soundTable_whole (sectorCount : Nat) :
    SoundTable sectorCount [Partition.wholeDisk sectorCount] where
  whole := rfl
  length_le := by
    rw [List.length_singleton]
    decide
  numbered := by
    intro index partition hindex
    obtain ⟨rfl, rfl⟩ : index = 0 ∧ Partition.wholeDisk sectorCount = partition := by
      simpa [List.getElem?_singleton] using hindex
    rfl
  placed := by simp
  apart := List.Pairwise.nil
  ordered := List.Pairwise.nil

/-- A candidate whose bounds lie on the disk and whose entry describes data. -/
structure Candidate.Sound (sectorCount : Nat) (candidate : Candidate) : Prop where
  lower_pos : 1 ≤ candidate.lower
  upper_le : candidate.upper ≤ sectorCount
  not_empty : candidate.entry.isEmpty = false
  not_extended : candidate.entry.isExtended = false
  mbrNum_le : candidate.mbrNum ≤ entrySlots
  eraseBlock_logical : candidate.mbrNum = 0 → candidate.eraseBlock = none

/-- An entry that describes something has a type and at least one sector. -/
theorem Entry.of_isEmpty_eq_false {entry : Entry} (hentry : entry.isEmpty = false) :
    entry.typeCode ≠ TypeCode.empty ∧ 1 ≤ entry.count.toNat := by
  simp only [Entry.isEmpty, Bool.or_eq_false_iff, beq_eq_false_iff_ne] at hentry
  refine ⟨hentry.1, Nat.one_le_iff_ne_zero.mpr fun hzero => hentry.2 ?_⟩
  exact UInt32.toNat_inj.mp hzero

namespace Candidate

variable {sectorCount : Nat} {table : List Partition} {candidate : Candidate}

@[simp] theorem start_toPartition (candidate : Candidate) (slot : Nat) :
    (candidate.toPartition slot).start = candidate.start := rfl

@[simp] theorem finish_toPartition (candidate : Candidate) (slot : Nat) :
    (candidate.toPartition slot).finish = candidate.finish := rfl

theorem placed_toPartition (hcandidate : candidate.Sound sectorCount)
    (hbounds : candidate.InBounds) (slot : Nat) :
    (candidate.toPartition slot).Placed sectorCount where
  start_pos := Nat.le_trans hcandidate.lower_pos hbounds.1
  count_pos := (Entry.of_isEmpty_eq_false hcandidate.not_empty).2
  finish_le := Nat.le_trans hbounds.2 hcandidate.upper_le
  typeCode_ne_empty := (Entry.of_isEmpty_eq_false hcandidate.not_empty).1
  not_extended := hcandidate.not_extended
  mbrNum_le := hcandidate.mbrNum_le
  eraseBlock_logical := hcandidate.eraseBlock_logical

/-- A candidate that fits lies apart from every partition behind slot 0. -/
theorem Fits.apart (hfits : candidate.Fits table) {partition : Partition}
    (hpartition : partition ∈ table.tail) (slot : Nat) :
    partition.Apart (candidate.toPartition slot) := by
  have hmeets := hfits.2 partition hpartition
  simp only [Partition.Overlaps] at hmeets
  simp only [Partition.Apart, start_toPartition, finish_toPartition]
  omega

end Candidate

/-- Keeping a candidate that fits, in a table with a free slot, keeps the table sound. -/
theorem SoundTable.append {sectorCount : Nat} {table : List Partition} {candidate : Candidate}
    (htable : SoundTable sectorCount table) (hcandidate : candidate.Sound sectorCount)
    (hfits : candidate.Fits table) (hroom : table.length < Limits.maxPartitions)
    (horder : ∀ partition ∈ table.tail,
      Partition.SlotOrder partition.mbrNum candidate.mbrNum) :
    SoundTable sectorCount (table ++ [candidate.toPartition table.length]) := by
  have htail : (table ++ [candidate.toPartition table.length]).tail =
      table.tail ++ [candidate.toPartition table.length] :=
    List.tail_append_of_ne_nil htable.ne_nil
  refine ⟨?_, ?_, ?_, ?_, ?_, ?_⟩
  · rw [List.head?_append_of_ne_nil _ htable.ne_nil]
    exact htable.whole
  · rw [List.length_append]
    exact hroom
  · intro index partition hindex
    rcases Nat.lt_or_ge index table.length with hlt | hge
    · rw [List.getElem?_append_left hlt] at hindex
      exact htable.numbered index partition hindex
    · rw [List.getElem?_append_right hge, List.getElem?_singleton] at hindex
      split at hindex
      · next hlast =>
        cases hindex
        exact Nat.le_antisymm hge (Nat.sub_eq_zero_iff_le.mp hlast)
      · cases hindex
  · rw [htail]
    intro partition hpartition
    rcases List.mem_append.mp hpartition with hold | hnew
    · exact htable.placed partition hold
    · rw [List.mem_singleton.mp hnew]
      exact Candidate.placed_toPartition hcandidate hfits.1 _
  · rw [htail, List.pairwise_append]
    refine ⟨htable.apart, List.pairwise_singleton _ _, ?_⟩
    intro partition hpartition added hadded
    rw [List.mem_singleton.mp hadded]
    exact hfits.apart hpartition _
  · rw [htail, List.pairwise_append]
    refine ⟨htable.ordered, List.pairwise_singleton _ _, ?_⟩
    intro partition hpartition added hadded
    rw [List.mem_singleton.mp hadded]
    exact horder partition hpartition

namespace BootSector

/-- An entry that describes something, in one of the four slots. -/
theorem of_mem_entries {sector : BootSector} {slot : Nat} {entry : Entry}
    (hentry : (slot, entry) ∈ sector.entries) :
    slot < entrySlots ∧ sector.entry? slot = some entry ∧ entry.isEmpty = false := by
  obtain ⟨index, hindex, hslot⟩ := List.mem_filterMap.mp hentry
  split at hslot
  · next found hfound =>
    split at hslot
    · cases hslot
    · next hempty =>
      cases hslot
      exact ⟨List.mem_range.mp hindex, hfound, by simpa using hempty⟩
  · cases hslot

/-- Entries stand in slot order. -/
theorem pairwise_entries (sector : BootSector) :
    sector.entries.Pairwise fun earlier later => earlier.1 < later.1 := by
  refine List.Pairwise.filterMap _ ?_ List.pairwise_lt_range
  intro earlier later hlt first hfirst second hsecond
  split at hfirst
  · split at hfirst
    · cases hfirst
    · cases hfirst
      split at hsecond
      · split at hsecond
        · cases hsecond
        · cases hsecond
          exact hlt
      · cases hsecond
  · cases hfirst

theorem of_mem_dataEntries {sector : BootSector} {slot : Nat} {entry : Entry}
    (hentry : (slot, entry) ∈ sector.dataEntries) :
    slot < entrySlots ∧ entry.isEmpty = false ∧ entry.isExtended = false := by
  obtain ⟨hmem, hdata⟩ := List.mem_filter.mp hentry
  obtain ⟨hslot, -, hempty⟩ := of_mem_entries hmem
  exact ⟨hslot, hempty, by simpa using hdata⟩

theorem sound_of_mem_primaries {sector : BootSector} {sectorCount : Nat} {candidate : Candidate}
    (hcandidate : candidate ∈ sector.primaries sectorCount) : candidate.Sound sectorCount := by
  obtain ⟨⟨slot, entry⟩, hentry, rfl⟩ := List.mem_map.mp hcandidate
  obtain ⟨hslot, hempty, hextended⟩ := of_mem_dataEntries hentry
  exact ⟨Nat.le_refl 1, Nat.le_refl _, hempty, hextended, hslot, fun hzero => by cases hzero⟩

/-- The primaries of a sector come in the order of their slots. -/
theorem pairwise_primaries (sector : BootSector) (sectorCount : Nat) :
    (sector.primaries sectorCount).Pairwise fun earlier later =>
      Partition.SlotOrder earlier.mbrNum later.mbrNum := by
  refine List.pairwise_map.mpr (List.Pairwise.imp ?_ ((pairwise_entries sector).filter _))
  intro earlier later hlt
  exact Or.inr ⟨Nat.succ_pos _, Nat.succ_lt_succ hlt⟩

theorem sound_of_mem_logicals {sector : BootSector} {sectorCount lba finish : Nat}
    (hfinish : finish ≤ sectorCount) {candidate : Candidate}
    (hcandidate : candidate ∈ sector.logicals lba finish) :
    candidate.Sound sectorCount ∧ candidate.mbrNum = 0 := by
  obtain ⟨⟨slot, entry⟩, hentry, rfl⟩ := List.mem_map.mp hcandidate
  obtain ⟨-, hempty, hextended⟩ := of_mem_dataEntries hentry
  exact ⟨⟨Nat.le_add_left 1 lba, hfinish, hempty, hextended, Nat.zero_le _, fun _ => rfl⟩, rfl⟩

/-- Containers are cut off at the end of the disk. -/
theorem finish_le_of_mem_containers {sector : BootSector} {sectorCount : Nat}
    {container : Container} (hcontainer : container ∈ sector.containers sectorCount) :
    container.finish ≤ sectorCount := by
  obtain ⟨entry, -, rfl⟩ := List.mem_map.mp hcontainer
  exact Nat.min_le_right _ _

end BootSector

namespace Scan

variable {sectorCount : Nat}

/-- Trying candidates keeps a table sound, if they come in the order of the table. -/
theorem soundTable_admitAll {candidates : List Candidate} {table : List Partition}
    (htable : SoundTable sectorCount table)
    (hsound : ∀ candidate ∈ candidates, candidate.Sound sectorCount)
    (horder : candidates.Pairwise fun earlier later =>
      Partition.SlotOrder earlier.mbrNum later.mbrNum)
    (hbehind : ∀ partition ∈ table.tail, ∀ candidate ∈ candidates,
      Partition.SlotOrder partition.mbrNum candidate.mbrNum) :
    SoundTable sectorCount (admitAll candidates table).2 := by
  induction candidates generalizing table with
  | nil => exact htable
  | cons candidate rest ih =>
      obtain ⟨hfirst, hrest⟩ := List.forall_mem_cons.mp hsound
      obtain ⟨hlater, horder⟩ := List.pairwise_cons.mp horder
      have hskip : ∀ partition ∈ table.tail, ∀ later ∈ rest,
          Partition.SlotOrder partition.mbrNum later.mbrNum :=
        fun partition hpartition later hmem =>
          hbehind partition hpartition later (List.mem_cons_of_mem _ hmem)
      unfold admitAll
      split
      next hfits =>
        split
        next hroom =>
          refine ih (htable.append hfirst hfits hroom fun partition hpartition =>
            hbehind partition hpartition candidate List.mem_cons_self) hrest horder ?_
          intro partition hpartition later hmem
          rw [htable.eq_cons, List.cons_append, List.tail_cons] at hpartition
          rcases List.mem_append.mp hpartition with hold | hnew
          · exact hskip partition hold later hmem
          · rw [List.mem_singleton.mp hnew]
            exact hlater later hmem
        next => exact htable
      next => exact ih htable hrest horder hskip

/-- Logical candidates may follow any table. -/
theorem soundTable_admitAll_logicals {sector : BootSector} {lba finish : Nat}
    {table : List Partition} (htable : SoundTable sectorCount table)
    (hfinish : finish ≤ sectorCount) :
    SoundTable sectorCount (admitAll (sector.logicals lba finish) table).2 := by
  have hlogical : ∀ candidate ∈ sector.logicals lba finish, candidate.mbrNum = 0 :=
    fun candidate hmem => (BootSector.sound_of_mem_logicals hfinish hmem).2
  refine soundTable_admitAll htable
    (fun candidate hmem => (BootSector.sound_of_mem_logicals hfinish hmem).1) ?_
    fun _ _ candidate hmem => Or.inl (hlogical candidate hmem)
  exact List.pairwise_of_forall_mem_list fun _ _ later hmem => Or.inl (hlogical later hmem)

variable {δ : Type} [DiskDriver δ]

/-- A scan that answers leaves a sound table behind. -/
theorem soundTable_run {geometry : Geometry} {scan after : Scan δ} {status : ScanStatus}
    (hseed : scan.table = [Partition.wholeDisk geometry.sectorCount])
    (hrun : run geometry scan = .ok status after) :
    SoundTable geometry.sectorCount after.table := by
  have hwhole : SoundTable geometry.sectorCount scan.table := hseed ▸ soundTable_whole _
  have hall : SoundTable geometry.sectorCount ((run geometry).outcome scan).2.table := by
    refine run_induct (motive := fun scanned => SoundTable geometry.sectorCount scanned.table)
      hwhole (fun _ => ⟨hwhole, fun {mbr} _ => ?_⟩) fun mbr container hmem => ?_
    · rw [hseed]
      exact soundTable_admitAll (soundTable_whole _)
        (fun _ hmem => BootSector.sound_of_mem_primaries hmem)
        (BootSector.pairwise_primaries mbr _) (by simp)
    · exact ⟨fun htable _ => htable, fun htable _ _ =>
        soundTable_admitAll_logicals htable (BootSector.finish_le_of_mem_containers hmem)⟩
  rw [Action.outcome_eq_ok_iff.mpr hrun] at hall
  exact hall

/-- A scan that fails leaves the table that it was given. -/
theorem table_of_run_error {geometry : Geometry} {scan after : Scan δ} {cause : StorageError}
    (hrun : run geometry scan = .error cause after) : after.table = scan.table := by
  unfold run at hrun
  split at hrun
  · cases hrun; rfl
  · split at hrun
    · cases hrun; rfl
    · split at hrun <;> cases hrun

end Scan

end StorageStack

import StorageStack.Handset
import StorageStack.Proofs.Partition.SectorPlan

/-! # Planned disks

A plan says which partitions a disk is to have: primaries in slots of the first sector, and
logical ones along a chain. It gives the patches that build such a disk and the table that
lists its partitions.
-/

namespace StorageStack

theorem TypeCode.ne_empty_of_isExtended {code : UInt8} (hextended : isExtended code = true) :
    code ≠ empty := by
  rintro rfl
  exact absurd hextended (by decide)

/-- A range of sectors that an entry is to describe, by absolute positions. -/
structure Extent where
  status : UInt8
  typeCode : UInt8
  start : Nat
  count : Nat
deriving DecidableEq

namespace Extent

def finish (extent : Extent) : Nat := extent.start + extent.count

/-- The entry of the range, with its start counted from `base`. -/
def entry (extent : Extent) (base : Nat) : Entry :=
  ⟨extent.status, extent.typeCode, .ofNat (extent.start - base), .ofNat extent.count⟩

/-- The range can be written down with its start counted from `base`. -/
def Fits (extent : Extent) (base : Nat) : Prop :=
  base ≤ extent.start ∧ extent.start - base < UInt32.size ∧ extent.count < UInt32.size

instance (extent : Extent) (base : Nat) : Decidable (extent.Fits base) :=
  inferInstanceAs (Decidable (_ ∧ _))

/-- The range is for data. -/
def IsData (extent : Extent) : Prop :=
  0 < extent.count ∧ extent.typeCode ≠ TypeCode.empty ∧
    TypeCode.isExtended extent.typeCode = false

instance (extent : Extent) : Decidable extent.IsData :=
  inferInstanceAs (Decidable (_ ∧ _))

/-- The two ranges share no sector. -/
def Apart (left right : Extent) : Prop := left.finish ≤ right.start ∨ right.finish ≤ left.start

instance (left right : Extent) : Decidable (left.Apart right) :=
  inferInstanceAs (Decidable (_ ∨ _))

/-- The range as a partition. The high bit of its status says whether it is bootable, and the
other bits are the boot unit. -/
def partition (extent : Extent) (slot mbrNum : Nat) (eraseBlock : Option UInt32) : Partition where
  logicalNum := slot
  mbrNum
  start := extent.start
  count := extent.count
  bootable := 0x80 ≤ extent.status
  bootUnit := extent.status % 0x80
  typeCode := extent.typeCode
  eraseBlock

/-- What a scan makes of the entry of the range. -/
def candidate (extent : Extent) (base upper mbrNum : Nat) (eraseBlock : Option UInt32) :
    Candidate where
  entry := extent.entry base
  base
  lower := base + 1
  upper
  mbrNum
  eraseBlock

variable {extent : Extent} {base upper mbrNum : Nat} {eraseBlock : Option UInt32}

theorem toNat_start_entry (hfits : extent.Fits base) :
    base + (extent.entry base).start.toNat = extent.start := by
  obtain ⟨hbase, hstart, -⟩ := hfits
  rw [entry, UInt32.toNat_ofNat_of_lt' hstart, Nat.add_sub_of_le hbase]

theorem toNat_count_entry (hfits : extent.Fits base) :
    (extent.entry base).count.toNat = extent.count :=
  UInt32.toNat_ofNat_of_lt' hfits.2.2

theorem start_candidate (hfits : extent.Fits base) :
    (extent.candidate base upper mbrNum eraseBlock).start = extent.start :=
  toNat_start_entry hfits

theorem finish_candidate (hfits : extent.Fits base) :
    (extent.candidate base upper mbrNum eraseBlock).finish = extent.finish := by
  rw [Candidate.finish, start_candidate hfits, candidate, toNat_count_entry hfits, finish]

theorem isEmpty_entry (hfits : extent.Fits base) (hcount : 0 < extent.count)
    (htype : extent.typeCode ≠ TypeCode.empty) : (extent.entry base).isEmpty = false := by
  have hused : (extent.entry base).count ≠ 0 := by
    intro hzero
    have hnone := toNat_count_entry hfits
    rw [hzero] at hnone
    exact absurd hnone (Nat.ne_of_lt hcount)
  rw [Entry.isEmpty, Bool.or_eq_false_iff, beq_eq_false_iff_ne, beq_eq_false_iff_ne]
  exact ⟨htype, hused⟩

theorem IsData.isEmpty_entry (hdata : extent.IsData) (hfits : extent.Fits base) :
    (extent.entry base).isEmpty = false :=
  Extent.isEmpty_entry hfits hdata.1 hdata.2.1

/-- The bits of a status, by its value. -/
theorem status_bits (status : UInt8) :
    (status &&& 0x80 != 0) = decide (0x80 ≤ status) ∧ status &&& 0x7F = status % 0x80 := by
  have hall : ∀ number : Fin 256,
      (UInt8.ofNat number &&& 0x80 != 0) = decide (0x80 ≤ UInt8.ofNat number) ∧
        UInt8.ofNat number &&& 0x7F = UInt8.ofNat number % 0x80 := by decide +kernel
  have hstatus := hall ⟨status.toNat, status.toNat_lt⟩
  rwa [UInt8.ofNat_toNat] at hstatus

theorem toPartition_candidate (hfits : extent.Fits base) (slot : Nat) :
    (extent.candidate base upper mbrNum eraseBlock).toPartition slot =
      extent.partition slot mbrNum eraseBlock := by
  obtain ⟨hbootable, hunit⟩ := status_bits extent.status
  rw [Candidate.toPartition, start_candidate hfits, candidate, toNat_count_entry hfits]
  simp only [Entry.bootable, Entry.bootUnit, entry, hbootable, hunit, partition]

end Extent

/-- The link of a chain sector, less the place that it leads to. -/
structure Link where
  slot : Fin entrySlots
  status : UInt8
  typeCode : UInt8
  count : UInt32

/-- A sector of an extended chain with one partition. Its link is written if there is a next
sector. -/
structure ChainSector where
  lba : Nat
  slot : Fin entrySlots
  extent : Extent
  link : Link
  erase? : Option (Fin entrySlots → UInt32) := none

/-- The partitions that a disk is to have. -/
structure DiskPlan where
  sectorCount : Nat
  primary? : Fin entrySlots → Option Extent
  containerSlot : Fin entrySlots
  container : Extent
  chain : List ChainSector
  erase? : Option (Fin entrySlots → UInt32) := none

namespace ChainSector

/-- The link to the next sector, which counts from the head of the chain. -/
def linkEntry (sector : ChainSector) (head next : Nat) : Entry :=
  ⟨sector.link.status, sector.link.typeCode, .ofNat (next - head), sector.link.count⟩

/-- The sector in a chain from `head` on, with the place of the next sector. -/
def plan (sector : ChainSector) (head : Nat) (next? : Option Nat) : SectorPlan where
  lba := sector.lba
  cell slot :=
    if slot = sector.slot then some (sector.extent.entry sector.lba)
    else if slot = sector.link.slot then next?.map (sector.linkEntry head)
    else none
  erase? := sector.erase?

/-- The sectors of a chain, each linked to the next. -/
def plans (head : Nat) : List ChainSector → List SectorPlan
  | [] => []
  | sector :: rest => sector.plan head (rest.head?.map (·.lba)) :: plans head rest

/-- The partition of the sector lies behind it and inside the container, the sector itself on
the disk and not before the head, and its link is a link. -/
structure Valid (sector : ChainSector) (container : Extent) (sectorCount : Nat) : Prop where
  lower : container.start ≤ sector.lba
  upper : sector.lba < sectorCount
  near : sector.lba - container.start < UInt32.size
  data : sector.extent.IsData
  fits : sector.extent.Fits sector.lba
  behind : sector.lba < sector.extent.start
  inside : sector.extent.finish ≤ container.finish
  slot_ne : sector.slot ≠ sector.link.slot
  extended : TypeCode.isExtended sector.link.typeCode = true
  count_ne : sector.link.count ≠ 0

end ChainSector

namespace DiskPlan

/-- The first sector: the primaries and the container. -/
def mbr (disk : DiskPlan) : SectorPlan where
  lba := 0
  cell slot :=
    if slot = disk.containerSlot then some (disk.container.entry 0)
    else (disk.primary? slot).map (·.entry 0)
  erase? := disk.erase?

def plans (disk : DiskPlan) : List SectorPlan :=
  disk.mbr :: ChainSector.plans disk.container.start disk.chain

/-- The patches that build the disk. -/
def patches (disk : DiskPlan) : List Patch := disk.plans.flatMap (·.patches)

/-- The primaries with their slots, in slot order. -/
def primaries (disk : DiskPlan) : List (Fin entrySlots × Extent) :=
  (List.finRange entrySlots).filterMap fun slot =>
    (disk.primary? slot).map fun extent => (slot, extent)

/-- The ranges of all partitions. -/
def extents (disk : DiskPlan) : List Extent :=
  disk.primaries.map (·.2) ++ disk.chain.map (·.extent)

/-- The primaries in slot order and then the logical partitions in the order of the chain, with
their slots left open. -/
def partitions (disk : DiskPlan) : List Partition :=
  disk.primaries.map (fun primary =>
    primary.2.partition 0 (primary.1 + 1) (disk.mbr.eraseBlock? primary.1)) ++
  disk.chain.map fun sector => sector.extent.partition 0 0 none

/-- The whole disk and behind it each partition in its slot. -/
def table (disk : DiskPlan) : List Partition :=
  .wholeDisk disk.sectorCount ::
    disk.partitions.mapIdx fun index partition => { partition with logicalNum := index + 1 }

/-- The plan can be written down, and its partitions are where they may be. -/
structure Valid (disk : DiskPlan) : Prop where
  free : disk.primary? disk.containerSlot = none
  primary : ∀ slot extent, disk.primary? slot = some extent →
    extent.IsData ∧ extent.Fits 0 ∧ 1 ≤ extent.start ∧ extent.finish ≤ disk.sectorCount
  extended : TypeCode.isExtended disk.container.typeCode = true
  fits : disk.container.Fits 0
  lower : 1 ≤ disk.container.start
  upper : disk.container.finish ≤ disk.sectorCount
  head : disk.chain.head?.map (·.lba) = some disk.container.start
  distinct : (disk.chain.map (·.lba)).Nodup
  chain : ∀ sector ∈ disk.chain, sector.Valid disk.container disk.sectorCount
  apart : disk.extents.Pairwise Extent.Apart
  room : disk.extents.length < Limits.maxPartitions

/-- The user area of the handset as a plan. -/
def handset : DiskPlan where
  sectorCount := Handset.sectorCount
  primary? slot := match slot.val with
    | 0 => some ⟨0x80, TypeCode.fat32Lba, 2048, 8192⟩
    | 1 => some ⟨0, TypeCode.linux, 10240, 16384⟩
    | _ => none
  containerSlot := ⟨2, by decide⟩
  container := ⟨0, TypeCode.extendedLba, 32768, 32768⟩
  chain :=
    let link : Link := ⟨⟨1, by decide⟩, 0, TypeCode.extendedLba, 8192⟩
    [{ lba := 32768, slot := ⟨0, by decide⟩, extent := ⟨0, TypeCode.linux, 32832, 4096⟩, link },
      { lba := 40960, slot := ⟨0, by decide⟩, extent := ⟨0, TypeCode.linux, 41024, 4096⟩, link },
      { lba := 49152, slot := ⟨0, by decide⟩, extent := ⟨0, TypeCode.littleFs, 49216, 8192⟩, link }]

theorem valid_handset : handset.Valid := by
  constructor
  case primary =>
    have hall : ∀ slot, ∀ extent ∈ handset.primary? slot,
        extent.IsData ∧ extent.Fits 0 ∧ 1 ≤ extent.start ∧ extent.finish ≤ handset.sectorCount := by
      decide
    exact hall
  case chain =>
    intro sector hsector
    simp only [handset, List.mem_cons, List.not_mem_nil, or_false] at hsector
    rcases hsector with rfl | rfl | rfl <;> constructor <;> decide
  all_goals decide

end DiskPlan

end StorageStack

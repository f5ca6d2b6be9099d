import Mathlib.Order.Interval.Set.Defs
import StorageStack.Proofs.Block.RamDevices
import StorageStack.Proofs.Block.TableInvariant
import StorageStack.Proofs.Disk.Agreement

/-! # Isolation of partitions

Whatever is written through the handle of one partition stays inside it. Reads through any
other partition are answered as if the writes had not been made.
-/

namespace StorageStack

/-- A write through a device, of whole sectors or of bytes. -/
inductive DeviceWrite where
  | sectors (lba : Nat) (bytes : Bytes)
  | region (offset : Nat) (bytes : Bytes)
deriving DecidableEq, Repr

namespace DeviceWrite

variable {δ : Type} [DiskDriver δ]

/-- The devices after a write, whether it succeeded or not. -/
def state (device : DeviceHandle) (blocks : BlockDevices δ) : DeviceWrite → BlockDevices δ
  | sectors lba bytes => ((BlockDevices.write device lba bytes).outcome blocks).2
  | region offset bytes =>
      match Region.ofDevice blocks device with
      | .error _ => blocks
      | .ok opened => ((opened.write offset bytes).outcome blocks).2

/-- The devices after writes through one handle. -/
def states (device : DeviceHandle) (writes : List DeviceWrite) (blocks : BlockDevices δ) :
    BlockDevices δ :=
  writes.foldl (state device) blocks

/-- What transfers of sectors through a handle keep, all writes through it keep. -/
theorem states_induct {motive : BlockDevices δ → Prop} {device : DeviceHandle}
    (read : ∀ {blocks} (lba length : Nat), motive blocks →
      motive ((BlockDevices.read device lba length).outcome blocks).2)
    (write : ∀ {blocks} (lba : Nat) (bytes : Bytes), motive blocks →
      motive ((BlockDevices.write device lba bytes).outcome blocks).2)
    {blocks : BlockDevices δ} (hblocks : motive blocks) (writes : List DeviceWrite) :
    motive (states device writes blocks) := by
  induction writes generalizing blocks with
  | nil => exact hblocks
  | cons first rest ih =>
      refine ih ?_
      cases first with
      | sectors lba bytes => exact write lba bytes hblocks
      | region offset bytes =>
          unfold state
          cases hregion : Region.ofDevice blocks device with
          | error cause => exact hblocks
          | ok opened =>
              obtain ⟨_, _, _, _, rfl⟩ := BlockDevices.resolves_of_ofDevice hregion
              exact Region.write_induct read write hblocks offset bytes

end DeviceWrite

/-- The bytes of a disk that a partition does not hold. -/
def Partition.outside (partition : Partition) (sectorSize : Nat) : Set Nat :=
  { position | position < partition.start * sectorSize ∨ partition.finish * sectorSize ≤ position }

theorem Partition.Apart.subset_outside {partition neighbour : Partition}
    (hapart : partition.Apart neighbour) (sectorSize : Nat) :
    Set.Ico (neighbour.start * sectorSize) (neighbour.finish * sectorSize) ⊆
      partition.outside sectorSize := by
  rintro position ⟨hlower, hupper⟩
  rcases hapart with hbefore | hbehind
  · exact Or.inr (Nat.le_trans (Nat.mul_le_mul_right _ hbefore) hlower)
  · exact Or.inl (Nat.lt_of_lt_of_le hupper (Nat.mul_le_mul_right _ hbehind))

namespace BlockDevices

/-- A transfer that is admitted lies in the bytes of its partition. -/
theorem bounds_of_locate_eq_ok {blocks : BlockDevices RamDisk} {device : DeviceHandle}
    {disk found : AttachedDisk RamDisk} {layout : Layout} {partition : Partition}
    (hresolves : Resolves blocks device disk layout partition) (hram : OnRam disk layout partition)
    {lba length absolute : Nat}
    (hlocate : blocks.locate device lba length = .ok (found, absolute)) :
    found = disk ∧ partition.start * disk.driver.sectorSize ≤ absolute * disk.driver.sectorSize ∧
      absolute * disk.driver.sectorSize + length ≤
        partition.finish * disk.driver.sectorSize := by
  rw [hresolves.locate_eq] at hlocate
  split at hlocate
  · cases hlocate
  · next hlength =>
    split at hlocate
    · cases hlocate
    · next hrange =>
      cases hlocate
      have hwhole : length / disk.driver.sectorSize * disk.driver.sectorSize = length := by
        rw [← hram.sectorSize_eq]
        exact Nat.div_mul_cancel (Nat.dvd_of_mod_eq_zero (by omega))
      rw [hram.sectorSize_eq] at hrange
      refine ⟨rfl, Nat.mul_le_mul_right _ (Nat.le_add_right _ _), ?_⟩
      rw [← hwhole, ← Nat.add_mul]
      refine Nat.mul_le_mul_right _ ?_
      rw [Partition.finish]
      omega

/-- The devices after changes to one disk that are confined to one of its partitions. -/
def Confined (blocks : BlockDevices RamDisk) (disk : AttachedDisk RamDisk) (partition : Partition)
    (after : BlockDevices RamDisk) : Prop :=
  ∃ driver, after = blocks.replace { disk with driver } ∧
    disk.driver.Agrees (partition.outside disk.driver.sectorSize) driver

section Writing

variable {blocks : BlockDevices RamDisk} {device : DeviceHandle} {disk : AttachedDisk RamDisk}
  {layout : Layout} {partition : Partition}

theorem OnRam.with_driver (hram : OnRam disk layout partition) {positions : Set Nat}
    {driver : RamDisk} (hagrees : disk.driver.Agrees positions driver) :
    OnRam { disk with driver } layout partition := by
  refine ⟨hram.sectorSize_eq.trans hagrees.sectorSize_eq.symm, hram.sectorSize_pos, ?_⟩
  have hcount : driver.sectorCount = disk.driver.sectorCount := by
    rw [RamDisk.sectorCount, RamDisk.sectorCount, hagrees.size_eq, hagrees.sectorSize_eq]
  exact hcount ▸ hram.finish_le

theorem Confined.read (hresolves : Resolves blocks device disk layout partition)
    {after : BlockDevices RamDisk} (hconfined : Confined blocks disk partition after)
    (lba length : Nat) :
    Confined blocks disk partition ((BlockDevices.read device lba length).outcome after).2 := by
  obtain ⟨driver, rfl, hagrees⟩ := hconfined
  have hafter := hresolves.replace driver
  cases hlocate : (blocks.replace { disk with driver }).locate device lba length with
  | error cause =>
      rw [outcome_read_of_refused hlocate]
      exact ⟨driver, rfl, hagrees⟩
  | ok located =>
      obtain ⟨found, absolute⟩ := located
      have hfound : found = { disk with driver } :=
        Option.some.inj ((locate_eq_ok hlocate).1.symm.trans hafter.found)
      subst hfound
      rw [outcome_read_of_located hlocate]
      refine ⟨_, replace_replace _ rfl, hagrees.trans ?_⟩
      exact RamDisk.Agrees.after_read _ driver absolute length

/-- One write of sectors, served, refused or failed, changes nothing outside the partition. -/
theorem Confined.write (hresolves : Resolves blocks device disk layout partition)
    (hram : OnRam disk layout partition) {after : BlockDevices RamDisk}
    (hconfined : Confined blocks disk partition after) (lba : Nat) (bytes : Bytes) :
    Confined blocks disk partition ((BlockDevices.write device lba bytes).outcome after).2 := by
  obtain ⟨driver, rfl, hagrees⟩ := hconfined
  have hafter := hresolves.replace driver
  cases hlocate : (blocks.replace { disk with driver }).locate device lba bytes.length with
  | error cause =>
      rw [outcome_write_of_refused hlocate]
      exact ⟨driver, rfl, hagrees⟩
  | ok located =>
      obtain ⟨found, absolute⟩ := located
      obtain ⟨rfl, hlower, hupper⟩ :=
        bounds_of_locate_eq_ok hafter (hram.with_driver hagrees) hlocate
      rw [outcome_write_of_located hlocate]
      refine ⟨_, replace_replace _ rfl, hagrees.trans (RamDisk.Agrees.after_write driver ?_)⟩
      intro position hposition
      rw [← hagrees.sectorSize_eq] at hposition
      rcases hposition with hbefore | hbehind
      · exact Or.inl (Nat.lt_of_lt_of_le hbefore hlower)
      · exact Or.inr (Nat.le_trans hupper hbehind)

/-- All writes through a handle are confined to its partition. -/
theorem confined_states (hdistinct : blocks.diskIds.Nodup)
    (hresolves : Resolves blocks device disk layout partition) (hram : OnRam disk layout partition)
    (writes : List DeviceWrite) :
    Confined blocks disk partition (DeviceWrite.states device writes blocks) := by
  refine DeviceWrite.states_induct (motive := Confined blocks disk partition)
    (fun lba length hconfined => hconfined.read hresolves lba length)
    (fun lba bytes hconfined => hconfined.write hresolves hram lba bytes) ?_ writes
  exact ⟨disk.driver, (hresolves.replace_self hdistinct).symm, RamDisk.Agrees.refl _ _⟩

end Writing

/-- Transfers are admitted by the layout alone. -/
theorem locate_with_driver {δ : Type} {left right : BlockDevices δ} {device : DeviceHandle}
    {disk : AttachedDisk δ} {driver : δ} (hleft : left.disk? device.disk = some disk)
    (hright : right.disk? device.disk = some { disk with driver }) (lba length : Nat) :
    right.locate device lba length =
      (left.locate device lba length).map fun located => ({ disk with driver }, located.2) := by
  unfold locate
  simp only [hleft, hright]
  cases disk.layout with
  | none => rfl
  | some layout =>
      dsimp only
      split
      · rfl
      · cases layout.partitions[device.partition.toNat]? with
        | none => rfl
        | some partition =>
            dsimp only
            split <;> rfl

/-- Whatever partition the slot of the disk lists, the driver holds the same bytes for it. -/
def Shares (disk : AttachedDisk RamDisk) (slot : UInt8) (driver : RamDisk) : Prop :=
  ∀ layout partition, disk.layout = some layout → layout.partitions[slot.toNat]? = some partition →
    OnRam disk layout partition ∧
      disk.driver.Agrees (Set.Ico (partition.start * disk.driver.sectorSize)
        (partition.finish * disk.driver.sectorSize)) driver

/-- Devices that a handle cannot tell apart. -/
def Alike (device : DeviceHandle) (left right : BlockDevices RamDisk) : Prop :=
  left.disk? device.disk = none ∧ right.disk? device.disk = none ∨
    ∃ disk driver, left.disk? device.disk = some disk ∧
      right.disk? device.disk = some { disk with driver } ∧ Shares disk device.partition driver

theorem Shares.read {disk : AttachedDisk RamDisk} {slot : UInt8} {driver : RamDisk}
    (hshares : Shares disk slot driver) (lba length : Nat) :
    Shares { disk with driver := (DriverAction.outcome (DiskDriver.read lba length) disk.driver).2 }
      slot (DriverAction.outcome (DiskDriver.read lba length) driver).2 := by
  intro layout partition hlayout hpartition
  obtain ⟨hram, hagrees⟩ := hshares layout partition hlayout hpartition
  refine ⟨hram.with_driver (RamDisk.Agrees.after_read ∅ disk.driver lba length), ?_⟩
  have hsize : (DriverAction.outcome (DiskDriver.read lba length) disk.driver).2.sectorSize =
      disk.driver.sectorSize := by rw [RamDisk.outcome_read]
  dsimp only
  rw [hsize]
  exact hagrees.read lba length

theorem alike_of_disk?_eq {device : DeviceHandle} {left right : BlockDevices RamDisk}
    (hreach : Reachable RamDisk.switches left)
    (hsame : right.disk? device.disk = left.disk? device.disk) : Alike device left right := by
  cases hdisk : left.disk? device.disk with
  | none => exact Or.inl ⟨hdisk, hsame.trans hdisk⟩
  | some disk =>
      refine Or.inr ⟨disk, disk.driver, hdisk, hsame.trans hdisk, ?_⟩
      intro layout partition hlayout hpartition
      have hresolves : Resolves left device disk layout partition := ⟨hdisk, hlayout, hpartition⟩
      exact ⟨hresolves.onRam hreach, RamDisk.Agrees.refl _ _⟩

theorem Alike.read {device : DeviceHandle} {left right : BlockDevices RamDisk}
    (halike : Alike device left right) (lba length : Nat) :
    ((BlockDevices.read device lba length).outcome right).1 =
        ((BlockDevices.read device lba length).outcome left).1 ∧
      Alike device ((BlockDevices.read device lba length).outcome left).2
        ((BlockDevices.read device lba length).outcome right).2 := by
  rcases halike with ⟨hleft, hright⟩ | ⟨disk, driver, hleft, hright, hshares⟩
  · have hrefused : ∀ {blocks : BlockDevices RamDisk}, blocks.disk? device.disk = none →
        blocks.locate device lba length = .error .notFound := by
      intro blocks hnone
      simp only [locate, hnone]
    rw [outcome_read_of_refused (hrefused hleft), outcome_read_of_refused (hrefused hright)]
    exact ⟨rfl, Or.inl ⟨hleft, hright⟩⟩
  · -- Both sides refuse, or both make the same call inside the partition.
    have hlocates := locate_with_driver hleft hright lba length
    cases hlocate : left.locate device lba length with
    | error cause =>
        rw [hlocate] at hlocates
        rw [outcome_read_of_refused hlocate, outcome_read_of_refused hlocates]
        exact ⟨rfl, Or.inr ⟨disk, driver, hleft, hright, hshares⟩⟩
    | ok located =>
        obtain ⟨found, absolute⟩ := located
        obtain ⟨hfound, layout, hlayout, -, -, partition, hpartition, -⟩ := locate_eq_ok hlocate
        obtain rfl : found = disk := Option.some.inj (hfound.symm.trans hleft)
        have hresolves : Resolves left device found layout partition := ⟨hleft, hlayout, hpartition⟩
        obtain ⟨hram, hagrees⟩ := hshares layout partition hlayout hpartition
        obtain ⟨-, hlower, hupper⟩ := bounds_of_locate_eq_ok hresolves hram hlocate
        have hid := (of_disk?_eq_some hleft).2
        rw [hlocate] at hlocates
        rw [outcome_read_of_located hlocate, outcome_read_of_located hlocates]
        refine ⟨?_, Or.inr ⟨_, _, (hresolves.replace _).found, ?_, hshares.read absolute length⟩⟩
        · rw [hagrees.read_eq fun position hbehind hbefore =>
            ⟨Nat.le_trans hlower hbehind, Nat.lt_of_lt_of_le hbefore hupper⟩]
        · rw [disk?_replace, if_pos hid.symm, hright]
          rfl

/-- Reads of bytes cannot tell alike devices apart either. -/
theorem Alike.read_region {region : Region} {left right : BlockDevices RamDisk}
    (halike : Alike region.device left right) (offset length : Nat) :
    (region.read offset length right).1 = (region.read offset length left).1 := by
  unfold Region.read
  split
  · rfl
  · generalize pieces region.info.sectorSize offset length = list
    induction list generalizing left right with
    | nil => rfl
    | cons piece rest ih =>
        obtain ⟨hanswer, hafter⟩ := halike.read piece.lba region.info.sectorSize
        unfold Action.outcome at hanswer hafter
        unfold Region.readPieces
        cases hleft : BlockDevices.read region.device piece.lba region.info.sectorSize left with
        | error cause leftAfter =>
            cases hright : BlockDevices.read region.device piece.lba region.info.sectorSize right with
            | error other rightAfter =>
                rw [hleft, hright] at hanswer
                cases hanswer
                rfl
            | ok sector rightAfter =>
                rw [hleft, hright] at hanswer
                cases hanswer
        | ok sector leftAfter =>
            cases hright : BlockDevices.read region.device piece.lba region.info.sectorSize right with
            | error other rightAfter =>
                rw [hleft, hright] at hanswer
                cases hanswer
            | ok other rightAfter =>
                rw [hleft, hright] at hanswer hafter
                cases hanswer
                dsimp only
                rw [ih hafter]

theorem Alike.ofDevice_eq {device : DeviceHandle} {left right : BlockDevices RamDisk}
    (halike : Alike device left right) :
    Region.ofDevice right device = Region.ofDevice left device := by
  unfold Region.ofDevice info
  rcases halike with ⟨hleft, hright⟩ | ⟨disk, driver, hleft, hright, -⟩
  · rw [hleft, hright]
  · rw [hleft, hright]
    rfl

/-- Changes confined to a partition do not show through the handle of another one. -/
theorem Confined.alike {blocks after : BlockDevices RamDisk} {device neighbour : DeviceHandle}
    {disk : AttachedDisk RamDisk} {layout : Layout} {partition : Partition}
    (hconfined : Confined blocks disk partition after)
    (hreach : Reachable RamDisk.switches blocks)
    (hresolves : Resolves blocks device disk layout partition) (hdevice : 1 ≤ device.partition.toNat)
    (hneighbour : neighbour.disk = device.disk →
      1 ≤ neighbour.partition.toNat ∧ neighbour.partition ≠ device.partition) :
    Alike neighbour blocks after := by
  obtain ⟨driver, rfl, hagrees⟩ := hconfined
  by_cases hdisk : neighbour.disk = device.disk
  · obtain ⟨hindex, hne⟩ := hneighbour hdisk
    refine Or.inr ⟨disk, driver, hdisk ▸ hresolves.found, hdisk ▸ (hresolves.replace driver).found, ?_⟩
    intro known other hknown hother
    obtain rfl : layout = known := Option.some.inj (hresolves.known.symm.trans hknown)
    have hsibling : Resolves blocks neighbour disk layout other :=
      ⟨hdisk ▸ hresolves.found, hknown, hother⟩
    have hapart := hresolves.apart (hreach.sound hresolves.mem) hdevice hindex hne hother
    exact ⟨hsibling.onRam hreach, hagrees.mono (hapart.subset_outside _)⟩
  · apply alike_of_disk?_eq hreach
    have hid : neighbour.disk ≠ disk.id := hresolves.id_eq ▸ hdisk
    rw [disk?_replace, if_neg hid]

theorem reachable_states {δ : Type} [DiskDriver δ] {outside : Set (δ → δ)} {blocks : BlockDevices δ}
    (hreach : Reachable outside blocks) (device : DeviceHandle) (writes : List DeviceWrite) :
    Reachable outside (DeviceWrite.states device writes blocks) :=
  DeviceWrite.states_induct (fun lba length hprior => hprior.read device lba length)
    (fun lba bytes hprior => hprior.write device lba bytes) hreach writes

/-- Whole sectors of a partition are those of the disk from its start on, and can be read as
long as they are inside and the disk is not failing. -/
theorem read_sectors_of_reachable {blocks : BlockDevices RamDisk} {device : DeviceHandle}
    {disk : AttachedDisk RamDisk} {layout : Layout} {partition : Partition}
    (hreach : Reachable RamDisk.switches blocks)
    (hresolves : Resolves blocks device disk layout partition) (lba : Nat) {sectors : Nat}
    (hsectors : 0 < sectors) :
    ((∃ bytes, ((read device lba (sectors * layout.geometry.sectorSize)).outcome blocks).1 = .ok bytes) ↔
        lba + sectors ≤ partition.count ∧ disk.driver.failing = false) ∧
      (lba + sectors ≤ partition.count →
        ((read device lba (sectors * layout.geometry.sectorSize)).outcome blocks).1 =
          ((read (DeviceHandle.whole device.disk) (partition.start + lba)
            (sectors * layout.geometry.sectorSize)).outcome blocks).1) := by
  have hram := hresolves.onRam hreach
  have hsound := hreach.sound hresolves.mem
  constructor
  · by_cases hfits : lba + sectors ≤ partition.count
    · rw [hresolves.outcome_read_sectors hram hsectors hfits]
      cases hfailing : disk.driver.failing <;> simp [hfits]
    · have hlocate := hresolves.locate_sectors hram.sectorSize_pos lba hsectors
      rw [if_pos (Nat.lt_of_not_le hfits)] at hlocate
      rw [outcome_read_of_refused hlocate]
      simp [hfits]
  · intro hfits
    have hwhole := hresolves.whole hsound
    have hinside : partition.start + lba + sectors ≤ layout.geometry.sectorCount := by
      have hfinish := hresolves.finish_le hsound
      rw [Partition.finish] at hfinish
      omega
    rw [hresolves.outcome_read_sectors hram hsectors hfits,
      hwhole.outcome_read_sectors (hwhole.onRam hreach) hsectors hinside]
    simp only [Partition.wholeDisk, Nat.zero_add]

/-- Writes through one partition leave every other disk alone, and every byte of their own
disk outside the partition. No other partition shows them, and the partition itself can be
read wherever it lies, with the bytes that the whole disk has there. -/
theorem writes_isolated {blocks : BlockDevices RamDisk} (hreach : Reachable RamDisk.switches blocks)
    {device : DeviceHandle} {disk : AttachedDisk RamDisk} {layout : Layout} {partition : Partition}
    (hresolves : Resolves blocks device disk layout partition) (hdevice : 1 ≤ device.partition.toNat)
    (writes : List DeviceWrite) :
    (∀ id, id ≠ device.disk →
      (DeviceWrite.states device writes blocks).disk? id = blocks.disk? id) ∧
    (1 ≤ partition.start ∧ ∃ driver,
      DeviceWrite.states device writes blocks = blocks.replace { disk with driver } ∧
      disk.driver.Agrees (partition.outside disk.driver.sectorSize) driver) ∧
    (∀ neighbour : DeviceHandle, (neighbour.disk = device.disk →
        1 ≤ neighbour.partition.toNat ∧ neighbour.partition ≠ device.partition) →
      (∀ lba length,
        ((read neighbour lba length).outcome (DeviceWrite.states device writes blocks)).1 =
          ((read neighbour lba length).outcome blocks).1) ∧
      Region.ofDevice (DeviceWrite.states device writes blocks) neighbour =
        Region.ofDevice blocks neighbour ∧
      ∀ region, Region.ofDevice blocks neighbour = .ok region → ∀ offset length,
        (region.read offset length (DeviceWrite.states device writes blocks)).1 =
          (region.read offset length blocks).1) ∧
    ∀ lba sectors, 0 < sectors →
      ((∃ bytes, ((read device lba (sectors * layout.geometry.sectorSize)).outcome
          (DeviceWrite.states device writes blocks)).1 = .ok bytes) ↔
        lba + sectors ≤ partition.count ∧ disk.driver.failing = false) ∧
      (lba + sectors ≤ partition.count →
        ((read device lba (sectors * layout.geometry.sectorSize)).outcome
            (DeviceWrite.states device writes blocks)).1 =
          ((read (DeviceHandle.whole device.disk) (partition.start + lba)
            (sectors * layout.geometry.sectorSize)).outcome
            (DeviceWrite.states device writes blocks)).1) := by
  have hram := hresolves.onRam hreach
  have hsound := hreach.sound hresolves.mem
  have hconfined := confined_states hreach.nodup_diskIds hresolves hram writes
  have hreachAfter := reachable_states hreach device writes
  have hstart := ((hsound.table layout hresolves.known).placed_of_getElem? hdevice
    hresolves.listed).start_pos
  refine ⟨fun id hid => ?_, ⟨hstart, hconfined⟩, fun neighbour hneighbour => ?_, ?_⟩
  · obtain ⟨driver, hstate, -⟩ := hconfined
    rw [hstate, disk?_replace, if_neg (hresolves.id_eq ▸ hid)]
  · have halike := hconfined.alike hreach hresolves hdevice hneighbour
    refine ⟨fun lba length => (halike.read lba length).1, halike.ofDevice_eq, ?_⟩
    intro region hregion offset length
    obtain ⟨_, _, _, _, rfl⟩ := resolves_of_ofDevice hregion
    exact Alike.read_region halike offset length
  · intro lba sectors hsectors
    obtain ⟨driver, hstate, hagrees⟩ := hconfined
    have hafter := hresolves.replace driver
    rw [← hstate] at hafter
    rw [← hagrees.failing_eq]
    exact read_sectors_of_reachable hreachAfter hafter lba hsectors

theorem writes_isolated_handset :
    let writes := [DeviceWrite.sectors 0 (List.replicate 512 0xAB), .region 600 [1, 2, 3]]
    let after := DeviceWrite.states ⟨.user, 2⟩ writes (Handset.blocks id)
    ∃ disk layout partition, Resolves (Handset.blocks id) ⟨.user, 2⟩ disk layout partition ∧
      1 ≤ partition.start ∧ after.disk? .boot0 = (Handset.blocks id).disk? .boot0 ∧
      ∀ lba length, ((read ⟨.user, 1⟩ lba length).outcome after).1 =
        ((read ⟨.user, 1⟩ lba length).outcome (Handset.blocks id)).1 := by
  intro writes after
  have hopened : Region.ofDevice (Handset.blocks id) ⟨.user, 2⟩ =
      .ok ⟨⟨.user, 2⟩, ⟨512, 16384, 1024⟩⟩ := by decide +kernel
  obtain ⟨disk, layout, partition, hresolves, -⟩ := resolves_of_ofDevice hopened
  obtain ⟨hdisks, ⟨hstart, -⟩, hneighbours, -⟩ :=
    writes_isolated (reachable_handset RamDisk.switches id) hresolves (by decide) writes
  refine ⟨disk, layout, partition, hresolves, hstart, ?_, ?_⟩
  · exact hdisks .boot0 (by decide)
  · exact (hneighbours ⟨.user, 1⟩ (by decide)).1

end BlockDevices

end StorageStack

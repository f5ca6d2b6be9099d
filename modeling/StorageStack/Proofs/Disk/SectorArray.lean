import StorageStack.Proofs.CallLists
import StorageStack.Proofs.Disk.Stores

/-! # RAM disks as arrays of sectors

In whole sectors a RAM disk is an array: a transfer is served if it keeps to the array, and
moves the sectors that it names. The bytes behind the last whole sector are in none, and a
transfer of several sectors comes to the transfers of each of them.
-/

namespace StorageStack

/-- The whole sectors of a payload, in order. A shorter rest at the end is in none. -/
def Bytes.sectors (bytes : Bytes) (size : Nat) : List Bytes :=
  (List.range (bytes.length / size)).map fun index => (bytes.drop (index * size)).take size

/-- A call for whole sectors, or a switch of the injected failure. -/
inductive SectorCall where
  | read (lba count : Nat)
  | write (lba : Nat) (bytes : Bytes)
  | setFailing (failing : Bool)
deriving DecidableEq, Repr

namespace SectorCall

/-- What is written is a number of whole sectors. -/
def Whole (size : Nat) : SectorCall → Prop
  | read .. => True
  | write _ bytes => size ∣ bytes.length
  | setFailing _ => True

/-- The transfer, made sector by sector in the given order. -/
def singles (size : Nat) (order : List Nat) : SectorCall → List SectorCall
  | read lba _ => order.map fun index => .read (lba + index) 1
  | write lba bytes =>
      order.map fun index => .write (lba + index) ((bytes.sectors size).getD index [])
  | setFailing failing => [.setFailing failing]

/-- Whether the call is a read. -/
def isRead : SectorCall → Bool
  | read .. => true
  | _ => false

/-- Whether the call is a write. -/
def isWrite : SectorCall → Bool
  | write .. => true
  | _ => false

end SectorCall

/-- Sectors by their number, and whether every transfer fails. -/
structure SectorArray where
  sectors : List Bytes
  failing : Bool
deriving DecidableEq, Repr

namespace SectorArray

/-- A transfer is served unless it leaves the array or every transfer fails. -/
def Serves (array : SectorArray) (lba count : Nat) : Prop :=
  array.failing = false ∧ lba + count ≤ array.sectors.length

instance (array : SectorArray) (lba count : Nat) : Decidable (array.Serves lba count) :=
  inferInstanceAs (Decidable (_ ∧ _))

/-- A call on sectors of the given size. Only a read delivers bytes. -/
def serve (size : Nat) : SectorCall → StateM SectorArray (Except DriverError Bytes)
  | .read lba count => fun array =>
      if array.Serves lba count then (.ok ((array.sectors.drop lba).take count).flatten, array)
      else (.error .hardware, array)
  | .write lba bytes => fun array =>
      let written := bytes.sectors size
      if array.Serves lba written.length then
        (.ok [], { array with
          sectors := array.sectors.take lba ++ written ++ array.sectors.drop (lba + written.length) })
      else (.error .hardware, array)
  | .setFailing failing => fun array => (.ok [], { array with failing })

end SectorArray

theorem Bytes.length_sectors (bytes : Bytes) (size : Nat) :
    (bytes.sectors size).length = bytes.length / size := by
  rw [sectors, List.length_map, List.length_range]

theorem Bytes.length_of_mem_sectors {bytes sector : Bytes} {size : Nat}
    (hsector : sector ∈ bytes.sectors size) : sector.length = size := by
  obtain ⟨index, hindex, rfl⟩ := List.mem_map.mp hsector
  have hwithin := Nat.mul_le_of_le_div size _ _ (Nat.succ_le_of_lt (List.mem_range.mp hindex))
  rw [Nat.succ_mul] at hwithin
  rw [List.length_take, List.length_drop]
  omega

theorem Bytes.sectors_append {sector rest : Bytes} {size : Nat} (hsize : 0 < size)
    (hsector : sector.length = size) :
    (sector ++ rest).sectors size = sector :: rest.sectors size := by
  rw [sectors, sectors, List.length_append, hsector, Nat.add_div_left _ hsize, List.range_succ_eq_map,
    List.map_cons, List.map_map, Nat.zero_mul, List.drop_zero, List.take_left' hsector]
  refine congrArg (sector :: ·) (List.map_congr_left fun index _ => ?_)
  rw [Function.comp_apply, Nat.succ_mul, Nat.add_comm, ← List.drop_drop, List.drop_left' hsector]

/-- Sectors one after the other are the sectors of what they make up. -/
theorem Bytes.sectors_flatten {pieces : List Bytes} {size : Nat} (hsize : 0 < size)
    (hpieces : ∀ sector ∈ pieces, sector.length = size) :
    Bytes.sectors pieces.flatten size = pieces := by
  induction pieces with
  | nil =>
      rw [List.flatten_nil, sectors, List.length_nil, Nat.zero_div, List.range_zero, List.map_nil]
  | cons sector rest ih =>
      obtain ⟨hsector, hrest⟩ := List.forall_mem_cons.mp hpieces
      rw [List.flatten_cons, sectors_append hsize hsector, ih hrest]

/-- What is one sector has itself as its only sector. -/
theorem Bytes.sectors_self {bytes : Bytes} {size : Nat} (hsize : 0 < size)
    (hbytes : bytes.length = size) : bytes.sectors size = [bytes] := by
  have hself := @sectors_flatten [bytes] size hsize (by simpa using hbytes)
  rwa [List.flatten_singleton] at hself

/-! ## Transfers of several sectors -/

namespace SectorArray

variable {array : SectorArray} {size lba count : Nat} {order : List Nat}

/-- What a transfer inside the array delivers. -/
def answer (array : SectorArray) (bytes : Bytes) : Except DriverError Bytes :=
  if array.failing then .error .hardware else .ok bytes

theorem run_read_inside (size : Nat) (hinside : lba + count ≤ array.sectors.length) :
    (serve size (.read lba count)).run array =
      (array.answer ((array.sectors.drop lba).take count).flatten, array) := by
  dsimp only [serve, StateT.run, answer]
  cases hfailing : array.failing with
  | true => rw [if_neg fun hserves => by simpa [hfailing] using hserves.1, if_pos rfl]
  | false => rw [if_pos ⟨hfailing, hinside⟩, if_neg Bool.false_ne_true]

theorem run_write_inside {bytes : Bytes}
    (hinside : lba + (bytes.sectors size).length ≤ array.sectors.length) :
    (serve size (.write lba bytes)).run array =
      if array.failing then (.error .hardware, array)
      else (.ok [], { array with
        sectors := array.sectors.take lba ++ bytes.sectors size ++
          array.sectors.drop (lba + (bytes.sectors size).length) }) := by
  dsimp only [serve, StateT.run]
  cases hfailing : array.failing with
  | true => rw [if_neg fun hserves => by simpa [hfailing] using hserves.1, if_pos rfl]
  | false => rw [if_pos ⟨hfailing, hinside⟩, if_neg Bool.false_ne_true]

/-- Reads of single sectors deliver these sectors, in the order of the reads. -/
theorem run_read_singles (size : Nat)
    (hinside : ∀ index ∈ order, lba + index < array.sectors.length) :
    (((SectorCall.read lba count).singles size order).mapM (serve size)).run array =
      (order.map fun index => array.answer (array.sectors.getD (lba + index) []), array) := by
  rw [SectorCall.singles, List.mapM_map]
  apply CallList.run_mapM_of_fixed
  intro index hindex
  have hlt := hinside index hindex
  rw [Function.comp_apply, run_read_inside size hlt, List.drop_eq_getElem_cons hlt,
    List.take_succ_cons, List.take_zero, List.flatten_singleton, List.getD_eq_getElem?_getD,
    List.getElem?_eq_getElem hlt, Option.getD_some]

/-- Writing one sector sets it. -/
theorem run_write_single {sector : Bytes} (hsize : 0 < size) (hsector : sector.length = size)
    (hserving : array.failing = false) (hinside : lba < array.sectors.length) :
    (serve size (.write lba sector)).run array =
      (.ok [], { array with sectors := array.sectors.set lba sector }) := by
  have hself := Bytes.sectors_self hsize hsector
  rw [run_write_inside (by rw [hself]; exact hinside), if_neg (by simp [hserving]), hself,
    List.length_singleton, List.set_eq_take_append_cons_drop, if_pos hinside, List.append_assoc,
    List.singleton_append]

theorem run_write_singles {pieces : List Bytes} (hsize : 0 < size)
    (hpieces : ∀ sector ∈ pieces, sector.length = size) (hserving : array.failing = false)
    (horder : ∀ index ∈ order, index < pieces.length ∧ lba + index < array.sectors.length) :
    (order.mapM fun index => serve size (.write (lba + index) (pieces.getD index []))).run array =
      (order.map fun _ => .ok [], { array with
        sectors := order.foldl (fun sectors index => sectors.set (lba + index) (pieces.getD index []))
          array.sectors }) := by
  induction order generalizing array with
  | nil => rfl
  | cons index rest ih =>
      obtain ⟨hfirst, hrest⟩ := List.forall_mem_cons.mp horder
      have hsector : (pieces.getD index []).length = size := by
        rw [List.getD_eq_getElem?_getD, List.getElem?_eq_getElem hfirst.1, Option.getD_some]
        exact hpieces _ (List.getElem_mem _)
      have hlater := @ih { array with sectors := array.sectors.set (lba + index) (pieces.getD index []) }
        hserving (by simpa using hrest)
      rw [CallList.run_mapM_cons, run_write_single hsize hsector hserving hfirst.2]
      dsimp only
      rw [hlater]
      rfl

/-- Elements that are set one by one, each to its place, in whatever order. -/
theorem getElem?_foldl_set {pieces sectors : List Bytes} (position : Nat) :
    (order.foldl (fun sectors index => sectors.set (lba + index) (pieces.getD index []))
        sectors)[position]? =
      if lba ≤ position ∧ position - lba ∈ order then
        sectors[position]?.map fun _ => pieces.getD (position - lba) []
      else sectors[position]? := by
  induction order generalizing sectors with
  | nil => simp
  | cons index rest ih =>
      rw [List.foldl_cons, ih, List.getElem?_set]
      by_cases hplace : lba + index = position
      · subst hplace
        have hset : (if lba + index < sectors.length then some (pieces.getD index []) else none) =
            sectors[lba + index]?.map fun _ => pieces.getD index [] := by
          by_cases hlt : lba + index < sectors.length <;> simp [hlt]
        rw [if_pos rfl, Nat.add_sub_cancel_left, hset, Option.map_map]
        by_cases hmem : index ∈ rest
        · simp [hmem, Function.comp_def]
        · simp [hmem]
      · have hrest : lba ≤ position ∧ position - lba ∈ index :: rest ↔
            lba ≤ position ∧ position - lba ∈ rest := by
          rw [List.mem_cons]
          exact and_congr_right fun hle => or_iff_right (by omega)
        simp only [if_neg hplace, hrest]

/-- Elements that are all set, each once, stand in a row. -/
theorem foldl_set_of_perm {pieces sectors : List Bytes} (hinside : lba + pieces.length ≤ sectors.length)
    (horder : order.Perm (List.range pieces.length)) :
    order.foldl (fun sectors index => sectors.set (lba + index) (pieces.getD index [])) sectors =
      sectors.take lba ++ pieces ++ sectors.drop (lba + pieces.length) := by
  have hbefore : (sectors.take lba).length = lba :=
    List.length_take_of_le (Nat.le_trans (Nat.le_add_right _ _) hinside)
  apply List.ext_getElem?
  intro position
  rw [getElem?_foldl_set, List.append_assoc, List.getElem?_append, hbefore]
  simp only [horder.mem_iff, List.mem_range]
  by_cases hbelow : position < lba
  · rw [if_neg (by omega), if_pos hbelow, List.getElem?_take_of_lt hbelow]
  · rw [if_neg hbelow, List.getElem?_append]
    by_cases hpiece : position - lba < pieces.length
    · rw [if_pos ⟨Nat.le_of_not_lt hbelow, hpiece⟩, if_pos hpiece,
        List.getElem?_eq_getElem (show position < sectors.length by omega),
        List.getElem?_eq_getElem hpiece, Option.map_some, List.getD_eq_getElem?_getD,
        List.getElem?_eq_getElem hpiece, Option.getD_some]
    · rw [if_neg fun hboth => hpiece hboth.2, if_neg hpiece, List.getElem?_drop]
      congr 1
      omega

/-- A write of several sectors comes to the writes of each of them, in whatever order. -/
theorem run_write_one_by_one {bytes : Bytes} (hsize : 0 < size)
    (hinside : lba + (bytes.sectors size).length ≤ array.sectors.length)
    (horder : order.Perm (List.range (bytes.sectors size).length)) :
    let whole := (serve size (.write lba bytes)).run array
    (((SectorCall.write lba bytes).singles size order).mapM (serve size)).run array =
      (order.map fun _ => whole.1, whole.2) := by
  intro whole
  rw [SectorCall.singles, List.mapM_map]
  have hindices : ∀ index ∈ order, index < (bytes.sectors size).length :=
    fun index hindex => List.mem_range.mp (horder.mem_iff.mp hindex)
  have hpieces : ∀ sector ∈ bytes.sectors size, sector.length = size :=
    fun sector => Bytes.length_of_mem_sectors
  have hwhole : whole = _ := run_write_inside hinside
  cases hfailing : array.failing with
  | true =>
      rw [hwhole, if_pos hfailing]
      apply CallList.run_mapM_of_fixed
      intro index hindex
      have hindex := hindices index hindex
      have hself := Bytes.sectors_self hsize (hpieces _ (List.getElem_mem hindex))
      rw [Function.comp_apply, List.getD_eq_getElem?_getD, List.getElem?_eq_getElem hindex,
        Option.getD_some, run_write_inside (by rw [hself, List.length_singleton]; omega),
        if_pos hfailing]
  | false =>
      rw [hwhole, if_neg (by simp [hfailing])]
      have hplaces : ∀ index ∈ order,
          index < (bytes.sectors size).length ∧ lba + index < array.sectors.length :=
        fun index hindex => ⟨hindices index hindex, by have := hindices index hindex; omega⟩
      refine (run_write_singles hsize hpieces hfailing hplaces).trans ?_
      rw [foldl_set_of_perm hinside horder]

end SectorArray

/-- A sector of a slice is a slice. -/
theorem Row.sectors_slice (row : Row) (position length size : Nat) :
    (row.slice position length).sectors size =
      (List.range (length / size)).map fun index => row.slice (position + index * size) size := by
  rw [Bytes.sectors, length_slice]
  refine List.map_congr_left fun index hindex => take_drop_slice row position ?_
  have hwithin := Nat.mul_le_of_le_div size _ _ (Nat.succ_le_of_lt (List.mem_range.mp hindex))
  rwa [Nat.succ_mul] at hwithin

namespace RamDisk

/-- The whole sectors of the image. -/
def array (disk : RamDisk) : SectorArray := ⟨disk.image.sectors disk.sectorSize, disk.failing⟩

/-- The bytes of the image behind its last whole sector. -/
def remainder (disk : RamDisk) : Bytes := disk.image.drop (disk.sectorCount * disk.sectorSize)

/-- A call on the disk. -/
def serve : SectorCall → StateM RamDisk (Except DriverError Bytes)
  | .read lba count => fun disk =>
      DriverAction.outcome (DiskDriver.read lba (count * disk.sectorSize)) disk
  | .write lba bytes => fun disk =>
      let (answer, after) := DriverAction.outcome (DiskDriver.write lba bytes) disk
      (answer.map fun _ => [], after)
  | .setFailing failing => fun disk => (.ok [], disk.setFailing failing)

section Views

variable (disk : RamDisk)

theorem sectors_array : disk.array.sectors = (List.range disk.sectorCount).map fun lba =>
    Row.slice disk.contents.get (lba * disk.sectorSize) disk.sectorSize := by
  rw [array, image, Medium.read_eq_slice, Row.sectors_slice, sectorCount]
  simp only [Nat.zero_add]

theorem length_sectors_array : disk.array.sectors.length = disk.sectorCount := by
  rw [sectors_array, List.length_map, List.length_range]

/-- The image, split behind its last whole sector. -/
theorem image_split :
    disk.image = Row.slice disk.contents.get 0 (disk.sectorCount * disk.sectorSize) ++
      Row.slice disk.contents.get (disk.sectorCount * disk.sectorSize)
        (disk.size - disk.sectorCount * disk.sectorSize) := by
  have hfits := fits_of_le_sectorCount (Nat.le_refl disk.sectorCount)
  have hsplit := Row.slice_add disk.contents.get 0 (disk.sectorCount * disk.sectorSize)
    (disk.size - disk.sectorCount * disk.sectorSize)
  rwa [Nat.add_sub_of_le hfits, Nat.zero_add] at hsplit

theorem remainder_eq_slice :
    disk.remainder = Row.slice disk.contents.get (disk.sectorCount * disk.sectorSize)
      (disk.size - disk.sectorCount * disk.sectorSize) := by
  rw [remainder, image_split, List.drop_left' (Row.length_slice _ _ _)]

end Views

section Calls

variable {disk : RamDisk} {lba count : Nat} (hsize : 0 < disk.sectorSize)

include hsize in
/-- Whole sectors end inside the image exactly if they end inside the array. -/
theorem serves_iff_array :
    disk.Serves lba (count * disk.sectorSize) ↔ disk.array.Serves lba count := by
  rw [Serves, SectorArray.Serves, length_sectors_array, sectorCount, ← Nat.add_mul,
    Nat.le_div_iff_mul_le hsize]
  rfl

variable (disk) in
/-- The bytes of some sectors are the sectors one after the other. -/
theorem flatten_sectors_array (hinside : lba + count ≤ disk.sectorCount) :
    ((disk.array.sectors.drop lba).take count).flatten =
      disk.contents.read (lba * disk.sectorSize) (count * disk.sectorSize) := by
  rw [Medium.read_eq_slice, ← Row.flatMap_slice, List.flatMap_def, sectors_array, List.take_drop,
    ← List.map_take, ← List.map_drop, List.take_range, Nat.min_eq_left hinside,
    List.range_eq_range', List.drop_range', Nat.add_sub_cancel_left, Nat.zero_add, Nat.mul_one]

/-- Numbers below a bound, split at both ends of a range. -/
theorem range_split {bound : Nat} (hinside : lba + count ≤ bound) :
    List.range bound =
      List.range lba ++ List.range' lba count ++ List.range' (lba + count) (bound - (lba + count)) := by
  have hbehind := List.range'_append_1 (s := 0) (m := lba + count) (n := bound - (lba + count))
  rw [Nat.add_sub_of_le hinside, Nat.zero_add, ← List.range'_append_1, Nat.zero_add] at hbehind
  rw [List.range_eq_range', List.range_eq_range', hbehind]

include hsize in
/-- Writing whole sectors replaces these sectors of the array. -/
theorem sectors_array_write {bytes : Bytes} (hbytes : bytes.length = count * disk.sectorSize)
    (hinside : lba + count ≤ disk.sectorCount) (readCount writeCount : UInt32) :
    ({ disk with
        contents := disk.contents.write (lba * disk.sectorSize) bytes
        readCount, writeCount } : RamDisk).array.sectors =
      disk.array.sectors.take lba ++ bytes.sectors disk.sectorSize ++
        disk.array.sectors.drop (lba + count) := by
  let row : Row := disk.contents.get
  let laid := row.overlay (lba * disk.sectorSize) bytes
  have hbefore :
      (List.range lba).map (fun index => laid.slice (index * disk.sectorSize) disk.sectorSize) =
      disk.array.sectors.take lba := by
    rw [sectors_array, ← List.map_take, List.take_range, Nat.min_eq_left (by omega)]
    refine List.map_congr_left fun index hindex => Row.slice_congr fun target _ htarget => ?_
    have hend := Nat.mul_le_mul_right disk.sectorSize (Nat.succ_le_of_lt (List.mem_range.mp hindex))
    rw [Nat.succ_mul] at hend
    exact row.overlay_of_outside (Or.inl (by omega))
  have hwritten : (List.range' lba count).map
      (fun index => laid.slice (index * disk.sectorSize) disk.sectorSize) =
        bytes.sectors disk.sectorSize := by
    have hself := laid.sectors_slice (lba * disk.sectorSize) bytes.length disk.sectorSize
    rw [Row.slice_overlay_self, hbytes, Nat.mul_div_cancel _ hsize] at hself
    rw [hself, List.range'_eq_map_range, List.map_map]
    refine List.map_congr_left fun index _ => ?_
    rw [Function.comp_apply, Nat.add_mul]
  have hbehind : (List.range' (lba + count) (disk.sectorCount - (lba + count))).map
      (fun index => laid.slice (index * disk.sectorSize) disk.sectorSize) =
        disk.array.sectors.drop (lba + count) := by
    rw [sectors_array, ← List.map_drop, List.range_eq_range', List.drop_range', Nat.zero_add,
      Nat.mul_one]
    refine List.map_congr_left fun index hindex => Row.slice_congr fun target htarget _ => ?_
    have hstart := Nat.mul_le_mul_right disk.sectorSize (List.mem_range'_1.mp hindex).1
    rw [Nat.add_mul] at hstart
    exact row.overlay_of_outside (Or.inr (by omega))
  rw [sectors_array, Medium.get_write_eq_overlay]
  change (List.range disk.sectorCount).map
    (fun index => laid.slice (index * disk.sectorSize) disk.sectorSize) = _
  rw [range_split hinside, List.map_append, List.map_append, hbefore, hwritten, hbehind]

end Calls

/-- What no call changes: the sizes, the erase group, and the bytes behind the last sector. -/
structure SameShape (disk after : RamDisk) : Prop where
  size_eq : after.size = disk.size
  sectorSize_eq : after.sectorSize = disk.sectorSize
  eraseGroup_eq : after.eraseGroup = disk.eraseGroup
  remainder_eq : after.remainder = disk.remainder

theorem SameShape.trans {first second third : RamDisk} (hfirst : SameShape first second)
    (hsecond : SameShape second third) : SameShape first third where
  size_eq := hsecond.size_eq.trans hfirst.size_eq
  sectorSize_eq := hsecond.sectorSize_eq.trans hfirst.sectorSize_eq
  eraseGroup_eq := hsecond.eraseGroup_eq.trans hfirst.eraseGroup_eq
  remainder_eq := hsecond.remainder_eq.trans hfirst.remainder_eq

section Steps

variable {disk : RamDisk} {lba count : Nat}

theorem run_serve_read (hsize : 0 < disk.sectorSize) (lba count : Nat) :
    (serve (.read lba count)).run disk =
      (((SectorArray.serve disk.sectorSize (.read lba count)).run disk.array).1,
        { disk with readCount := disk.readCount + 1 }) := by
  change DriverAction.outcome (DiskDriver.read lba (count * disk.sectorSize)) disk = _
  rw [outcome_read, RamDisk.sectors]
  dsimp only [SectorArray.serve, StateT.run]
  by_cases hserves : disk.array.Serves lba count
  · have hinside := hserves.2
    rw [length_sectors_array] at hinside
    rw [if_pos hserves, if_pos ((serves_iff_array hsize).mpr hserves),
      disk.flatten_sectors_array hinside]
  · rw [if_neg hserves, if_neg fun hdisk => hserves ((serves_iff_array hsize).mp hdisk)]

theorem run_serve_write (hsize : 0 < disk.sectorSize) {bytes : Bytes}
    (hbytes : bytes.length = count * disk.sectorSize) (lba : Nat) :
    (serve (.write lba bytes)).run disk =
      if disk.array.Serves lba count then
        (.ok [], { disk with
          contents := disk.contents.write (lba * disk.sectorSize) bytes
          writeCount := disk.writeCount + 1 })
      else (.error .hardware, { disk with writeCount := disk.writeCount + 1 }) := by
  have hoff := outcome_write disk lba bytes
  dsimp only [serve, StateT.run]
  rw [hoff, hbytes]
  by_cases hserves : disk.array.Serves lba count
  · rw [if_pos hserves, if_pos ((serves_iff_array hsize).mpr hserves)]
    rfl
  · rw [if_neg hserves, if_neg fun hdisk => hserves ((serves_iff_array hsize).mp hdisk)]
    rfl

theorem sameShape_write {bytes : Bytes} (hbytes : bytes.length = count * disk.sectorSize)
    (hinside : lba + count ≤ disk.sectorCount) (writeCount : UInt32) :
    SameShape disk { disk with
      contents := disk.contents.write (lba * disk.sectorSize) bytes
      writeCount } := by
  refine ⟨rfl, rfl, rfl, ?_⟩
  rw [remainder_eq_slice, remainder_eq_slice, Medium.get_write_eq_overlay]
  refine Row.slice_congr fun target htarget _ => Row.overlay_of_outside _ (Or.inr ?_)
  have hend := Nat.mul_le_mul_right disk.sectorSize hinside
  rw [Nat.add_mul] at hend
  change disk.sectorCount * disk.sectorSize ≤ target at htarget
  omega

/-- A call is answered as the array answers it, and leaves what the array leaves. -/
theorem run_serve (hsize : 0 < disk.sectorSize) {call : SectorCall}
    (hcall : call.Whole disk.sectorSize) :
    let served := (serve call).run disk
    let expected := (SectorArray.serve disk.sectorSize call).run disk.array
    served.1 = expected.1 ∧ served.2.array = expected.2 ∧ SameShape disk served.2 := by
  cases call with
  | read lba count =>
      have harray : ((SectorArray.serve disk.sectorSize (.read lba count)).run disk.array).2 =
          disk.array := by
        dsimp only [SectorArray.serve, StateT.run]
        split <;> rfl
      rw [run_serve_read hsize]
      exact ⟨rfl, harray.symm, rfl, rfl, rfl, rfl⟩
  | write lba bytes =>
      have hbytes : bytes.length = bytes.length / disk.sectorSize * disk.sectorSize :=
        (Nat.div_mul_cancel hcall).symm
      rw [run_serve_write hsize hbytes]
      dsimp only [SectorArray.serve, StateT.run]
      rw [Bytes.length_sectors]
      by_cases hserves : disk.array.Serves lba (bytes.length / disk.sectorSize)
      · have hinside := hserves.2
        rw [length_sectors_array] at hinside
        rw [if_pos hserves, if_pos hserves]
        refine ⟨rfl, ?_, sameShape_write hbytes hinside _⟩
        exact congrArg (SectorArray.mk · disk.failing)
          (sectors_array_write hsize hbytes hinside disk.readCount (disk.writeCount + 1))
      · rw [if_neg hserves, if_neg hserves]
        exact ⟨rfl, rfl, rfl, rfl, rfl, rfl⟩
  | setFailing failing => exact ⟨rfl, rfl, rfl, rfl, rfl, rfl⟩

/-- Each call counts once, whether it is served or not. -/
theorem counts_run_serve (call : SectorCall) (disk : RamDisk) :
    ((serve call).run disk).2.readCount =
        disk.readCount + UInt32.ofNat ([call].countP SectorCall.isRead) ∧
      ((serve call).run disk).2.writeCount =
        disk.writeCount + UInt32.ofNat ([call].countP SectorCall.isWrite) := by
  have hnone (count : UInt32) : count = count + UInt32.ofNat 0 := (UInt32.add_zero count).symm
  cases call with
  | read lba count =>
      have hread := outcome_read disk lba (count * disk.sectorSize)
      dsimp only [serve, StateT.run]
      rw [hread]
      exact ⟨rfl, hnone _⟩
  | write lba bytes =>
      have hwrite := outcome_write disk lba bytes
      dsimp only [serve, StateT.run]
      rw [hwrite]
      split <;> exact ⟨hnone _, rfl⟩
  | setFailing failing => exact ⟨hnone _, hnone _⟩

end Steps

section Runs

variable {disk : RamDisk}

theorem run_calls (hsize : 0 < disk.sectorSize) {calls : List SectorCall}
    (hcalls : ∀ call ∈ calls, call.Whole disk.sectorSize) :
    let served := (calls.mapM serve).run disk
    let expected := (calls.mapM (SectorArray.serve disk.sectorSize)).run disk.array
    served.1 = expected.1 ∧ served.2.array = expected.2 ∧ SameShape disk served.2 := by
  let related : RamDisk → SectorArray → Prop := fun after array =>
    after.array = array ∧ SameShape disk after
  refine CallList.run_mapM_related (?_ : ∀ call ∈ calls, ∀ after array, related after array → _)
    ⟨rfl, rfl, rfl, rfl, rfl⟩
  rintro call hcall after array ⟨rfl, hshape⟩
  have hsector := hshape.sectorSize_eq
  have hserve := run_serve (hsector.symm ▸ hsize) (hsector.symm ▸ hcalls call hcall)
  rw [hsector] at hserve
  exact ⟨hserve.1, hserve.2.1, hshape.trans hserve.2.2⟩

theorem counts_run (calls : List SectorCall) (disk : RamDisk) :
    ((calls.mapM serve).run disk).2.readCount =
        disk.readCount + UInt32.ofNat (calls.countP SectorCall.isRead) ∧
      ((calls.mapM serve).run disk).2.writeCount =
        disk.writeCount + UInt32.ofNat (calls.countP SectorCall.isWrite) := by
  induction calls generalizing disk with
  | nil => exact ⟨(UInt32.add_zero _).symm, (UInt32.add_zero _).symm⟩
  | cons call rest ih =>
      obtain ⟨hread, hwrite⟩ := counts_run_serve call disk
      obtain ⟨hreads, hwrites⟩ := ih ((serve call).run disk).2
      rw [CallList.run_mapM_cons, ← List.singleton_append, List.countP_append, List.countP_append,
        UInt32.ofNat_add, UInt32.ofNat_add, ← UInt32.add_assoc, ← UInt32.add_assoc, ← hread, ← hwrite]
      exact ⟨hreads, hwrites⟩

/-- The counters show the calls of their kind, as far as 32 bits can. -/
theorem reads_writes_run (calls : List SectorCall) (disk : RamDisk) :
    let last := ((calls.mapM serve).run disk).2
    last.reads = (disk.reads + calls.countP SectorCall.isRead) % UInt32.size ∧
      last.writes = (disk.writes + calls.countP SectorCall.isWrite) % UInt32.size := by
  have hshown (count : UInt32) (calls : Nat) :
      (count + UInt32.ofNat calls).toNat = (count.toNat + calls) % UInt32.size := by
    rw [UInt32.toNat_add, UInt32.toNat_ofNat', Nat.add_mod_mod]
  intro last
  obtain ⟨hreads, hwrites⟩ := counts_run calls disk
  exact ⟨(congrArg UInt32.toNat hreads).trans (hshown _ _),
    (congrArg UInt32.toNat hwrites).trans (hshown _ _)⟩

end Runs

/-- The image is its sectors, and behind them the remainder. -/
theorem image_eq (disk : RamDisk) : disk.image = disk.array.sectors.flatten ++ disk.remainder := by
  have hsectors := disk.flatten_sectors_array (Nat.le_of_eq (Nat.zero_add disk.sectorCount))
  rw [List.drop_zero, ← length_sectors_array, List.take_length, length_sectors_array,
    Nat.zero_mul] at hsectors
  rw [hsectors, image_split, remainder_eq_slice, Medium.read_eq_slice]

/-- The test of a range in words of 64 bits, where neither the product nor the sum may overflow,
is the test in numbers. -/
theorem serves_iff_words {disk : RamDisk} {size sectorSize lba length : UInt64}
    (hsize : size.toNat = disk.size) (hsector : sectorSize.toNat = disk.sectorSize) :
    disk.Serves lba.toNat length.toNat ↔ disk.failing = false ∧
      lba.toBitVec.umulOverflow sectorSize.toBitVec = false ∧
      (lba * sectorSize).toBitVec.uaddOverflow length.toBitVec = false ∧
      lba * sectorSize + length ≤ size := by
  have hbound := size.toNat_lt
  unfold BitVec.umulOverflow BitVec.uaddOverflow
  simp only [UInt64.toNat_toBitVec, UInt64.le_iff_toNat_le, UInt64.toNat_add, UInt64.toNat_mul,
    decide_eq_false_iff_not, Nat.not_le, ge_iff_le, Serves, ← hsize, ← hsector]
  refine and_congr_right fun _ => ⟨fun hfits => ?_, fun hfits => ?_⟩
  · have hproduct := Nat.mod_eq_of_lt (show lba.toNat * sectorSize.toNat < 2 ^ 64 by omega)
    rw [hproduct]
    omega
  · rw [Nat.mod_eq_of_lt hfits.1] at hfits
    omega

section Singles

variable {disk : RamDisk} {lba count : Nat} {order : List Nat} (hsize : 0 < disk.sectorSize)

include hsize

/-- Reading sector by sector, in whatever order, delivers the sectors of the whole transfer. -/
theorem run_singles_read (hinside : lba + count ≤ disk.sectorCount)
    (horder : order.Perm (List.range count)) :
    let call := SectorCall.read lba count
    let whole := (serve call).run disk
    let parts := ((call.singles disk.sectorSize order).mapM serve).run disk
    (parts.1 = order.map fun index =>
      whole.1.map fun bytes => (bytes.sectors disk.sectorSize).getD index []) ∧
      parts.2.image = disk.image ∧ whole.2.image = disk.image := by
  intro call whole parts
  have hindices : ∀ index ∈ order, index < count :=
    fun index hindex => List.mem_range.mp (horder.mem_iff.mp hindex)
  have hcalls : ∀ single ∈ call.singles disk.sectorSize order, single.Whole disk.sectorSize := by
    intro single hsingle
    obtain ⟨index, -, rfl⟩ := List.mem_map.mp hsingle
    trivial
  obtain ⟨hanswers, hafter, hshape⟩ := run_calls hsize hcalls
  rw [← length_sectors_array] at hinside
  rw [SectorArray.run_read_singles _ fun index hindex => by
    have := hindices index hindex
    omega] at hanswers hafter
  have hwhole : whole.1 = disk.array.answer ((disk.array.sectors.drop lba).take count).flatten := by
    rw [show whole = _ from run_serve_read hsize lba count, SectorArray.run_read_inside _ hinside]
  refine ⟨hanswers.trans (List.map_congr_left fun index hindex => ?_), ?_, ?_⟩
  · have hpieces : ∀ sector ∈ (disk.array.sectors.drop lba).take count,
        sector.length = disk.sectorSize := fun sector hsector =>
      Bytes.length_of_mem_sectors (List.mem_of_mem_drop (List.mem_of_mem_take hsector))
    rw [hwhole, SectorArray.answer, SectorArray.answer]
    split
    · rfl
    · rw [Except.map, Bytes.sectors_flatten hsize hpieces, List.getD_eq_getElem?_getD,
        List.getD_eq_getElem?_getD, List.getElem?_take_of_lt (hindices index hindex),
        List.getElem?_drop]
  · rw [image_eq, image_eq, hshape.remainder_eq, show parts.2.array = _ from hafter]
  · rw [show whole = _ from run_serve_read hsize lba count]
    rfl

/-- Writing sector by sector, in whatever order, is answered as the whole transfer is and leaves
the same image. -/
theorem run_singles_write {bytes : Bytes} (hbytes : disk.sectorSize ∣ bytes.length)
    (hinside : lba + bytes.length / disk.sectorSize ≤ disk.sectorCount)
    (horder : order.Perm (List.range (bytes.length / disk.sectorSize))) :
    let call := SectorCall.write lba bytes
    let whole := (serve call).run disk
    let parts := ((call.singles disk.sectorSize order).mapM serve).run disk
    (parts.1 = order.map fun _ => whole.1) ∧ parts.2.image = whole.2.image := by
  intro call whole parts
  rw [← Bytes.length_sectors] at hinside horder
  have hcalls : ∀ single ∈ call.singles disk.sectorSize order, single.Whole disk.sectorSize := by
    intro single hsingle
    obtain ⟨index, hindex, rfl⟩ := List.mem_map.mp hsingle
    have hlt := List.mem_range.mp (horder.mem_iff.mp hindex)
    rw [SectorCall.Whole, List.getD_eq_getElem?_getD, List.getElem?_eq_getElem hlt, Option.getD_some]
    have hlength := Bytes.length_of_mem_sectors (List.getElem_mem hlt)
    exact ⟨1, hlength.trans (Nat.mul_one _).symm⟩
  obtain ⟨hanswers, hafter, hshape⟩ := run_calls hsize hcalls
  obtain ⟨hanswer, hlast, hkept⟩ := run_serve hsize (show call.Whole disk.sectorSize from hbytes)
  rw [SectorArray.run_write_one_by_one hsize (by rwa [length_sectors_array]) horder]
    at hanswers hafter
  refine ⟨hanswers.trans (by rw [← hanswer]), ?_⟩
  rw [image_eq, image_eq, hshape.remainder_eq, hkept.remainder_eq, show parts.2.array = _ from hafter,
    show whole.2.array = _ from hlast]

end Singles

/-- Geometry reports the whole sectors, unless the disk is failing. -/
theorem outcome_geometry {disk : RamDisk} (hsize : 0 < disk.sectorSize) :
    DriverAction.outcome DiskDriver.geometry disk =
      (if disk.failing then .error .notReady
        else .ok ⟨disk.sectorSize, disk.array.sectors.length, disk.eraseGroup⟩, disk) := by
  change DriverAction.outcome RamDisk.geometry disk = _
  have hsector : (disk.sectorSize == 0) = false := beq_eq_false_iff_ne.mpr (Nat.ne_of_gt hsize)
  unfold DriverAction.outcome RamDisk.geometry
  rw [hsector, Bool.or_false, length_sectors_array]
  cases disk.failing <;> rfl

theorem length_remainder (disk : RamDisk) :
    disk.remainder.length = disk.size % disk.sectorSize := by
  have hsplit := Nat.div_add_mod disk.size disk.sectorSize
  rw [Nat.mul_comm] at hsplit
  rw [remainder_eq_slice, Row.length_slice, sectorCount]
  omega

/-- A RAM disk refines the array of its whole sectors: every list of calls is answered as the array
answers it, and the image is at every time the sectors of the array with the remainder unchanged
behind them. Geometry reports the length of the array, each call counts once on a counter of 32
bits, a transfer inside the array comes to its single sectors in whatever order, and the test of a
range in words of 64 bits agrees with the test in numbers. -/
theorem refines_sectors {disk : RamDisk} {calls : List SectorCall} (hsize : 0 < disk.sectorSize)
    (hcalls : ∀ call ∈ calls, call.Whole disk.sectorSize) :
    let served := (calls.mapM serve).run disk
    let expected := (calls.mapM (SectorArray.serve disk.sectorSize)).run disk.array
    let last := served.2
    served.1 = expected.1 ∧
      last.array = expected.2 ∧
      last.image = expected.2.sectors.flatten ++ disk.remainder ∧
      expected.2.sectors.length = disk.size / disk.sectorSize ∧
      disk.remainder.length = disk.size % disk.sectorSize ∧
      last.reads = (disk.reads + calls.countP SectorCall.isRead) % UInt32.size ∧
      last.writes = (disk.writes + calls.countP SectorCall.isWrite) % UInt32.size ∧
      DriverAction.outcome DiskDriver.geometry last =
        (if expected.2.failing then .error .notReady
          else .ok ⟨disk.sectorSize, disk.size / disk.sectorSize, disk.eraseGroup⟩, last) ∧
      (∀ (lba count : Nat) (order : List Nat), lba + count ≤ disk.size / disk.sectorSize →
        order.Perm (List.range count) →
        let call := SectorCall.read lba count
        let whole := (serve call).run last
        let parts := ((call.singles disk.sectorSize order).mapM serve).run last
        (parts.1 = order.map fun index =>
          whole.1.map fun bytes => (bytes.sectors disk.sectorSize).getD index []) ∧
          parts.2.image = last.image ∧ whole.2.image = last.image) ∧
      (∀ (lba : Nat) (bytes : Bytes) (order : List Nat), disk.sectorSize ∣ bytes.length →
        lba + bytes.length / disk.sectorSize ≤ disk.size / disk.sectorSize →
        order.Perm (List.range (bytes.length / disk.sectorSize)) →
        let call := SectorCall.write lba bytes
        let whole := (serve call).run last
        let parts := ((call.singles disk.sectorSize order).mapM serve).run last
        (parts.1 = order.map fun _ => whole.1) ∧ parts.2.image = whole.2.image) ∧
      ∀ size sectorSize lba length : UInt64, size.toNat = disk.size →
        sectorSize.toNat = disk.sectorSize →
        (last.Serves lba.toNat length.toNat ↔ last.failing = false ∧
          lba.toBitVec.umulOverflow sectorSize.toBitVec = false ∧
          (lba * sectorSize).toBitVec.uaddOverflow length.toBitVec = false ∧
          lba * sectorSize + length ≤ size) := by
  intro served expected last
  obtain ⟨hanswers, harray, hshape⟩ := run_calls hsize hcalls
  obtain ⟨hreads, hwrites⟩ := reads_writes_run calls disk
  change last.array = expected.2 at harray
  have hsector : last.sectorSize = disk.sectorSize := hshape.sectorSize_eq
  have hpositive : 0 < last.sectorSize := hsector.symm ▸ hsize
  have hcount : last.sectorCount = disk.size / disk.sectorSize := by
    rw [sectorCount, hsector, show last.size = disk.size from hshape.size_eq]
  have hlength : expected.2.sectors.length = disk.size / disk.sectorSize := by
    rw [← harray, length_sectors_array, hcount]
  refine ⟨hanswers, harray, ?_, hlength, length_remainder disk, hreads, hwrites, ?_, ?_, ?_, ?_⟩
  · rw [image_eq, harray, show last.remainder = _ from hshape.remainder_eq]
  · rw [outcome_geometry hpositive, harray, hlength, hsector, ← harray,
      show last.eraseGroup = _ from hshape.eraseGroup_eq]
    rfl
  · intro lba count order hinside horder
    rw [← hsector]
    exact run_singles_read hpositive (hcount.symm ▸ hinside) horder
  · intro lba bytes order hbytes hinside horder
    rw [← hsector] at hbytes hinside horder ⊢
    refine run_singles_write hpositive hbytes ?_ horder
    rwa [hcount, ← hsector]
  · intro size sectorSize lba length hbytes hwords
    exact serves_iff_words (hbytes.trans hshape.size_eq.symm) (hwords.trans hsector.symm)

/-- Seven bytes in sectors of three: the last byte is in no sector, and a write that reaches for it
is refused. -/
theorem refines_sectors_seven_bytes :
    let disk : RamDisk := ⟨.blank, 7, 3, 1024, 0, 0, false⟩
    let calls : List SectorCall :=
      [.write 1 [1, 2, 3], .read 0 2, .write 1 [4, 5, 6, 7, 8, 9], .setFailing true, .read 0 1]
    let served := (calls.mapM serve).run disk
    served.1 = [.ok [], .ok [0, 0, 0, 1, 2, 3], .error .hardware, .ok [], .error .hardware] ∧
      served.2.image = [0, 0, 0, 1, 2, 3, 0] ∧ served.2.reads = 2 ∧ served.2.writes = 2 := by
  intro disk calls served
  have hcalls : ∀ call ∈ calls, call.Whole disk.sectorSize := by
    simp [calls, disk, SectorCall.Whole]
  have hserved : (calls.mapM (SectorArray.serve disk.sectorSize)).run disk.array =
      ([.ok [], .ok [0, 0, 0, 1, 2, 3], .error .hardware, .ok [], .error .hardware],
        ⟨[[0, 0, 0], [1, 2, 3]], true⟩) := by
    rw [show disk.array = ⟨[[0, 0, 0], [0, 0, 0]], false⟩ by decide]
    dsimp only [disk, calls]
    rfl
  have hremainder : disk.remainder = [0] := by decide
  obtain ⟨hanswers, -, himage, -, -, hreads, hwrites, -⟩ := refines_sectors (by decide) hcalls
  rw [hserved] at hanswers himage
  rw [hremainder] at himage
  exact ⟨hanswers, himage, hreads, hwrites⟩

/-- One read less than 32 bits can count brings the counter to its largest number, and the next
one brings it back to zero. -/
theorem reads_come_round :
    let disk : RamDisk := .zeroed 1 512
    let read := fun count => (((List.replicate count (.read 0 1)).mapM serve).run disk).2.reads
    read UInt32.size = 0 ∧ read (UInt32.size - 1) = UInt32.size - 1 := by
  intro disk read
  have hread (count : Nat) : read count = count % UInt32.size := by
    have hreads := (reads_writes_run (List.replicate count (.read 0 1)) disk).1
    rw [List.countP_replicate, if_pos (by rfl), show disk.reads = 0 from rfl, Nat.zero_add] at hreads
    exact hreads
  exact ⟨(hread _).trans (Nat.mod_self _), (hread _).trans (Nat.mod_eq_of_lt (by decide))⟩

end RamDisk

end StorageStack

import Mathlib.Data.List.Induction
import StorageStack.Partition.Image
import StorageStack.Proofs.Disk.Row

/-! # What patches leave in a boot sector

The entries, the erase-block sizes and the signature of each sector are cells apart from each
other. A cell holds what was written to it last, and an entry or a size that was never
written is blank.
-/

namespace StorageStack

/-- The four bytes at a position, as a little-endian word. -/
def Row.word (row : Row) (position : Nat) : UInt32 :=
  .ofNat (LittleEndian.decode (row.slice position 4))

/-- The entry that the sixteen bytes at a position spell. -/
def Row.entry (row : Row) (position : Nat) : Entry :=
  ⟨row position, row (position + 4), row.word (position + 8), row.word (position + 12)⟩

/-- The entry of a slot that was never written. -/
def Entry.blank : Entry := ⟨0, 0, 0, 0⟩

section Cells

variable {row other : Row} {position : Nat}

theorem Row.word_congr
    (hsame : ∀ target, position ≤ target → target < position + 4 → row target = other target) :
    row.word position = other.word position := by
  rw [word, word, slice_congr hsame]

theorem Row.entry_congr
    (hsame : ∀ target, position ≤ target → target < position + 16 → row target = other target) :
    row.entry position = other.entry position := by
  have hwords : ∀ offset ≤ 12, row.word (position + offset) = other.word (position + offset) := by
    intro offset hoffset
    apply word_congr
    intro target hlower hupper
    apply hsame <;> omega
  rw [entry, entry, hsame position (by omega) (by omega),
    hsame (position + 4) (by omega) (by omega), hwords 8 (by omega), hwords 12 (by omega)]

@[simp] theorem length_wordBytes (word : UInt32) : (wordBytes word).length = 4 :=
  LittleEndian.length_encode 4 _

theorem ofNat_decode_wordBytes (word : UInt32) :
    UInt32.ofNat (LittleEndian.decode (wordBytes word)) = word := by
  have hfits : word.toNat < 1 <<< (8 * 4) := word.toNat_lt
  rw [wordBytes, LittleEndian.decode_encode, Nat.mod_eq_of_lt hfits, UInt32.ofNat_toNat]

/-- A word within a payload that is laid over a row. -/
theorem Row.word_overlay (row : Row) (position : Nat) (before behind : Bytes) (word : UInt32) :
    (row.overlay position (before ++ wordBytes word ++ behind)).word (position + before.length) =
      word := by
  have hself := (row.overlay position before).slice_overlay_self (position + before.length)
    (wordBytes word)
  rw [length_wordBytes] at hself
  have hslice : (row.overlay position (before ++ wordBytes word ++ behind)).slice
      (position + before.length) 4 = wordBytes word := by
    refine Eq.trans (slice_congr ?_) hself
    intro target _ hupper
    rw [← overlay_append, ← overlay_append]
    apply overlay_of_outside
    rw [List.length_append, length_wordBytes]
    omega
  rw [Row.word, hslice, ofNat_decode_wordBytes]

theorem length_flatMap_wordBytes (words : List UInt32) :
    (words.flatMap wordBytes).length = words.length * 4 := by
  induction words with
  | nil => rfl
  | cons word rest ih =>
      rw [List.flatMap_cons, List.length_append, ih, length_wordBytes, List.length_cons]
      omega

/-- One of several words that are laid over a row. -/
theorem Row.word_overlay_flatMap (row : Row) (position : Nat) {words : List UInt32} {index : Nat}
    {word : UInt32} (hword : words[index]? = some word) :
    (row.overlay position (words.flatMap wordBytes)).word (position + index * 4) = word := by
  obtain ⟨hindex, rfl⟩ := List.getElem?_eq_some_iff.mp hword
  have hsplit : words.flatMap wordBytes = (words.take index).flatMap wordBytes ++
      wordBytes words[index] ++ (words.drop (index + 1)).flatMap wordBytes := by
    conv_lhs => rw [← List.take_append_drop index words, List.drop_eq_getElem_cons hindex]
    rw [List.flatMap_append, List.flatMap_cons, List.append_assoc]
  have hbefore : ((words.take index).flatMap wordBytes).length = index * 4 := by
    rw [length_flatMap_wordBytes, List.length_take_of_le (Nat.le_of_lt hindex)]
  rw [hsplit, ← hbefore]
  exact row.word_overlay position _ _ _

@[simp] theorem Row.word_blank (position : Nat) : Row.word Medium.blank.get position = 0 := by
  have hslice : Row.slice Medium.blank.get position 4 = List.replicate 4 0 := by
    rw [slice, List.map_congr_left fun target _ => Medium.get_blank target, List.map_const',
      List.length_range']
  rw [word, hslice]
  rfl

theorem Medium.entry_putEntry (medium : Medium) (offset : Nat) (entry : Entry) :
    Row.entry (medium.putEntry offset entry).get offset = entry := by
  have hwords := get_write_eq_overlay ((medium.put offset entry.status).put (offset + 4) entry.typeCode)
    (offset + 8) (wordBytes entry.start ++ wordBytes entry.count)
  have hstart := Row.word_overlay
    ((medium.put offset entry.status).put (offset + 4) entry.typeCode).get (offset + 8) []
    (wordBytes entry.count) entry.start
  have hcount := Row.word_overlay
    ((medium.put offset entry.status).put (offset + 4) entry.typeCode).get (offset + 8)
    (wordBytes entry.start) [] entry.count
  rw [List.nil_append, List.length_nil, Nat.add_zero] at hstart
  rw [List.append_nil, length_wordBytes] at hcount
  unfold Row.entry putEntry
  rw [hwords, hstart, hcount, Row.overlay_of_outside _ (by omega), Row.overlay_of_outside _ (by omega)]
  simp

theorem Medium.get_putEntry_of_outside (medium : Medium) (entry : Entry) {offset target : Nat}
    (houtside : target < offset ∨ offset + 16 ≤ target) :
    (medium.putEntry offset entry).get target = medium.get target := by
  have hlength : (wordBytes entry.start ++ wordBytes entry.count).length = 8 := by simp
  rw [putEntry, get_write_eq_overlay, Row.overlay_of_outside _ (by omega), get_put, get_put,
    if_neg (by omega), if_neg (by omega)]

end Cells

namespace Patch

/-- The patch writes an entry, a whole erase table or a signature. -/
def Structured : Patch → Prop
  | entry _ slot _ => slot < entrySlots
  | sign _ => True
  | eraseTable _ sizes => sizes.length = entrySlots
  | bytes .. => False

/-- The positions that the patch may change. -/
def Covers (target : Nat) : Patch → Prop
  | entry lba slot _ =>
      let offset := lba * Limits.sectorSize + entryTableOffset + slot * entrySize
      offset ≤ target ∧ target < offset + 16
  | sign lba =>
      let offset := lba * Limits.sectorSize + signatureOffset
      offset ≤ target ∧ target < offset + 2
  | eraseTable lba sizes =>
      let offset := lba * Limits.sectorSize + Limits.eraseTableOffset
      offset ≤ target ∧ target < offset + sizes.length * 4
  | bytes lba offset payload =>
      let offset := lba * Limits.sectorSize + offset
      offset ≤ target ∧ target < offset + payload.length

/-- What the patch writes into an entry slot of a sector. -/
def entryAt? (lba slot : Nat) : Patch → Option Entry
  | entry target written value => if target = lba ∧ written = slot then some value else none
  | _ => none

/-- What the patch writes as the erase-block size of a slot. -/
def eraseAt? (lba slot : Nat) : Patch → Option UInt32
  | eraseTable target sizes => if target = lba then sizes[slot]? else none
  | _ => none

theorem entryAt?_eq_some_iff {lba slot : Nat} {patch : Patch} {value : Entry} :
    patch.entryAt? lba slot = some value ↔ patch = .entry lba slot value := by
  cases patch <;> simp [entryAt?, and_assoc]

theorem eraseAt?_eq_some_iff {lba slot : Nat} {patch : Patch} {size : UInt32} :
    patch.eraseAt? lba slot = some size ↔
      ∃ sizes, patch = .eraseTable lba sizes ∧ sizes[slot]? = some size := by
  cases patch <;> simp [eraseAt?]

end Patch

namespace Medium

/-- A sector of 512 bytes as a boot sector. -/
def bootSector (medium : Medium) (lba : Nat) : BootSector where
  bytes := medium.read (lba * Limits.sectorSize) Limits.sectorSize
  long := Nat.le_of_eq (length_read ..).symm

theorem bootSector_eq_ofBytes? (medium : Medium) (lba : Nat) :
    BootSector.ofBytes? (medium.read (lba * Limits.sectorSize) Limits.sectorSize) =
      some (medium.bootSector lba) :=
  dif_pos _

section Views

variable (medium : Medium) (lba : Nat)

theorem getD_bootSector {offset : Nat} (hoffset : offset < Limits.sectorSize) :
    (medium.bootSector lba).bytes.getD offset 0 = medium.get (lba * Limits.sectorSize + offset) := by
  rw [bootSector, List.getD_eq_getElem?_getD, getElem?_read, if_pos hoffset, Option.getD_some]

theorem wordAt_bootSector {offset : Nat} (hoffset : offset + 4 ≤ Limits.sectorSize) :
    wordAt (medium.bootSector lba).bytes offset =
      Row.word medium.get (lba * Limits.sectorSize + offset) := by
  unfold wordAt bootSector
  dsimp only
  rw [read_eq_slice, Row.take_drop_slice _ _ hoffset, Row.word]

theorem ofBytes?_drop_bootSector {offset : Nat} (hend : offset + entrySize ≤ Limits.sectorSize) :
    Entry.ofBytes? ((medium.bootSector lba).bytes.drop offset) =
      some (Row.entry medium.get (lba * Limits.sectorSize + offset)) := by
  have hbyte : ∀ index < entrySize, ((medium.bootSector lba).bytes.drop offset).getD index 0 =
      medium.get (lba * Limits.sectorSize + offset + index) := by
    intro index hindex
    rw [List.getD_eq_getElem?_getD, List.getElem?_drop, ← List.getD_eq_getElem?_getD,
      getD_bootSector _ _ (by omega), Nat.add_assoc]
  have hword : ∀ index, index + 4 ≤ entrySize →
      wordAt ((medium.bootSector lba).bytes.drop offset) index =
        Row.word medium.get (lba * Limits.sectorSize + offset + index) := by
    intro index hindex
    have hmedium := wordAt_bootSector medium lba
      (show offset + index + 4 ≤ Limits.sectorSize by omega)
    rw [wordAt, List.drop_drop, ← wordAt, hmedium, Nat.add_assoc]
  have hlong : ¬ ((medium.bootSector lba).bytes.drop offset).length < entrySize := by
    have hlength : (medium.bootSector lba).bytes.length = Limits.sectorSize := length_read ..
    rw [List.length_drop, hlength]
    omega
  have hstatus := hbyte 0 (by decide)
  have htype := hbyte 4 (by decide)
  have hstart := hword 8 (by decide)
  have hcount := hword 12 (by decide)
  rw [Nat.add_zero] at hstatus
  rw [Entry.ofBytes?, if_neg hlong, hstatus, htype, hstart, hcount, Row.entry]

theorem entry?_bootSector {slot : Nat} (hslot : slot < entrySlots) :
    BootSector.entry? (medium.bootSector lba) slot =
      some (Row.entry medium.get
        (lba * Limits.sectorSize + (entryTableOffset + slot * entrySize))) := by
  rw [BootSector.entry?, if_pos hslot]
  apply ofBytes?_drop_bootSector
  simp only [entryTableOffset, entrySize, entrySlots, Limits.sectorSize] at hslot ⊢
  omega

theorem eraseBlock?_bootSector {slot : Nat} (hslot : slot < entrySlots) :
    (medium.bootSector lba).eraseBlock? slot =
      let size := Row.word medium.get
        (lba * Limits.sectorSize + (Limits.eraseTableOffset + slot * 4))
      if size = 0 then none else some size := by
  rw [BootSector.eraseBlock?, if_pos hslot, wordAt_bootSector]
  simp only [Limits.eraseTableOffset, entrySlots, Limits.sectorSize] at hslot ⊢
  omega

theorem signed_bootSector :
    (medium.bootSector lba).signed =
      (medium.get (lba * Limits.sectorSize + signatureOffset) == 0x55 &&
        medium.get (lba * Limits.sectorSize + (signatureOffset + 1)) == 0xAA) := by
  rw [BootSector.signed, getD_bootSector _ _ (by decide), getD_bootSector _ _ (by decide)]

end Views

section Steps

variable (medium : Medium) {lba slot : Nat} {patch : Patch}

theorem get_patch_of_outside {target : Nat} (houtside : ¬ patch.Covers target) :
    (medium.patch Limits.sectorSize patch).get target = medium.get target := by
  cases patch with
  | entry written writtenSlot value =>
      apply get_putEntry_of_outside
      simp only [Patch.Covers] at houtside
      omega
  | sign written =>
      rw [Medium.patch, get_write_eq_overlay]
      apply Row.overlay_of_outside
      simp only [Patch.Covers] at houtside
      simp only [List.length_cons, List.length_nil]
      omega
  | eraseTable written sizes =>
      rw [Medium.patch, get_write_eq_overlay]
      apply Row.overlay_of_outside
      simp only [Patch.Covers] at houtside
      rw [length_flatMap_wordBytes]
      omega
  | bytes written offset payload =>
      rw [Medium.patch, get_write_eq_overlay]
      apply Row.overlay_of_outside
      simp only [Patch.Covers] at houtside
      omega

theorem entry?_patch (hpatch : patch.Structured) (hslot : slot < entrySlots) :
    BootSector.entry? ((medium.patch Limits.sectorSize patch).bootSector lba) slot =
      match patch.entryAt? lba slot with
      | some value => some value
      | none => BootSector.entry? (medium.bootSector lba) slot := by
  rw [entry?_bootSector _ _ hslot, entry?_bootSector _ _ hslot]
  cases hentry : patch.entryAt? lba slot with
  | some value =>
      obtain rfl := Patch.entryAt?_eq_some_iff.mp hentry
      rw [Medium.patch, Nat.add_assoc, entry_putEntry]
  | none =>
      dsimp only
      congr 1
      apply Row.entry_congr
      intro target hlower hupper
      apply get_patch_of_outside
      -- Another cell lies before or behind this one.
      cases patch <;> simp [Patch.Covers, Patch.entryAt?, Patch.Structured, entryTableOffset,
        entrySize, entrySlots, signatureOffset, Limits.sectorSize, Limits.eraseTableOffset] at * <;>
        omega

theorem eraseBlock?_patch (hpatch : patch.Structured) (hslot : slot < entrySlots) :
    ((medium.patch Limits.sectorSize patch).bootSector lba).eraseBlock? slot =
      match patch.eraseAt? lba slot with
      | some size => if size = 0 then none else some size
      | none => (medium.bootSector lba).eraseBlock? slot := by
  rw [eraseBlock?_bootSector _ _ hslot, eraseBlock?_bootSector _ _ hslot]
  cases herase : patch.eraseAt? lba slot with
  | some size =>
      obtain ⟨sizes, rfl, hsize⟩ := Patch.eraseAt?_eq_some_iff.mp herase
      rw [Medium.patch, get_write_eq_overlay, ← Nat.add_assoc, Row.word_overlay_flatMap _ _ hsize]
  | none =>
      have hword : Row.word (medium.patch Limits.sectorSize patch).get
            (lba * Limits.sectorSize + (Limits.eraseTableOffset + slot * 4)) =
          Row.word medium.get
            (lba * Limits.sectorSize + (Limits.eraseTableOffset + slot * 4)) := by
        apply Row.word_congr
        intro target hlower hupper
        apply get_patch_of_outside
        cases patch <;> simp [Patch.Covers, Patch.eraseAt?, Patch.Structured, entryTableOffset,
          entrySize, entrySlots, signatureOffset, Limits.sectorSize, Limits.eraseTableOffset] at * <;>
          omega
      rw [hword]

theorem signed_patch (hpatch : patch.Structured) :
    ((medium.patch Limits.sectorSize patch).bootSector lba).signed =
      (decide (patch = .sign lba) || (medium.bootSector lba).signed) := by
  rw [signed_bootSector, signed_bootSector]
  by_cases hsign : patch = .sign lba
  · subst hsign
    simp [Medium.patch, Medium.write, Nat.add_assoc]
  · have hbyte : ∀ offset, signatureOffset ≤ offset → offset < signatureOffset + 2 →
        (medium.patch Limits.sectorSize patch).get (lba * Limits.sectorSize + offset) =
          medium.get (lba * Limits.sectorSize + offset) := by
      intro offset hlower hupper
      apply get_patch_of_outside
      cases patch <;> simp [Patch.Covers, Patch.Structured, entryTableOffset,
        entrySize, entrySlots, signatureOffset, Limits.sectorSize, Limits.eraseTableOffset] at * <;>
        omega
    rw [decide_eq_false hsign, Bool.false_or, hbyte _ (by decide) (by decide),
      hbyte _ (by decide) (by decide)]

end Steps

section Images

variable {patches : List Patch} (hpatches : ∀ patch ∈ patches, patch.Structured) (lba : Nat)

theorem ofPatches_concat (patches : List Patch) (patch : Patch) :
    ofPatches Limits.sectorSize (patches ++ [patch]) =
      (ofPatches Limits.sectorSize patches).patch Limits.sectorSize patch := by
  rw [ofPatches, List.foldl_append]
  rfl

include hpatches

/-- A slot holds the entry that was written into it last. -/
theorem entry?_ofPatches {slot : Nat} (hslot : slot < entrySlots) :
    BootSector.entry? ((ofPatches Limits.sectorSize patches).bootSector lba) slot =
      some ((patches.reverse.findSome? (Patch.entryAt? lba slot)).getD Entry.blank) := by
  induction patches using List.reverseRecOn with
  | nil =>
      rw [entry?_bootSector _ _ hslot]
      simp [ofPatches, Row.entry, Entry.blank]
  | append_singleton patches patch ih =>
      have hprior := ih fun earlier hearlier => hpatches earlier (List.mem_append_left _ hearlier)
      have hlast := hpatches patch (List.mem_append_right _ (List.mem_singleton_self _))
      rw [ofPatches_concat, entry?_patch _ hlast hslot, hprior, List.reverse_concat,
        List.findSome?_cons]
      cases patch.entryAt? lba slot <;> rfl

/-- An erase-block size is the one that was written last, unless that is zero. -/
theorem eraseBlock?_ofPatches {slot : Nat} (hslot : slot < entrySlots) :
    ((ofPatches Limits.sectorSize patches).bootSector lba).eraseBlock? slot =
      (patches.reverse.findSome? (Patch.eraseAt? lba slot)).filter (· ≠ 0) := by
  induction patches using List.reverseRecOn with
  | nil =>
      rw [eraseBlock?_bootSector _ _ hslot]
      simp [ofPatches]
  | append_singleton patches patch ih =>
      have hprior := ih fun earlier hearlier => hpatches earlier (List.mem_append_left _ hearlier)
      have hlast := hpatches patch (List.mem_append_right _ (List.mem_singleton_self _))
      rw [ofPatches_concat, eraseBlock?_patch _ hlast hslot, hprior, List.reverse_concat,
        List.findSome?_cons]
      cases patch.eraseAt? lba slot with
      | none => rfl
      | some size => by_cases hzero : size = 0 <;> simp [Option.filter, hzero]

/-- A sector is signed exactly if some patch signed it. -/
theorem signed_ofPatches :
    ((ofPatches Limits.sectorSize patches).bootSector lba).signed = true ↔
      .sign lba ∈ patches := by
  induction patches using List.reverseRecOn with
  | nil =>
      rw [signed_bootSector]
      simp [ofPatches]
  | append_singleton patches patch ih =>
      have hprior := ih fun earlier hearlier => hpatches earlier (List.mem_append_left _ hearlier)
      have hlast := hpatches patch (List.mem_append_right _ (List.mem_singleton_self _))
      rw [ofPatches_concat, signed_patch _ hlast, Bool.or_eq_true, hprior, decide_eq_true_iff,
        List.mem_append, List.mem_singleton, or_comm, eq_comm]

end Images

end Medium

end StorageStack

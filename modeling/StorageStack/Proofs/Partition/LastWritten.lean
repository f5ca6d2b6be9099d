import Mathlib.Data.List.GetD
import StorageStack.Proofs.Disk.Reads
import StorageStack.Proofs.Partition.Decoding

/-! # Boot sectors hold what was written last

The entries, the erase-block sizes and the signature of each sector of an image decode to what
was written into them last, and no change reaches another of them. Only the first 512 bytes of
a sector take part in this.
-/

namespace StorageStack

/-! ## Bytes behind the layout -/

section Prefix

variable {bytes : Bytes} {offset : Nat} (rest : Bytes)

theorem wordAt_append (hoffset : offset + 4 ≤ bytes.length) :
    wordAt (bytes ++ rest) offset = wordAt bytes offset := by
  rw [wordAt, List.drop_append_of_le_length (by omega),
    List.take_append_of_le_length (by rw [List.length_drop]; omega), wordAt]

theorem Entry.ofBytes?_append (hlong : entrySize ≤ bytes.length) :
    ofBytes? (bytes ++ rest) = ofBytes? bytes := by
  have hbyte : ∀ index < entrySize, (bytes ++ rest).getD index 0 = bytes.getD index 0 :=
    fun index hindex => List.getD_append _ _ _ _ (Nat.lt_of_lt_of_le hindex hlong)
  have hword : ∀ index, index + 4 ≤ entrySize → wordAt (bytes ++ rest) index = wordAt bytes index :=
    fun index hindex => wordAt_append rest (Nat.le_trans hindex hlong)
  rw [ofBytes?, ofBytes?, if_neg (Nat.not_lt.mpr hlong),
    if_neg (Nat.not_lt.mpr (by rw [List.length_append]; omega)), hbyte 0 (by decide),
    hbyte 4 (by decide), hword 8 (by decide), hword 12 (by decide)]

end Prefix

namespace BootSector

/-- The sector with bytes behind it. -/
def extend (sector : BootSector) (rest : Bytes) : BootSector where
  bytes := sector.bytes ++ rest
  long := Nat.le_trans sector.long (by rw [List.length_append]; exact Nat.le_add_right _ _)

variable (sector : BootSector) (rest : Bytes)

theorem ofBytes?_append : ofBytes? (sector.bytes ++ rest) = some (sector.extend rest) :=
  dif_pos _

theorem entry?_extend (slot : Nat) :
    BootSector.entry? (sector.extend rest) slot = sector.entry? slot := by
  rw [BootSector.entry?, BootSector.entry?]
  split
  · next hslot =>
    have hend : entryTableOffset + slot * entrySize + entrySize ≤ sector.bytes.length := by
      refine Nat.le_trans ?_ sector.long
      simp only [entryTableOffset, entrySize, entrySlots, Limits.sectorSize] at hslot ⊢
      omega
    rw [extend, List.drop_append_of_le_length (by omega),
      Entry.ofBytes?_append rest (by rw [List.length_drop]; omega)]
  · rfl

theorem eraseBlock?_extend (slot : Nat) :
    (sector.extend rest).eraseBlock? slot = sector.eraseBlock? slot := by
  rw [eraseBlock?, eraseBlock?]
  split
  · next hslot =>
    have hend : Limits.eraseTableOffset + slot * 4 + 4 ≤ sector.bytes.length := by
      refine Nat.le_trans ?_ sector.long
      simp only [Limits.eraseTableOffset, entrySlots, Limits.sectorSize] at hslot ⊢
      omega
    rw [extend, wordAt_append rest hend]
  · rfl

theorem signed_extend : (sector.extend rest).signed = sector.signed := by
  have hinside : ∀ offset < Limits.sectorSize, offset < sector.bytes.length :=
    fun offset hoffset => Nat.lt_of_lt_of_le hoffset sector.long
  rw [signed, extend, List.getD_append _ _ _ _ (hinside signatureOffset (by decide)),
    List.getD_append _ _ _ _ (hinside (signatureOffset + 1) (by decide)), signed]

/-- The sector decodes to what the patches wrote into it last. What was never written is blank,
and there are no other slots. -/
structure LastWritten (sector : BootSector) (patches : List Patch) (lba : Nat) : Prop where
  entry : ∀ slot < entrySlots, sector.entry? slot =
    some ((patches.reverse.findSome? (Patch.entryAt? lba slot)).getD Entry.blank)
  eraseBlock : ∀ slot < entrySlots, sector.eraseBlock? slot =
    (patches.reverse.findSome? (Patch.eraseAt? lba slot)).filter (· ≠ 0)
  signed : sector.signed = true ↔ .sign lba ∈ patches
  beyond : ∀ slot, entrySlots ≤ slot → sector.entry? slot = none ∧ sector.eraseBlock? slot = none

/-- A change is decoded only where it was made. -/
structure Untouched (before after : BootSector) (patch : Patch) (lba : Nat) : Prop where
  entry : ∀ slot, (∀ value, patch ≠ .entry lba slot value) → after.entry? slot = before.entry? slot
  eraseBlock : ∀ slot, (∀ sizes, patch ≠ .eraseTable lba sizes) →
    after.eraseBlock? slot = before.eraseBlock? slot
  signed : patch ≠ .sign lba → after.signed = before.signed

variable {sector rest}

theorem LastWritten.extend {patches : List Patch} {lba : Nat}
    (hlast : sector.LastWritten patches lba) (rest : Bytes) :
    (sector.extend rest).LastWritten patches lba where
  entry slot hslot := (entry?_extend sector rest slot).trans (hlast.entry slot hslot)
  eraseBlock slot hslot := (eraseBlock?_extend sector rest slot).trans (hlast.eraseBlock slot hslot)
  signed := by rw [signed_extend, hlast.signed]
  beyond slot hslot := by
    rw [entry?_extend, eraseBlock?_extend]
    exact hlast.beyond slot hslot

theorem LastWritten.untouched {patches : List Patch} {patch : Patch} {lba : Nat}
    {before after : BootSector} (hbefore : before.LastWritten patches lba)
    (hafter : after.LastWritten (patches ++ [patch]) lba) : Untouched before after patch lba where
  entry slot helsewhere := by
    rcases Nat.lt_or_ge slot entrySlots with hslot | hslot
    · have hnone : patch.entryAt? lba slot = none := Option.eq_none_iff_forall_ne_some.mpr
        fun value hvalue => helsewhere value (Patch.entryAt?_eq_some_iff.mp hvalue)
      rw [hafter.entry slot hslot, hbefore.entry slot hslot, List.reverse_concat,
        List.findSome?_cons, hnone]
    · rw [(hafter.beyond slot hslot).1, (hbefore.beyond slot hslot).1]
  eraseBlock slot helsewhere := by
    rcases Nat.lt_or_ge slot entrySlots with hslot | hslot
    · have hnone : patch.eraseAt? lba slot = none := Option.eq_none_iff_forall_ne_some.mpr
        fun value hvalue => by
          obtain ⟨sizes, hpatch, -⟩ := Patch.eraseAt?_eq_some_iff.mp hvalue
          exact helsewhere sizes hpatch
      rw [hafter.eraseBlock slot hslot, hbefore.eraseBlock slot hslot, List.reverse_concat,
        List.findSome?_cons, hnone]
    · rw [(hafter.beyond slot hslot).2, (hbefore.beyond slot hslot).2]
  signed helsewhere := by
    rw [Bool.eq_iff_iff, hafter.signed, hbefore.signed, List.mem_append, List.mem_singleton,
      or_iff_left helsewhere.symm]

end BootSector

/-- The high bit and the other bits of a status make it up. -/
theorem Entry.status_eq (entry : Entry) :
    entry.status = (if entry.bootable then 0x80 else 0) ||| entry.bootUnit ∧
      entry.bootUnit < 0x80 := by
  have hall : ∀ number : Fin 256, UInt8.ofNat number =
      (if UInt8.ofNat number &&& 0x80 != 0 then 0x80 else 0) ||| (UInt8.ofNat number &&& 0x7F) ∧
        UInt8.ofNat number &&& 0x7F < 0x80 := by decide +kernel
  have hstatus := hall ⟨entry.status.toNat, entry.status.toNat_lt⟩
  rwa [UInt8.ofNat_toNat] at hstatus

/-- The bytes of a sector of 512 bytes. -/
def RamDisk.sectorBytes (disk : RamDisk) (lba : Nat) : Bytes :=
  (disk.image.drop (lba * Limits.sectorSize)).take Limits.sectorSize

namespace Medium

variable {patches : List Patch} {lba : Nat}

theorem lastWritten_ofPatches (hpatches : ∀ patch ∈ patches, patch.Structured) (lba : Nat) :
    ((ofPatches Limits.sectorSize patches).bootSector lba).LastWritten patches lba where
  entry _ hslot := entry?_ofPatches hpatches lba hslot
  eraseBlock _ hslot := eraseBlock?_ofPatches hpatches lba hslot
  signed := signed_ofPatches hpatches lba
  beyond _ hslot := ⟨if_neg (Nat.not_lt.mpr hslot), if_neg (Nat.not_lt.mpr hslot)⟩

theorem sectorBytes_ofPatches {sectorCount : Nat} (patches : List Patch) (hlba : lba < sectorCount) :
    (RamDisk.ofPatches sectorCount patches).sectorBytes lba =
      ((ofPatches Limits.sectorSize patches).bootSector lba).bytes := by
  have hinside : lba * Limits.sectorSize + Limits.sectorSize ≤ sectorCount * Limits.sectorSize := by
    rw [← Nat.succ_mul]
    exact Nat.mul_le_mul_right _ hlba
  have hslice := Row.take_drop_slice (ofPatches Limits.sectorSize patches).get 0 hinside
  rwa [Nat.zero_add] at hslice

end Medium

namespace BootSector

variable {sectorCount lba : Nat} {patches : List Patch}

/-- Every sector of an image decodes to what was written into it last, also when it begins a longer
sector, while a shorter payload is refused. A change of an entry, an erase table or a signature
leaves the decoding of everything else, and a status splits into its flag and its unit without
loss. -/
theorem decodes_last_written (hpatches : ∀ patch ∈ patches, patch.Structured)
    (hlba : lba < sectorCount) :
    let bytes := (RamDisk.ofPatches sectorCount patches).sectorBytes lba
    bytes.length = Limits.sectorSize ∧
      (∀ rest, ∃ sector, ofBytes? (bytes ++ rest) = some sector ∧ sector.LastWritten patches lba) ∧
      (∀ patch rest, patch.Structured →
        let changed := (RamDisk.ofPatches sectorCount (patches ++ [patch])).sectorBytes lba
        ∃ before after, ofBytes? (bytes ++ rest) = some before ∧
          ofBytes? (changed ++ rest) = some after ∧ Untouched before after patch lba) ∧
      (∀ short : Bytes, short.length < Limits.sectorSize →
        ofBytes? short = none ∧ ofAnswer (.ok short) = .error .invalidArgument) ∧
      ∀ entry : Entry, entry.status = (if entry.bootable then 0x80 else 0) ||| entry.bootUnit ∧
        entry.bootUnit < 0x80 := by
  intro bytes
  have hbytes : bytes = _ := Medium.sectorBytes_ofPatches patches hlba
  have hlast := Medium.lastWritten_ofPatches hpatches lba
  refine ⟨?_, fun rest => ?_, fun patch rest hpatch => ?_, fun short hshort => ?_, Entry.status_eq⟩
  · rw [hbytes]
    exact Medium.length_read _ _ _
  · rw [hbytes]
    exact ⟨_, ofBytes?_append _ rest, hlast.extend rest⟩
  · have hchanged : ∀ each ∈ patches ++ [patch], each.Structured :=
      List.forall_mem_append.mpr ⟨hpatches, List.forall_mem_singleton.mpr hpatch⟩
    have hafter := (Medium.lastWritten_ofPatches hchanged lba).extend rest
    rw [hbytes, Medium.sectorBytes_ofPatches _ hlba]
    exact ⟨_, _, ofBytes?_append _ rest, ofBytes?_append _ rest, (hlast.extend rest).untouched hafter⟩
  · have hnone : ofBytes? short = none := dif_neg (Nat.not_le.mpr hshort)
    rw [ofAnswer, hnone]
    exact ⟨rfl, rfl⟩

/-- The last slot of the second sector, written twice, beside a signature and an erase table. -/
theorem decodes_last_written_second_sector :
    let last : Entry := ⟨0x81, 0x83, 1, 0xFFFFFFFF⟩
    let patches : List Patch := [.entry 1 3 ⟨0x80, 0x0C, 2048, 8192⟩, .sign 1,
      .eraseTable 1 [0, 8, 0, 16], .entry 1 3 last, .entry 0 3 ⟨0, 0x0C, 7, 7⟩]
    ∃ sector, ofBytes? ((RamDisk.ofPatches 2 patches).sectorBytes 1 ++ [1, 2, 3]) = some sector ∧
      sector.entry? 3 = some last ∧ sector.entry? 2 = some Entry.blank ∧ sector.entry? 4 = none ∧
      sector.eraseBlock? 1 = some 8 ∧ sector.eraseBlock? 2 = none ∧ sector.signed = true := by
  intro last patches
  have hpatches : ∀ patch ∈ patches, patch.Structured := by
    simp [patches, Patch.Structured, entrySlots]
  obtain ⟨-, hdecodes, -⟩ := decodes_last_written hpatches (show 1 < 2 by decide)
  obtain ⟨sector, hsector, hlast⟩ := hdecodes [1, 2, 3]
  exact ⟨sector, hsector, hlast.entry 3 (by decide), hlast.entry 2 (by decide),
    (hlast.beyond 4 (by decide)).1, hlast.eraseBlock 1 (by decide), hlast.eraseBlock 2 (by decide),
    hlast.signed.mpr (by decide)⟩

end BootSector

end StorageStack

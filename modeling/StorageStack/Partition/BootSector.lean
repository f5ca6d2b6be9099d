import StorageStack.Bytes
import StorageStack.Limits
import StorageStack.Partition.TypeCode

/-! # Boot sectors

The first sector of a disk and each sector of an extended chain share one layout:
four partition entries, four erase-block sizes and a signature. This file reads it.
-/

namespace StorageStack

/-- The entry slots of a boot sector. -/
def entrySlots : Nat := 4

/-- Bytes of one entry. -/
def entrySize : Nat := 16

/-- Offset of the first entry. The entries end where the signature begins. -/
def entryTableOffset : Nat := 0x1BE

/-- Offset of the two signature bytes. -/
def signatureOffset : Nat := 0x1FE

/-- The four bytes at an offset, as a little-endian word. -/
def wordAt (bytes : Bytes) (offset : Nat) : UInt32 :=
  UInt32.ofNat (LittleEndian.decode ((bytes.drop offset).take 4))

/-- One partition entry. What `start` is relative to depends on where the entry stands. -/
structure Entry where
  status : UInt8
  typeCode : UInt8
  start : UInt32
  count : UInt32
deriving DecidableEq, Repr

namespace Entry

/-- The entry at the beginning of a payload, if there are sixteen bytes. -/
def ofBytes? (bytes : Bytes) : Option Entry :=
  if bytes.length < entrySize then none
  else some {
    status := bytes.getD 0 0
    typeCode := bytes.getD 4 0
    start := wordAt bytes 8
    count := wordAt bytes 12 }

/-- An entry without a type or without sectors describes nothing. -/
def isEmpty (entry : Entry) : Bool := entry.typeCode == TypeCode.empty || entry.count == 0

/-- Whether the entry is a container, or in a chain the link to the next sector. -/
def isExtended (entry : Entry) : Bool := TypeCode.isExtended entry.typeCode

/-- The high bit of the status. -/
def bootable (entry : Entry) : Bool := entry.status &&& 0x80 != 0

/-- The low seven bits of the status. -/
def bootUnit (entry : Entry) : UInt8 := entry.status &&& 0x7F

end Entry

/-- A sector long enough to hold the boot layout. Bytes behind the first 512 are ignored. -/
structure BootSector where
  bytes : Bytes
  long : Limits.sectorSize ≤ bytes.length

namespace BootSector

/-- A payload as a boot sector, unless it is too short. -/
def ofBytes? (bytes : Bytes) : Option BootSector :=
  if long : Limits.sectorSize ≤ bytes.length then some ⟨bytes, long⟩ else none

/-- Whether the sector ends its layout with the signature. -/
def signed (sector : BootSector) : Bool :=
  sector.bytes.getD signatureOffset 0 == 0x55 && sector.bytes.getD (signatureOffset + 1) 0 == 0xAA

/-- The entry of a slot; there are four slots. -/
def entry? (sector : BootSector) (slot : Nat) : Option Entry :=
  if slot < entrySlots then
    Entry.ofBytes? (sector.bytes.drop (entryTableOffset + slot * entrySize))
  else none

/-- The erase-block size of a slot, in sectors. Zero stands for none. -/
def eraseBlock? (sector : BootSector) (slot : Nat) : Option UInt32 :=
  if slot < entrySlots then
    let size := wordAt sector.bytes (Limits.eraseTableOffset + slot * 4)
    if size = 0 then none else some size
  else none

/-- The entries that describe something, with their slots, in slot order. -/
def entries (sector : BootSector) : List (Nat × Entry) :=
  (List.range entrySlots).filterMap fun slot =>
    match sector.entry? slot with
    | some entry => if entry.isEmpty then none else some (slot, entry)
    | none => none

/-- The entries that describe partitions. -/
def dataEntries (sector : BootSector) : List (Nat × Entry) :=
  sector.entries.filter fun slotted => !slotted.2.isExtended

/-- The entries that describe containers or links. -/
def extendedEntries (sector : BootSector) : List Entry :=
  (sector.entries.filter fun slotted => slotted.2.isExtended).map Prod.snd

end BootSector

end StorageStack

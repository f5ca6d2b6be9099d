import StorageStack.Disk.Medium
import StorageStack.Disk.Ram
import StorageStack.Partition.BootSector

/-! # Boot sector images

The writing side of the boot sector layout. An image is a list of patches, each of
which writes one entry, one signature, one erase table or plain bytes into a sector.
-/

namespace StorageStack

/-- One change to an image, aimed at a sector. -/
inductive Patch where
  | entry (lba slot : Nat) (entry : Entry)
  | sign (lba : Nat)
  | eraseTable (lba : Nat) (sizes : List UInt32)
  | bytes (lba offset : Nat) (payload : Bytes)
deriving DecidableEq, Repr

/-- A word as four bytes, the least byte first. -/
def wordBytes (word : UInt32) : Bytes := LittleEndian.encode 4 word.toNat

namespace Medium

/-- Write the used fields of an entry: status, type, start and count. The bytes between
them keep what they held. -/
def putEntry (medium : Medium) (offset : Nat) (entry : Entry) : Medium :=
  ((medium.put offset entry.status).put (offset + 4) entry.typeCode).write (offset + 8)
    (wordBytes entry.start ++ wordBytes entry.count)

/-- Apply a patch, with sectors of the given size. -/
def patch (sectorSize : Nat) (medium : Medium) : Patch → Medium
  | .entry lba slot entry =>
      medium.putEntry (lba * sectorSize + entryTableOffset + slot * entrySize) entry
  | .sign lba => medium.write (lba * sectorSize + signatureOffset) [0x55, 0xAA]
  | .eraseTable lba sizes =>
      medium.write (lba * sectorSize + Limits.eraseTableOffset) (sizes.flatMap wordBytes)
  | .bytes lba offset payload => medium.write (lba * sectorSize + offset) payload

/-- The medium that patches build from a blank one, applied in order. -/
def ofPatches (sectorSize : Nat) (patches : List Patch) : Medium :=
  patches.foldl (patch sectorSize) blank

end Medium

/-- A RAM disk over a patched image of whole sectors of 512 bytes. -/
def RamDisk.ofPatches (sectorCount : Nat) (patches : List Patch) : RamDisk :=
  { RamDisk.zeroed sectorCount Limits.sectorSize with
    contents := .ofPatches Limits.sectorSize patches }

end StorageStack

import StorageStack.Device.Handle
import StorageStack.Error
import StorageStack.FsType
import StorageStack.Limits
import StorageStack.Mount.Path
import StorageStack.Text.Blank
import StorageStack.Text.Number

/-! # Mount tables

A mount table lists what is mounted at start-up. Its text has one mount on each line:
the disk's name, the partition, the filesystem type and the path, separated by blanks.
A `#` begins a comment, and a line without fields is no entry.
-/

namespace StorageStack

/-- One line of a mount table. The path is checked when it is mounted. -/
structure MountEntry where
  disk : DiskId
  partition : UInt8
  fsType : FsType
  path : String
deriving DecidableEq, Repr

namespace MountEntry

/-- The device to mount. -/
def device (entry : MountEntry) : DeviceHandle := ⟨entry.disk, entry.partition⟩

/-- The entry of a line's fields: exactly four, each well-formed. -/
def ofFields? : List (List Char) → Option MountEntry
  | [disk, partition, fsType, path] => do
      let disk ← DiskId.ofName? (String.ofList disk)
      let partition ← Text.byteOfDecimal? partition
      let fsType ← FsType.ofName? (String.ofList fsType)
      if IsAbsolute (String.ofList path) then
        pure ⟨disk, partition, fsType, String.ofList path⟩
      else none
  | _ => none

end MountEntry

namespace MountTable

/-- The lines of a text with their comments cut off, each as its fields; lines without
fields are left out. -/
def significantLines (text : String) : List (List (List Char)) :=
  ((Text.cut (· == '\n') text.toList).map fun line =>
    Text.fields (line.takeWhile (· != '#'))).filter fun fields => !fields.isEmpty

/-- The entries of all lines, or none if a line is malformed. -/
def ofLines? : List (List (List Char)) → Option (List MountEntry)
  | [] => some []
  | line :: rest =>
      match MountEntry.ofFields? line, ofLines? rest with
      | some entry, some entries => some (entry :: entries)
      | _, _ => none

/-- Read a mount table. A malformed line is refused, unless more lines than the table
holds come before it; a well-formed line too many is refused as well. -/
def parse (text : String) : Except StorageError (List MountEntry) :=
  let lines := significantLines text
  -- One line beyond the capacity decides: malformed it is refused as such, else as one too many.
  match ofLines? (lines.take (Limits.maxMounts + 1)) with
  | none => .error .invalidArgument
  | some entries =>
      if Limits.maxMounts < entries.length then .error .outOfMemory else .ok entries

/-- The table of the handset: boot files, system, user data of a type to be detected,
and the boot loader's data on the first boot area. -/
def handset : List MountEntry :=
  [⟨.user, 1, .fat, "/boot"⟩, ⟨.user, 2, .ext4, "/os"⟩, ⟨.user, 5, .auto, "/user"⟩,
    ⟨.boot0, 0, .littleFs, "/bootloader"⟩]

end MountTable

end StorageStack

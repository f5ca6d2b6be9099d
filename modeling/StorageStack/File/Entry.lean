import StorageStack.File.Kind
import StorageStack.Limits

/-! # Directory entries

An entry of a directory listing: a short name, a kind and, where it is known, a size.
-/

namespace StorageStack

/-- A name of at most 64 bytes of UTF-8. -/
structure EntryName where
  text : String
  short : text.utf8ByteSize ≤ Limits.maxNameLength
deriving DecidableEq

/-- One entry of a directory. -/
structure DirEntry where
  name : EntryName
  kind : FileKind
  size : Option Nat := none
deriving DecidableEq

namespace DirEntry

/-- An entry of the given name, unless the name is too long. -/
def ofName? (name : String) (kind : FileKind) (size : Option Nat) : Option DirEntry :=
  if short : name.utf8ByteSize ≤ Limits.maxNameLength then some ⟨⟨name, short⟩, kind, size⟩
  else none

/-- Whether the entry is a directory. -/
def isDir (entry : DirEntry) : Bool := entry.kind = .directory

/-- Whether the entry is the directory itself or its parent. A file of such a name is not. -/
def isDot (entry : DirEntry) : Bool :=
  entry.isDir && (entry.name.text = "." || entry.name.text = "..")

end DirEntry

end StorageStack

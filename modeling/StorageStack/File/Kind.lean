/-! # File kinds

The six kinds of file and the bits that stand for them in a mode.
-/

namespace StorageStack

/-- What a name in a filesystem stands for. -/
inductive FileKind where
  | regular
  | directory
  | character
  | block
  | fifo
  | socket
deriving DecidableEq, Repr

namespace FileKind

/-- Every kind. -/
def all : List FileKind := [regular, directory, character, block, fifo, socket]

/-- The bits of a mode that hold the kind. -/
def modeMask : UInt32 := 0o170000

/-- The bits of a kind. -/
def modeBits : FileKind → UInt32
  | regular => 0o100000
  | directory => 0o040000
  | character => 0o020000
  | block => 0o060000
  | fifo => 0o010000
  | socket => 0o140000

/-- The kind whose bits a mode carries. -/
def ofMode? (mode : UInt32) : Option FileKind :=
  all.find? fun kind => kind.modeBits = mode &&& modeMask

theorem ofMode?_modeBits (kind : FileKind) : ofMode? kind.modeBits = some kind := by
  cases kind <;> rfl

end FileKind

end StorageStack

/-! # Opening and seeking

How a file is to be opened, and where a position is counted from.
-/

namespace StorageStack

/-- The ways in which a file is opened. They are advice to the filesystem. -/
structure OpenOptions where
  read : Bool := false
  write : Bool := false
  /-- Make the file if it does not exist. -/
  create : Bool := false
  /-- Make the file, and refuse if it exists. -/
  createNew : Bool := false
  append : Bool := false
  truncate : Bool := false
deriving DecidableEq, Repr

namespace OpenOptions

def readOnly : OpenOptions := { read := true }

/-- Write from the beginning, making the file or emptying it. -/
def writeOnly : OpenOptions := { write := true, create := true, truncate := true }

def readWrite : OpenOptions := { read := true, write := true }

/-- Write at the end, making the file if need be. -/
def appending : OpenOptions := { write := true, create := true, append := true }

end OpenOptions

/-- A position in a file, counted from its start, its end or the current position. -/
inductive Seek where
  | start (offset : Nat)
  | finish (delta : Int)
  | current (delta : Int)
deriving DecidableEq, Repr

namespace Seek

/-- The position meant, for a file of `length` bytes with the current position given. An
offset from the start counts as a signed 64-bit number. A negative target is none. -/
def target? (length position : Nat) (seek : Seek) : Option Nat :=
  let target : Int := match seek with
    | .start offset => Int.bmod offset UInt64.size
    | .finish delta => length + delta
    | .current delta => position + delta
  if target < 0 then none else some target.toNat

end Seek

end StorageStack

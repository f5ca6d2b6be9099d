/-! # Storage errors

The causes for which a storage operation refuses or fails. Every layer above the
disk drivers reports one of these ten causes, unchanged by the layers it passes.
-/

namespace StorageStack

/-- Why a storage operation did not succeed. -/
inductive StorageError where
  | invalidArgument
  | notFound
  | alreadyExists
  | busy
  | notSupported
  | outOfRange
  | ioError
  | badFileDescriptor
  | outOfMemory
  | corrupt
deriving DecidableEq, Repr

namespace StorageError

/-- Every cause. -/
def all : List StorageError :=
  [invalidArgument, notFound, alreadyExists, busy, notSupported, outOfRange, ioError,
    badFileDescriptor, outOfMemory, corrupt]

/-- The text shown for a cause. A full table is the only way to run out of memory. -/
def message : StorageError → String
  | invalidArgument => "Invalid argument"
  | notFound => "Not found"
  | alreadyExists => "Already exists"
  | busy => "Device or mount busy"
  | notSupported => "Operation not supported"
  | outOfRange => "LBA out of range"
  | ioError => "IO error"
  | badFileDescriptor => "Bad file descriptor"
  | outOfMemory => "Table full"
  | corrupt => "Corrupt structure"

/-- The negated system error number of a cause. -/
def errno : StorageError → Int
  | invalidArgument => -22
  | notFound => -2
  | alreadyExists => -17
  | busy => -16
  | notSupported => -95
  | outOfRange => -34
  | ioError => -5
  | badFileDescriptor => -9
  | outOfMemory => -12
  | corrupt => -117

end StorageError

end StorageStack

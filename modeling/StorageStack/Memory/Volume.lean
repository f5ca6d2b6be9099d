import Std.Data.TreeMap
import Std.Data.TreeSet
import StorageStack.Bytes
import StorageStack.File.Entry
import StorageStack.File.Stat

/-! # Memory volumes

The contents of one mount of the memory filesystem: files and directories by path, and
permissions that outlive the names they were given to. A volume does not insist that
the directory of a file exists.
-/

namespace StorageStack

namespace MemoryPath

/-- The directory of a path: what stands before its last slash, and the root where
nothing does. -/
def parent (path : String) : String :=
  match (path.toList.reverse.dropWhile (· != '/')).tail with
  | [] => "/"
  | before => String.ofList before.reverse

/-- The name within its directory: what stands behind the last slash. -/
def leaf (path : String) : String :=
  String.ofList (path.toList.reverse.takeWhile (· != '/')).reverse

end MemoryPath

/-- Files, directories and permissions by path. Order by path is order by bytes. -/
structure Volume where
  files : Std.TreeMap String Bytes := ∅
  dirs : Std.TreeSet String := ∅
  modes : Std.TreeMap String UInt32 := ∅

namespace Volume

/-- The bits of a mode that are permissions. -/
def permissionMask : UInt32 := 0o7777

/-- The volume as it is mounted for the first time: the root directory alone. -/
def withRoot (volume : Volume) : Volume := { volume with dirs := volume.dirs.insert "/" }

/-- Give a file its contents, whether or not it existed. -/
def putFile (volume : Volume) (path : String) (contents : Bytes) : Volume :=
  { volume with files := volume.files.insert path contents }

/-- Take a file away. Its permissions stay. -/
def dropFile (volume : Volume) (path : String) : Volume :=
  { volume with files := volume.files.erase path }

/-- Remember the permissions of a path. -/
def putMode (volume : Volume) (path : String) (mode : UInt32) : Volume :=
  { volume with modes := volume.modes.insert path (mode &&& permissionMask) }

/-- Make a directory with the given permissions. -/
def putDir (volume : Volume) (path : String) (mode : UInt32) : Volume :=
  { volume.putMode path mode with dirs := volume.dirs.insert path }

/-- Take a directory away. What is below it and its permissions stay. -/
def dropDir (volume : Volume) (path : String) : Volume :=
  { volume with dirs := volume.dirs.erase path }

/-- Whether the path names a file or a directory. -/
def holds (volume : Volume) (path : String) : Bool :=
  volume.files.contains path || volume.dirs.contains path

/-- The kind, the size and the permissions of a path. A file hides a directory. -/
def stat? (volume : Volume) (path : String) : Option (FileKind × Nat × UInt32) :=
  match volume.files[path]? with
  | some contents => some (.regular, contents.length, volume.modes.getD path 0o644)
  | none =>
      if volume.dirs.contains path then some (.directory, 0, volume.modes.getD path 0o755)
      else none

/-- The entries for a directory itself and its parent. -/
def dotEntries : List DirEntry :=
  [".", ".."].filterMap fun name => DirEntry.ofName? name .directory none

/-- The entries of a directory: its directories and then its files, each in the order of
their paths. Names that are too long for an entry are left out. -/
def children (volume : Volume) (path : String) : List DirEntry :=
  (volume.dirs.toList.filter fun child => child != path && MemoryPath.parent child == path).filterMap
      (fun child => DirEntry.ofName? (MemoryPath.leaf child) .directory none) ++
    (volume.files.toList.filter fun child => MemoryPath.parent child.1 == path).filterMap
      fun child => DirEntry.ofName? (MemoryPath.leaf child.1) .regular (some child.2.length)

end Volume

end StorageStack

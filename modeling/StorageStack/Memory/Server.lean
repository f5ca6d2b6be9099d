import StorageStack.Backend.Basic
import StorageStack.Memory.Volume

/-! # Memory filesystem

A filesystem that keeps its files in memory. Each mount gets a volume of its own, and
open files and directory listings of all mounts are numbered by one counter. A listing
is fixed when the directory is opened; an open file follows its path, so it goes dead
when the path does.
-/

namespace StorageStack

/-- An open file: which file, where in it, and whether each write goes to the end. -/
structure Stream where
  volume : Nat
  path : String
  position : Nat := 0
  appends : Bool := false
deriving DecidableEq, Repr

/-- The memory filesystem with all its mounts. -/
structure MemoryFs where
  volumes : Std.TreeMap Nat Volume := ∅
  streams : Std.TreeMap Nat Stream := ∅
  listings : Std.TreeMap Nat (List DirEntry) := ∅
  mounted : Std.TreeSet Nat := ∅
  /-- The number given out last. A counter of 32 bits agrees with it until 2 ^ 32 numbers have been
  given out. -/
  lastId : Nat := 0
  /-- The calls received, the oldest first. -/
  calls : List String := []
  mountFailure : Option StorageError := none
  unmountFails : Bool := false
  closeFails : Bool := false
  listsDots : Bool := false

namespace MemoryFs

/-- The volume of a number; one that was never mounted is empty. -/
def volume (fs : MemoryFs) (id : Nat) : Volume := fs.volumes.getD id {}

/-- Put a changed volume in place. -/
def putVolume (fs : MemoryFs) (id : Nat) (volume : Volume) : MemoryFs :=
  { fs with volumes := fs.volumes.insert id volume }

/-- Note a call. -/
def note (fs : MemoryFs) (call : String) : MemoryFs := { fs with calls := fs.calls ++ [call] }

/-- The first file of a path, by volume. -/
def file? (fs : MemoryFs) (path : String) : Option Bytes :=
  fs.volumes.toList.findSome? fun volume => volume.2.files[path]?

/-- Mount a device that exists. The new volume's number goes into the mount's record. -/
def mountVolume (info : Except StorageError BlockInfo) (path : String) : Action MemoryFs MountData :=
  fun fs =>
    let fs := fs.note s!"mount {path}"
    match fs.mountFailure with
    | some cause => .error cause fs
    | none =>
        match info with
        | .error cause => .error cause fs
        | .ok _ =>
            let id := fs.lastId + 1
            .ok ⟨id⟩
              { fs.putVolume id (fs.volume id).withRoot with
                lastId := id
                mounted := fs.mounted.insert id }

/-- Unmount a volume. Its files stay in place. -/
def unmountVolume (id : Nat) (path : String) : Action MemoryFs Unit := fun fs =>
  let fs := fs.note s!"unmount {path}"
  if fs.unmountFails then .error .ioError fs
  else .ok () { fs with mounted := fs.mounted.erase id }

/-- Open a file, made or emptied as the options say. Reading and writing are allowed on
every open file. -/
def openFile (id : Nat) (path : String) (options : OpenOptions) : Action MemoryFs FileHandle :=
  fun fs =>
    let fs := fs.note s!"open {path}"
    let volume := fs.volume id
    let found := volume.files.contains path
    if volume.dirs.contains path then .error .invalidArgument fs
    else if !found && !(options.create || options.createNew) then .error .notFound fs
    else if found && options.createNew then .error .alreadyExists fs
    else
      -- A file that exists keeps its contents unless it is to be emptied.
      let fs := if !found || options.truncate then fs.putVolume id (volume.putFile path []) else fs
      let handle := fs.lastId + 1
      .ok ⟨handle⟩
        { fs with
          lastId := handle
          streams := fs.streams.insert handle { volume := id, path, appends := options.append } }

/-- The open file of a number, with the contents of its file. -/
def stream (fs : MemoryFs) (handle : FileHandle) : Except StorageError (Stream × Bytes) :=
  match fs.streams[handle.number]? with
  | none => .error .badFileDescriptor
  | some stream =>
      match (fs.volume stream.volume).files[stream.path]? with
      | none => .error .notFound
      | some contents => .ok (stream, contents)

/-- Put a changed open file in place. -/
def putStream (fs : MemoryFs) (handle : FileHandle) (stream : Stream) : MemoryFs :=
  { fs with streams := fs.streams.insert handle.number stream }

/-- Put changed contents in the place of a stream's file. -/
def putContents (fs : MemoryFs) (stream : Stream) (contents : Bytes) : MemoryFs :=
  fs.putVolume stream.volume ((fs.volume stream.volume).putFile stream.path contents)

/-- Read at the position and move past what was read. -/
def readFile (handle : FileHandle) (length : Nat) : Action MemoryFs Bytes := fun fs =>
  match fs.stream handle with
  | .error cause => .error cause fs
  | .ok (stream, contents) =>
      let bytes := (contents.drop stream.position).take length
      .ok bytes (fs.putStream handle { stream with position := stream.position + bytes.length })

/-- Write at the position, or at the end of an appending file, and move past what was
written. All bytes are accepted. -/
def writeFile (handle : FileHandle) (bytes : Bytes) : Action MemoryFs Nat := fun fs =>
  match fs.stream handle with
  | .error cause => .error cause fs
  | .ok (stream, contents) =>
      let position := if stream.appends then contents.length else stream.position
      .ok bytes.length
        ((fs.putContents stream (contents.splice position bytes)).putStream handle
          { stream with position := position + bytes.length })

/-- Move the position. A file that is gone counts as empty. -/
def seekFile (handle : FileHandle) (seek : Seek) : Action MemoryFs Nat := fun fs =>
  match fs.streams[handle.number]? with
  | none => .error .badFileDescriptor fs
  | some stream =>
      let length := ((fs.volume stream.volume).files.getD stream.path []).length
      match seek.target? length stream.position with
      | none => .error .invalidArgument fs
      | some position => .ok position (fs.putStream handle { stream with position })

/-- The position. -/
def tellFile (handle : FileHandle) : Action MemoryFs Nat := fun fs =>
  match fs.streams[handle.number]? with
  | none => .error .badFileDescriptor fs
  | some stream => .ok stream.position fs

/-- Cut a file to a length or fill it up with zeros. No position moves. -/
def truncateFile (handle : FileHandle) (length : Nat) : Action MemoryFs Unit := fun fs =>
  match fs.stream handle with
  | .error cause => .error cause fs
  | .ok (stream, contents) => .ok () (fs.putContents stream (contents.resize length))

/-- Nothing is pending; only the number is checked. -/
def syncFile (handle : FileHandle) : Action MemoryFs Unit := fun fs =>
  if fs.streams.contains handle.number then .ok () fs else .error .badFileDescriptor fs

/-- Close a file. The injected failure comes after the file is closed. -/
def closeFile (handle : FileHandle) : Action MemoryFs Unit := fun fs =>
  let fs := fs.note "close"
  if fs.streams.contains handle.number then
    let fs := { fs with streams := fs.streams.erase handle.number }
    if fs.closeFails then .error .ioError fs else .ok () fs
  else .error .badFileDescriptor fs

/-- Open a directory: its entries are listed now and read later. -/
def openDir (id : Nat) (path : String) : Action MemoryFs DirHandle := fun fs =>
  let fs := fs.note s!"opendir {path}"
  let volume := fs.volume id
  if volume.dirs.contains path then
    let dots := if fs.listsDots then Volume.dotEntries else []
    let handle := fs.lastId + 1
    .ok ⟨handle⟩
      { fs with
        lastId := handle
        listings := fs.listings.insert handle (dots ++ volume.children path) }
  else .error .notFound fs

/-- The next entry of a listing. -/
def nextEntry (handle : DirHandle) : Action MemoryFs (Option DirEntry) := fun fs =>
  match fs.listings[handle.number]? with
  | none => .error .badFileDescriptor fs
  | some entries =>
      .ok entries.head? { fs with listings := fs.listings.insert handle.number entries.tail }

/-- Drop a listing. -/
def closeDir (handle : DirHandle) : Action MemoryFs Unit := fun fs =>
  if fs.listings.contains handle.number then
    .ok () { fs with listings := fs.listings.erase handle.number }
  else .error .badFileDescriptor fs

/-- Remove a file. -/
def unlink (id : Nat) (path : String) : Action MemoryFs Unit := fun fs =>
  let fs := fs.note s!"unlink {path}"
  let volume := fs.volume id
  if volume.files.contains path then .ok () (fs.putVolume id (volume.dropFile path))
  else .error .notFound fs

/-- Move the contents of a file to another path, over whatever file is there. -/
def rename (id : Nat) (source target : String) : Action MemoryFs Unit := fun fs =>
  let fs := fs.note s!"rename {source} {target}"
  let volume := fs.volume id
  match volume.files[source]? with
  | none => .error .notFound fs
  -- The source goes first, so a rename onto itself keeps the file.
  | some contents => .ok () (fs.putVolume id ((volume.dropFile source).putFile target contents))

/-- Make a directory where nothing is. -/
def makeDir (id : Nat) (path : String) (mode : UInt32) : Action MemoryFs Unit := fun fs =>
  let fs := fs.note s!"mkdir {path}"
  let volume := fs.volume id
  if volume.holds path then .error .alreadyExists fs
  else .ok () (fs.putVolume id (volume.putDir path mode))

/-- Remove a directory, empty or not. -/
def removeDir (id : Nat) (path : String) : Action MemoryFs Unit := fun fs =>
  let fs := fs.note s!"rmdir {path}"
  let volume := fs.volume id
  if volume.dirs.contains path then .ok () (fs.putVolume id (volume.dropDir path))
  else .error .notFound fs

/-- The status of a path. Blocks are counted in sectors of the default size. -/
def stat (id : Nat) (device : DeviceHandle) (path : String) : Action MemoryFs Stat := fun fs =>
  match (fs.volume id).stat? path with
  | none => .error .notFound fs
  | some (kind, size, permissions) =>
      .ok
        { mode := kind.modeBits ||| permissions
          nlink := 1
          size
          blockSize := Limits.sectorSize
          blocks := (size + Limits.sectorSize - 1) / Limits.sectorSize
          device := device.raw } fs

/-- The status of the volume: the device's sectors, all of them free. -/
def statVolume (info : Except StorageError BlockInfo) : Action MemoryFs VolumeStat := fun fs =>
  match info with
  | .error cause => .error cause fs
  | .ok info =>
      .ok
        { blockSize := info.sectorSize
          fragmentSize := info.sectorSize
          blocks := info.sectorCount
          blocksFree := info.sectorCount
          blocksAvailable := info.sectorCount
          nameMax := Limits.maxNameLength } fs

/-- Change the permissions of what exists. -/
def setMode (id : Nat) (path : String) (mode : UInt32) : Action MemoryFs Unit := fun fs =>
  let volume := fs.volume id
  if volume.holds path then .ok () (fs.putVolume id (volume.putMode path mode))
  else .error .notFound fs

/-- Serve a request about a mount whose device has the given size. Requests about open
files and directories are served by their numbers alone. -/
def serve (info : Except StorageError BlockInfo) (mount : MountPoint) :
    (request : Request) → Action MemoryFs request.Reply
  | .mount => mountVolume info mount.path.text
  | .unmount => unmountVolume mount.data.value mount.path.text
  | .onPath (.openFile options) path => openFile mount.data.value path options
  | .onPath .openDir path => openDir mount.data.value path
  | .onPath (.makeDir mode) path => makeDir mount.data.value path mode
  | .onPath (.setMode mode) path => setMode mount.data.value path mode
  | .onPath .unlink path => unlink mount.data.value path
  | .onPath .removeDir path => removeDir mount.data.value path
  | .onPath .stat path => stat mount.data.value mount.device path
  | .onPath .statVolume _ => statVolume info
  | .onFile (.read length) handle => readFile handle length
  | .onFile (.write bytes) handle => writeFile handle bytes
  | .onFile (.seek position) handle => seekFile handle position
  | .onFile .tell handle => tellFile handle
  | .onFile (.truncate length) handle => truncateFile handle length
  | .onFile .sync handle => syncFile handle
  | .onFile .close handle => closeFile handle
  | .onDir .next handle => nextEntry handle
  | .onDir .close handle => closeDir handle
  | .rename source target => rename mount.data.value source target

variable {δ ω : Type} [DiskDriver δ]

/-- Whether the first sector of a device begins with a signature. -/
def recognises (signature : Option Bytes) (device : DeviceHandle) (env : Env δ ω) :
    Bool × Env δ ω :=
  match signature, env.blocks.info device with
  | some signature, .ok info =>
      match BlockDevices.read device 0 info.sectorSize env.blocks with
      | .ok sector blocks => (signature.isPrefixOf sector, { env with blocks })
      | .error _ blocks => (false, { env with blocks })
  | _, _ => (false, env)

/-- The memory filesystem in its part of the host as a backend. Backends over the same
part share their files. -/
def backend (signature : Option Bytes) (part : Part ω MemoryFs) : Backend δ ω where
  probe := recognises signature
  serve mount request := fun env =>
    (serve (env.blocks.info mount.device) mount request).within
      (fun env => part.get env.host) (fun fs env => { env with host := part.set fs env.host }) env

end MemoryFs

end StorageStack

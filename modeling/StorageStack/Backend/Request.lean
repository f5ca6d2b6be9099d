import StorageStack.Bytes
import StorageStack.File.Entry
import StorageStack.File.Open
import StorageStack.File.Stat
import StorageStack.Mount.Point
import StorageStack.Text.Number

/-! # Backend requests

Everything that the storage layer asks of a filesystem, as data. Requests fall into
those about a path, those about an open file and those about an open directory; the
type of a reply is computed from the request.
-/

namespace StorageStack

/-- A backend's number for an open file. -/
structure FileHandle where
  number : Nat
deriving DecidableEq, Repr

/-- A backend's number for an open directory. -/
structure DirHandle where
  number : Nat
deriving DecidableEq, Repr

/-- A request about the file or directory at a path. -/
inductive PathRequest where
  | openFile (options : OpenOptions)
  | openDir
  | makeDir (mode : UInt32)
  | setMode (mode : UInt32)
  | unlink
  | removeDir
  | stat
  | statVolume
deriving DecidableEq, Repr

/-- A request about an open file. -/
inductive FileRequest where
  | read (length : Nat)
  | write (bytes : Bytes)
  | seek (position : Seek)
  | tell
  | truncate (length : Nat)
  | sync
  | close
deriving DecidableEq, Repr

/-- A request about an open directory. -/
inductive DirRequest where
  | next
  | close
deriving DecidableEq, Repr

/-- A request to a filesystem, about the mount it is sent for. Paths are relative to the
mount and begin with a slash. -/
inductive Request where
  | mount
  | unmount
  | onPath (request : PathRequest) (path : String)
  | onFile (request : FileRequest) (handle : FileHandle)
  | onDir (request : DirRequest) (handle : DirHandle)
  | rename (source target : String)
deriving DecidableEq, Repr

/-- What a request about a path is answered with. -/
@[reducible] def PathRequest.Reply : PathRequest → Type
  | openFile _ => FileHandle
  | openDir => DirHandle
  | makeDir _ => Unit
  | setMode _ => Unit
  | unlink => Unit
  | removeDir => Unit
  | stat => Stat
  | statVolume => VolumeStat

/-- What a request about an open file is answered with: bytes read, a number of bytes
accepted, a position, or nothing. -/
@[reducible] def FileRequest.Reply : FileRequest → Type
  | read _ => Bytes
  | write _ => Nat
  | seek _ => Nat
  | tell => Nat
  | truncate _ => Unit
  | sync => Unit
  | close => Unit

/-- What a request about an open directory is answered with. No entry marks the end. -/
@[reducible] def DirRequest.Reply : DirRequest → Type
  | next => Option DirEntry
  | close => Unit

/-- What a request is answered with. -/
@[reducible] def Request.Reply : Request → Type
  | mount => MountData
  | unmount => Unit
  | onPath request _ => request.Reply
  | onFile request _ => request.Reply
  | onDir request _ => request.Reply
  | rename _ _ => Unit

/-- The flags of open options as six letters, with a dash for each flag that is off. -/
def OpenOptions.describe (options : OpenOptions) : String :=
  let flag (on : Bool) (letter : Char) : Char := if on then letter else '-'
  String.ofList [flag options.read 'r', flag options.write 'w', flag options.create 'c',
    flag options.createNew 'n', flag options.append 'a', flag options.truncate 't']

/-- The origin and the offset of a seek. -/
def Seek.describe : Seek → String
  | start offset => s!"start:{offset}"
  | finish delta => s!"end:{delta}"
  | current delta => s!"current:{delta}"

namespace Request

/-- The name of the operation that a request asks for. -/
def name : Request → String
  | mount => "mount"
  | unmount => "unmount"
  | onPath (.openFile _) _ => "open"
  | onPath .openDir _ => "opendir"
  | onPath (.makeDir _) _ => "mkdir"
  | onPath (.setMode _) _ => "chmod"
  | onPath .unlink _ => "unlink"
  | onPath .removeDir _ => "rmdir"
  | onPath .stat _ => "stat"
  | onPath .statVolume _ => "statvfs"
  | onFile (.read _) _ => "read"
  | onFile (.write _) _ => "write"
  | onFile (.seek _) _ => "seek"
  | onFile .tell _ => "tell"
  | onFile (.truncate _) _ => "truncate"
  | onFile .sync _ => "sync"
  | onFile .close _ => "close"
  | onDir .next _ => "readdir"
  | onDir .close _ => "closedir"
  | rename _ _ => "rename"

/-- The arguments of a request, as words. Modes are octal and payloads hexadecimal. -/
def arguments : Request → List String
  | mount => []
  | unmount => []
  | onPath (.openFile options) path => [path, options.describe]
  | onPath (.makeDir mode) path => [path, Text.octalOfNat mode.toNat]
  | onPath (.setMode mode) path => [path, Text.octalOfNat mode.toNat]
  | onPath _ path => [path]
  | onFile request handle =>
      let subject := s!"fh={handle.number}"
      match request with
      | .read length => [subject, s!"len={length}"]
      | .write bytes => [subject, Text.hexOfBytes bytes]
      | .seek position => [subject, position.describe]
      | .truncate length => [subject, s!"len={length}"]
      | _ => [subject]
  | onDir _ handle => [s!"dh={handle.number}"]
  | rename source target => [source, "->", target]

/-- A request and the mount it is sent for, on one line. -/
def describe (request : Request) (mount : MountPoint) : String :=
  let head := s!"{request.name} #{mount.id.number.toNat} {mount.path.text} dev={mount.device.raw.toNat} {mount.fsType.name} data={mount.data.value} |"
  " ".intercalate (head :: request.arguments)

end Request

end StorageStack

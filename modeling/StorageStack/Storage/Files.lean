import StorageStack.Storage.Basic

/-! # Open files

An open file remembers its mount by identity, so it goes dead with the mount and does
not come alive again with another mount at the same path. Closing always ends it.
-/

namespace StorageStack

/-- A file that was opened. It is open as long as it names a mount. -/
structure OpenFile where
  handle : FileHandle
  mount : Option MountId
deriving DecidableEq, Repr

namespace OpenFile

/-- The file after its close. -/
def closed (file : OpenFile) : OpenFile := { file with mount := none }

/-- Whether the file has not been closed. -/
def isOpen (file : OpenFile) : Bool := file.mount.isSome

end OpenFile

namespace Storage

variable {δ ω : Type}

/-- Open a file. -/
def openFile (path : String) (options : OpenOptions) : Action (Storage δ ω) OpenFile :=
  fun storage =>
    match storage.resolve path with
    | .error cause => .error cause storage
    | .ok mount =>
        match serve mount (.onPath (.openFile options) (mount.path.relative path)) storage with
        | .error cause after => .error cause after
        | .ok handle after => .ok ⟨handle, some mount.id⟩ after

/-- Send a request about an open file to the mount it was opened on. -/
def onFile (file : OpenFile) (request : FileRequest) : Action (Storage δ ω) request.Reply :=
  fun storage =>
    match file.mount with
    | none => .error .badFileDescriptor storage
    | some id => onMount id (.onFile request file.handle) storage

/-- Close a file. The file is closed afterwards whatever the backend says, and closing it
once more changes nothing. -/
def closeFile : Action (OpenFile × Storage δ ω) Unit := fun (file, storage) =>
  match file.mount with
  | none => .ok () (file, storage)
  | some id =>
      match onMount id (.onFile .close file.handle) storage with
      | .ok _ after => .ok () (file.closed, after)
      | .error cause after => .error cause (file.closed, after)

/-- Write a whole payload, in as many writes as the backend wants. A write that accepts
nothing is a failure. -/
def writeAll (file : OpenFile) (bytes : Bytes) : Action (Storage δ ω) Unit := fun storage =>
  if _ : bytes = [] then .ok () storage
  else
    match onFile file (.write bytes) storage with
    | .error cause after => .error cause after
    | .ok 0 after => .error .ioError after
    -- A count beyond the payload drops all of it, so the next round ends.
    | .ok (count + 1) after => writeAll file (bytes.drop (count + 1)) after
termination_by bytes.length
decreasing_by
  have hlength : bytes.length ≠ 0 := fun hzero => by simp_all
  simp only [List.length_drop]
  omega

/-- Open a file, use it, and close it once, however the use ended. The answer of the close
stands beside that of the use; a use that failed fails the whole. -/
def withFile {α : Type} (path : String) (options : OpenOptions)
    (use : OpenFile → Action (Storage δ ω) α) :
    Action (Storage δ ω) (α × Except StorageError Unit) := fun storage =>
  match openFile path options storage with
  | .error cause after => .error cause after
  | .ok file opened =>
      match use file opened with
      | .ok value used =>
          match closeFile (file, used) with
          | .ok _ after => .ok (value, .ok ()) after.2
          | .error cause after => .ok (value, .error cause) after.2
      | .error cause used =>
          match closeFile (file, used) with
          | .ok _ after => .error cause after.2
          | .error _ after => .error cause after.2

end Storage

end StorageStack

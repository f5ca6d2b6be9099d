import StorageStack.Storage.Basic

/-! # Open directories

The root directory is made up by the storage layer and lists the mounts. Every other
directory is one of a backend, read entry by entry with the entries for itself and its
parent left out.
-/

namespace StorageStack

/-- A directory that was opened. -/
inductive OpenDir where
  /-- The list of mounts, from the given index on. -/
  | root (cursor : Nat)
  | backend (handle : DirHandle) (mount : MountId)
  | closed
deriving DecidableEq, Repr

namespace OpenDir

/-- Whether the directory has not been closed. -/
def isOpen : OpenDir → Bool
  | closed => false
  | _ => true

/-- Whether the directory lists the mounts. -/
def isRoot : OpenDir → Bool
  | root _ => true
  | _ => false

end OpenDir

/-- The entry under which a mount is listed. -/
def MountPoint.toDirEntry (mount : MountPoint) : DirEntry where
  name := ⟨mount.path.name, mount.path.size_name_le⟩
  kind := .directory

/-- What reading a directory came to. -/
inductive DirReading where
  | entry (entry : DirEntry)
  | finished
  /-- The backend gave only entries for the directory itself and its parent, as often as it
  was asked. -/
  | onlyDots
deriving DecidableEq

namespace Storage

variable {δ ω : Type}

/-- Open a directory. The root directory exists without any mount. -/
def openDir (path : String) : Action (Storage δ ω) OpenDir := fun storage =>
  if path = "/" then .ok (.root 0) storage
  else
    match storage.resolve path with
    | .error cause => .error cause storage
    | .ok mount =>
        match serve mount (.onPath .openDir (mount.path.relative path)) storage with
        | .error cause after => .error cause after
        | .ok handle after => .ok (.backend handle mount.id) after

/-- Ask a backend for entries until one is not a dot entry, at most `attempts` times. -/
def readEntry (id : MountId) (handle : DirHandle) : Nat → Action (Storage δ ω) DirReading
  | 0, storage => .ok .onlyDots storage
  | attempts + 1, storage =>
      match onMount id (.onDir .next handle) storage with
      | .error cause after => .error cause after
      | .ok none after => .ok .finished after
      | .ok (some entry) after =>
          -- The backend has moved on past the dot entry, so asking again is progress.
          if entry.isDot then readEntry id handle attempts after else .ok (.entry entry) after

/-- Read the next entry of a directory. The root moves on by one mount at each entry. -/
def readDir (attempts : Nat) : Action (OpenDir × Storage δ ω) DirReading
  | (.root cursor, storage) =>
      match storage.mounts[cursor]? with
      | none => .ok .finished (.root cursor, storage)
      | some mount => .ok (.entry mount.toDirEntry) (.root (cursor + 1), storage)
  | (.backend handle id, storage) =>
      (readEntry id handle attempts).within Prod.snd (fun after state => (state.1, after))
        (.backend handle id, storage)
  | (.closed, storage) => .error .badFileDescriptor (.closed, storage)

/-- Close a directory. It is closed afterwards whatever the backend says, and closing it
once more changes nothing. -/
def closeDir : Action (OpenDir × Storage δ ω) Unit
  | (.root _, storage) => .ok () (.closed, storage)
  | (.closed, storage) => .ok () (.closed, storage)
  | (.backend handle id, storage) =>
      match onMount id (.onDir .close handle) storage with
      | .ok _ after => .ok () (.closed, after)
      | .error cause after => .error cause (.closed, after)

end Storage

end StorageStack

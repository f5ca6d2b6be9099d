import StorageStack.Mount.Table
import StorageStack.Storage.Basic

/-! # Mounting

Mounting checks the request, finds the backend, and records the mount only after the
backend has accepted it. A failure at any point leaves the mount table as it was.
-/

namespace StorageStack

/-- The result of mounting a whole table. -/
structure MountSummary where
  mounted : Nat := 0
  failed : Nat := 0
  firstError : Option StorageError := none
deriving DecidableEq, Repr

namespace Storage

variable {δ ω : Type}

/-- The checks that need no backend, in order: the path may stand as a mount path, no live
mount has it, the table has room, a concrete type is registered, the device exists. -/
def checkMount (storage : Storage δ ω) (path : String) (device : DeviceHandle) (fsType : FsType) :
    Except StorageError MountPath :=
  match MountPath.ofString? path with
  | none => .error .invalidArgument
  | some mountPath =>
      if storage.mounts.any fun mount => mount.path = mountPath then .error .busy
      else if Limits.maxMounts ≤ storage.mounts.length then .error .outOfMemory
      else if fsType ≠ .auto ∧ (storage.backend? fsType).isNone then .error .notFound
      else
        match storage.env.blocks.info device with
        | .error cause => .error cause
        | .ok _ => .ok mountPath

/-- The type that the device's partition suggests. -/
def suggestedType? (storage : Storage δ ω) (device : DeviceHandle) : Option FsType :=
  match storage.env.blocks.partition device with
  | .error _ => none
  | .ok partition => FsType.ofTypeCode? partition.typeCode

/-- The order in which backends are asked about a device: the one of the suggested type
first, then the others as they were registered. -/
def probeOrder (suggested : Option FsType) (registry : List (Registration δ ω)) :
    List (Registration δ ω) :=
  registry.filter (fun registration => suggested = some registration.fsType) ++
    registry.filter fun registration => suggested ≠ some registration.fsType

/-- Ask backends in order until one recognises the device. -/
def detect (device : DeviceHandle) :
    List (Registration δ ω) → Env δ ω → Option (Registration δ ω) × Env δ ω
  | [], env => (none, env)
  | registration :: rest, env =>
      match registration.backend.probe device env with
      | (true, env) => (some registration, env)
      | (false, env) => detect device rest env

/-- The backend that is to serve the mount. Only `auto` asks the backends. -/
def chooseBackend (device : DeviceHandle) (fsType : FsType) (storage : Storage δ ω) :
    Option (Registration δ ω) × Env δ ω :=
  if fsType = .auto then
    detect device (probeOrder (storage.suggestedType? device) storage.registry) storage.env
  else (storage.registry.find? fun registration => registration.fsType = fsType, storage.env)

/-- Put the record of a mount that its backend has accepted at the end of the table. The
identity is used up before the table is asked for room. -/
def enter (mount : MountPoint) : Action (Storage δ ω) Unit := fun storage =>
  let counted := { storage with nextId := storage.nextId.next }
  if Limits.maxMounts ≤ storage.mounts.length then .error .outOfMemory counted
  else .ok () { counted with mounts := storage.mounts ++ [mount] }

/-- Mount a device. Only a mount that its backend accepts takes an identity. -/
def mount (path : String) (device : DeviceHandle) (fsType : FsType) : Action (Storage δ ω) Unit :=
  fun storage =>
    match storage.checkMount path device fsType with
    | .error cause => .error cause storage
    | .ok path =>
        match chooseBackend device fsType storage with
        | (none, env) => .error .notFound { storage with env }
        | (some registration, env) =>
            -- The backend sees the record as it will stand, less the datum it is to supply.
            let point : MountPoint :=
              { id := storage.nextId, path, device, fsType := registration.fsType }
            match registration.backend.serve point .mount env with
            | .error cause env => .error cause { storage with env }
            | .ok data env => enter { point with data } { storage with env }

/-- Unmount what is mounted at exactly this path. A mount that its backend does not let go
of stays. -/
def unmount (path : String) : Action (Storage δ ω) Unit := fun storage =>
  match storage.mounts.find? fun mount => mount.path.text = path with
  | none => .error .notSupported storage
  | some mount =>
      match serve mount .unmount storage with
      | .error cause after => .error cause after
      | .ok _ after => .ok () { after with mounts := after.mounts.erase mount }

/-- Ask the backend of each mount to let go, in the order given, and remember the first
cause of failure. -/
def releaseEach : List MountPoint → Storage δ ω → Option StorageError × Storage δ ω
  | [], storage => (none, storage)
  | mount :: rest, storage =>
      match serve mount .unmount storage with
      | .ok _ after => releaseEach rest after
      -- The mounts behind a failure are released all the same.
      | .error cause after => (some cause, (releaseEach rest after).2)

/-- Unmount everything, the last mount first. The table is empty afterwards even if a
backend failed. -/
def unmountAll : Action (Storage δ ω) Unit := fun storage =>
  match releaseEach storage.mounts.reverse storage with
  | (none, after) => .ok () { after with mounts := [] }
  | (some cause, after) => .error cause { after with mounts := [] }

/-- Mount every entry of a table. An entry that fails does not keep the next from being
mounted. -/
def mountAll : List MountEntry → MountSummary → Storage δ ω → MountSummary × Storage δ ω
  | [], summary, storage => (summary, storage)
  | entry :: rest, summary, storage =>
      match mount entry.path entry.device entry.fsType storage with
      | .ok _ after => mountAll rest { summary with mounted := summary.mounted + 1 } after
      | .error cause after =>
          mountAll rest
            { summary with
              failed := summary.failed + 1
              firstError := summary.firstError.or (some cause) } after

/-- Mount the entries of a table in order and count the outcomes. -/
def mountTable (entries : List MountEntry) : StateM (Storage δ ω) MountSummary :=
  fun storage => mountAll entries {} storage

/-- The mount path at an index of the table. The index moves on unless it is behind the end. -/
def nextMountPath (storage : Storage δ ω) : Action Nat String := fun index =>
  match storage.mounts[index]? with
  | none => .error .notFound index
  | some mount => .ok mount.path.text (index + 1)

end Storage

end StorageStack

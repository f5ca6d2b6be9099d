import StorageStack.Backend.Basic

/-! # Storage

The state of the storage layer: the backends by filesystem type, the live mounts in
the order of mounting, and the environment on which the backends work. A path belongs
to the longest mount that covers it, and a request goes to the backend of its mount.
-/

namespace StorageStack

/-- A backend and the concrete type it serves. -/
structure Registration (δ ω : Type) where
  fsType : FsType
  backend : Backend δ ω

/-- The storage layer. -/
structure Storage (δ ω : Type) where
  env : Env δ ω
  registry : List (Registration δ ω) := []
  mounts : List MountPoint := []
  nextId : MountId := .first

namespace Storage

variable {δ ω : Type}

/-- A storage layer over the given disks, without backends and mounts. -/
def ofBlocks (blocks : BlockDevices δ) (host : ω) : Storage δ ω where
  env := ⟨blocks, host⟩

/-- The backend of a type. -/
def backend? (storage : Storage δ ω) (fsType : FsType) : Option (Backend δ ω) :=
  (storage.registry.find? fun registration => registration.fsType = fsType).map (·.backend)

/-- Register a backend for a concrete type that has none yet. -/
def register (fsType : FsType) (backend : Backend δ ω) : Action (Storage δ ω) Unit := fun storage =>
  if fsType = .auto then .error .invalidArgument storage
  else if (storage.backend? fsType).isSome then .error .alreadyExists storage
  else if Limits.maxBackends ≤ storage.registry.length then .error .outOfMemory storage
  else .ok () { storage with registry := storage.registry ++ [⟨fsType, backend⟩] }

/-- Run an operation of the block devices. -/
def onBlocks {α : Type} (action : Action (BlockDevices δ) α) : Action (Storage δ ω) α :=
  action.within (·.env.blocks) fun blocks storage =>
    { storage with env := { storage.env with blocks } }

/-- Change the state behind the backends from outside. -/
def mapHost (storage : Storage δ ω) (change : ω → ω) : Storage δ ω :=
  { storage with env := { storage.env with host := change storage.env.host } }

/-- Change the block devices from outside. -/
def mapBlocks (storage : Storage δ ω) (change : BlockDevices δ → BlockDevices δ) : Storage δ ω :=
  { storage with env := { storage.env with blocks := change storage.env.blocks } }

/-- The mount that an absolute path belongs to. -/
def resolve (storage : Storage δ ω) (path : String) : Except StorageError MountPoint :=
  if IsAbsolute path then
    match MountPoint.longestCover? storage.mounts path with
    | none => .error .notFound
    | some mount => .ok mount
  else .error .invalidArgument

/-- The live mount of an identity. -/
def mountOf? (storage : Storage δ ω) (id : MountId) : Option MountPoint :=
  storage.mounts.find? fun mount => mount.id = id

/-- Send a request about a mount to the backend of the mount's type. -/
def serve (mount : MountPoint) (request : Request) : Action (Storage δ ω) request.Reply :=
  fun storage =>
    match storage.backend? mount.fsType with
    | none => .error .notFound storage
    | some backend =>
        (backend.serve mount request).within (·.env) (fun env storage => { storage with env }) storage

/-- Serving a request changes the environment and nothing else. -/
theorem outcome_serve (mount : MountPoint) (request : Request) (storage : Storage δ ω) :
    ∃ env, ((serve mount request).outcome storage).2 = { storage with env } := by
  cases hbackend : storage.backend? mount.fsType with
  | none => exact ⟨storage.env, by simp [Action.outcome, serve, hbackend]⟩
  | some backend =>
      have hserve : (serve mount request).outcome storage =
          ((backend.serve mount request).within Storage.env
            fun env storage => { storage with env }).outcome storage := by
        simp [Action.outcome, serve, hbackend]
      rw [hserve, Action.outcome_within]
      exact ⟨_, rfl⟩

/-- Send a request about an absolute path to the mount that the path belongs to. -/
def onPath (request : PathRequest) (path : String) : Action (Storage δ ω) request.Reply :=
  fun storage =>
    match storage.resolve path with
    | .error cause => .error cause storage
    | .ok mount => serve mount (.onPath request (mount.path.relative path)) storage

/-- Send a request to the mount of an identity, if that mount is still live. -/
def onMount (id : MountId) (request : Request) : Action (Storage δ ω) request.Reply :=
  fun storage =>
    match storage.mountOf? id with
    | none => .error .badFileDescriptor storage
    | some mount => serve mount request storage

theorem outcome_onPath (request : PathRequest) (path : String) (storage : Storage δ ω) :
    ∃ env, ((onPath request path).outcome storage).2 = { storage with env } := by
  cases hmount : storage.resolve path with
  | error cause => exact ⟨storage.env, by simp [Action.outcome, onPath, hmount]⟩
  | ok mount =>
      simpa [Action.outcome, onPath, hmount] using
        outcome_serve mount (.onPath request (mount.path.relative path)) storage

theorem outcome_onMount (id : MountId) (request : Request) (storage : Storage δ ω) :
    ∃ env, ((onMount id request).outcome storage).2 = { storage with env } := by
  cases hmount : storage.mountOf? id with
  | none => exact ⟨storage.env, by simp [Action.outcome, onMount, hmount]⟩
  | some mount =>
      simpa [Action.outcome, onMount, hmount] using outcome_serve mount request storage

/-- Rename within one mount. Both paths have to be absolute, and the target has to belong
to the mount of the source. -/
def rename (source target : String) : Action (Storage δ ω) Unit := fun storage =>
  if IsAbsolute source ∧ IsAbsolute target then
    match storage.resolve source with
    | .error cause => .error cause storage
    | .ok mount =>
        match storage.resolve target with
        | .error _ => .error .invalidArgument storage
        | .ok other =>
            if other.path = mount.path then
              serve mount (.rename (mount.path.relative source) (mount.path.relative target)) storage
            else .error .invalidArgument storage
  else .error .invalidArgument storage

end Storage

end StorageStack

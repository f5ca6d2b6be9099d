import StorageStack.Backend.Request
import StorageStack.Block.Devices

/-! # Backends

A backend is a filesystem seen from the storage layer: it says whether a device holds
its format, and it serves requests. It may use the block devices, and it keeps what it
remembers in a host state that it can share with other backends.
-/

namespace StorageStack

/-- What a backend works on: the block devices and the state behind the backends. -/
structure Env (δ ω : Type) where
  blocks : BlockDevices δ
  host : ω

/-- A filesystem. Its answers may depend on everything in the environment. -/
structure Backend (δ ω : Type) where
  /-- Whether the device holds this backend's format. -/
  probe : DeviceHandle → Env δ ω → Bool × Env δ ω
  serve : MountPoint → (request : Request) → Action (Env δ ω) request.Reply

namespace Backend

variable {δ ω : Type}

/-- The backend that serves nothing and recognises nothing. -/
def minimal : Backend δ ω where
  probe _ env := (false, env)
  serve _ _ env := .error .notSupported env

/-- A backend that can be mounted and unmounted and serves nothing else. -/
def mountOnly : Backend δ ω where
  probe _ env := (false, env)
  serve _ request env := match request with
    | .mount => .ok {} env
    | .unmount => .ok () env
    | _ => .error .notSupported env

/-- A backend that hands out fixed handles and serves nothing else. -/
def openOnly (data : MountData) (file : FileHandle) (dir : DirHandle) : Backend δ ω where
  probe _ env := (false, env)
  serve _ request env := match request with
    | .mount => .ok data env
    | .onPath (.openFile _) _ => .ok file env
    | .onPath .openDir _ => .ok dir env
    | _ => .error .notSupported env

end Backend

/-- A part of a larger state: how to find it and how to put it back. What was put back is
what is found afterwards. -/
structure Part (ω α : Type) where
  get : ω → α
  set : α → ω → ω
  get_set : ∀ (part : α) (whole : ω), get (set part whole) = part

/-- The state as a part of itself. -/
def Part.whole (ω : Type) : Part ω ω where
  get := id
  set part _ := part
  get_set _ _ := rfl

end StorageStack

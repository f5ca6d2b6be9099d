import StorageStack.Proofs.Storage.Changes

/-! # Calls to backends

Which backends an operation calls cannot be read off the state that it leaves. So each
backend is given a host that keeps every call with its answer, and the operation is run once
more over those backends.
-/

namespace StorageStack

/-- A call to the backend registered for a type, with the answer. -/
inductive Call where
  | probe (fsType : FsType) (device : DeviceHandle) (claimed : Bool)
  | serve (fsType : FsType) (mount : MountPoint) (request : Request)
      (answer : Except StorageError request.Reply)

/-- A host and the calls that the backends have received, the oldest first. -/
structure Logged (ω : Type) where
  host : ω
  calls : List Call

variable {δ ω : Type}

namespace Env

/-- The environment with a host that keeps calls. -/
def logged (calls : List Call) (env : Env δ ω) : Env δ (Logged ω) := ⟨env.blocks, ⟨env.host, calls⟩⟩

/-- The environment without the calls. -/
def forget (env : Env δ (Logged ω)) : Env δ ω := ⟨env.blocks, env.host.host⟩

@[simp] theorem forget_logged (calls : List Call) (env : Env δ ω) : (env.logged calls).forget = env :=
  rfl

end Env

namespace Backend

/-- The backend of a type, keeping each call that it receives. It answers as before. -/
def logged (fsType : FsType) (backend : Backend δ ω) : Backend δ (Logged ω) where
  probe device env :=
    let (claimed, after) := backend.probe device env.forget
    (claimed, after.logged (env.host.calls ++ [.probe fsType device claimed]))
  serve mount request := fun env =>
    match backend.serve mount request env.forget with
    | .ok reply after =>
        .ok reply (after.logged (env.host.calls ++ [.serve fsType mount request (.ok reply)]))
    | .error cause after =>
        .error cause (after.logged (env.host.calls ++ [.serve fsType mount request (.error cause)]))

theorem probe_logged (fsType : FsType) (backend : Backend δ ω) (device : DeviceHandle)
    (calls : List Call) (env : Env δ ω) :
    (backend.logged fsType).probe device (env.logged calls) =
      let (claimed, after) := backend.probe device env
      (claimed, after.logged (calls ++ [.probe fsType device claimed])) :=
  rfl

theorem outcome_serve_logged (fsType : FsType) (backend : Backend δ ω) (mount : MountPoint)
    (request : Request) (calls : List Call) (env : Env δ ω) :
    ((backend.logged fsType).serve mount request).outcome (env.logged calls) =
      let (answer, after) := (backend.serve mount request).outcome env
      (answer, after.logged (calls ++ [.serve fsType mount request answer])) := by
  unfold Action.outcome logged
  dsimp only
  rw [Env.forget_logged]
  cases backend.serve mount request env <;> rfl

end Backend

/-- The registration of a backend that keeps its calls. -/
def Registration.logged (registration : Registration δ ω) : Registration δ (Logged ω) :=
  ⟨registration.fsType, registration.backend.logged registration.fsType⟩

namespace Storage

/-- The storage layer over backends that keep their calls, behind those made earlier. -/
def logged (calls : List Call) (storage : Storage δ ω) : Storage δ (Logged ω) where
  env := storage.env.logged calls
  registry := storage.registry.map Registration.logged
  mounts := storage.mounts
  nextId := storage.nextId

/-- The calls that the backends receive in an operation. -/
def callsOf {α : Type} (operation : (ω : Type) → Action (Storage δ ω) α) (storage : Storage δ ω) :
    List Call :=
  ((operation (Logged ω)).outcome (storage.logged [])).2.env.host.calls

/-- An operation has the given result, and on the way to it the backends receive the given
calls and no others. -/
def Performs {α : Type} (operation : (ω : Type) → Action (Storage δ ω) α) (storage : Storage δ ω)
    (calls : List Call) (result : Except StorageError α × Storage δ ω) : Prop :=
  (operation ω).outcome storage = result ∧
    ∀ earlier, (operation (Logged ω)).outcome (storage.logged earlier) =
      (result.1, result.2.logged (earlier ++ calls))

section Logged

variable (storage : Storage δ ω) (calls : List Call)

theorem resolve_logged (path : String) : (storage.logged calls).resolve path = storage.resolve path :=
  rfl

theorem mountOf?_logged (id : MountId) :
    (storage.logged calls).mountOf? id = storage.mountOf? id :=
  rfl

theorem find?_logged (fsType : FsType) :
    ((storage.logged calls).registry.find? fun registration => registration.fsType = fsType) =
      (storage.registry.find? fun registration => registration.fsType = fsType).map
        Registration.logged :=
  List.find?_map

theorem backend?_logged (fsType : FsType) :
    (storage.logged calls).backend? fsType = (storage.backend? fsType).map (Backend.logged fsType) := by
  unfold backend?
  rw [find?_logged]
  cases hfound : storage.registry.find? fun registration => registration.fsType = fsType with
  | none => rfl
  | some registration =>
      have htype : registration.fsType = fsType := by simpa using List.find?_some hfound
      simp [Registration.logged, htype]

/-- Asking a backend is one call. -/
theorem ask_logged (fsType : FsType) (backend : Backend δ ω) (mount : MountPoint) (request : Request) :
    ask (backend.logged fsType) mount request (storage.logged calls) =
      let (answer, after) := ask backend mount request storage
      (answer, after.logged (calls ++ [.serve fsType mount request answer])) := by
  unfold ask logged
  dsimp only
  rw [Backend.outcome_serve_logged]

end Logged

section Performs

variable {storage : Storage δ ω} {mount : MountPoint} {backend : Backend δ ω}

/-- A request about a mount is one call to the backend of its type. -/
theorem performs_serve (hbackend : storage.backend? mount.fsType = some backend) (request : Request) :
    Performs (fun _ => serve mount request) storage
      [.serve mount.fsType mount request (ask backend mount request storage).1]
      (ask backend mount request storage) := by
  refine ⟨outcome_serve_of_backend hbackend request, fun earlier => ?_⟩
  have hlogged := (backend?_logged storage earlier mount.fsType).trans
    (congrArg (Option.map (Backend.logged mount.fsType)) hbackend)
  rw [outcome_serve_of_backend hlogged request, ask_logged]

end Performs

namespace Performs

variable {α β : Type} {storage middle : Storage δ ω} {calls later : List Call}
  {first : (ω : Type) → Action (Storage δ ω) α} {second whole : (ω : Type) → Action (Storage δ ω) β}
  {answer : Except StorageError α}

theorem callsOf_eq {result : Except StorageError α × Storage δ ω}
    (hperforms : Performs first storage calls result) : callsOf first storage = calls := by
  rw [callsOf, hperforms.2]
  rfl

/-- The result is what the operation comes to. -/
theorem self {result : Except StorageError α × Storage δ ω}
    (hperforms : Performs first storage calls result) :
    Performs first storage calls ((first ω).outcome storage) := by
  rw [hperforms.1]
  exact hperforms

/-- An operation that goes on, after the answer of its first part, as the second part does. -/
theorem next {result : Except StorageError β × Storage δ ω}
    (hfirst : Performs first storage calls (answer, middle))
    (hsecond : Performs second middle later result)
    (hwhole : ∀ (κ : Type) (before after : Storage δ κ),
      (first κ).outcome before = (answer, after) →
      (whole κ).outcome before = (second κ).outcome after) :
    Performs whole storage (calls ++ later) result := by
  refine ⟨(hwhole _ _ _ hfirst.1).trans hsecond.1, fun earlier => ?_⟩
  rw [hwhole _ _ _ (hfirst.2 earlier), hsecond.2, List.append_assoc]

/-- An operation that is over with the answer of its first part. -/
theorem stop {final : Except StorageError β} (hfirst : Performs first storage calls (answer, middle))
    (hwhole : ∀ (κ : Type) (before after : Storage δ κ),
      (first κ).outcome before = (answer, after) → (whole κ).outcome before = (final, after)) :
    Performs whole storage calls (final, middle) :=
  ⟨hwhole _ _ _ hfirst.1, fun earlier => hwhole _ _ _ (hfirst.2 earlier)⟩

end Performs

end Storage

end StorageStack

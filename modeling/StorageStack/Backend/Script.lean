import StorageStack.Backend.Basic

/-! # Scripted backends

A backend that answers from a script and notes what it was asked. Prepared answers of
one operation are used up in order; where none is left the operation is not supported.
-/

namespace StorageStack

/-- What a scripted backend was asked. -/
inductive ScriptCall where
  | probed (device : DeviceHandle)
  | asked (mount : MountPoint) (request : Request)
deriving DecidableEq

/-- The line written for a call. -/
def ScriptCall.describe : ScriptCall → String
  | probed device => s!"probe dev={device.raw.toNat}"
  | asked mount request => request.describe mount

/-- The content of a prepared answer. A number stands for a handle, a position, a count or
a mount's data, as the operation wants it. -/
inductive ScriptReply where
  | done
  | number (value : Nat)
  | bytes (payload : Bytes)
  | entry (entry : Option DirEntry)
  | stat (stat : Stat)
  | volume (stat : VolumeStat)
deriving DecidableEq

/-- The content as the reply to a request. No more bytes are delivered than were asked for,
and content of another kind than the request wants is no answer. -/
def ScriptReply.toReply (reply : ScriptReply) : (request : Request) → Except StorageError request.Reply
  | .mount => match reply with
    | number value => .ok ⟨value⟩
    | _ => .error .notSupported
  | .unmount => .ok ()
  | .onPath (.openFile _) _ => match reply with
    | number value => .ok ⟨value⟩
    | _ => .error .notSupported
  | .onPath .openDir _ => match reply with
    | number value => .ok ⟨value⟩
    | _ => .error .notSupported
  | .onPath .stat _ => match reply with
    | stat value => .ok value
    | _ => .error .notSupported
  | .onPath .statVolume _ => match reply with
    | volume value => .ok value
    | _ => .error .notSupported
  | .onPath (.makeDir _) _ => .ok ()
  | .onPath (.setMode _) _ => .ok ()
  | .onPath .unlink _ => .ok ()
  | .onPath .removeDir _ => .ok ()
  | .onFile (.read length) _ => match reply with
    | bytes payload => .ok (payload.take length)
    | _ => .error .notSupported
  | .onFile (.write _) _ => match reply with
    | number value => .ok value
    | _ => .error .notSupported
  | .onFile (.seek _) _ => match reply with
    | number value => .ok value
    | _ => .error .notSupported
  | .onFile .tell _ => match reply with
    | number value => .ok value
    | _ => .error .notSupported
  | .onFile (.truncate _) _ => .ok ()
  | .onFile .sync _ => .ok ()
  | .onFile .close _ => .ok ()
  | .onDir .next _ => match reply with
    | entry value => .ok value
    | _ => .error .notSupported
  | .onDir .close _ => .ok ()
  | .rename _ _ => .ok ()

/-- A prepared answer and the name of the operation it is prepared for. -/
structure Prepared where
  operation : String
  answer : Except StorageError ScriptReply

/-- The script and the record of a scripted backend. -/
structure Script where
  /-- Prepared answers, in the order of preparation. -/
  answers : List Prepared := []
  probes : List Bool := []
  /-- The calls received, the oldest first. -/
  calls : List ScriptCall := []

namespace Script

/-- Prepare further answers, behind the ones that are left. -/
def prepare (script : Script) (answers : List Prepared) : Script :=
  { script with answers := script.answers ++ answers }

/-- Prepare further answers to probes. -/
def prepareProbes (script : Script) (probes : List Bool) : Script :=
  { script with probes := script.probes ++ probes }

/-- Answer a probe. Without a prepared answer the device is not recognised. -/
def probe (script : Script) (device : DeviceHandle) : Bool × Script :=
  (script.probes.headD false,
    { script with probes := script.probes.tail, calls := script.calls ++ [.probed device] })

/-- Answer a request with the first answer prepared for its operation. -/
def serve (mount : MountPoint) (request : Request) : Action Script request.Reply := fun script =>
  let noted : Script := { script with calls := script.calls ++ [.asked mount request] }
  match script.answers.find? fun prepared => prepared.operation == request.name with
  | none => .error .notSupported noted
  | some prepared =>
      let left := script.answers.eraseP fun prepared => prepared.operation == request.name
      match prepared.answer with
      | .error cause => .error cause { noted with answers := left }
      | .ok reply => Action.ofExcept (reply.toReply request) { noted with answers := left }

variable {δ ω : Type}

/-- The scripted backend in its part of the host. -/
def backend (part : Part ω Script) : Backend δ ω where
  probe device env :=
    let answer := (part.get env.host).probe device
    (answer.1, { env with host := part.set answer.2 env.host })
  serve mount request := fun env =>
    (serve mount request).within
      (fun env => part.get env.host) (fun script env => { env with host := part.set script env.host }) env

end Script

end StorageStack

import StorageStack.Proofs.Memory.Numbering
import StorageStack.Proofs.Storage.Handles

/-! # Files of a mounted memory filesystem

Operations on the files of one mount send their requests to the memory filesystem and change
nothing else. So they leave the mount as it is, take no file away, and leave each file open until
it is closed.
-/

namespace StorageStack.Storage

variable {δ ω : Type}

/-- The memory filesystem in a part of the host. -/
def memory (storage : Storage δ ω) (part : Part ω MemoryFs) : MemoryFs := part.get storage.env.host

@[simp] theorem memory_mapHost (storage : Storage δ ω) (part : Part ω MemoryFs) (fs : MemoryFs) :
    (storage.mapHost (part.set fs)).memory part = fs :=
  part.get_set fs storage.env.host

/-- What the memory filesystem makes of a request: the answer, and what it has become. -/
def memoryOutcome (storage : Storage δ ω) (mount : MountPoint) (part : Part ω MemoryFs)
    (request : Request) : Except StorageError request.Reply × MemoryFs :=
  (MemoryFs.serve (storage.env.blocks.info mount.device) mount request).outcome (storage.memory part)

/-- An operation on a file of the mount, by the request that it sends. -/
inductive FileOperation (storage : Storage δ ω) (mount : MountPoint) : Operation δ ω → Request → Prop
  | openFile {path : String} (options : OpenOptions) (hpath : storage.resolve path = .ok mount) :
      FileOperation storage mount (.openFile path options)
        (.onPath (.openFile options) (mount.path.relative path))
  | onFile {file : OpenFile} (request : FileRequest) (hfile : file.mount = some mount.id) :
      FileOperation storage mount (.onFile file request) (.onFile request file.handle)
  | closeFile {file : OpenFile} (hfile : file.mount = some mount.id) :
      FileOperation storage mount (.closeFile file) (.onFile .close file.handle)

/-- The operation is one on a file of the mount. -/
def OnFilesOf (storage : Storage δ ω) (mount : MountPoint) (operation : Operation δ ω) : Prop :=
  ∃ request, FileOperation storage mount operation request

/-- The operation closes the file of a number. -/
def Closes (storage : Storage δ ω) (mount : MountPoint) (handle : FileHandle)
    (operation : Operation δ ω) : Prop :=
  FileOperation storage mount operation (.onFile .close handle)

/-- Which operations are on files of a mount depends on the tables only. -/
theorem FileOperation.sameTables {storage after : Storage δ ω} {mount : MountPoint}
    {operation : Operation δ ω} {request : Request} (hsame : SameTables storage after)
    (hoperation : FileOperation storage mount operation request) :
    FileOperation after mount operation request := by
  obtain ⟨env, rfl⟩ := hsame
  cases hoperation with
  | openFile options hpath => exact .openFile options hpath
  | onFile request hfile => exact .onFile request hfile
  | closeFile hfile => exact .closeFile hfile

theorem OnFilesOf.sameTables {storage after : Storage δ ω} {mount : MountPoint}
    {operation : Operation δ ω} (hsame : SameTables storage after)
    (hoperation : storage.OnFilesOf mount operation) : after.OnFilesOf mount operation := by
  obtain ⟨request, hoperation⟩ := hoperation
  exact ⟨request, hoperation.sameTables hsame⟩

theorem resolve_of_sameTables {storage after : Storage δ ω} (hsame : SameTables storage after)
    (path : String) : after.resolve path = storage.resolve path := by
  obtain ⟨_, rfl⟩ := hsame
  rfl

/-- What operations on files of a mount leave as it was: the tables, the paths that files stand
at, and the spared files, which stay open. -/
structure Continues (part : Part ω MemoryFs) (spared : FileHandle → Prop)
    (before after : Storage δ ω) : Prop where
  tables : SameTables before after
  paths : MemoryFs.KeepsPaths (before.memory part) (after.memory part)
  opens : ∀ handle, spared handle →
    MemoryFs.KeepsOpen (before.memory part) (after.memory part) handle

namespace Continues

variable {part : Part ω MemoryFs} {first second : FileHandle → Prop}
  {before middle after : Storage δ ω}

theorem refl (storage : Storage δ ω) : Continues part first storage storage where
  tables := .refl storage
  paths := .refl _
  opens _ _ := .refl _ _

theorem trans (hfirst : Continues part first before middle)
    (hsecond : Continues part second middle after) :
    Continues part (fun handle => first handle ∧ second handle) before after where
  tables := hfirst.tables.trans hsecond.tables
  paths := hfirst.paths.trans hsecond.paths
  opens handle hspared := (hfirst.opens handle hspared.1).trans (hsecond.opens handle hspared.2)

theorem mono (hcontinues : Continues part first before after)
    (hspared : ∀ handle, second handle → first handle) : Continues part second before after where
  tables := hcontinues.tables
  paths := hcontinues.paths
  opens handle hhandle := hcontinues.opens handle (hspared handle hhandle)

end Continues

variable [DiskDriver δ]

/-- A live mount that a memory filesystem answers for. -/
structure MemoryMount (storage : Storage δ ω) (mount : MountPoint) (signature : Option Bytes)
    (part : Part ω MemoryFs) : Prop where
  live : storage.mountOf? mount.id = some mount
  served : storage.backend? mount.fsType = some (MemoryFs.backend signature part)
  reachable : MemoryFs.Reachable (storage.memory part)

theorem ask_memory (storage : Storage δ ω) (mount : MountPoint) (signature : Option Bytes)
    (part : Part ω MemoryFs) (request : Request) :
    ask (MemoryFs.backend signature part) mount request storage =
      let answer := storage.memoryOutcome mount part request
      (answer.1, storage.mapHost (part.set answer.2)) := by
  have hserve := Action.outcome_within (fun env : Env δ ω => part.get env.host)
    (fun fs env => { env with host := part.set fs env.host })
    (MemoryFs.serve (storage.env.blocks.info mount.device) mount request) storage.env
  unfold ask memoryOutcome
  exact congrArg (fun served => (served.1, { storage with env := served.2 })) hserve

/-- A mount of a memory filesystem that succeeds is one that the memory filesystem answers for. -/
theorem memoryMount_of_mount_eq_ok {storage after : Storage δ ω} {path : String}
    {device : DeviceHandle} {fsType : FsType} {signature : Option Bytes} {part : Part ω MemoryFs}
    (hconcrete : fsType ≠ .auto)
    (hserved : storage.backend? fsType = some (MemoryFs.backend signature part))
    (hreach : MemoryFs.Reachable (storage.memory part))
    (hnew : ∀ mount ∈ storage.mounts, mount.id ≠ storage.nextId)
    (hmount : mount path device fsType storage = .ok () after) :
    ∃ mount, after.mounts = storage.mounts ++ [mount] ∧ MemoryMount after mount signature part := by
  rcases mount_cases storage path device fsType with ⟨cause, other, hrefused, -⟩ |
    ⟨mountPath, registration, probed, data, env, hcheck, hchoose, haccepts⟩
  · rw [hmount] at hrefused
    cases hrefused
  · have haccepted := mount_of_accepted hcheck hchoose haccepts
    rw [hmount] at haccepted
    cases haccepted
    rw [chooseBackend, if_neg hconcrete] at hchoose
    obtain ⟨hfound, rfl⟩ := Prod.mk.inj hchoose
    obtain ⟨known, hknown, hbackend⟩ := Option.map_eq_some_iff.mp hserved
    obtain rfl := Option.some.inj (hfound.symm.trans hknown)
    have htype : registration.fsType = fsType := by simpa using List.find?_some hfound
    have hasked := ask_memory storage
      { id := storage.nextId, path := mountPath, device, fsType := registration.fsType } signature part
      .mount
    rw [← hbackend, ask, Action.outcome_eq_ok_iff.mpr haccepts] at hasked
    refine ⟨_, rfl, ?_, ?_, ?_⟩
    · rw [mountOf?, entered, List.find?_append, List.find?_eq_none.mpr (by simpa using hnew)]
      simp
    · rw [htype]
      exact hserved
    · have hmemory := congrArg (fun asked => asked.2.memory part) hasked
      dsimp only at hmemory
      rw [memory_mapHost] at hmemory
      change MemoryFs.Reachable (part.get env.host)
      rw [show part.get env.host = _ from hmemory]
      exact .serve _ _ .mount hreach

namespace MemoryMount

variable {storage : Storage δ ω} {mount : MountPoint} {signature : Option Bytes}
  {part : Part ω MemoryFs} {operation : Operation δ ω} {request : Request}
  (hmount : MemoryMount storage mount signature part)

include hmount

theorem outcome_openFile {path : String} (hpath : storage.resolve path = .ok mount)
    (options : OpenOptions) :
    (openFile path options).outcome storage =
      let answer := storage.memoryOutcome mount part
        (.onPath (.openFile options) (mount.path.relative path))
      (answer.1.map fun handle => ⟨handle, some mount.id⟩, storage.mapHost (part.set answer.2)) := by
  rw [outcome_openFile_of_resolve hpath, outcome_serve_of_backend hmount.served, ask_memory]

theorem outcome_onFile {file : OpenFile} (hfile : file.mount = some mount.id)
    (request : FileRequest) :
    (onFile file request).outcome storage =
      let answer := storage.memoryOutcome mount part (.onFile request file.handle)
      (answer.1, storage.mapHost (part.set answer.2)) := by
  rw [(fileServed hfile hmount.live hmount.served).request, ask_memory]

theorem outcome_closeFile {file : OpenFile} (hfile : file.mount = some mount.id) :
    closeFile.outcome (file, storage) =
      let answer := storage.memoryOutcome mount part (.onFile .close file.handle)
      (answer.1, file.closed, storage.mapHost (part.set answer.2)) := by
  rw [(fileServed hfile hmount.live hmount.served).close, ask_memory]

/-- An operation on a file leaves what its request leaves of the memory filesystem, and the rest
as it is. -/
theorem state_eq (hoperation : FileOperation storage mount operation request) :
    operation.state storage =
      storage.mapHost (part.set (storage.memoryOutcome mount part request).2) := by
  cases hoperation with
  | openFile options hpath => rw [Operation.state, hmount.outcome_openFile hpath]
  | onFile request hfile => rw [Operation.state, hmount.outcome_onFile hfile]
  | closeFile hfile => rw [Operation.state, hmount.outcome_closeFile hfile]

theorem step (request : Request) :
    MemoryMount (storage.mapHost (part.set (storage.memoryOutcome mount part request).2)) mount
      signature part where
  live := hmount.live
  served := hmount.served
  reachable := by
    rw [memory_mapHost]
    exact .serve _ mount request hmount.reachable

theorem continues_step (hoperation : FileOperation storage mount operation request) :
    Continues part (fun handle => request ≠ .onFile .close handle) storage
      (storage.mapHost (part.set (storage.memoryOutcome mount part request).2)) where
  tables := ⟨_, rfl⟩
  paths := by
    rw [memory_mapHost]
    cases hoperation with
    | openFile options hpath => exact MemoryFs.keepsPaths_openFile _ _ _ options
    | onFile request hfile => exact MemoryFs.keepsPaths_onFile _ _ mount request _
    | closeFile hfile => exact MemoryFs.keepsPaths_onFile _ _ mount .close _
  opens handle hspared := by
    rw [memory_mapHost]
    cases hoperation with
    | openFile options hpath =>
        exact MemoryFs.keepsOpen_openFile hmount.reachable.numbered _ _ options
    | onFile request hfile =>
        refine MemoryFs.keepsOpen_onFile _ mount fun hclose => ?_
        rintro rfl
        exact hspared (hclose ▸ rfl)
    | closeFile hfile =>
        refine MemoryFs.keepsOpen_onFile _ mount fun _ => ?_
        rintro rfl
        exact hspared rfl

omit hmount in
/-- Operations on the files of a mount leave it mounted, all paths in place, and each file open that
none of them closes. -/
theorem after_run (hmount : MemoryMount storage mount signature part) {run : List (Operation δ ω)}
    (hrun : ∀ operation ∈ run, storage.OnFilesOf mount operation) :
    MemoryMount (storage.after run) mount signature part ∧
      Continues part (fun handle => ∀ operation ∈ run, ¬storage.Closes mount handle operation) storage
        (storage.after run) := by
  induction run generalizing storage with
  | nil => exact ⟨hmount, .refl storage⟩
  | cons operation rest ih =>
      obtain ⟨⟨request, hoperation⟩, hrest⟩ := List.forall_mem_cons.mp hrun
      have hstep := hmount.continues_step hoperation
      have hafter := hmount.step request
      rw [← hmount.state_eq hoperation] at hstep hafter
      obtain ⟨hlast, hcontinues⟩ :=
        ih hafter fun later hlater => (hrest later hlater).sameTables hstep.tables
      refine ⟨hlast, (hstep.trans hcontinues).mono fun handle hspared => ⟨?_, ?_⟩⟩
      · rintro rfl
        exact hspared operation List.mem_cons_self hoperation
      · intro later hlater hcloses
        exact hspared later (List.mem_cons_of_mem _ hlater) (hcloses.sameTables hstep.tables.symm)

end MemoryMount

end StorageStack.Storage

import StorageStack.Proofs.Memory.Consistency
import StorageStack.Proofs.Storage.HandleCalls
import StorageStack.Proofs.Storage.MemoryMounts
import StorageStack.Proofs.Storage.Routing

/-! # Traffic to a memory filesystem

A memory filesystem may be registered for several types at once, next to backends that leave it
alone. Whatever the storage layer does then comes to requests that the memory filesystem is asked,
each for one of its mounts, and what these keep is kept by every run.
-/

namespace StorageStack

variable {δ ω : Type}

/-- A step of the memory filesystem: it serves a request that may be asked, or a switch is set. -/
inductive MemoryFs.Step (asked : MountPoint → Request → Prop) (fs : MemoryFs) : MemoryFs → Prop
  | served {mount : MountPoint} {request : Request} (info : Except StorageError BlockInfo)
      (hasked : asked mount request) : Step asked fs ((serve info mount request).outcome fs).2
  | switched (mountFailure : Option StorageError) (unmountFails closeFails listsDots : Bool) :
      Step asked fs { fs with mountFailure, unmountFails, closeFails, listsDots }

namespace MemoryFs

/-- Any number of steps. -/
abbrev Traffic (asked : MountPoint → Request → Prop) : MemoryFs → MemoryFs → Prop :=
  Relation.ReflTransGen (Step asked)

variable {asked allowed : MountPoint → Request → Prop} {fs after : MemoryFs}

/-- A request that has been served is traffic. -/
theorem traffic_of_outcome {mount : MountPoint} {request : Request}
    {info : Except StorageError BlockInfo} {answer : Except StorageError request.Reply}
    (hserve : (serve info mount request).outcome fs = (answer, after))
    (hasked : asked mount request) : Traffic asked fs after := by
  have hstep : Step asked fs ((serve info mount request).outcome fs).2 := .served info hasked
  rw [hserve] at hstep
  exact .single hstep

theorem Traffic.mono (htraffic : Traffic asked fs after)
    (hasked : ∀ mount request, asked mount request → allowed mount request) :
    Traffic allowed fs after := by
  refine Relation.ReflTransGen.mono (fun before later hstep => ?_) _ _ htraffic
  cases hstep with
  | served info hrequest => exact .served info (hasked _ _ hrequest)
  | switched mountFailure unmountFails closeFails listsDots => exact .switched _ _ _ _

/-- What each effect of a request that may be asked keeps, and each switch, is kept by traffic. -/
theorem Traffic.keeps {motive : MemoryFs → Prop} (htraffic : Traffic asked fs after)
    (heffect : ∀ {mount request before later}, asked mount request →
      Effect mount request before later → motive before → motive later)
    (hswitch : ∀ {before : MemoryFs} mountFailure unmountFails closeFails listsDots,
      motive before → motive { before with mountFailure, unmountFails, closeFails, listsDots })
    (hfs : motive fs) : motive after := by
  induction htraffic with
  | refl => exact hfs
  | @tail before _ _ hstep ih =>
      cases hstep with
      | switched mountFailure unmountFails closeFails listsDots => exact hswitch _ _ _ _ ih
      | @served mount request info hasked =>
          have heffects := effects_serve mount before info request
          generalize ((serve info mount request).outcome before).2 = last at heffects
          induction heffects with
          | refl => exact ih
          | tail _ hlast hkept => exact heffect hasked hlast hkept

theorem Traffic.lastId_le (htraffic : Traffic asked fs after) : fs.lastId ≤ after.lastId :=
  htraffic.keeps (motive := fun later => fs.lastId ≤ later.lastId)
    (fun _ heffect hprior => Nat.le_trans hprior heffect.lastId_le)
    (fun _ _ _ _ hprior => hprior) (Nat.le_refl _)

/-- Proper requests leave a consistent memory filesystem. -/
theorem Traffic.consistent (htraffic : Traffic asked fs after)
    (hproper : ∀ mount request, asked mount request → request.Proper mount fs.lastId)
    (hfs : fs.Consistent) : after.Consistent := by
  have hkept := htraffic.keeps (motive := fun later => fs.lastId ≤ later.lastId ∧ later.Consistent)
    (fun hasked heffect hprior => ⟨Nat.le_trans hprior.1 heffect.lastId_le,
      heffect.consistent ((hproper _ _ hasked).mono hprior.1) hprior.2⟩)
    (fun _ _ _ _ hprior => ⟨hprior.1, hprior.2.volumes, hprior.2.unused, hprior.2.streams,
      hprior.2.listings⟩) ⟨Nat.le_refl _, hfs⟩
  exact hkept.2

/-- The calls go on accounting for the numbers. -/
theorem Traffic.accounted (htraffic : Traffic asked fs after) (hfs : fs.Accounted) :
    after.Accounted := by
  induction htraffic with
  | refl => exact hfs
  | tail _ hstep ih =>
      cases hstep with
      | served info _ => exact ih.serve info _ _
      | switched mountFailure unmountFails closeFails listsDots => exact ih

end MemoryFs

/-- The backend is one over the memory filesystem in a part of the host. -/
def Backend.AnswersFrom [DiskDriver δ] (part : Part ω MemoryFs) (backend : Backend δ ω) : Prop :=
  ∃ signature, backend = MemoryFs.backend signature part

/-- The backend leaves the memory filesystem in a part of the host alone. -/
structure Backend.Spares (part : Part ω MemoryFs) (backend : Backend δ ω) : Prop where
  probe : ∀ device env, part.get (backend.probe device env).2.host = part.get env.host
  serve : ∀ mount request env,
    part.get ((backend.serve mount request).outcome env).2.host = part.get env.host

/-- The two memory filesystems differ in how the switches are set at most. -/
def MemoryFs.Switched (fs after : MemoryFs) : Prop :=
  ∃ mountFailure unmountFails closeFails listsDots,
    after = { fs with mountFailure, unmountFails, closeFails, listsDots }

namespace Operation

/-- The requests that an operation may send, each with the mount that it is sent for. -/
inductive Asks (storage : Storage δ ω) : Operation δ ω → MountPoint → Request → Prop
  | mount {path : String} {device : DeviceHandle} {fsType : FsType} {mount : MountPoint} :
      Asks storage (.mount path device fsType) mount .mount
  | mountTable {entries : List MountEntry} {mount : MountPoint} :
      Asks storage (.mountTable entries) mount .mount
  | unmount {path : String} {mount : MountPoint} (hlive : mount ∈ storage.mounts) :
      Asks storage (.unmount path) mount .unmount
  | unmountAll {mount : MountPoint} (hlive : mount ∈ storage.mounts) :
      Asks storage .unmountAll mount .unmount
  | onPath {request : PathRequest} {path : String} {mount : MountPoint}
      (hpath : storage.resolve path = .ok mount) :
      Asks storage (.onPath request path) mount (.onPath request (mount.path.relative path))
  | rename {source target : String} {mount other : MountPoint}
      (hsource : storage.resolve source = .ok mount) (htarget : storage.resolve target = .ok other)
      (hsame : other.path = mount.path) :
      Asks storage (.rename source target) mount
        (.rename (mount.path.relative source) (mount.path.relative target))
  | openFile {path : String} {options : OpenOptions} {mount : MountPoint}
      (hpath : storage.resolve path = .ok mount) :
      Asks storage (.openFile path options) mount
        (.onPath (.openFile options) (mount.path.relative path))
  | openDir {path : String} {mount : MountPoint} (hpath : storage.resolve path = .ok mount) :
      Asks storage (.openDir path) mount (.onPath .openDir (mount.path.relative path))
  | onFile {file : OpenFile} {request : FileRequest} {id : MountId} {mount : MountPoint}
      (hfile : file.mount = some id) (hlive : storage.mountOf? id = some mount) :
      Asks storage (.onFile file request) mount (.onFile request file.handle)
  | writeAll {file : OpenFile} {bytes : Bytes} {id : MountId} {mount : MountPoint}
      (hfile : file.mount = some id) (hlive : storage.mountOf? id = some mount) (piece : Bytes) :
      Asks storage (.writeAll file bytes) mount (.onFile (.write piece) file.handle)
  | closeFile {file : OpenFile} {id : MountId} {mount : MountPoint} (hfile : file.mount = some id)
      (hlive : storage.mountOf? id = some mount) :
      Asks storage (.closeFile file) mount (.onFile .close file.handle)
  | readDir {attempts : Nat} {handle : DirHandle} {id : MountId} {mount : MountPoint}
      (hlive : storage.mountOf? id = some mount) :
      Asks storage (.readDir attempts (.backend handle id)) mount (.onDir .next handle)
  | closeDir {handle : DirHandle} {id : MountId} {mount : MountPoint}
      (hlive : storage.mountOf? id = some mount) :
      Asks storage (.closeDir (.backend handle id)) mount (.onDir .close handle)

/-- The operation is an access to files and directories: nothing is registered, mounted or changed
from outside. -/
def IsAccess : Operation δ ω → Prop
  | .onPath _ _ | .rename _ _ | .openFile _ _ | .onFile _ _ | .writeAll _ _ | .closeFile _ => True
  | .openDir _ | .readDir _ _ | .closeDir _ => True
  | _ => False

/-- The operation is one that a memory filesystem in a part of the host is made for. Its backends
may be registered, and any that leave it alone. From outside only its switches are set. Files and
directories are opened by the operations that give them out. -/
def Regular [DiskDriver δ] (part : Part ω MemoryFs) : Operation δ ω → Prop
  | .register _ backend => backend.AnswersFrom part ∨ backend.Spares part
  | .outside change => ∀ env, (part.get env.host).Switched (part.get (change env).host)
  | .onPath (.openFile _) _ => False
  | .onPath .openDir _ => False
  | _ => True

end Operation

namespace Storage

/-! ## The requests of an operation -/

/-- Requests that may be asked are served, any number of them. -/
abbrev Serves (asked : MountPoint → Request → Prop) : Storage δ ω → Storage δ ω → Prop :=
  Relation.ReflTransGen fun storage after =>
    ∃ mount request, asked mount request ∧ after = ((serve mount request).outcome storage).2

section Serves

variable {asked : MountPoint → Request → Prop} (storage : Storage δ ω)

theorem serves_serve {mount : MountPoint} {request : Request} (hasked : asked mount request) :
    Serves asked storage ((serve mount request).outcome storage).2 :=
  .single ⟨mount, request, hasked, rfl⟩

theorem serves_onMount {id : MountId} {request : Request}
    (hasked : ∀ mount, storage.mountOf? id = some mount → asked mount request) :
    Serves asked storage ((onMount id request).outcome storage).2 := by
  cases hlive : storage.mountOf? id with
  | none =>
      rw [outcome_onMount_of_dead hlive]
  | some mount =>
      rw [outcome_onMount_of_mountOf? hlive]
      exact serves_serve storage (hasked mount hlive)

theorem serves_onFile {file : OpenFile} (request : FileRequest)
    (hasked : ∀ id mount, file.mount = some id → storage.mountOf? id = some mount →
      asked mount (.onFile request file.handle)) :
    Serves asked storage ((onFile file request).outcome storage).2 := by
  cases hfile : file.mount with
  | none =>
      rw [outcome_onFile_of_closed storage hfile]
  | some id =>
      rw [outcome_onFile_of_open storage hfile]
      exact serves_onMount storage fun mount => hasked id mount hfile

theorem serves_writeAll {file : OpenFile} {bytes : Bytes}
    (hasked : ∀ id mount piece, file.mount = some id → storage.mountOf? id = some mount →
      asked mount (.onFile (.write piece) file.handle)) :
    Serves asked storage ((writeAll file bytes).outcome storage).2 := by
  induction bytes using payload_induct generalizing storage with
  | nil =>
      rw [outcome_writeAll_nil]
  | drop bytes hbytes ih =>
      have hwrite := serves_onFile storage (.write bytes) fun id mount => hasked id mount bytes
      obtain ⟨env, htables⟩ := sameTables_onFile storage file (.write bytes)
      rw [outcome_writeAll storage file hbytes]
      rcases hanswer : (onFile file (.write bytes)).outcome storage with ⟨cause | count, after⟩
      all_goals rw [hanswer] at hwrite htables
      · exact hwrite
      · cases count with
        | zero => exact hwrite
        | succ count =>
            obtain rfl : after = _ := htables
            exact hwrite.trans (ih count _ hasked)

theorem serves_readEntry {id : MountId} {handle : DirHandle}
    (hasked : ∀ mount, storage.mountOf? id = some mount → asked mount (.onDir .next handle))
    (attempts : Nat) : Serves asked storage ((readEntry id handle attempts).outcome storage).2 := by
  induction attempts generalizing storage with
  | zero => exact .refl
  | succ attempts ih =>
      have hnext := serves_onMount storage hasked
      obtain ⟨env, htables⟩ := sameTables_onMount storage id (.onDir .next handle)
      rw [outcome_readEntry_succ]
      rcases hanswer : (onMount id (.onDir .next handle)).outcome storage with ⟨answer, after⟩
      rw [hanswer] at hnext htables
      obtain rfl : after = _ := htables
      dsimp only
      split
      · exact hnext.trans (ih _ hasked)
      · exact hnext

theorem serves_rename {source target : String}
    (hasked : ∀ mount other, storage.resolve source = .ok mount → storage.resolve target = .ok other →
      other.path = mount.path →
      asked mount (.rename (mount.path.relative source) (mount.path.relative target))) :
    Serves asked storage ((rename source target).outcome storage).2 := by
  unfold Action.outcome rename
  by_cases habsolute : IsAbsolute source ∧ IsAbsolute target
  · rw [if_pos habsolute]
    cases hsource : storage.resolve source with
    | error cause => exact .refl
    | ok mount =>
        cases htarget : storage.resolve target with
        | error cause => exact .refl
        | ok other =>
            dsimp only
            by_cases hsame : other.path = mount.path
            · rw [if_pos hsame]
              exact serves_serve storage (hasked mount other hsource htarget hsame)
            · rw [if_neg hsame]
  · rw [if_neg habsolute]

theorem serves_releaseEach {mounts : List MountPoint}
    (hasked : ∀ mount ∈ mounts, asked mount .unmount) :
    Serves asked storage (releaseEach mounts storage).2 := by
  induction mounts generalizing storage with
  | nil => exact .refl
  | cons mount rest ih =>
      obtain ⟨hmount, hrest⟩ := List.forall_mem_cons.mp hasked
      have hserve := serves_serve storage hmount
      unfold Action.outcome at hserve
      rw [releaseEach]
      cases hanswer : serve mount .unmount storage with
      | ok _ after =>
          rw [hanswer] at hserve
          exact hserve.trans (ih after hrest)
      | error cause after =>
          rw [hanswer] at hserve
          exact hserve.trans (ih after hrest)

/-- An access comes to requests that it may send. -/
theorem serves_state [DiskDriver δ] {operation : Operation δ ω} (haccess : operation.IsAccess) :
    Serves (operation.Asks storage) storage (operation.state storage) := by
  cases operation with
  | register | probeDisks | outside | mount | unmount | mountTable | unmountAll => exact haccess.elim
  | onPath request path =>
      dsimp only [Operation.state]
      cases hpath : storage.resolve path with
      | error cause =>
          rw [outcome_onPath_of_unresolved hpath]
      | ok mount =>
          rw [outcome_onPath_of_resolve hpath]
          exact serves_serve storage (.onPath hpath)
  | rename source target => exact serves_rename storage fun _ _ => .rename
  | openFile path options =>
      dsimp only [Operation.state]
      cases hpath : storage.resolve path with
      | error cause => rw [outcome_openFile_of_unresolved hpath]
      | ok mount =>
          rw [outcome_openFile_of_resolve hpath]
          exact serves_serve storage (.openFile hpath)
  | onFile file request => exact serves_onFile storage request fun _ _ => .onFile
  | writeAll file bytes =>
      exact serves_writeAll storage fun _ _ piece hfile hlive => .writeAll hfile hlive piece
  | closeFile file =>
      dsimp only [Operation.state]
      cases hfile : file.mount with
      | none => rw [outcome_closeFile_of_closed storage hfile]
      | some id =>
          rw [outcome_closeFile_of_open storage hfile]
          exact serves_onMount storage fun _ hlive => .closeFile hfile hlive
  | openDir path =>
      dsimp only [Operation.state]
      by_cases hroot : path = "/"
      · subst hroot
        rw [outcome_openDir_root]
      · cases hpath : storage.resolve path with
        | error cause => rw [outcome_openDir_of_unresolved hroot hpath]
        | ok mount =>
            rw [outcome_openDir_of_resolve hroot hpath]
            exact serves_serve storage (.openDir hpath)
  | readDir attempts dir =>
      dsimp only [Operation.state]
      cases dir with
      | root cursor =>
          rw [outcome_readDir_root]
          split <;> exact .refl
      | closed => exact .refl
      | backend handle id =>
          rw [outcome_readDir_backend]
          exact serves_readEntry storage (fun _ hlive => .readDir hlive) attempts
  | closeDir dir =>
      dsimp only [Operation.state]
      cases dir with
      | root cursor => exact .refl
      | closed => exact .refl
      | backend handle id =>
          rw [outcome_closeDir_backend]
          exact serves_onMount storage fun _ hlive => .closeDir hlive

end Serves

/-! ## What the memory filesystem sees of it -/

variable [DiskDriver δ] {part : Part ω MemoryFs} {storage after : Storage δ ω}

/-- The memory filesystem in a part of the host answers for the mount. -/
def Answers (part : Part ω MemoryFs) (storage : Storage δ ω) (mount : MountPoint) : Prop :=
  ∃ signature, storage.backend? mount.fsType = some (MemoryFs.backend signature part)

/-- Every backend is one over the memory filesystem or leaves it alone. -/
def Regular (part : Part ω MemoryFs) (storage : Storage δ ω) : Prop :=
  ∀ registration ∈ storage.registry,
    registration.backend.AnswersFrom part ∨ registration.backend.Spares part

omit [DiskDriver δ] in
theorem backend?_congr (hregistry : after.registry = storage.registry) :
    after.backend? = storage.backend? := by
  funext fsType
  rw [backend?, backend?, hregistry]

theorem regular_congr (hregistry : after.registry = storage.registry) :
    after.Regular part ↔ storage.Regular part := by
  rw [Regular, Regular, hregistry]

theorem answers_congr (hregistry : after.registry = storage.registry) {mount : MountPoint} :
    after.Answers part mount ↔ storage.Answers part mount := by
  rw [Answers, Answers, backend?_congr hregistry]

omit [DiskDriver δ] in
theorem SameTables.registry_eq (hsame : SameTables storage after) :
    after.registry = storage.registry := by
  obtain ⟨env, rfl⟩ := hsame
  rfl

omit [DiskDriver δ] in
theorem mem_of_backend? {fsType : FsType} {backend : Backend δ ω}
    (hbackend : storage.backend? fsType = some backend) :
    ∃ registration ∈ storage.registry, registration.backend = backend := by
  obtain ⟨registration, hfound, rfl⟩ := Option.map_eq_some_iff.mp hbackend
  exact ⟨registration, List.mem_of_find?_eq_some hfound, rfl⟩

/-- A backend over the memory filesystem reads the device to recognise it and touches nothing. -/
theorem host_probe_backend (signature : Option Bytes) (device : DeviceHandle) (env : Env δ ω) :
    (((MemoryFs.backend signature part).probe device env).2).host = env.host := by
  dsimp only [MemoryFs.backend, MemoryFs.recognises]
  split
  · split <;> rfl
  · rfl

theorem get_probe_host (hregular : storage.Regular part) {registration : Registration δ ω}
    (hregistered : registration ∈ storage.registry) (device : DeviceHandle) (env : Env δ ω) :
    part.get (registration.backend.probe device env).2.host = part.get env.host := by
  rcases hregular registration hregistered with ⟨signature, hbackend⟩ | hspares
  · rw [hbackend, host_probe_backend]
  · exact hspares.probe device env

theorem Answers.outcome_serve {mount : MountPoint} (hanswers : storage.Answers part mount)
    (request : Request) :
    (serve mount request).outcome storage =
      let answer := storage.memoryOutcome mount part request
      (answer.1, storage.mapHost (part.set answer.2)) := by
  obtain ⟨signature, hbackend⟩ := hanswers
  rw [outcome_serve_of_backend hbackend, ask_memory]

/-- A request about a mount that the memory filesystem does not answer for passes it by. -/
theorem memory_serve_of_unanswered (hregular : storage.Regular part) {mount : MountPoint}
    (hunanswered : ¬storage.Answers part mount) (request : Request) :
    ((serve mount request).outcome storage).2.memory part = storage.memory part := by
  cases hbackend : storage.backend? mount.fsType with
  | none => rw [outcome_serve_of_unregistered hbackend]
  | some backend =>
      obtain ⟨registration, hregistered, rfl⟩ := mem_of_backend? hbackend
      rw [outcome_serve_of_backend hbackend]
      rcases hregular registration hregistered with ⟨signature, hmemory⟩ | hspares
      · exact absurd ⟨signature, hmemory ▸ hbackend⟩ hunanswered
      · exact hspares.serve mount request storage.env

/-- One request is a step of the memory filesystem, if that answers, or passes it by. -/
theorem traffic_serve (hregular : storage.Regular part) {asked : MountPoint → Request → Prop}
    {mount : MountPoint} {request : Request} (hasked : asked mount request) :
    MemoryFs.Traffic (fun mount request => storage.Answers part mount ∧ asked mount request)
      (storage.memory part) (((serve mount request).outcome storage).2.memory part) := by
  by_cases hanswers : storage.Answers part mount
  · rw [hanswers.outcome_serve]
    dsimp only
    rw [memory_mapHost]
    exact .single (.served _ ⟨hanswers, hasked⟩)
  · rw [memory_serve_of_unanswered hregular hanswers]

omit [DiskDriver δ] in
theorem Serves.sameTables {asked : MountPoint → Request → Prop} (hserves : Serves asked storage after) :
    SameTables storage after := by
  induction hserves with
  | refl => exact .refl storage
  | tail _ hserve ih =>
      obtain ⟨mount, request, -, rfl⟩ := hserve
      exact ih.trans (sameTables_serve _ mount request)

theorem Serves.traffic {asked : MountPoint → Request → Prop} (hserves : Serves asked storage after)
    (hregular : storage.Regular part) :
    MemoryFs.Traffic (fun mount request => storage.Answers part mount ∧ asked mount request)
      (storage.memory part) (after.memory part) := by
  induction hserves with
  | refl => exact .refl
  | @tail middle _ hprior hserve ih =>
      obtain ⟨mount, request, hasked, rfl⟩ := hserve
      have hregistry := (Serves.sameTables hprior).registry_eq
      have hmiddle := (regular_congr hregistry).mpr hregular
      refine ih.trans ((traffic_serve hmiddle hasked).mono fun mount request hrequest => ?_)
      exact ⟨(answers_congr hregistry).mp hrequest.1, hrequest.2⟩

/-! ## Mounting -/

theorem get_detect_host (hregular : storage.Regular part) {device : DeviceHandle}
    {candidates : List (Registration δ ω)} (hcandidates : candidates ⊆ storage.registry)
    (env : Env δ ω) : part.get (detect device candidates env).2.host = part.get env.host := by
  induction candidates generalizing env with
  | nil => rfl
  | cons candidate rest ih =>
      obtain ⟨hcandidate, hrest⟩ := List.cons_subset.mp hcandidates
      have hprobe := get_probe_host hregular hcandidate device env
      rw [detect]
      rcases hanswer : candidate.backend.probe device env with ⟨_ | _, probed⟩
      · rw [hanswer] at hprobe
        exact (ih hrest probed).trans hprobe
      · rw [hanswer] at hprobe
        exact hprobe

/-- Choosing a backend asks none for anything but whether it recognises the device. -/
theorem get_chooseBackend_host (hregular : storage.Regular part) (device : DeviceHandle)
    (fsType : FsType) :
    part.get (chooseBackend device fsType storage).2.host = storage.memory part := by
  unfold chooseBackend
  by_cases hauto : fsType = .auto
  · rw [if_pos hauto]
    refine get_detect_host hregular (fun candidate hcandidate => ?_) storage.env
    simp only [probeOrder, List.mem_append, List.mem_filter] at hcandidate
    exact hcandidate.elim And.left And.left
  · rw [if_neg hauto]
    rfl

omit [DiskDriver δ] in
/-- A registration of a sound registry is the one that its type leads to. -/
theorem Sound.backend?_of_mem (hsound : storage.Sound) {registration : Registration δ ω}
    (hregistered : registration ∈ storage.registry) :
    storage.backend? registration.fsType = some registration.backend := by
  have hfound : (storage.registry.find? fun known => known.fsType = registration.fsType) =
      some registration := by
    cases hfind : storage.registry.find? fun known => known.fsType = registration.fsType with
    | none => simpa using List.find?_eq_none.mp hfind registration hregistered
    | some known =>
        have htype : known.fsType = registration.fsType := by simpa using List.find?_some hfind
        exact congrArg some (List.inj_on_of_nodup_map hsound.nodup_types
          (List.mem_of_find?_eq_some hfind) hregistered htype)
  rw [backend?, hfound, Option.map_some]

/-- How a mount that a backend has been chosen for is seen by the memory filesystem. -/
theorem traffic_chosen (hsound : storage.Sound) (hregular : storage.Regular part)
    {registration : Registration δ ω} (hregistered : registration ∈ storage.registry)
    {point : MountPoint} (htype : point.fsType = registration.fsType) {probed env : Env δ ω}
    (hprobed : part.get probed.host = storage.memory part) {answer : Except StorageError MountData}
    (hserve : (registration.backend.serve point .mount).outcome probed = (answer, env)) :
    (storage.Answers part point ∧ ∃ info,
      (MemoryFs.serve info point .mount).outcome (storage.memory part) =
        (answer, part.get env.host)) ∨
    (¬storage.Answers part point ∧ part.get env.host = storage.memory part) := by
  have hbackend := hsound.backend?_of_mem hregistered
  by_cases hmemory : registration.backend.AnswersFrom part
  · obtain ⟨signature, hsignature⟩ := hmemory
    have hasked := Action.outcome_within (fun env : Env δ ω => part.get env.host)
      (fun fs env => { env with host := part.set fs env.host })
      (MemoryFs.serve (probed.blocks.info point.device) point .mount) probed
    rw [hsignature] at hserve hbackend
    obtain ⟨hanswer, henv⟩ := Prod.mk.inj (hserve.symm.trans hasked)
    refine Or.inl ⟨⟨signature, htype ▸ hbackend⟩, probed.blocks.info point.device, ?_⟩
    rw [← hprobed, hanswer, henv, part.get_set]
  · have hspares := (hregular registration hregistered).resolve_left hmemory
    refine Or.inr ⟨fun hanswers => ?_, ?_⟩
    · obtain ⟨signature, hsignature⟩ := hanswers
      rw [htype, hbackend] at hsignature
      exact hmemory ⟨signature, Option.some.inj hsignature⟩
    · have hspared := hspares.serve point .mount probed
      rw [hserve] at hspared
      exact hspared.trans hprobed

/-- A mount fails, or enters its record. The memory filesystem takes part in it only if it is to
answer for the mount, and then the record carries what it gave out. -/
theorem mount_seen (hsound : storage.Sound) (hregular : storage.Regular part) (path : String)
    (device : DeviceHandle) (fsType : FsType) :
    (∃ cause env, (mount path device fsType).outcome storage = (.error cause, { storage with env }) ∧
      MemoryFs.Traffic (fun mount request => storage.Answers part mount ∧ request = .mount)
        (storage.memory part) (part.get env.host)) ∨
    ∃ point env, (mount path device fsType).outcome storage = (.ok (), storage.entered point env) ∧
      ((storage.Answers part point ∧ ∃ info,
        (MemoryFs.serve info { point with data := {} } .mount).outcome (storage.memory part) =
          (.ok point.data, part.get env.host)) ∨
      (¬storage.Answers part point ∧ part.get env.host = storage.memory part)) := by
  cases hcheck : storage.checkMount path device fsType with
  | error cause =>
      exact Or.inl ⟨cause, storage.env, outcome_mount_of_refused hcheck, .refl⟩
  | ok mountPath =>
      have hprobed := get_chooseBackend_host hregular device fsType
      rcases hchoose : chooseBackend device fsType storage with ⟨_ | registration, probed⟩
      all_goals rw [hchoose] at hprobed
      · refine Or.inl ⟨.notFound, probed, outcome_mount_of_unclaimed hcheck hchoose, ?_⟩
        rw [show part.get probed.host = _ from hprobed]
      · have hregistered := mem_of_chooseBackend (congrArg Prod.fst hchoose)
        rcases hserve : (registration.backend.serve
            { id := storage.nextId, path := mountPath, device, fsType := registration.fsType }
            .mount).outcome probed with ⟨answer, env⟩
        have houtcome := outcome_mount_of_chosen hcheck hchoose hserve
        have hseen := traffic_chosen hsound hregular hregistered rfl hprobed hserve
        cases answer with
        | error cause =>
            refine Or.inl ⟨cause, env, houtcome, ?_⟩
            rcases hseen with ⟨hanswers, info, hasked⟩ | ⟨-, hspared⟩
            · exact MemoryFs.traffic_of_outcome hasked ⟨hanswers, rfl⟩
            · rw [hspared]
        | ok data => exact Or.inr ⟨_, env, houtcome, hseen⟩

/-! ## Operations -/

theorem traffic_mount (hsound : storage.Sound) (hregular : storage.Regular part) (path : String)
    (device : DeviceHandle) (fsType : FsType) :
    MemoryFs.Traffic (fun mount request => storage.Answers part mount ∧ request = .mount)
      (storage.memory part) (((mount path device fsType).outcome storage).2.memory part) := by
  rcases mount_seen hsound hregular path device fsType with
    ⟨cause, env, houtcome, htraffic⟩ | ⟨point, env, houtcome, ⟨hanswers, info, hasked⟩ | ⟨-, hspared⟩⟩
  all_goals rw [houtcome]
  · exact htraffic
  · exact MemoryFs.traffic_of_outcome hasked ⟨hanswers, rfl⟩
  · rw [show (storage.entered point env).memory part = _ from hspared]

omit [DiskDriver δ] in
theorem registry_mount (storage : Storage δ ω) (path : String) (device : DeviceHandle) (fsType : FsType) :
    ((mount path device fsType).outcome storage).2.registry = storage.registry := by
  unfold Action.outcome
  cases hmount : mount path device fsType storage with
  | error cause after => exact (sameTables_of_mount_error hmount).registry_eq
  | ok _ after =>
      obtain ⟨point, -, hchange⟩ := change_of_mount_ok hmount
      cases hchange
      rfl

omit [DiskDriver δ] in
theorem sound_mount (hsound : storage.Sound) (path : String) (device : DeviceHandle)
    (fsType : FsType) : ((mount path device fsType).outcome storage).2.Sound := by
  unfold Action.outcome
  cases hmount : mount path device fsType storage with
  | error cause after => exact (sameTables_of_mount_error hmount).change.sound hsound
  | ok _ after =>
      obtain ⟨point, -, hchange⟩ := change_of_mount_ok hmount
      exact hchange.sound hsound

theorem traffic_mountAll (hsound : storage.Sound) (hregular : storage.Regular part)
    (entries : List MountEntry) (summary : MountSummary) :
    MemoryFs.Traffic (fun mount request => storage.Answers part mount ∧ request = .mount)
      (storage.memory part) ((mountAll entries summary storage).2.memory part) := by
  induction entries generalizing summary storage with
  | nil => exact .refl
  | cons entry rest ih =>
      have hfirst := traffic_mount hsound hregular entry.path entry.device entry.fsType
      have hregistry := registry_mount storage entry.path entry.device entry.fsType
      have hlater := sound_mount hsound entry.path entry.device entry.fsType
      rcases hmount : (mount entry.path entry.device entry.fsType).outcome storage with ⟨answer, after⟩
      rw [hmount] at hfirst hregistry hlater
      rw [mountAll_cons hmount]
      have hafter := (regular_congr hregistry).mpr hregular
      refine hfirst.trans ((ih hlater hafter _).mono fun mount request hrequest => ?_)
      exact ⟨(answers_congr hregistry).mp hrequest.1, hrequest.2⟩

/-- Whatever a regular operation does, the memory filesystem sees no more of it than requests that
the operation may send, about mounts that it answers for. -/
theorem traffic_state (hsound : storage.Sound) (hregular : storage.Regular part)
    {operation : Operation δ ω} (hoperation : operation.Regular part) :
    MemoryFs.Traffic
      (fun mount request => storage.Answers part mount ∧ operation.Asks storage mount request)
      (storage.memory part) ((operation.state storage).memory part) := by
  cases operation with
  | register fsType backend =>
      have hsame : ((register fsType backend).outcome storage).2.env = storage.env := by
        unfold Action.outcome register
        split_ifs <;> rfl
      rw [Operation.state, memory, memory, hsame]
  | probeDisks =>
      rw [Operation.state, onBlocks, Action.outcome_within]
      exact .refl
  | outside change =>
      obtain ⟨mountFailure, unmountFails, closeFails, listsDots, hchange⟩ := hoperation storage.env
      change MemoryFs.Traffic _ _ (part.get (change storage.env).host)
      rw [hchange]
      exact .single (.switched _ _ _ _)
  | mount path device fsType =>
      refine (traffic_mount hsound hregular path device fsType).mono fun mount request hrequest => ?_
      exact ⟨hrequest.1, hrequest.2 ▸ .mount⟩
  | mountTable entries =>
      refine (traffic_mountAll hsound hregular entries {}).mono fun mount request hrequest => ?_
      exact ⟨hrequest.1, hrequest.2 ▸ .mountTable⟩
  | unmount path =>
      rw [Operation.state]
      cases hfound : storage.mounts.find? fun mount => mount.path.text = path with
      | none => rw [outcome_unmount_of_none hfound]
      | some mount =>
          have hlive := List.mem_of_find?_eq_some hfound
          have hasked : (Operation.unmount path : Operation δ ω).Asks storage mount .unmount :=
            .unmount hlive
          have hserved := traffic_serve hregular hasked
          rw [outcome_unmount_of_found hfound]
          rcases hanswer : (serve mount .unmount).outcome storage with ⟨_ | _, after⟩
          all_goals
            rw [hanswer] at hserved
            exact hserved
  | unmountAll =>
      have hserves : Serves (Operation.unmountAll.Asks storage) storage
          (releaseEach storage.mounts.reverse storage).2 :=
        serves_releaseEach storage fun mount hmount => .unmountAll (List.mem_reverse.mp hmount)
      have htraffic := hserves.traffic hregular
      dsimp only [Operation.state]
      unfold Action.outcome unmountAll
      rcases hrelease : releaseEach storage.mounts.reverse storage with ⟨_ | cause, after⟩
      all_goals
        rw [hrelease] at htraffic
        exact htraffic
  | onPath | rename | openFile | onFile | writeAll | closeFile | openDir | readDir | closeDir =>
      refine (serves_state storage ?_).traffic hregular
      trivial

end Storage

end StorageStack

import StorageStack.Storage.Directories
import StorageStack.Storage.Files
import StorageStack.Storage.Mounting

/-! # Runs of the storage layer

An operation is data, and a run is a list of operations. What an operation answers is given
by the request that it sends, and all but the mounting operations and a registration leave
the registry and the mount table as they are.
-/

namespace StorageStack

/-- An operation on the storage layer. Files and directories are passed by value. -/
inductive Operation (δ ω : Type) where
  | register (fsType : FsType) (backend : Backend δ ω)
  | probeDisks
  /-- A change of the block devices, or of the state behind the backends, from outside. -/
  | outside (change : Env δ ω → Env δ ω)
  | mount (path : String) (device : DeviceHandle) (fsType : FsType)
  | unmount (path : String)
  | mountTable (entries : List MountEntry)
  | unmountAll
  | onPath (request : PathRequest) (path : String)
  | rename (source target : String)
  | openFile (path : String) (options : OpenOptions)
  | onFile (file : OpenFile) (request : FileRequest)
  | writeAll (file : OpenFile) (bytes : Bytes)
  | closeFile (file : OpenFile)
  | openDir (path : String)
  | readDir (attempts : Nat) (dir : OpenDir)
  | closeDir (dir : OpenDir)

variable {δ ω : Type}

/-- The cause of a failure. -/
def causeOf? : Except StorageError Unit → Option StorageError
  | .ok _ => none
  | .error cause => some cause

theorem causeOf?_eq_none_iff {answer : Except StorageError Unit} :
    causeOf? answer = none ↔ answer = .ok () := by
  cases answer <;> simp [causeOf?]

theorem causeOf?_eq_some_iff {answer : Except StorageError Unit} {cause : StorageError} :
    causeOf? answer = some cause ↔ answer = .error cause := by
  cases answer <;> simp [causeOf?]

namespace Operation

variable [DiskDriver δ]

/-- The storage layer after an operation, whether it succeeded or not. -/
def state : Operation δ ω → Storage δ ω → Storage δ ω
  | register fsType backend, storage => ((Storage.register fsType backend).outcome storage).2
  | probeDisks, storage => ((Storage.onBlocks BlockDevices.probeAll).outcome storage).2
  | outside change, storage => { storage with env := change storage.env }
  | mount path device fsType, storage => ((Storage.mount path device fsType).outcome storage).2
  | unmount path, storage => ((Storage.unmount path).outcome storage).2
  | mountTable entries, storage => ((Storage.mountTable entries).run storage).2
  | unmountAll, storage => (Storage.unmountAll.outcome storage).2
  | onPath request path, storage => ((Storage.onPath request path).outcome storage).2
  | rename source target, storage => ((Storage.rename source target).outcome storage).2
  | openFile path options, storage => ((Storage.openFile path options).outcome storage).2
  | onFile file request, storage => ((Storage.onFile file request).outcome storage).2
  | writeAll file bytes, storage => ((Storage.writeAll file bytes).outcome storage).2
  | closeFile file, storage => (Storage.closeFile.outcome (file, storage)).2.2
  | openDir path, storage => ((Storage.openDir path).outcome storage).2
  | readDir attempts dir, storage => ((Storage.readDir attempts).outcome (dir, storage)).2.2
  | closeDir dir, storage => (Storage.closeDir.outcome (dir, storage)).2.2

/-- The mounts that succeed in an operation. -/
def mountCount : Operation δ ω → Storage δ ω → Nat
  | mount path device fsType, storage =>
      match Storage.mount path device fsType storage with
      | .ok _ _ => 1
      | .error _ _ => 0
  | mountTable entries, storage => ((Storage.mountTable entries).run storage).1.mounted
  | _, _ => 0

/-- The records that an operation puts behind those in the mount table. -/
def newMounts (operation : Operation δ ω) (storage : Storage δ ω) : List MountPoint :=
  (operation.state storage).mounts.drop storage.mounts.length

end Operation

namespace Storage

section Run

variable [DiskDriver δ]

/-- The storage layer after a run. -/
def after (storage : Storage δ ω) (run : List (Operation δ ω)) : Storage δ ω :=
  run.foldl (fun storage operation => operation.state storage) storage

/-- A directory that is read once behind each of the runs: what it answers, and what is left. -/
def readings (attempts : Nat) : List (List (Operation δ ω)) → OpenDir × Storage δ ω →
    List (Except StorageError DirReading) × OpenDir × Storage δ ω
  | [], state => ([], state)
  | run :: rest, (dir, storage) =>
      let (answer, state) := (readDir attempts).outcome (dir, storage.after run)
      let (answers, last) := readings attempts rest state
      (answer :: answers, last)

/-- The mounts that succeed in a run. -/
def mountCount (storage : Storage δ ω) : List (Operation δ ω) → Nat
  | [] => 0
  | operation :: rest => operation.mountCount storage + mountCount (operation.state storage) rest

/-- The records that go into the mount table in a run, in the order of mounting. -/
def mountLog (storage : Storage δ ω) : List (Operation δ ω) → List MountPoint
  | [] => []
  | operation :: rest => operation.newMounts storage ++ mountLog (operation.state storage) rest

@[simp] theorem after_nil (storage : Storage δ ω) : storage.after [] = storage := rfl

@[simp] theorem after_cons (storage : Storage δ ω) (operation : Operation δ ω)
    (rest : List (Operation δ ω)) :
    storage.after (operation :: rest) = (operation.state storage).after rest := rfl

theorem after_append (storage : Storage δ ω) (first second : List (Operation δ ω)) :
    storage.after (first ++ second) = (storage.after first).after second :=
  List.foldl_append

theorem mountCount_append (storage : Storage δ ω) (first second : List (Operation δ ω)) :
    storage.mountCount (first ++ second) =
      storage.mountCount first + (storage.after first).mountCount second := by
  induction first generalizing storage with
  | nil => simp [mountCount]
  | cons operation rest ih => simp [mountCount, ih, Nat.add_assoc]

end Run

/-! ## Outcomes

What an operation answers, with the state it leaves, in terms of the request that it sends. -/

/-- What asking a backend comes to: its answer, and the storage layer in the environment that
it leaves. -/
def ask (backend : Backend δ ω) (mount : MountPoint) (request : Request) (storage : Storage δ ω) :
    Except StorageError request.Reply × Storage δ ω :=
  let (answer, env) := (backend.serve mount request).outcome storage.env
  (answer, { storage with env })

theorem outcome_serve_of_backend {storage : Storage δ ω} {mount : MountPoint}
    {backend : Backend δ ω} (hbackend : storage.backend? mount.fsType = some backend)
    (request : Request) :
    (serve mount request).outcome storage = ask backend mount request storage := by
  unfold ask Action.outcome serve Action.within
  rw [hbackend]
  dsimp only
  cases backend.serve mount request storage.env <;> rfl

theorem outcome_onPath_of_resolve {storage : Storage δ ω} {path : String} {mount : MountPoint}
    (hmount : storage.resolve path = .ok mount) (request : PathRequest) :
    (onPath request path).outcome storage =
      (serve mount (.onPath request (mount.path.relative path))).outcome storage := by
  unfold Action.outcome onPath
  rw [hmount]

theorem outcome_onMount_of_mountOf? {storage : Storage δ ω} {id : MountId} {mount : MountPoint}
    (hmount : storage.mountOf? id = some mount) (request : Request) :
    (onMount id request).outcome storage = (serve mount request).outcome storage := by
  unfold Action.outcome onMount
  rw [hmount]

theorem outcome_onMount_of_dead {storage : Storage δ ω} {id : MountId}
    (hmount : storage.mountOf? id = none) (request : Request) :
    (onMount id request).outcome storage = (.error .badFileDescriptor, storage) := by
  unfold Action.outcome onMount
  rw [hmount]

section Opening

variable {storage : Storage δ ω} {path : String}

theorem outcome_openFile_of_resolve {mount : MountPoint} (hmount : storage.resolve path = .ok mount)
    (options : OpenOptions) :
    (openFile path options).outcome storage =
      let answer :=
        (serve mount (.onPath (.openFile options) (mount.path.relative path))).outcome storage
      (answer.1.map fun handle => ⟨handle, some mount.id⟩, answer.2) := by
  unfold Action.outcome openFile
  rw [hmount]
  dsimp only
  cases serve mount (.onPath (.openFile options) (mount.path.relative path)) storage <;> rfl

theorem outcome_openFile_of_unresolved {cause : StorageError}
    (hmount : storage.resolve path = .error cause) (options : OpenOptions) :
    (openFile path options).outcome storage = (.error cause, storage) := by
  unfold Action.outcome openFile
  rw [hmount]

theorem outcome_openDir_root : (openDir "/").outcome storage = (.ok (.root 0), storage) := by
  unfold Action.outcome openDir
  rw [if_pos rfl]

theorem outcome_openDir_of_resolve (hroot : path ≠ "/") {mount : MountPoint}
    (hmount : storage.resolve path = .ok mount) :
    (openDir path).outcome storage =
      let answer := (serve mount (.onPath .openDir (mount.path.relative path))).outcome storage
      (answer.1.map fun handle => .backend handle mount.id, answer.2) := by
  unfold Action.outcome openDir
  rw [if_neg hroot, hmount]
  dsimp only
  cases serve mount (.onPath .openDir (mount.path.relative path)) storage <;> rfl

theorem outcome_openDir_of_unresolved (hroot : path ≠ "/") {cause : StorageError}
    (hmount : storage.resolve path = .error cause) :
    (openDir path).outcome storage = (.error cause, storage) := by
  unfold Action.outcome openDir
  rw [if_neg hroot, hmount]

end Opening

/-- Every write of a payload that accepts anything leaves fewer bytes for the next one. -/
theorem payload_induct {motive : Bytes → Prop} (nil : motive [])
    (drop : ∀ bytes, bytes ≠ [] → (∀ count, motive (bytes.drop (count + 1))) → motive bytes)
    (bytes : Bytes) : motive bytes := by
  induction hlength : bytes.length using Nat.strongRecOn generalizing bytes with
  | ind length ih =>
      by_cases hbytes : bytes = []
      · exact hbytes ▸ nil
      · refine drop bytes hbytes fun count => ih _ ?_ _ rfl
        have hpositive := List.length_pos_iff.mpr hbytes
        rw [List.length_drop]
        omega

section Handles

variable (storage : Storage δ ω)

theorem outcome_onFile_of_open {file : OpenFile} {id : MountId} (hfile : file.mount = some id)
    (request : FileRequest) :
    (onFile file request).outcome storage =
      (onMount id (.onFile request file.handle)).outcome storage := by
  unfold Action.outcome onFile
  rw [hfile]

theorem outcome_onFile_of_closed {file : OpenFile} (hfile : file.mount = none)
    (request : FileRequest) :
    (onFile file request).outcome storage = (.error .badFileDescriptor, storage) := by
  unfold Action.outcome onFile
  rw [hfile]

theorem outcome_writeAll_nil (file : OpenFile) :
    (writeAll file []).outcome storage = (.ok (), storage) := by
  unfold Action.outcome
  rw [writeAll, dif_pos rfl]

theorem outcome_writeAll (file : OpenFile) {bytes : Bytes} (hbytes : bytes ≠ []) :
    (writeAll file bytes).outcome storage =
      match (onFile file (.write bytes)).outcome storage with
      | (.error cause, after) => (.error cause, after)
      | (.ok 0, after) => (.error .ioError, after)
      | (.ok (count + 1), after) => (writeAll file (bytes.drop (count + 1))).outcome after := by
  unfold Action.outcome
  rw [writeAll, dif_neg hbytes]
  cases onFile file (.write bytes) storage with
  | error cause after => rfl
  | ok count after => cases count <;> rfl

theorem outcome_closeFile_of_open {file : OpenFile} {id : MountId} (hfile : file.mount = some id) :
    closeFile.outcome (file, storage) =
      let answer := (onMount id (.onFile .close file.handle)).outcome storage
      (answer.1, file.closed, answer.2) := by
  unfold Action.outcome closeFile
  dsimp only
  rw [hfile]
  dsimp only
  cases onMount id (.onFile .close file.handle) storage <;> rfl

theorem outcome_closeFile_of_closed {file : OpenFile} (hfile : file.mount = none) :
    closeFile.outcome (file, storage) = (.ok (), file, storage) := by
  unfold Action.outcome closeFile
  dsimp only
  rw [hfile]

theorem outcome_readDir_backend (attempts : Nat) (handle : DirHandle) (id : MountId) :
    (readDir attempts).outcome (.backend handle id, storage) =
      let answer := (readEntry id handle attempts).outcome storage
      (answer.1, .backend handle id, answer.2) := by
  unfold Action.outcome readDir Action.within
  dsimp only
  cases readEntry id handle attempts storage <;> rfl

theorem outcome_closeDir_backend (handle : DirHandle) (id : MountId) :
    closeDir.outcome (.backend handle id, storage) =
      let answer := (onMount id (.onDir .close handle)).outcome storage
      (answer.1, .closed, answer.2) := by
  unfold Action.outcome closeDir
  dsimp only
  cases onMount id (.onDir .close handle) storage <;> rfl

end Handles

/-! ## Operations that leave the tables alone -/

/-- The two states differ in the environment at most. -/
def SameTables (storage after : Storage δ ω) : Prop := ∃ env, after = { storage with env }

namespace SameTables

theorem refl (storage : Storage δ ω) : SameTables storage storage := ⟨storage.env, rfl⟩

theorem symm {storage after : Storage δ ω} (hsame : SameTables storage after) :
    SameTables after storage := by
  obtain ⟨_, rfl⟩ := hsame
  exact ⟨storage.env, rfl⟩

theorem trans {first second third : Storage δ ω} (hfirst : SameTables first second)
    (hsecond : SameTables second third) : SameTables first third := by
  obtain ⟨_, rfl⟩ := hfirst
  obtain ⟨env, rfl⟩ := hsecond
  exact ⟨env, rfl⟩

end SameTables

section SameTables

variable (storage : Storage δ ω)

theorem sameTables_serve (mount : MountPoint) (request : Request) :
    SameTables storage ((serve mount request).outcome storage).2 :=
  outcome_serve mount request storage

theorem sameTables_onMount (id : MountId) (request : Request) :
    SameTables storage ((onMount id request).outcome storage).2 :=
  outcome_onMount id request storage

theorem sameTables_onFile (file : OpenFile) (request : FileRequest) :
    SameTables storage ((onFile file request).outcome storage).2 := by
  cases hfile : file.mount with
  | none =>
      rw [outcome_onFile_of_closed storage hfile]
      exact .refl storage
  | some id =>
      rw [outcome_onFile_of_open storage hfile]
      exact sameTables_onMount storage id _

theorem sameTables_writeAll (file : OpenFile) (bytes : Bytes) :
    SameTables storage ((writeAll file bytes).outcome storage).2 := by
  induction bytes using payload_induct generalizing storage with
  | nil =>
      rw [outcome_writeAll_nil]
      exact .refl storage
  | drop bytes hbytes ih =>
      have hwrite := sameTables_onFile storage file (.write bytes)
      rw [outcome_writeAll storage file hbytes]
      rcases hanswer : (onFile file (.write bytes)).outcome storage with ⟨cause | count, after⟩
      all_goals rw [hanswer] at hwrite
      · exact hwrite
      · cases count with
        | zero => exact hwrite
        | succ count => exact hwrite.trans (ih count after)

theorem sameTables_rename (source target : String) :
    SameTables storage ((rename source target).outcome storage).2 := by
  unfold Action.outcome rename
  by_cases habsolute : IsAbsolute source ∧ IsAbsolute target
  · rw [if_pos habsolute]
    cases storage.resolve source with
    | error cause => exact .refl storage
    | ok mount =>
        cases storage.resolve target with
        | error cause => exact .refl storage
        | ok other =>
            dsimp only
            by_cases hsame : other.path = mount.path
            · rw [if_pos hsame]
              exact sameTables_serve storage mount
                (.rename (mount.path.relative source) (mount.path.relative target))
            · rw [if_neg hsame]
              exact .refl storage
  · rw [if_neg habsolute]
    exact .refl storage

theorem sameTables_openFile (path : String) (options : OpenOptions) :
    SameTables storage ((openFile path options).outcome storage).2 := by
  cases hmount : storage.resolve path with
  | error cause =>
      rw [outcome_openFile_of_unresolved hmount]
      exact .refl storage
  | ok mount =>
      rw [outcome_openFile_of_resolve hmount]
      exact sameTables_serve storage mount _

theorem sameTables_closeFile (file : OpenFile) :
    SameTables storage (closeFile.outcome (file, storage)).2.2 := by
  cases hfile : file.mount with
  | none =>
      rw [outcome_closeFile_of_closed storage hfile]
      exact .refl storage
  | some id =>
      rw [outcome_closeFile_of_open storage hfile]
      exact sameTables_onMount storage id _

theorem sameTables_openDir (path : String) :
    SameTables storage ((openDir path).outcome storage).2 := by
  by_cases hroot : path = "/"
  · subst hroot
    rw [outcome_openDir_root]
    exact .refl storage
  · cases hmount : storage.resolve path with
    | error cause =>
        rw [outcome_openDir_of_unresolved hroot hmount]
        exact .refl storage
    | ok mount =>
        rw [outcome_openDir_of_resolve hroot hmount]
        exact sameTables_serve storage mount _

theorem sameTables_readEntry (id : MountId) (handle : DirHandle) (attempts : Nat) :
    SameTables storage ((readEntry id handle attempts).outcome storage).2 := by
  induction attempts generalizing storage with
  | zero => exact .refl storage
  | succ attempts ih =>
      have hnext := sameTables_onMount storage id (.onDir .next handle)
      unfold Action.outcome at hnext ih ⊢
      unfold readEntry
      cases hanswer : onMount id (.onDir .next handle) storage with
      | error cause after => simpa [hanswer] using hnext
      | ok entry after =>
          rw [hanswer] at hnext
          cases entry with
          | none => exact hnext
          | some entry =>
              dsimp only
              by_cases hdot : entry.isDot = true
              · rw [if_pos hdot]
                exact hnext.trans (ih after)
              · rw [if_neg hdot]
                exact hnext

theorem sameTables_readDir (attempts : Nat) (dir : OpenDir) :
    SameTables storage ((readDir attempts).outcome (dir, storage)).2.2 := by
  cases dir with
  | root cursor =>
      unfold Action.outcome readDir
      dsimp only
      cases storage.mounts[cursor]? <;> exact .refl storage
  | backend handle id =>
      rw [outcome_readDir_backend]
      exact sameTables_readEntry storage id handle attempts
  | closed => exact .refl storage

theorem sameTables_closeDir (dir : OpenDir) :
    SameTables storage (closeDir.outcome (dir, storage)).2.2 := by
  cases dir with
  | root cursor => exact .refl storage
  | backend handle id =>
      rw [outcome_closeDir_backend]
      exact sameTables_onMount storage id _
  | closed => exact .refl storage

end SameTables

end Storage

end StorageStack

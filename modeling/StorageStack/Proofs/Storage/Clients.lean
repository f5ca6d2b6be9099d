import StorageStack.Proofs.Memory.Isolation
import StorageStack.Proofs.Storage.MemoryHosts

/-! # Clients of a mount

A client calls the storage layer about the paths of one mount and about the files and directories
that it has opened there. It knows these by the order of opening alone, so what it is answered does
not show the numbers behind them. On a mount of a memory filesystem, its calls leave everything as
it is that belongs to other mounts.
-/

namespace StorageStack

/-- What a client has opened, in the order of opening. What it closes stays in its place. -/
structure Client where
  files : List OpenFile := []
  dirs : List OpenDir := []

namespace Client

/-- The file in a slot. A slot that no file was opened in counts as closed. -/
def file (client : Client) (slot : Nat) : OpenFile := client.files.getD slot ⟨⟨0⟩, none⟩

/-- The directory in a slot. A slot that no directory was opened in counts as closed. -/
def dir (client : Client) (slot : Nat) : OpenDir := client.dirs.getD slot .closed

/-- Keep what an opening gave out. -/
def addFile (client : Client) : Except StorageError OpenFile → Client
  | .ok file => { client with files := client.files ++ [file] }
  | .error _ => client

def addDir (client : Client) : Except StorageError OpenDir → Client
  | .ok dir => { client with dirs := client.dirs ++ [dir] }
  | .error _ => client

def setFile (client : Client) (slot : Nat) (file : OpenFile) : Client :=
  { client with files := client.files.set slot file }

def setDir (client : Client) (slot : Nat) (dir : OpenDir) : Client :=
  { client with dirs := client.dirs.set slot dir }

end Client

/-- A call of a client. Files and directories are named by their slots. -/
inductive ClientCall where
  | onPath (request : PathRequest) (path : String)
  | rename (source target : String)
  | openFile (path : String) (options : OpenOptions)
  | onFile (slot : Nat) (request : FileRequest)
  | writeAll (slot : Nat) (bytes : Bytes)
  | closeFile (slot : Nat)
  | openDir (path : String)
  | readDir (attempts slot : Nat)
  | closeDir (slot : Nat)

namespace ClientCall

/-- What a call is answered with. What it opens stays with the client. -/
@[reducible] def Reply : ClientCall → Type
  | onPath request _ => request.Reply
  | onFile _ request => request.Reply
  | readDir _ _ => DirReading
  | _ => Unit

variable {δ ω : Type}

/-- The answer to a call, the client and the storage layer after it. -/
def perform : (call : ClientCall) → Client × Storage δ ω →
    Except StorageError call.Reply × Client × Storage δ ω
  | onPath request path, (client, storage) =>
      let (answer, after) := (Storage.onPath request path).outcome storage
      (answer, client, after)
  | rename source target, (client, storage) =>
      let (answer, after) := (Storage.rename source target).outcome storage
      (answer, client, after)
  | openFile path options, (client, storage) =>
      let (answer, after) := (Storage.openFile path options).outcome storage
      (answer.map fun _ => (), client.addFile answer, after)
  | onFile slot request, (client, storage) =>
      let (answer, after) := (Storage.onFile (client.file slot) request).outcome storage
      (answer, client, after)
  | writeAll slot bytes, (client, storage) =>
      let (answer, after) := (Storage.writeAll (client.file slot) bytes).outcome storage
      (answer, client, after)
  | closeFile slot, (client, storage) =>
      let (answer, file, after) := Storage.closeFile.outcome (client.file slot, storage)
      (answer, client.setFile slot file, after)
  | openDir path, (client, storage) =>
      let (answer, after) := (Storage.openDir path).outcome storage
      (answer.map fun _ => (), client.addDir answer, after)
  | readDir attempts slot, (client, storage) =>
      let (answer, dir, after) := (Storage.readDir attempts).outcome (client.dir slot, storage)
      (answer, client.setDir slot dir, after)
  | closeDir slot, (client, storage) =>
      let (answer, dir, after) := Storage.closeDir.outcome (client.dir slot, storage)
      (answer, client.setDir slot dir, after)

/-- The operation that a call comes to. -/
def operation (client : Client) : ClientCall → Operation δ ω
  | onPath request path => .onPath request path
  | rename source target => .rename source target
  | openFile path options => .openFile path options
  | onFile slot request => .onFile (client.file slot) request
  | writeAll slot bytes => .writeAll (client.file slot) bytes
  | closeFile slot => .closeFile (client.file slot)
  | openDir path => .openDir path
  | readDir attempts slot => .readDir attempts (client.dir slot)
  | closeDir slot => .closeDir (client.dir slot)

/-- The path that a call is about, if any, belongs to the mount, and the call opens nothing but what
stays with the client. -/
def Through (storage : Storage δ ω) (mount : MountPoint) : ClientCall → Prop
  | onPath request path => request ≠ .openDir ∧ (∀ options, request ≠ .openFile options) ∧
      storage.resolve path = .ok mount
  | rename source _ => storage.resolve source = .ok mount
  | openFile path _ => storage.resolve path = .ok mount
  | openDir path => storage.resolve path = .ok mount
  | _ => True

theorem state_perform [DiskDriver δ] (call : ClientCall) (client : Client) (storage : Storage δ ω) :
    (call.perform (client, storage)).2.2 = (call.operation client).state storage := by
  cases call <;> rfl

theorem isAccess_operation (call : ClientCall) (client : Client) :
    (call.operation client : Operation δ ω).IsAccess := by
  cases call <;> trivial

theorem Through.sameTables {storage after : Storage δ ω} (hsame : Storage.SameTables storage after)
    {mount : MountPoint} {call : ClientCall} (hthrough : call.Through storage mount) :
    call.Through after mount := by
  obtain ⟨env, rfl⟩ := hsame
  cases call <;> exact hthrough

theorem sameTables_perform [DiskDriver δ] (call : ClientCall) (client : Client)
    (storage : Storage δ ω) :
    Storage.SameTables storage (call.perform (client, storage)).2.2 := by
  rw [state_perform]
  exact (Storage.serves_state storage (call.isAccess_operation client)).sameTables

end ClientCall

namespace Client

variable {δ ω : Type}

/-- The calls of a client one after the other: the answers, the client and the storage layer. -/
def run : List ClientCall → Client × Storage δ ω →
    List ((call : ClientCall) × Except StorageError call.Reply) × Client × Storage δ ω
  | [], state => ([], state)
  | call :: rest, state =>
      let (answer, later) := call.perform state
      let (answers, last) := run rest later
      (⟨call, answer⟩ :: answers, last)

/-- The number is that of a directory of the client. -/
def HasDir (client : Client) (number : Nat) : Prop :=
  ∃ id, OpenDir.backend ⟨number⟩ id ∈ client.dirs

/-- What a client has opened was opened on the mount, and the memory filesystem has it so. -/
structure Bound (client : Client) (mount : MountPoint) (fs : MemoryFs) : Prop where
  files : ∀ file ∈ client.files, file.mount = none ∨
    file.mount = some mount.id ∧ fs.Owned mount.data.value file.handle.number
  dirs : ∀ dir ∈ client.dirs, dir = .closed ∨
    ∃ handle, dir = .backend handle mount.id ∧ handle.number ≤ fs.lastId

section Bound

variable {client : Client} {mount : MountPoint} {fs after : MemoryFs}

theorem Bound.file (hbound : client.Bound mount fs) (slot : Nat) :
    (client.file slot).mount = none ∨ (client.file slot).mount = some mount.id ∧
      fs.Owned mount.data.value (client.file slot).handle.number := by
  rw [Client.file, List.getD_eq_getElem?_getD]
  cases hslot : client.files[slot]? with
  | none => exact .inl rfl
  | some file => exact hbound.files file (List.mem_of_getElem? hslot)

theorem Bound.dir (hbound : client.Bound mount fs) (slot : Nat) :
    client.dir slot = .closed ∨
      ∃ handle, client.dir slot = .backend handle mount.id ∧ handle.number ≤ fs.lastId ∧
        client.HasDir handle.number := by
  rw [Client.dir, List.getD_eq_getElem?_getD]
  cases hslot : client.dirs[slot]? with
  | none => exact .inl rfl
  | some dir =>
      have hmem := List.mem_of_getElem? hslot
      rcases hbound.dirs dir hmem with hclosed | ⟨handle, rfl, hgiven⟩
      · exact .inl hclosed
      · exact .inr ⟨handle, rfl, hgiven, mount.id, hmem⟩

theorem Bound.mono (hbound : client.Bound mount fs) (hle : fs.lastId ≤ after.lastId)
    (howned : ∀ number, fs.Owned mount.data.value number → after.Owned mount.data.value number) :
    client.Bound mount after where
  files file hfile := (hbound.files file hfile).imp_right fun hopen => ⟨hopen.1, howned _ hopen.2⟩
  dirs dir hdir := by
    rcases hbound.dirs dir hdir with hclosed | ⟨handle, hhandle, hgiven⟩
    · exact .inl hclosed
    · exact .inr ⟨handle, hhandle, Nat.le_trans hgiven hle⟩

theorem Bound.addFile (hbound : client.Bound mount fs) {answer : Except StorageError OpenFile}
    (hnew : ∀ file, answer = .ok file →
      file.mount = some mount.id ∧ fs.Owned mount.data.value file.handle.number) :
    (client.addFile answer).Bound mount fs := by
  cases answer with
  | error cause => exact hbound
  | ok opened =>
      refine ⟨fun file hfile => ?_, hbound.dirs⟩
      rcases List.mem_append.mp hfile with hold | hlast
      · exact hbound.files file hold
      · rw [List.mem_singleton.mp hlast]
        exact .inr (hnew opened rfl)

theorem Bound.addDir (hbound : client.Bound mount fs) {answer : Except StorageError OpenDir}
    (hnew : ∀ dir, answer = .ok dir →
      ∃ handle, dir = .backend handle mount.id ∧ handle.number ≤ fs.lastId) :
    (client.addDir answer).Bound mount fs := by
  cases answer with
  | error cause => exact hbound
  | ok opened =>
      refine ⟨hbound.files, fun dir hdir => ?_⟩
      rcases List.mem_append.mp hdir with hold | hlast
      · exact hbound.dirs dir hold
      · rw [List.mem_singleton.mp hlast]
        exact .inr (hnew opened rfl)

theorem Bound.setFile (hbound : client.Bound mount fs) (slot : Nat) {closed : OpenFile}
    (hclosed : closed.mount = none) : (client.setFile slot closed).Bound mount fs where
  files file hfile := by
    rcases List.mem_or_eq_of_mem_set hfile with hold | rfl
    · exact hbound.files file hold
    · exact .inl hclosed
  dirs := hbound.dirs

theorem Bound.setDir (hbound : client.Bound mount fs) (slot : Nat) {changed : OpenDir}
    (hchanged : changed = .closed ∨ changed = client.dir slot) :
    (client.setDir slot changed).Bound mount fs where
  files := hbound.files
  dirs dir hdir := by
    rcases List.mem_or_eq_of_mem_set hdir with hold | rfl
    · exact hbound.dirs dir hold
    · rcases hchanged with hclosed | hsame
      · exact .inl hclosed
      · rw [hsame]
        exact (hbound.dir slot).imp_right fun ⟨handle, hhandle, hgiven, _⟩ => ⟨handle, hhandle, hgiven⟩

theorem Bound.hasDir_setDir (hbound : client.Bound mount fs) {slot : Nat} {changed : OpenDir}
    (hchanged : changed = .closed ∨ changed = client.dir slot) {number : Nat}
    (hnumber : (client.setDir slot changed).HasDir number) : client.HasDir number := by
  obtain ⟨id, hmem⟩ := hnumber
  rcases List.mem_or_eq_of_mem_set hmem with hold | hnew
  · exact ⟨id, hold⟩
  · rcases hchanged with rfl | rfl
    · cases hnew
    · rcases hbound.dir slot with hclosed | ⟨handle, hhandle, -, hhas⟩
      · rw [hclosed] at hnew
        cases hnew
      · rw [hhandle] at hnew
        cases hnew
        exact hhas

end Bound

end Client

namespace Storage

variable {δ ω : Type} [DiskDriver δ] {part : Part ω MemoryFs} {storage middle after : Storage δ ω}
  {mount : MountPoint} {dirs later : Nat → Prop}

/-- A file that is opened gets the next number, and the memory filesystem has it in the volume of the
mount. -/
theorem Answers.openFile_eq_ok (hanswers : storage.Answers part mount) {path : String}
    (hpath : storage.resolve path = .ok mount) {options : OpenOptions} {file : OpenFile}
    (hopen : (openFile path options).outcome storage = (.ok file, after)) :
    file.mount = some mount.id ∧ file.handle.number = (storage.memory part).lastId + 1 ∧
      (after.memory part).Owned mount.data.value file.handle.number := by
  rw [hanswers.outcome_openFile hpath, Prod.mk.injEq] at hopen
  obtain ⟨hanswer, rfl⟩ := hopen
  rcases hserve : storage.memoryOutcome mount part
    (.onPath (.openFile options) (mount.path.relative path)) with ⟨_ | handle, fs⟩
  · rw [hserve] at hanswer
    cases hanswer
  · rw [hserve] at hanswer
    cases hanswer
    rw [memory_mapHost]
    exact ⟨rfl, MemoryFs.openFile_eq_ok hserve⟩

/-- A directory that is opened gets the next number. -/
theorem Answers.openDir_eq_ok (hanswers : storage.Answers part mount) {path : String}
    (hpath : storage.resolve path = .ok mount) {dir : OpenDir}
    (hopen : (openDir path).outcome storage = (.ok dir, after)) :
    ∃ handle, dir = .backend handle mount.id ∧ handle.number = (storage.memory part).lastId + 1 ∧
      (after.memory part).lastId = (storage.memory part).lastId + 1 := by
  rw [hanswers.outcome_openDir hpath, Prod.mk.injEq] at hopen
  obtain ⟨hanswer, rfl⟩ := hopen
  rcases hserve : storage.memoryOutcome mount part (.onPath .openDir (mount.path.relative path)) with
    ⟨_ | handle, fs⟩
  · rw [hserve] at hanswer
    cases hanswer
  · rw [hserve] at hanswer
    cases hanswer
    rw [memory_mapHost]
    exact ⟨handle, rfl, MemoryFs.openDir_eq_ok hserve⟩

/-- Only the memory filesystem has changed, and in it nothing that is of another volume, or of other
open directories than the given ones. -/
structure Confined (part : Part ω MemoryFs) (volume : Nat) (dirs : Nat → Prop)
    (before after : Storage δ ω) : Prop where
  same : ∃ host, after = before.mapHost fun _ => host
  apart : MemoryFs.Apart volume dirs (before.memory part) (after.memory part)
  owned : ∀ other number, (before.memory part).Owned other number →
    (after.memory part).Owned other number
  hosts : Hosts part after

namespace Confined

theorem refl (hhosts : Hosts part storage) (volume : Nat) (dirs : Nat → Prop) :
    Confined part volume dirs storage storage where
  same := ⟨storage.env.host, rfl⟩
  apart := .refl volume dirs _
  owned _ _ howned := howned
  hosts := hhosts

theorem trans {volume : Nat} (hfirst : Confined part volume dirs storage middle)
    (hsecond : Confined part volume later middle after)
    (hlater : ∀ number, later number → dirs number ∨ (storage.memory part).lastId < number) :
    Confined part volume dirs storage after where
  same := by
    obtain ⟨_, rfl⟩ := hfirst.same
    obtain ⟨host, rfl⟩ := hsecond.same
    exact ⟨host, rfl⟩
  apart := hfirst.apart.trans hsecond.apart hlater
  owned other number howned := hsecond.owned other number (hfirst.owned other number howned)
  hosts := hsecond.hosts

theorem sameTables {volume : Nat} (hconfined : Confined part volume dirs storage after) :
    SameTables storage after := by
  obtain ⟨host, rfl⟩ := hconfined.same
  exact ⟨_, rfl⟩

end Confined

theorem Hosts.confined_serve (hhosts : Hosts part storage) (hanswers : storage.Answers part mount)
    {request : Request} (hproper : request.Proper mount (storage.memory part).lastId)
    (hwithin : request.Within (storage.memory part) mount.data.value dirs) :
    Confined part mount.data.value dirs storage ((serve mount request).outcome storage).2 := by
  have hafter := hhosts.after_serve fun _ => hproper
  have heffects := MemoryFs.effects_serve mount (storage.memory part)
    (storage.env.blocks.info mount.device) request
  rw [hanswers.outcome_serve] at hafter ⊢
  refine ⟨⟨_, rfl⟩, ?_, fun other number howned => ?_, hafter⟩
  · rw [memory_mapHost]
    exact heffects.apart hhosts.consistent hproper hwithin
  · rw [memory_mapHost]
    exact heffects.owned howned

/-- Requests through a mount that keep to what is of it. -/
theorem Serves.confined {asked : MountPoint → Request → Prop} (hserves : Serves asked storage after)
    (hhosts : Hosts part storage) (hanswers : storage.Answers part mount)
    (hasked : ∀ point request, asked point request → point = mount ∧
      request.Proper mount (storage.memory part).lastId ∧
      request.Within (storage.memory part) mount.data.value dirs) :
    Confined part mount.data.value dirs storage after := by
  induction hserves with
  | refl => exact .refl hhosts _ dirs
  | tail hprior hserve ih =>
      obtain ⟨point, request, hrequest, rfl⟩ := hserve
      obtain ⟨rfl, hproper, hwithin⟩ := hasked point request hrequest
      have hanswered := (answers_congr (Serves.sameTables hprior).registry_eq).mpr hanswers
      exact ih.trans (ih.hosts.confined_serve hanswered (hproper.mono ih.apart.lastId_le)
        (hwithin.mono (ih.owned _))) fun _ hdir => .inl hdir

end Storage

section Calls

variable {δ ω : Type} [DiskDriver δ] {part : Part ω MemoryFs} {storage : Storage δ ω}
  {mount : MountPoint} {client : Client}

open Storage

/-- A client of a live mount of the memory filesystem, and what the client has opened. -/
structure Client.Serviced (part : Part ω MemoryFs) (mount : MountPoint) (client : Client)
    (storage : Storage δ ω) : Prop where
  hosts : Hosts part storage
  live : storage.mountOf? mount.id = some mount
  answers : storage.Answers part mount
  bound : client.Bound mount (storage.memory part)

/-- What a call asks for is about the mount of the client and what the client has opened. -/
theorem ClientCall.within_of_asks (hserviced : client.Serviced part mount storage)
    {call : ClientCall} (hthrough : call.Through storage mount) {point : MountPoint}
    {request : Request} (hasked : (call.operation client).Asks storage point request) :
    point = mount ∧ request.Within (storage.memory part) mount.data.value client.HasDir := by
  -- What is open in a slot was opened on the mount, and the mount is found by its identity.
  have hfile {slot : Nat} {id : MountId} (hslot : (client.file slot).mount = some id)
      (hlive : storage.mountOf? id = some point) : point = mount ∧
        (storage.memory part).Owned mount.data.value (client.file slot).handle.number := by
    rcases hserviced.bound.file slot with hclosed | ⟨hopen, howned⟩
    · cases hslot.symm.trans hclosed
    · obtain rfl := Option.some.inj (hslot.symm.trans hopen)
      exact ⟨Option.some.inj (hlive.symm.trans hserviced.live), howned⟩
  have hdir {slot : Nat} {handle : DirHandle} {id : MountId}
      (hslot : client.dir slot = .backend handle id) (hlive : storage.mountOf? id = some point) :
      point = mount ∧ client.HasDir handle.number := by
    rcases hserviced.bound.dir slot with hclosed | ⟨other, hopen, -, hhas⟩
    · cases hslot.symm.trans hclosed
    · cases hslot.symm.trans hopen
      exact ⟨Option.some.inj (hlive.symm.trans hserviced.live), hhas⟩
  cases call with
  | onPath asked path =>
      cases hasked with
      | onPath hpath => exact ⟨Except.ok.inj (hpath.symm.trans hthrough.2.2), trivial⟩
  | rename source target =>
      cases hasked with
      | rename hsource htarget hsame => exact ⟨Except.ok.inj (hsource.symm.trans hthrough), trivial⟩
  | openFile path options =>
      cases hasked with
      | openFile hpath => exact ⟨Except.ok.inj (hpath.symm.trans hthrough), trivial⟩
  | openDir path =>
      cases hasked with
      | openDir hpath => exact ⟨Except.ok.inj (hpath.symm.trans hthrough), trivial⟩
  | onFile slot asked =>
      cases hasked with
      | onFile hslot hlive => exact hfile hslot hlive
  | writeAll slot bytes =>
      cases hasked with
      | writeAll hslot hlive piece => exact hfile hslot hlive
  | closeFile slot =>
      cases hasked with
      | closeFile hslot hlive => exact hfile hslot hlive
  | readDir attempts slot =>
      dsimp only [ClientCall.operation] at hasked
      generalize hslot : client.dir slot = dir at hasked
      cases hasked with
      | readDir hlive => exact hdir hslot hlive
  | closeDir slot =>
      dsimp only [ClientCall.operation] at hasked
      generalize hslot : client.dir slot = dir at hasked
      cases hasked with
      | closeDir hlive => exact hdir hslot hlive

/-- A call leaves everything as it is that is of another mount. -/
theorem ClientCall.confined (hserviced : client.Serviced part mount storage) {call : ClientCall}
    (hthrough : call.Through storage mount) :
    Confined part mount.data.value client.HasDir storage (call.perform (client, storage)).2.2 := by
  rw [state_perform]
  refine (serves_state storage (call.isAccess_operation client)).confined hserviced.hosts
    hserviced.answers fun point request hasked => ?_
  obtain ⟨rfl, hwithin⟩ := call.within_of_asks hserviced hthrough hasked
  exact ⟨rfl, hserviced.hosts.proper hserviced.answers hasked, hwithin⟩

/-- What a client has after a call: new files and directories are of its mount, and directories that
it did not have before are new. -/
theorem ClientCall.bound_perform (hserviced : client.Serviced part mount storage) {call : ClientCall}
    (hthrough : call.Through storage mount)
    (hkept : client.Bound mount ((call.perform (client, storage)).2.2.memory part)) :
    (call.perform (client, storage)).2.1.Bound mount
        ((call.perform (client, storage)).2.2.memory part) ∧
      ∀ number, (call.perform (client, storage)).2.1.HasDir number →
        client.HasDir number ∨ (storage.memory part).lastId < number := by
  cases call with
  | onPath | rename | onFile | writeAll => exact ⟨hkept, fun _ => .inl⟩
  | openFile path options =>
      refine ⟨hkept.addFile fun file hopen => ?_, fun number hnumber => .inl ?_⟩
      · obtain ⟨hmount, -, howned⟩ :=
          hserviced.answers.openFile_eq_ok hthrough (Prod.ext hopen rfl)
        exact ⟨hmount, howned⟩
      · dsimp only [perform] at hnumber
        cases hanswer : ((Storage.openFile path options).outcome storage).1 <;>
          rw [hanswer] at hnumber <;> exact hnumber
  | closeFile slot =>
      have hclosed :
          (Storage.closeFile.outcome (client.file slot, storage)).2.1.mount = none := by
        cases hfile : (client.file slot).mount with
        | none =>
            rw [outcome_closeFile_of_closed storage hfile]
            exact hfile
        | some id =>
            rw [outcome_closeFile_of_open storage hfile]
            rfl
      exact ⟨hkept.setFile slot hclosed, fun _ => .inl⟩
  | openDir path =>
      have hnew (dir : OpenDir) (hopen : ((Storage.openDir path).outcome storage).1 = .ok dir) :=
        hserviced.answers.openDir_eq_ok hthrough (Prod.ext hopen rfl)
      refine ⟨hkept.addDir fun dir hopen => ?_, fun number hnumber => ?_⟩
      · obtain ⟨handle, hdir, hhandle, hlast⟩ := hnew dir hopen
        exact ⟨handle, hdir, Nat.le_of_eq (hhandle.trans hlast.symm)⟩
      · dsimp only [perform] at hnumber
        cases hanswer : ((Storage.openDir path).outcome storage).1 with
        | error cause =>
            rw [hanswer] at hnumber
            exact .inl hnumber
        | ok dir =>
            rw [hanswer] at hnumber
            obtain ⟨id, hmem⟩ := hnumber
            rcases List.mem_append.mp hmem with hold | hlast
            · exact .inl ⟨id, hold⟩
            · obtain ⟨handle, hdir, hhandle, -⟩ := hnew dir hanswer
              cases (List.mem_singleton.mp hlast).trans hdir
              exact .inr (Nat.lt_of_lt_of_eq (Nat.lt_succ_self _) hhandle.symm)
  | readDir attempts slot =>
      have hsame : ((Storage.readDir attempts).outcome (client.dir slot, storage)).2.1 =
          client.dir slot := by
        rcases hserviced.bound.dir slot with hclosed | ⟨handle, hopen, -⟩
        · rw [hclosed]
          rfl
        · rw [hopen, outcome_readDir_backend]
      exact ⟨hkept.setDir slot (.inr hsame),
        fun _ hnumber => .inl (hkept.hasDir_setDir (.inr hsame) hnumber)⟩
  | closeDir slot =>
      have hclosed : (Storage.closeDir.outcome (client.dir slot, storage)).2.1 = .closed := by
        rcases hserviced.bound.dir slot with hclosed | ⟨handle, hopen, -⟩
        · rw [hclosed]
          rfl
        · rw [hopen, outcome_closeDir_backend]
      exact ⟨hkept.setDir slot (.inl hclosed),
        fun _ hnumber => .inl (hkept.hasDir_setDir (.inl hclosed) hnumber)⟩

/-- After a call the client is still one of the mount. -/
theorem ClientCall.serviced (hserviced : client.Serviced part mount storage) {call : ClientCall}
    (hthrough : call.Through storage mount) :
    (call.perform (client, storage)).2.1.Serviced part mount (call.perform (client, storage)).2.2 ∧
      ∀ number, (call.perform (client, storage)).2.1.HasDir number →
        client.HasDir number ∨ (storage.memory part).lastId < number := by
  have hconfined := call.confined hserviced hthrough
  obtain ⟨hbound, hdirs⟩ := call.bound_perform hserviced hthrough
    (hserviced.bound.mono hconfined.apart.lastId_le (hconfined.owned _))
  refine ⟨⟨hconfined.hosts, ?_, ?_, hbound⟩, hdirs⟩
  · obtain ⟨host, hsame⟩ := hconfined.same
    rw [hsame]
    exact hserviced.live
  · exact (answers_congr hconfined.sameTables.registry_eq).mpr hserviced.answers

/-- Any number of calls leave everything as it is that is of another mount. -/
theorem Client.confined_run (hserviced : client.Serviced part mount storage)
    {calls : List ClientCall} (hcalls : ∀ call ∈ calls, call.Through storage mount) :
    Confined part mount.data.value client.HasDir storage (Client.run calls (client, storage)).2.2 := by
  induction calls generalizing client storage with
  | nil => exact .refl hserviced.hosts _ _
  | cons call rest ih =>
      obtain ⟨hcall, hrest⟩ := List.forall_mem_cons.mp hcalls
      have hfirst := call.confined hserviced hcall
      obtain ⟨hlater, hdirs⟩ := call.serviced hserviced hcall
      exact hfirst.trans
        (ih hlater fun later hmem => (hrest later hmem).sameTables hfirst.sameTables) hdirs

end Calls

end StorageStack

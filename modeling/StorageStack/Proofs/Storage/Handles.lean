import StorageStack.Proofs.Storage.Identity
import StorageStack.Proofs.Storage.Tables

/-! # Handles across mounts and unmounts

An open file or directory is bound to the record under which it was opened. While that very
record is live, each request about the handle is one call of the backend of the record, with
the record as it stood. Afterwards the handle is dead, whatever is mounted in the place of
the record.
-/

namespace StorageStack

variable {δ ω : Type}

namespace Backend

/-- Ask a backend for entries until one is not a dot entry, at most `attempts` times. -/
def nextEntry (backend : Backend δ ω) (mount : MountPoint) (handle : DirHandle) :
    Nat → Action (Env δ ω) DirReading
  | 0, env => .ok .onlyDots env
  | attempts + 1, env =>
      match backend.serve mount (.onDir .next handle) env with
      | .error cause after => .error cause after
      | .ok none after => .ok .finished after
      | .ok (some entry) after =>
          if entry.isDot then nextEntry backend mount handle attempts after
          else .ok (.entry entry) after

end Backend

namespace Storage

/-- Each request about the file is one call of the backend, with the record and with the
handle of the file. -/
structure FileServed (file : OpenFile) (mount : MountPoint) (backend : Backend δ ω)
    (storage : Storage δ ω) : Prop where
  request : ∀ request, (onFile file request).outcome storage =
    ask backend mount (.onFile request file.handle) storage
  close : closeFile.outcome (file, storage) =
    let answer := ask backend mount (.onFile .close file.handle) storage
    (answer.1, file.closed, answer.2)

/-- Each request about the file is refused, and nothing else happens. -/
structure FileDead (file : OpenFile) (storage : Storage δ ω) : Prop where
  request : ∀ request, (onFile file request).outcome storage = (.error .badFileDescriptor, storage)
  close : closeFile.outcome (file, storage) = (.error .badFileDescriptor, file.closed, storage)

/-- Reading the directory asks the backend until an entry is not a dot entry, and closing it
is one call. -/
structure DirServed (handle : DirHandle) (mount : MountPoint) (backend : Backend δ ω)
    (storage : Storage δ ω) : Prop where
  read : ∀ attempts, (readDir attempts).outcome (.backend handle mount.id, storage) =
    let (answer, env) := (backend.nextEntry mount handle attempts).outcome storage.env
    (answer, .backend handle mount.id, { storage with env })
  close : closeDir.outcome (.backend handle mount.id, storage) =
    let answer := ask backend mount (.onDir .close handle) storage
    (answer.1, .closed, answer.2)

/-- Reading and closing the directory are refused, and nothing else happens. -/
structure DirDead (handle : DirHandle) (id : MountId) (storage : Storage δ ω) : Prop where
  read : ∀ attempts, (readDir (attempts + 1)).outcome (.backend handle id, storage) =
    (.error .badFileDescriptor, .backend handle id, storage)
  close : closeDir.outcome (.backend handle id, storage) = (.error .badFileDescriptor, .closed, storage)

section Requests

variable {storage : Storage δ ω} {mount : MountPoint}

theorem fileServed {file : OpenFile} {backend : Backend δ ω} (hfile : file.mount = some mount.id)
    (hmount : storage.mountOf? mount.id = some mount)
    (hbackend : storage.backend? mount.fsType = some backend) :
    FileServed file mount backend storage where
  request request := by
    rw [outcome_onFile_of_open storage hfile, outcome_onMount_of_mountOf? hmount,
      outcome_serve_of_backend hbackend]
  close := by
    rw [outcome_closeFile_of_open storage hfile, outcome_onMount_of_mountOf? hmount,
      outcome_serve_of_backend hbackend]

theorem fileDead {file : OpenFile} {id : MountId} (hfile : file.mount = some id)
    (hmount : storage.mountOf? id = none) : FileDead file storage where
  request request := by
    rw [outcome_onFile_of_open storage hfile, outcome_onMount_of_dead hmount]
  close := by
    rw [outcome_closeFile_of_open storage hfile, outcome_onMount_of_dead hmount]

/-- Asking through the storage layer, call by call, is asking the backend. -/
theorem outcome_readEntry {backend : Backend δ ω} (handle : DirHandle) (attempts : Nat)
    (hmount : storage.mountOf? mount.id = some mount)
    (hbackend : storage.backend? mount.fsType = some backend) :
    (readEntry mount.id handle attempts).outcome storage =
      let (answer, env) := (backend.nextEntry mount handle attempts).outcome storage.env
      (answer, { storage with env }) := by
  induction attempts generalizing storage with
  | zero => rfl
  | succ attempts ih =>
      have hcall : onMount mount.id (.onDir .next handle) storage =
          ((backend.serve mount (.onDir .next handle)).within (·.env)
            fun env storage => { storage with env }) storage := by
        rw [onMount, hmount]
        dsimp only
        rw [serve, hbackend]
      unfold Action.outcome at ih ⊢
      unfold readEntry Backend.nextEntry
      rw [hcall, Action.within]
      cases backend.serve mount (.onDir .next handle) storage.env with
      | error cause env => rfl
      | ok entry env =>
          cases entry with
          | none => rfl
          | some entry =>
              dsimp only
              by_cases hdot : entry.isDot = true
              · rw [if_pos hdot, if_pos hdot]
                exact ih hmount hbackend
              · rw [if_neg hdot, if_neg hdot]

theorem dirServed {handle : DirHandle} {backend : Backend δ ω}
    (hmount : storage.mountOf? mount.id = some mount)
    (hbackend : storage.backend? mount.fsType = some backend) :
    DirServed handle mount backend storage where
  read attempts := by
    rw [outcome_readDir_backend, outcome_readEntry handle attempts hmount hbackend]
  close := by
    rw [outcome_closeDir_backend, outcome_onMount_of_mountOf? hmount,
      outcome_serve_of_backend hbackend]

theorem dirDead {handle : DirHandle} {id : MountId} (hmount : storage.mountOf? id = none) :
    DirDead handle id storage where
  read attempts := by
    rw [outcome_readDir_backend]
    unfold Action.outcome readEntry onMount
    rw [hmount]
  close := by
    rw [outcome_closeDir_backend, outcome_onMount_of_dead hmount]

end Requests

section Opening

variable {storage opened : Storage δ ω} {path : String}

/-- A file that was opened holds the identity of its mount and the handle that the backend
answered with. -/
theorem of_openFile_eq_ok {options : OpenOptions} {file : OpenFile}
    (hopen : openFile path options storage = .ok file opened) :
    ∃ mount, storage.resolve path = .ok mount ∧ file.mount = some mount.id ∧
      serve mount (.onPath (.openFile options) (mount.path.relative path)) storage =
        .ok file.handle opened := by
  unfold openFile at hopen
  cases hmount : storage.resolve path with
  | error cause =>
      rw [hmount] at hopen
      cases hopen
  | ok mount =>
      rw [hmount] at hopen
      dsimp only at hopen
      cases hserve : serve mount (.onPath (.openFile options) (mount.path.relative path)) storage with
      | error cause after =>
          rw [hserve] at hopen
          cases hopen
      | ok handle after =>
          rw [hserve] at hopen
          cases hopen
          exact ⟨mount, rfl, rfl, hserve⟩

theorem of_openDir_eq_ok {handle : DirHandle} {id : MountId}
    (hopen : openDir path storage = .ok (.backend handle id) opened) :
    ∃ mount, storage.resolve path = .ok mount ∧ id = mount.id ∧
      serve mount (.onPath .openDir (mount.path.relative path)) storage = .ok handle opened := by
  unfold openDir at hopen
  by_cases hroot : path = "/"
  · rw [if_pos hroot] at hopen
    cases hopen
  · rw [if_neg hroot] at hopen
    cases hmount : storage.resolve path with
    | error cause =>
        rw [hmount] at hopen
        cases hopen
    | ok mount =>
        rw [hmount] at hopen
        dsimp only at hopen
        cases hserve : serve mount (.onPath .openDir (mount.path.relative path)) storage with
        | error cause after =>
            rw [hserve] at hopen
            cases hopen
        | ok handle after =>
            rw [hserve] at hopen
            cases hopen
            exact ⟨mount, rfl, rfl, hserve⟩

theorem state_openFile [DiskDriver δ] {options : OpenOptions} {file : OpenFile}
    (hopen : openFile path options storage = .ok file opened) :
    (Operation.openFile path options).state storage = opened := by
  rw [Operation.state, Action.outcome, hopen]

theorem state_openDir [DiskDriver δ] {dir : OpenDir} (hopen : openDir path storage = .ok dir opened) :
    (Operation.openDir path).state storage = opened := by
  rw [Operation.state, Action.outcome, hopen]

theorem mountCount_cons_openFile [DiskDriver δ] {options : OpenOptions} {file : OpenFile}
    {later : List (Operation δ ω)} (hopen : openFile path options storage = .ok file opened) :
    storage.mountCount (.openFile path options :: later) = opened.mountCount later :=
  calc storage.mountCount (.openFile path options :: later)
      = 0 + ((Operation.openFile path options).state storage).mountCount later := rfl
    _ = opened.mountCount later := by rw [state_openFile hopen, Nat.zero_add]

theorem mountCount_cons_openDir [DiskDriver δ] {dir : OpenDir} {later : List (Operation δ ω)}
    (hopen : openDir path storage = .ok dir opened) :
    storage.mountCount (.openDir path :: later) = opened.mountCount later :=
  calc storage.mountCount (.openDir path :: later)
      = 0 + ((Operation.openDir path).state storage).mountCount later := rfl
    _ = opened.mountCount later := by rw [state_openDir hopen, Nat.zero_add]

theorem sameTables_of_serve_eq_ok {mount : MountPoint} {request : Request} {reply : request.Reply}
    (hserve : serve mount request storage = .ok reply opened) : SameTables storage opened := by
  have hsame := sameTables_serve storage mount request
  rw [Action.outcome_eq_ok_iff.mpr hserve] at hsame
  exact hsame

end Opening

section Runs

variable [DiskDriver δ]

theorem Sound.after {storage : Storage δ ω} (hsound : storage.Sound)
    (run : List (Operation δ ω)) : (storage.after run).Sound :=
  after_induct Change.sound hsound run

/-- The record that a handle was opened under, later in the run: while it is live its identity
leads to it and its backend is registered, and once it is gone its identity leads nowhere. -/
theorem record_after (blocks : BlockDevices δ) (host : ω) (before later : List (Operation δ ω))
    {opened : Storage δ ω} {mount : MountPoint}
    (hsame : SameTables ((ofBlocks blocks host).after before) opened)
    (hmount : mount ∈ ((ofBlocks blocks host).after before).mounts)
    (hcount : (ofBlocks blocks host).mountCount before + opened.mountCount later ≤ UInt32.size) :
    (mount ∈ (opened.after later).mounts →
      (∀ earlier, earlier <+: later → mount ∈ (opened.after earlier).mounts) ∧
      (opened.after later).mountOf? mount.id = some mount ∧
      ∃ backend, (opened.after later).backend? mount.fsType = some backend) ∧
    (mount ∉ (opened.after later).mounts → (opened.after later).mountOf? mount.id = none) := by
  have hmade := (evolves_mountLog (ofBlocks blocks host) before).1
  have hopened := hsame.change.numbered (numbered_after blocks host before)
  rw [List.append_nil] at hopened
  have hlive : mount ∈ opened.mounts := by
    obtain ⟨env, rfl⟩ := hsame
    exact hmount
  have hfind : (opened.after later).mountOf? mount.id =
      if mount ∈ (opened.after later).mounts then some mount else none := by
    obtain ⟨hremade, hlater⟩ := evolves_mountLog opened later
    apply (hlater.numbered hopened).mountOf?_eq
    · rw [List.length_append]
      omega
    · exact List.mem_append_left _ (hopened.live.subset hlive)
  constructor
  · intro hafter
    have hsound : (opened.after later).Sound :=
      (hsame.change.sound (sound_after blocks host before)).after later
    refine ⟨?_, hfind.trans (if_pos hafter), hsound.backend?_isSome hafter⟩
    rintro earlier ⟨rest, rfl⟩
    obtain ⟨hfirst, hearlier⟩ := evolves_mountLog opened earlier
    obtain ⟨hsecond, hrest⟩ := evolves_mountLog (opened.after earlier) rest
    rw [after_append] at hafter
    rw [mountCount_append] at hcount
    apply hearlier.mem_between hopened hrest _ hlive hafter
    simp only [List.length_append]
    omega
  · intro hgone
    exact hfind.trans (if_neg hgone)

/-- In every run with at most `UInt32.size` mounts, a handle is good for as long as the very record
that it was opened under stays in the table. Until then each request about it is one call of
the backend of the record (reading a directory asks again behind a dot entry), with the
record and the handle as they were at the opening. From then on it is refused without any
call, whatever has been mounted since. -/
theorem handles_follow_record (blocks : BlockDevices δ) (host : ω)
    (before later : List (Operation δ ω)) (path : String) :
    let initial := ofBlocks blocks host
    let start := initial.after before
    (∀ options file opened, openFile path options start = .ok file opened →
      initial.mountCount (before ++ .openFile path options :: later) ≤ UInt32.size →
      ∃ mount, start.resolve path = .ok mount ∧
        serve mount (.onPath (.openFile options) (mount.path.relative path)) start =
          .ok file.handle opened ∧
        (mount ∈ (opened.after later).mounts →
          (∀ earlier, earlier <+: later → mount ∈ (opened.after earlier).mounts) ∧
          ∃ backend, (opened.after later).backend? mount.fsType = some backend ∧
            FileServed file mount backend (opened.after later)) ∧
        (mount ∉ (opened.after later).mounts → FileDead file (opened.after later))) ∧
    ∀ handle id opened, openDir path start = .ok (.backend handle id) opened →
      initial.mountCount (before ++ .openDir path :: later) ≤ UInt32.size →
      ∃ mount, start.resolve path = .ok mount ∧ id = mount.id ∧
        serve mount (.onPath .openDir (mount.path.relative path)) start = .ok handle opened ∧
        (mount ∈ (opened.after later).mounts →
          (∀ earlier, earlier <+: later → mount ∈ (opened.after earlier).mounts) ∧
          ∃ backend, (opened.after later).backend? mount.fsType = some backend ∧
            DirServed handle mount backend (opened.after later)) ∧
        (mount ∉ (opened.after later).mounts → DirDead handle id (opened.after later)) := by
  intro initial start
  constructor
  · intro options file opened hopen hcount
    obtain ⟨mount, hmount, hfile, hserve⟩ := of_openFile_eq_ok hopen
    rw [mountCount_append, mountCount_cons_openFile hopen] at hcount
    obtain ⟨hlive, hgone⟩ := record_after blocks host before later
      (sameTables_of_serve_eq_ok hserve) (mem_of_resolve hmount) hcount
    refine ⟨mount, hmount, hserve, fun hafter => ?_, fun hafter => fileDead hfile (hgone hafter)⟩
    obtain ⟨hbetween, hfind, backend, hbackend⟩ := hlive hafter
    exact ⟨hbetween, backend, hbackend, fileServed hfile hfind hbackend⟩
  · intro handle id opened hopen hcount
    obtain ⟨mount, hmount, rfl, hserve⟩ := of_openDir_eq_ok hopen
    rw [mountCount_append, mountCount_cons_openDir hopen] at hcount
    obtain ⟨hlive, hgone⟩ := record_after blocks host before later
      (sameTables_of_serve_eq_ok hserve) (mem_of_resolve hmount) hcount
    refine ⟨mount, hmount, rfl, hserve, fun hafter => ?_, fun hafter => dirDead (hgone hafter)⟩
    obtain ⟨hbetween, hfind, backend, hbackend⟩ := hlive hafter
    exact ⟨hbetween, backend, hbackend, dirServed hfind hbackend⟩

end Runs

/-- A file and a directory opened on a mount stay dead when the same device is mounted again
at the same path. -/
theorem handles_follow_record_remounted :
    let before : List (Operation RamDisk Unit) :=
      [.register .ext4 (.openOnly ⟨5⟩ ⟨7⟩ ⟨9⟩), .mount "/os" ⟨.user, 2⟩ .ext4]
    let remount : List (Operation RamDisk Unit) := [.unmountAll, .mount "/os" ⟨.user, 2⟩ .ext4]
    let start := (ofBlocks (Handset.blocks id) ()).after before
    let file := (openFile "/os/x" .readOnly).outcome start
    let dir := (openDir "/os").outcome start
    file.1 = .ok ⟨⟨7⟩, some .first⟩ ∧ FileDead ⟨⟨7⟩, some .first⟩ (file.2.after remount) ∧
      dir.1 = .ok (.backend ⟨9⟩ .first) ∧ DirDead ⟨9⟩ .first (dir.2.after remount) := by
  intro before remount start file dir
  have hanswers : file.1 = .ok ⟨⟨7⟩, some .first⟩ ∧ dir.1 = .ok (.backend ⟨9⟩ .first) ∧
      (∀ id ∈ start.mounts.map (·.id), id ∉ (file.2.after remount).mounts.map (·.id) ∧
        id ∉ (dir.2.after remount).mounts.map (·.id)) ∧
      (ofBlocks (Handset.blocks id) ()).mountCount
          (before ++ .openFile "/os/x" .readOnly :: remount) ≤ UInt32.size ∧
      (ofBlocks (Handset.blocks id) ()).mountCount (before ++ .openDir "/os" :: remount) ≤
        UInt32.size := by decide +kernel
  obtain ⟨hfile, hdir, hgone, hfilecount, hdircount⟩ := hanswers
  obtain ⟨mount, hmount, -, -, hfiledead⟩ :=
    (handles_follow_record (Handset.blocks id) () before remount "/os/x").1 .readOnly _ _
      (Action.eq_ok_of_outcome hfile) hfilecount
  obtain ⟨other, hother, -, -, -, hdirdead⟩ :=
    (handles_follow_record (Handset.blocks id) () before remount "/os").2 _ _ _
      (Action.eq_ok_of_outcome hdir) hdircount
  refine ⟨hfile, hfiledead fun hlive => ?_, hdir, hdirdead fun hlive => ?_⟩
  · exact (hgone _ (List.mem_map_of_mem (mem_of_resolve hmount))).1 (List.mem_map_of_mem hlive)
  · exact (hgone _ (List.mem_map_of_mem (mem_of_resolve hother))).2 (List.mem_map_of_mem hlive)

end Storage

end StorageStack

import StorageStack.Proofs.Memory.InStep
import StorageStack.Proofs.Storage.Clients

/-! # Clients in step

Two storage layers with the same mounts may have memory filesystems that differ in many ways. If these
have the same volume of a mount, a client of the mount cannot tell the storage layers apart: its calls
are answered in the same way, though what it opens may get other numbers.
-/

namespace StorageStack

variable {δ ω : Type} [DiskDriver δ] {part : Part ω MemoryFs} {mount : MountPoint}
  {files dirs more : Pairing}

/-- Two files are closed, or open on the mount under numbers that stand for each other. -/
inductive OpenFile.Paired (mount : MountPoint) (files : Pairing) (first second : OpenFile) : Prop
  | closed (hfirst : first.mount = none) (hsecond : second.mount = none)
  | opened (hfirst : first.mount = some mount.id) (hsecond : second.mount = some mount.id)
      (hpair : files first.handle.number second.handle.number)

/-- Two directories are closed, or open on the mount under numbers that stand for each other. -/
inductive OpenDir.Paired (mount : MountPoint) (dirs : Pairing) : OpenDir → OpenDir → Prop
  | closed : Paired mount dirs .closed .closed
  | opened {first second : DirHandle} (hpair : dirs first.number second.number) :
      Paired mount dirs (.backend first mount.id) (.backend second mount.id)

namespace Storage

/-- Two storage layers have the same tables and disks, and their memory filesystems have the same
volume of a live mount. -/
structure Alike (part : Part ω MemoryFs) (mount : MountPoint) (files dirs : Pairing)
    (left right : Storage δ ω) : Prop where
  same : ∃ host, right = left.mapHost fun _ => host
  live : left.mountOf? mount.id = some mount
  answers : left.Answers part mount
  memory : MemoryFs.Alike mount.data.value files dirs (left.memory part) (right.memory part)

omit [DiskDriver δ] in
/-- A rename within one mount is a request to it, and any other is refused. -/
theorem outcome_rename_of_resolve {storage : Storage δ ω} {source : String}
    (hsource : storage.resolve source = .ok mount) (target : String) :
    (rename source target).outcome storage =
      match storage.resolve target with
      | .error _ => (.error .invalidArgument, storage)
      | .ok other =>
          if other.path = mount.path then
            (serve mount (.rename (mount.path.relative source) (mount.path.relative target))).outcome
              storage
          else (.error .invalidArgument, storage) := by
  have habsolute := (resolve_eq_ok_iff.mp hsource).1
  unfold Action.outcome rename
  by_cases htarget : IsAbsolute target
  · rw [if_pos ⟨habsolute, htarget⟩, hsource]
    dsimp only
    cases storage.resolve target with
    | error cause => rfl
    | ok other =>
        dsimp only
        by_cases hsame : other.path = mount.path
        · rw [if_pos hsame, if_pos hsame]
        · rw [if_neg hsame, if_neg hsame]
  · rw [if_neg fun hboth => htarget hboth.2, resolve, if_neg htarget]

namespace Alike

variable {left right : Storage δ ω} (halike : Alike part mount files dirs left right)

include halike

theorem sameTables : SameTables left right := by
  obtain ⟨host, rfl⟩ := halike.same
  exact ⟨_, rfl⟩

theorem right_live : right.mountOf? mount.id = some mount := by
  obtain ⟨host, rfl⟩ := halike.same
  exact halike.live

theorem right_answers : right.Answers part mount :=
  (answers_congr halike.sameTables.registry_eq).mpr halike.answers

theorem info_eq (device : DeviceHandle) : right.env.blocks.info device = left.env.blocks.info device := by
  obtain ⟨host, rfl⟩ := halike.same
  rfl

/-- The memory filesystems have gone on to be alike. -/
theorem mapHost {first second : MemoryFs} {otherFiles otherDirs : Pairing}
    (hmemory : MemoryFs.Alike mount.data.value otherFiles otherDirs first second) :
    Alike part mount otherFiles otherDirs (left.mapHost (part.set first))
      (right.mapHost (part.set second)) where
  same := by
    obtain ⟨host, rfl⟩ := halike.same
    exact ⟨part.set second host, rfl⟩
  live := halike.live
  answers := halike.answers
  memory := by
    rw [memory_mapHost, memory_mapHost]
    exact hmemory

theorem sameAnswer {α : Type} {first second : Except StorageError α × MemoryFs}
    (hsame : SameAnswer (MemoryFs.Alike mount.data.value files dirs) first second) :
    SameAnswer (Alike part mount files dirs) (first.1, left.mapHost (part.set first.2))
      (second.1, right.mapHost (part.set second.2)) :=
  ⟨hsame.1, halike.mapHost hsame.2⟩

theorem onPath {request : PathRequest} (hdir : request ≠ .openDir)
    (hfile : ∀ options, request ≠ .openFile options) {path : String}
    (hpath : left.resolve path = .ok mount) :
    SameAnswer (Alike part mount files dirs) ((onPath request path).outcome left)
      ((onPath request path).outcome right) := by
  have hright := (resolve_of_sameTables halike.sameTables path).trans hpath
  rw [halike.answers.outcome_onPath hpath, halike.right_answers.outcome_onPath hright]
  dsimp only [memoryOutcome]
  rw [halike.info_eq]
  exact halike.sameAnswer (halike.memory.onPath _ hdir hfile _)

theorem rename {source : String} (hsource : left.resolve source = .ok mount) (target : String) :
    SameAnswer (Alike part mount files dirs) ((rename source target).outcome left)
      ((rename source target).outcome right) := by
  have hright := (resolve_of_sameTables halike.sameTables source).trans hsource
  rw [outcome_rename_of_resolve hsource, outcome_rename_of_resolve hright,
    resolve_of_sameTables halike.sameTables target]
  cases left.resolve target with
  | error cause => exact ⟨rfl, halike⟩
  | ok other =>
      dsimp only
      split
      · rw [halike.answers.outcome_serve, halike.right_answers.outcome_serve]
        dsimp only [memoryOutcome]
        rw [halike.info_eq]
        exact halike.sameAnswer (halike.memory.rename _ _ _)
      · exact ⟨rfl, halike⟩

theorem onFile {file other : OpenFile} (hpaired : file.Paired mount files other)
    (request : FileRequest) :
    SameAnswer (Alike part mount files dirs) ((onFile file request).outcome left)
      ((onFile other request).outcome right) := by
  cases hpaired with
  | closed hfirst hsecond =>
      rw [outcome_onFile_of_closed left hfirst, outcome_onFile_of_closed right hsecond]
      exact ⟨rfl, halike⟩
  | opened hfirst hsecond hpair =>
      rw [outcome_onFile_of_open left hfirst, outcome_onFile_of_open right hsecond,
        halike.answers.outcome_onMount halike.live,
        halike.right_answers.outcome_onMount halike.right_live]
      dsimp only [memoryOutcome]
      rw [halike.info_eq]
      exact halike.sameAnswer (halike.memory.onFile _ hpair request)

omit halike in
theorem writeAll (halike : Alike part mount files dirs left right) {file other : OpenFile}
    (hpaired : file.Paired mount files other) (bytes : Bytes) :
    SameAnswer (Alike part mount files dirs) ((writeAll file bytes).outcome left)
      ((writeAll other bytes).outcome right) := by
  induction bytes using payload_induct generalizing left right with
  | nil =>
      rw [outcome_writeAll_nil, outcome_writeAll_nil]
      exact ⟨rfl, halike⟩
  | drop bytes hbytes ih =>
      obtain ⟨hanswer, hlater⟩ := halike.onFile hpaired (.write bytes)
      rw [outcome_writeAll left file hbytes, outcome_writeAll right other hbytes]
      rcases hleft : (Storage.onFile file (.write bytes)).outcome left with ⟨answer, after⟩
      rcases hright : (Storage.onFile other (.write bytes)).outcome right with ⟨_, later⟩
      rw [hleft, hright] at hanswer hlater
      -- Both sides take as much of the payload, so the same is left of it.
      cases hanswer
      rcases answer with cause | count
      · exact ⟨rfl, hlater⟩
      · cases count with
        | zero => exact ⟨rfl, hlater⟩
        | succ count => exact ih count hlater

omit halike in
theorem readEntry (halike : Alike part mount files dirs left right) {handle other : DirHandle}
    (hpair : dirs handle.number other.number) (attempts : Nat) :
    SameAnswer (Alike part mount files dirs) ((readEntry mount.id handle attempts).outcome left)
      ((readEntry mount.id other attempts).outcome right) := by
  induction attempts generalizing left right with
  | zero => exact ⟨rfl, halike⟩
  | succ attempts ih =>
      have hnext := halike.sameAnswer
        (halike.memory.onDir (left.env.blocks.info mount.device) hpair .next)
      have hleft := halike.answers.outcome_onMount halike.live (.onDir .next handle)
      have hright := halike.right_answers.outcome_onMount halike.right_live (.onDir .next other)
      rw [outcome_readEntry_succ, outcome_readEntry_succ, hleft, hright]
      dsimp only [memoryOutcome]
      rw [halike.info_eq]
      obtain ⟨hanswer, hlater⟩ := hnext
      dsimp only at hanswer
      rw [← hanswer]
      split
      · exact ih hlater
      · exact ⟨rfl, hlater⟩

theorem closeFile {file other : OpenFile} (hpaired : file.Paired mount files other) :
    SameAnswer (fun first second =>
        first.1.Paired mount files second.1 ∧ Alike part mount files dirs first.2 second.2)
      (closeFile.outcome (file, left)) (closeFile.outcome (other, right)) := by
  cases hpaired with
  | closed hfirst hsecond =>
      rw [outcome_closeFile_of_closed left hfirst, outcome_closeFile_of_closed right hsecond]
      exact ⟨rfl, .closed hfirst hsecond, halike⟩
  | opened hfirst hsecond hpair =>
      have hclose := halike.onFile (.opened hfirst hsecond hpair) .close
      rw [outcome_onFile_of_open left hfirst, outcome_onFile_of_open right hsecond] at hclose
      rw [outcome_closeFile_of_open left hfirst, outcome_closeFile_of_open right hsecond]
      exact ⟨hclose.1, .closed rfl rfl, hclose.2⟩

theorem readDir {dir other : OpenDir} (hpaired : dir.Paired mount dirs other) (attempts : Nat) :
    SameAnswer (fun first second =>
        first.1.Paired mount dirs second.1 ∧ Alike part mount files dirs first.2 second.2)
      ((readDir attempts).outcome (dir, left)) ((readDir attempts).outcome (other, right)) := by
  cases hpaired with
  | closed => exact ⟨rfl, .closed, halike⟩
  | opened hpair =>
      have hread := halike.readEntry hpair attempts
      rw [outcome_readDir_backend, outcome_readDir_backend]
      exact ⟨hread.1, .opened hpair, hread.2⟩

theorem closeDir {dir other : OpenDir} (hpaired : dir.Paired mount dirs other) :
    SameAnswer (fun first second =>
        first.1.Paired mount dirs second.1 ∧ Alike part mount files dirs first.2 second.2)
      (closeDir.outcome (dir, left)) (closeDir.outcome (other, right)) := by
  cases hpaired with
  | closed => exact ⟨rfl, .closed, halike⟩
  | opened hpair =>
      rw [outcome_closeDir_backend, outcome_closeDir_backend,
        halike.answers.outcome_onMount halike.live,
        halike.right_answers.outcome_onMount halike.right_live]
      dsimp only [memoryOutcome]
      rw [halike.info_eq]
      have hclose := halike.sameAnswer
        (halike.memory.onDir (left.env.blocks.info mount.device) hpair .close)
      exact ⟨hclose.1, .closed, hclose.2⟩

/-- A file is opened on both sides, under numbers that stand for each other from there on. -/
theorem openFile {path : String} (hpath : left.resolve path = .ok mount) (options : OpenOptions) :
    ∃ more : Pairing, (∀ first second, files first second → more first second) ∧
      Corresponds (OpenFile.Paired mount more) ((openFile path options).outcome left).1
        ((openFile path options).outcome right).1 ∧
      Alike part mount more dirs ((openFile path options).outcome left).2
        ((openFile path options).outcome right).2 := by
  have hright := (resolve_of_sameTables halike.sameTables path).trans hpath
  obtain ⟨more, hmore, hanswers, hmemory⟩ := halike.memory.openFile
    (left.env.blocks.info mount.device) (mount.path.relative path) options
  refine ⟨more, hmore, ?_⟩
  rw [halike.answers.outcome_openFile hpath, halike.right_answers.outcome_openFile hright]
  dsimp only [memoryOutcome]
  rw [halike.info_eq]
  exact ⟨hanswers.map fun _ _ hpair => .opened rfl rfl hpair, halike.mapHost hmemory⟩

/-- A directory is opened on both sides, under numbers that stand for each other from there on. -/
theorem openDir {path : String} (hpath : left.resolve path = .ok mount) :
    ∃ more : Pairing, (∀ first second, dirs first second → more first second) ∧
      Corresponds (OpenDir.Paired mount more) ((openDir path).outcome left).1
        ((openDir path).outcome right).1 ∧
      Alike part mount files more ((openDir path).outcome left).2
        ((openDir path).outcome right).2 := by
  have hright := (resolve_of_sameTables halike.sameTables path).trans hpath
  obtain ⟨more, hmore, hanswers, hmemory⟩ := halike.memory.openDir
    (left.env.blocks.info mount.device) (mount.path.relative path)
  refine ⟨more, hmore, ?_⟩
  rw [halike.answers.outcome_openDir hpath, halike.right_answers.outcome_openDir hright]
  dsimp only [memoryOutcome]
  rw [halike.info_eq]
  exact ⟨hanswers.map fun _ _ hpair => .opened hpair, halike.mapHost hmemory⟩

end Alike

end Storage

/-! ## What a client has opened -/

section Slots

variable {α : Type} {related : α → α → Prop} {items others : List α}

theorem forall₂_getD (hitems : List.Forall₂ related items others) {default : α}
    (hdefault : related default default) (slot : Nat) :
    related (items.getD slot default) (others.getD slot default) := by
  induction hitems generalizing slot with
  | nil => exact hdefault
  | cons hfirst _ ih =>
      cases slot with
      | zero => exact hfirst
      | succ slot => exact ih slot

theorem forall₂_set (hitems : List.Forall₂ related items others) (slot : Nat) {item other : α}
    (hitem : related item other) :
    List.Forall₂ related (items.set slot item) (others.set slot other) := by
  induction hitems generalizing slot with
  | nil => exact .nil
  | cons hfirst hrest ih =>
      cases slot with
      | zero => exact .cons hitem hrest
      | succ slot => exact .cons hfirst (ih slot)

end Slots

namespace Client

/-- Two clients have opened the same, slot by slot, under numbers that stand for each other. -/
structure Alike (mount : MountPoint) (files dirs : Pairing) (first second : Client) : Prop where
  files : List.Forall₂ (OpenFile.Paired mount files) first.files second.files
  dirs : List.Forall₂ (OpenDir.Paired mount dirs) first.dirs second.dirs

namespace Alike

variable {first second : Client} (halike : Alike mount files dirs first second)

include halike

theorem file (slot : Nat) : (first.file slot).Paired mount files (second.file slot) :=
  forall₂_getD halike.files (.closed rfl rfl) slot

theorem dir (slot : Nat) : (first.dir slot).Paired mount dirs (second.dir slot) :=
  forall₂_getD halike.dirs .closed slot

theorem setFile (slot : Nat) {file other : OpenFile} (hpaired : file.Paired mount files other) :
    Alike mount files dirs (first.setFile slot file) (second.setFile slot other) :=
  ⟨forall₂_set halike.files slot hpaired, halike.dirs⟩

theorem setDir (slot : Nat) {dir other : OpenDir} (hpaired : dir.Paired mount dirs other) :
    Alike mount files dirs (first.setDir slot dir) (second.setDir slot other) :=
  ⟨halike.files, forall₂_set halike.dirs slot hpaired⟩

theorem addFile (hmore : ∀ left right, files left right → more left right)
    {answer other : Except StorageError OpenFile}
    (hanswers : Corresponds (OpenFile.Paired mount more) answer other) :
    Alike mount more dirs (first.addFile answer) (second.addFile other) := by
  have hfiles : List.Forall₂ (OpenFile.Paired mount more) first.files second.files := by
    refine halike.files.imp fun file other hpaired => ?_
    cases hpaired with
    | closed hfirst hsecond => exact .closed hfirst hsecond
    | opened hfirst hsecond hpair => exact .opened hfirst hsecond (hmore _ _ hpair)
  cases hanswers with
  | ok hpaired => exact ⟨List.rel_append hfiles (.cons hpaired .nil), halike.dirs⟩
  | error cause => exact ⟨hfiles, halike.dirs⟩

theorem addDir (hmore : ∀ left right, dirs left right → more left right)
    {answer other : Except StorageError OpenDir}
    (hanswers : Corresponds (OpenDir.Paired mount more) answer other) :
    Alike mount files more (first.addDir answer) (second.addDir other) := by
  have hdirs : List.Forall₂ (OpenDir.Paired mount more) first.dirs second.dirs := by
    refine halike.dirs.imp fun dir other hpaired => ?_
    cases hpaired with
    | closed => exact .closed
    | opened hpair => exact .opened (hmore _ _ hpair)
  cases hanswers with
  | ok hpaired => exact ⟨halike.files, List.rel_append hdirs (.cons hpaired .nil)⟩
  | error cause => exact ⟨halike.files, hdirs⟩

end Alike

/-- Two clients of a mount and the storage layers that they work on are alike. -/
def InStep (part : Part ω MemoryFs) (mount : MountPoint) (left right : Client × Storage δ ω) : Prop :=
  ∃ files dirs, left.1.Alike mount files dirs right.1 ∧ left.2.Alike part mount files dirs right.2

end Client

/-- What an opening answers to a client is the same on both sides. -/
theorem Corresponds.map_unit {α β : Type} {related : α → β → Prop} {first : Except StorageError α}
    {second : Except StorageError β} (hanswers : Corresponds related first second) :
    (first.map fun _ => ()) = second.map fun _ => () := by
  cases hanswers <;> rfl

/-- A call is answered alike on both sides. -/
theorem ClientCall.inStep {call : ClientCall} {left right : Client × Storage δ ω}
    (hstep : Client.InStep part mount left right) (hthrough : call.Through left.2 mount) :
    SameAnswer (Client.InStep part mount) (call.perform left) (call.perform right) := by
  obtain ⟨files, dirs, hclients, hstorages⟩ := hstep
  obtain ⟨client, storage⟩ := left
  obtain ⟨other, later⟩ := right
  have hkept {α : Type} {first second : Except StorageError α × Storage δ ω}
      (hsame : SameAnswer (Storage.Alike part mount files dirs) first second) :
      SameAnswer (Client.InStep part mount) (first.1, client, first.2) (second.1, other, second.2) :=
    ⟨hsame.1, files, dirs, hclients, hsame.2⟩
  cases call with
  | onPath request path =>
      exact hkept (hstorages.onPath hthrough.1 hthrough.2.1 hthrough.2.2)
  | rename source target => exact hkept (hstorages.rename hthrough target)
  | openFile path options =>
      obtain ⟨more, hmore, hanswers, hafter⟩ := hstorages.openFile hthrough options
      exact ⟨hanswers.map_unit, more, dirs, hclients.addFile hmore hanswers, hafter⟩
  | onFile slot request => exact hkept (hstorages.onFile (hclients.file slot) request)
  | writeAll slot bytes => exact hkept (hstorages.writeAll (hclients.file slot) bytes)
  | closeFile slot =>
      obtain ⟨hanswer, hfile, hafter⟩ := hstorages.closeFile (hclients.file slot)
      exact ⟨hanswer, files, dirs, hclients.setFile slot hfile, hafter⟩
  | openDir path =>
      obtain ⟨more, hmore, hanswers, hafter⟩ := hstorages.openDir hthrough
      exact ⟨hanswers.map_unit, files, more, hclients.addDir hmore hanswers, hafter⟩
  | readDir attempts slot =>
      obtain ⟨hanswer, hdir, hafter⟩ := hstorages.readDir (hclients.dir slot) attempts
      exact ⟨hanswer, files, dirs, hclients.setDir slot hdir, hafter⟩
  | closeDir slot =>
      obtain ⟨hanswer, hdir, hafter⟩ := hstorages.closeDir (hclients.dir slot)
      exact ⟨hanswer, files, dirs, hclients.setDir slot hdir, hafter⟩

/-- All calls are answered alike on both sides. -/
theorem Client.answers_run {calls : List ClientCall} {left right : Client × Storage δ ω}
    (hstep : Client.InStep part mount left right)
    (hcalls : ∀ call ∈ calls, call.Through left.2 mount) :
    (Client.run calls left).1 = (Client.run calls right).1 := by
  induction calls generalizing left right with
  | nil => rfl
  | cons call rest ih =>
      obtain ⟨hcall, hrest⟩ := List.forall_mem_cons.mp hcalls
      obtain ⟨hanswer, hlater⟩ := call.inStep hstep hcall
      have htables := call.sameTables_perform left.1 left.2
      have hanswers := ih hlater fun later hmem => (hrest later hmem).sameTables htables
      rw [run, run]
      dsimp only
      rw [hanswer, hanswers]

end StorageStack

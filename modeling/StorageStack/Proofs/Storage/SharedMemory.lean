import StorageStack.Handset
import StorageStack.Proofs.Storage.ClientsInStep

/-! # Mounts that share a memory filesystem

Several mounts may be served by one memory filesystem, under types of their own and one below the
other. Each handle that the memory filesystem has given out belongs to the mount that it was opened
through, so what is done through one mount leaves the others as they are, and their clients do not
see it.
-/

namespace StorageStack

namespace Storage

variable {δ ω : Type} [DiskDriver δ] {part : Part ω MemoryFs} {storage after : Storage δ ω}
  {mount other : MountPoint} {operation : Operation δ ω} {run : List (Operation δ ω)}
  {handle : MemoryFs.Handle}

/-! ## Where handles come from -/

/-- The operation opens a file or a directory through a mount of the memory filesystem, under this
handle. -/
inductive Opens (part : Part ω MemoryFs) (storage : Storage δ ω) (mount : MountPoint) :
    Operation δ ω → MemoryFs.Handle → Prop
  | file {path : String} {options : OpenOptions} {handle : FileHandle}
      (hanswers : storage.Answers part mount) (hpath : storage.resolve path = .ok mount)
      (hopen : ((openFile path options).outcome storage).1 = .ok ⟨handle, some mount.id⟩) :
      Opens part storage mount (.openFile path options) (.file handle)
  | dir {path : String} {handle : DirHandle}
      (hanswers : storage.Answers part mount) (hpath : storage.resolve path = .ok mount)
      (hopen : ((openDir path).outcome storage).1 = .ok (.backend handle mount.id)) :
      Opens part storage mount (.openDir path) (.dir handle)

/-- Some operation of the run opened the handle through the mount. -/
def OpenedThrough (part : Part ω MemoryFs) (mount : MountPoint) (handle : MemoryFs.Handle) :
    Storage δ ω → List (Operation δ ω) → Prop
  | _, [] => False
  | storage, operation :: rest =>
      storage.Opens part mount operation handle ∨
        OpenedThrough part mount handle (operation.state storage) rest

/-- An opening gives out the next number. -/
theorem Opens.number_eq (hopens : storage.Opens part mount operation handle) :
    handle.number = (storage.memory part).lastId + 1 ∧
      handle.number ≤ ((operation.state storage).memory part).lastId := by
  cases hopens with
  | file hanswers hpath hopen =>
      obtain ⟨-, hnumber, howned⟩ := hanswers.openFile_eq_ok hpath (Prod.ext hopen rfl)
      exact ⟨hnumber, howned.given⟩
  | dir hanswers hpath hopen =>
      obtain ⟨_, hhandle, hnumber, hlast⟩ := hanswers.openDir_eq_ok hpath (Prod.ext hopen rfl)
      cases hhandle
      exact ⟨hnumber, Nat.le_of_eq (hnumber.trans hlast.symm)⟩

theorem Opens.mount_eq (hfirst : storage.Opens part mount operation handle)
    (hsecond : storage.Opens part other operation handle) : mount = other := by
  cases hfirst with
  | file _ hpath =>
      cases hsecond with
      | file _ hother => exact Except.ok.inj (hpath.symm.trans hother)
  | dir _ hpath =>
      cases hsecond with
      | dir _ hother => exact Except.ok.inj (hpath.symm.trans hother)

theorem Hosts.lastId_le_state (hhosts : Hosts part storage) (hregular : operation.Regular part) :
    (storage.memory part).lastId ≤ ((operation.state storage).memory part).lastId :=
  (traffic_state hhosts.sound hhosts.regular hregular).lastId_le

theorem Hosts.lastId_le_after (hhosts : Hosts part storage)
    (hrun : ∀ operation ∈ run, operation.Regular part) :
    (storage.memory part).lastId ≤ ((storage.after run).memory part).lastId := by
  induction run generalizing storage with
  | nil => exact Nat.le_refl _
  | cons operation rest ih =>
      obtain ⟨hfirst, hrest⟩ := List.forall_mem_cons.mp hrun
      exact Nat.le_trans (hhosts.lastId_le_state hfirst) (ih (hhosts.state hfirst) hrest)

/-- A number keeps its owner in every run. -/
theorem Hosts.owned_after (hhosts : Hosts part storage)
    (hrun : ∀ operation ∈ run, operation.Regular part) {volume number : Nat}
    (howned : (storage.memory part).Owned volume number) :
    ((storage.after run).memory part).Owned volume number := by
  induction run generalizing storage with
  | nil => exact howned
  | cons operation rest ih =>
      obtain ⟨hfirst, hrest⟩ := List.forall_mem_cons.mp hrun
      have hkept := (traffic_state hhosts.sound hhosts.regular hfirst).keeps
        (motive := fun fs => fs.Owned volume number) (fun _ heffect => heffect.owned)
        (fun _ _ _ _ hprior => ⟨hprior.given, hprior.own⟩) howned
      exact ih (hhosts.state hfirst) hrest hkept

/-- What a run opens has a number that was new then. -/
theorem OpenedThrough.number (hopened : OpenedThrough part mount handle storage run)
    (hhosts : Hosts part storage) (hrun : ∀ operation ∈ run, operation.Regular part) :
    (storage.memory part).lastId < handle.number ∧
      handle.number ≤ ((storage.after run).memory part).lastId := by
  induction run generalizing storage with
  | nil => exact hopened.elim
  | cons operation rest ih =>
      obtain ⟨hfirst, hrest⟩ := List.forall_mem_cons.mp hrun
      have hstate := hhosts.state hfirst
      rcases hopened with hopens | hlater
      · obtain ⟨hnumber, hgiven⟩ := hopens.number_eq
        exact ⟨Nat.lt_of_lt_of_eq (Nat.lt_succ_self _) hnumber.symm,
          Nat.le_trans hgiven (hstate.lastId_le_after hrest)⟩
      · obtain ⟨hnew, hgiven⟩ := ih hlater hstate hrest
        exact ⟨Nat.lt_of_le_of_lt (hhosts.lastId_le_state hfirst) hnew, hgiven⟩

/-- A handle is opened through one mount only. -/
theorem OpenedThrough.mount_eq (hfirst : OpenedThrough part mount handle storage run)
    (hsecond : OpenedThrough part other handle storage run) (hhosts : Hosts part storage)
    (hrun : ∀ operation ∈ run, operation.Regular part) : mount = other := by
  induction run generalizing storage with
  | nil => exact hfirst.elim
  | cons operation rest ih =>
      obtain ⟨hregular, hrest⟩ := List.forall_mem_cons.mp hrun
      have hstate := hhosts.state hregular
      -- A handle that was opened first thing has a number that is given out from there on.
      have hnew {point another : MountPoint} (hopens : storage.Opens part point operation handle)
          (hlater : OpenedThrough part another handle (operation.state storage) rest) : False :=
        Nat.not_lt_of_le hopens.number_eq.2 (hlater.number hstate hrest).1
      rcases hfirst with hfirst | hfirst <;> rcases hsecond with hsecond | hsecond
      · exact hfirst.mount_eq hsecond
      · exact (hnew hfirst hsecond).elim
      · exact (hnew hsecond hfirst).elim
      · exact ih hfirst hsecond hstate hrest

/-- A file is in the volume of the mount that it was opened through. -/
theorem OpenedThrough.owned {file : FileHandle}
    (hopened : OpenedThrough part mount (.file file) storage run) (hhosts : Hosts part storage)
    (hrun : ∀ operation ∈ run, operation.Regular part) :
    ((storage.after run).memory part).Owned mount.data.value file.number := by
  induction run generalizing storage with
  | nil => exact hopened.elim
  | cons operation rest ih =>
      obtain ⟨hfirst, hrest⟩ := List.forall_mem_cons.mp hrun
      have hstate := hhosts.state hfirst
      rcases hopened with hopens | hlater
      · cases hopens with
        | file hanswers hpath hopen =>
            exact hstate.owned_after hrest (hanswers.openFile_eq_ok hpath (Prod.ext hopen rfl)).2.2
      · exact ih hlater hstate hrest

theorem Opens.openedThrough {start : Storage δ ω} {earlier : List (Operation δ ω)}
    (hopens : (start.after earlier).Opens part mount operation handle) (later : List (Operation δ ω)) :
    OpenedThrough part mount handle start (earlier ++ operation :: later) := by
  induction earlier generalizing start with
  | nil => exact .inl hopens
  | cons first rest ih => exact .inr (ih hopens)

/-- What is open after an operation was open before, or the operation has opened it. -/
theorem Hosts.isOpen_state (hhosts : Hosts part storage) (hregular : operation.Regular part)
    (hopen : ((operation.state storage).memory part).IsOpen handle) :
    (storage.memory part).IsOpen handle ∨ ∃ mount, storage.Opens part mount operation handle := by
  -- That a handle has been added does not tell what was answered, so openings are taken one by one.
  by_cases hopening : ∃ mount request, storage.Answers part mount ∧
      operation.Asks storage mount request ∧ request.IsOpening
  · obtain ⟨mount, request, hanswers, hasked, hopening⟩ := hopening
    cases hasked with
    | openFile hpath =>
        rw [Operation.state, hanswers.outcome_openFile hpath, memory_mapHost] at hopen
        refine (MemoryFs.isOpen_openFile hopen).imp_right ?_
        rintro ⟨opened, rfl, hanswer⟩
        refine ⟨mount, .file hanswers hpath ?_⟩
        rw [hanswers.outcome_openFile hpath]
        exact congrArg (Except.map _) hanswer
    | openDir hpath =>
        rw [Operation.state, hanswers.outcome_openDir hpath, memory_mapHost] at hopen
        refine (MemoryFs.isOpen_openDir hopen).imp_right ?_
        rintro ⟨opened, rfl, hanswer⟩
        refine ⟨mount, .dir hanswers hpath ?_⟩
        rw [hanswers.outcome_openDir hpath]
        exact congrArg (Except.map _) hanswer
    | @onPath asked =>
        cases asked with
        | openFile | openDir => exact hregular.elim
        | _ => exact hopening.elim
    | _ => exact hopening.elim
  · left
    revert hopen
    exact (traffic_state hhosts.sound hhosts.regular hregular).keeps
      (motive := fun fs => fs.IsOpen handle → (storage.memory part).IsOpen handle)
      (fun {mount request _ _} hasked heffect hprior hlater => by
        have hother : ¬request.IsOpening := fun hrequest =>
          hopening ⟨mount, request, hasked.1, hasked.2, hrequest⟩
        exact hprior (heffect.isOpen hother hlater))
      (fun _ _ _ _ hprior hlater => hprior (by cases handle <;> exact hlater)) id

/-- What is open after a run was open before, or was opened through some mount. -/
theorem Hosts.isOpen_after (hhosts : Hosts part storage)
    (hrun : ∀ operation ∈ run, operation.Regular part)
    (hopen : ((storage.after run).memory part).IsOpen handle) :
    (storage.memory part).IsOpen handle ∨ ∃ mount, OpenedThrough part mount handle storage run := by
  induction run generalizing storage with
  | nil => exact .inl hopen
  | cons operation rest ih =>
      obtain ⟨hfirst, hrest⟩ := List.forall_mem_cons.mp hrun
      rcases ih (hhosts.state hfirst) hrest hopen with hmiddle | ⟨mount, hlater⟩
      · exact (hhosts.isOpen_state hfirst hmiddle).imp_right fun ⟨mount, hopens⟩ =>
          ⟨mount, .inl hopens⟩
      · exact .inr ⟨mount, .inr hlater⟩

end Storage

/-! ## Clients of one run -/

section Clients

variable {δ ω : Type} [DiskDriver δ] {part : Part ω MemoryFs} {start before after : Storage δ ω}
  {mount other : MountPoint} {run : List (Operation δ ω)} {client watcher : Client}

open Storage

/-- What a client has, the run opened through the mount, or it has been closed. -/
structure Client.Holds (part : Part ω MemoryFs) (start : Storage δ ω) (run : List (Operation δ ω))
    (mount : MountPoint) (client : Client) : Prop where
  files : ∀ file ∈ client.files, file.mount = none ∨
    file.mount = some mount.id ∧ start.OpenedThrough part mount (.file file.handle) run
  dirs : ∀ dir ∈ client.dirs, dir = .closed ∨
    ∃ handle, dir = .backend handle mount.id ∧ start.OpenedThrough part mount (.dir handle) run

/-- What the memory filesystem has of a mount is the same: files, directories and permissions, open
files with their positions, and what is left to read of open directories. -/
structure Storage.Untouched (part : Part ω MemoryFs) (start : Storage δ ω)
    (run : List (Operation δ ω)) (mount : MountPoint) (before after : Storage δ ω) : Prop where
  volume_eq :
    (after.memory part).volume mount.data.value = (before.memory part).volume mount.data.value
  streams_iff : ∀ (number : Nat) (stream : Stream), stream.volume = mount.data.value →
    ((after.memory part).streams[number]? = some stream ↔
      (before.memory part).streams[number]? = some stream)
  listings_eq : ∀ handle, start.OpenedThrough part mount (.dir handle) run →
    (after.memory part).listings[handle.number]? = (before.memory part).listings[handle.number]?

theorem Client.Holds.serviced (hholds : client.Holds part start run mount)
    (hstart : Hosts part start) (hrun : ∀ operation ∈ run, operation.Regular part)
    (hlive : (start.after run).mountOf? mount.id = some mount)
    (hanswers : (start.after run).Answers part mount) :
    client.Serviced part mount (start.after run) where
  hosts := hstart.after_run hrun
  live := hlive
  answers := hanswers
  bound := {
    files file hfile := (hholds.files file hfile).imp_right fun hopen =>
      ⟨hopen.1, hopen.2.owned hstart hrun⟩
    dirs dir hdir := (hholds.dirs dir hdir).imp_right fun ⟨handle, hhandle, hopened⟩ =>
      ⟨handle, hhandle, (hopened.number hstart hrun).2⟩ }

/-- A directory of a client of one mount was not opened through another. -/
theorem Client.Holds.not_hasDir (hholds : client.Holds part start run mount)
    (hstart : Hosts part start) (hrun : ∀ operation ∈ run, operation.Regular part)
    (hother : other ≠ mount) {handle : DirHandle}
    (hopened : start.OpenedThrough part other (.dir handle) run) : ¬client.HasDir handle.number := by
  rintro ⟨id, hmem⟩
  rcases hholds.dirs _ hmem with hclosed | ⟨held, hheld, hthrough⟩
  · cases hclosed
  · cases hheld
    exact hother (hopened.mount_eq hthrough hstart hrun)

/-- A client is alike to itself, by the numbers of what it has. -/
theorem Client.Holds.alike (hholds : watcher.Holds part start run other) (hstart : Hosts part start)
    (hrun : ∀ operation ∈ run, operation.Regular part) :
    watcher.Alike other
      (fun first second =>
        first = second ∧ ((start.after run).memory part).Owned other.data.value first)
      (fun first second => first = second ∧ start.OpenedThrough part other (.dir ⟨first⟩) run)
      watcher where
  files := List.forall₂_same.mpr fun file hfile => by
    rcases hholds.files file hfile with hclosed | ⟨hopen, hopened⟩
    · exact .closed hclosed hclosed
    · exact .opened hopen hopen ⟨rfl, hopened.owned hstart hrun⟩
  dirs := List.forall₂_same.mpr fun dir hdir => by
    rcases hholds.dirs dir hdir with rfl | ⟨handle, rfl, hopened⟩
    · exact .closed
    · exact .opened ⟨rfl, hopened⟩

/-- What a client does through its mount leaves another mount untouched. -/
theorem Client.Holds.untouched (hholds : client.Holds part start run mount)
    (hstart : Hosts part start) (hrun : ∀ operation ∈ run, operation.Regular part)
    (hconfined : Confined part mount.data.value client.HasDir (start.after run) after)
    (hother : other ≠ mount) (hvolume : other.data.value ≠ mount.data.value) :
    Untouched part start run other (start.after run) after where
  volume_eq := hconfined.apart.volumes _ hvolume
  streams_iff number stream hstream :=
    hconfined.apart.streams number stream (hstream.symm ▸ hvolume)
  listings_eq _ hopened := hconfined.apart.listings _ (hopened.number hstart hrun).2
    (hholds.not_hasDir hstart hrun hother hopened)

/-- A client of another mount cannot tell whether a client has been at work. -/
theorem Client.Holds.inStep (hholds : client.Holds part start run mount)
    (hwatches : watcher.Holds part start run other) (hstart : Hosts part start)
    (hrun : ∀ operation ∈ run, operation.Regular part)
    (hconfined : Confined part mount.data.value client.HasDir (start.after run) after)
    (hother : other ≠ mount) (hvolume : other.data.value ≠ mount.data.value)
    (hlive : (start.after run).mountOf? other.id = some other)
    (hanswers : (start.after run).Answers part other) :
    Client.InStep part other (watcher, start.after run) (watcher, after) := by
  refine ⟨_, _, hwatches.alike hstart hrun, hconfined.same, hlive, hanswers, ?_⟩
  exact hconfined.apart.alike hvolume (hconfined.owned _) fun number hopened =>
    ⟨(hopened.number hstart hrun).2, hholds.not_hasDir hstart hrun hother hopened⟩

end Clients

namespace Storage

variable {δ ω : Type} [DiskDriver δ] {part : Part ω MemoryFs}

/-- After every run over a memory filesystem that was empty, the mounts that it serves do not
interfere. They have volumes of their own. Each open file and each open directory belongs to the one
mount that it was opened through. Whatever a client does through a mount, with files and directories
opened through it, leaves the other mounts untouched, and answers to clients of these stay the
same. -/
theorem mounts_isolated_after (blocks : BlockDevices δ) {host : ω} (hfresh : part.get host = {})
    (run : List (Operation δ ω)) (hrun : ∀ operation ∈ run, operation.Regular part) :
    let start := ofBlocks blocks host
    let storage := start.after run
    (start.mountCount run ≤ UInt32.size →
      ∀ mount ∈ storage.mounts, storage.mountOf? mount.id = some mount) ∧
    (∀ first ∈ storage.mounts, ∀ second ∈ storage.mounts, storage.Answers part first →
      storage.Answers part second → first.data = second.data → first = second) ∧
    (∀ handle, (storage.memory part).IsOpen handle →
      ∃! mount, start.OpenedThrough part mount handle run) ∧
    (∀ handle mount, start.OpenedThrough part mount (.file handle) run →
      ∀ stream : Stream, (storage.memory part).streams[handle.number]? = some stream →
        stream.volume = mount.data.value) ∧
    ∀ mount, storage.mountOf? mount.id = some mount → storage.Answers part mount →
      ∀ client : Client, client.Holds part start run mount →
        ∀ calls : List ClientCall, (∀ call ∈ calls, call.Through storage mount) →
          let after := (Client.run calls (client, storage)).2.2
          ∀ other ∈ storage.mounts, storage.Answers part other → other ≠ mount →
            Untouched part start run other storage after ∧
            (storage.mountOf? other.id = some other →
              ∀ watcher : Client, watcher.Holds part start run other →
                ∀ asked : List ClientCall, (∀ call ∈ asked, call.Through storage other) →
                  (Client.run asked (watcher, after)).1 = (Client.run asked (watcher, storage)).1) := by
  intro start storage
  have hstart : Hosts part start := hosts_ofBlocks blocks hfresh
  have hhosts : Hosts part storage := hstart.after_run hrun
  refine ⟨fun hcount mount => mountOf?_after hcount, hhosts.distinct, fun handle hopen => ?_,
    fun handle mount hopened => (hopened.owned hstart hrun).own, ?_⟩
  · rcases hstart.isOpen_after hrun hopen with hold | ⟨mount, hopened⟩
    · have hnone : ¬(start.memory part).IsOpen handle := by
        rw [show start.memory part = {} from hfresh]
        cases handle <;> simp [MemoryFs.IsOpen]
      exact absurd hold hnone
    · exact ⟨mount, hopened, fun another hanother => hanother.mount_eq hopened hstart hrun⟩
  · intro mount hlive hanswers client hholds calls hcalls after other hmem hanswered hother
    have hvolume : other.data.value ≠ mount.data.value := fun hvalue =>
      hother (hhosts.distinct other hmem mount (List.mem_of_find?_eq_some hlive) hanswered hanswers
        (congrArg MountData.mk hvalue))
    have hconfined := Client.confined_run (hholds.serviced hstart hrun hlive hanswers) hcalls
    refine ⟨hholds.untouched hstart hrun hconfined hother hvolume,
      fun hwatched watcher hwatches asked hasked => ?_⟩
    have hstep := hholds.inStep hwatches hstart hrun hconfined hother hvolume hwatched hanswered
    exact (Client.answers_run hstep hasked).symm

/-- Two mounts under two types, one below the other, each with a file of the same name. A client of
the upper one overwrites, renames and lists, while a client of the lower one has a file and a
directory open. -/
theorem mounts_isolated_after_nested :
    let part := Part.whole MemoryFs
    let start : Storage RamDisk MemoryFs := ofBlocks (Handset.blocks id) {}
    let upper : MountPoint := ⟨.first, ⟨"/os", by decide⟩, ⟨.user, 2⟩, .ext4, ⟨1⟩⟩
    let lower : MountPoint := ⟨.next .first, ⟨"/os/data", by decide⟩, ⟨.user, 1⟩, .fat, ⟨2⟩⟩
    let run : List (Operation RamDisk MemoryFs) :=
      [.register .ext4 (MemoryFs.backend none part), .register .fat (MemoryFs.backend none part),
        .mount "/os" ⟨.user, 2⟩ .ext4, .mount "/os/data" ⟨.user, 1⟩ .fat,
        .openFile "/os/a" .writeOnly, .openFile "/os/data/a" .writeOnly,
        .writeAll ⟨⟨4⟩, some lower.id⟩ [1, 2, 3], .openDir "/os", .openDir "/os/data"]
    let storage := start.after run
    let client : Client := ⟨[⟨⟨3⟩, some upper.id⟩], [.backend ⟨5⟩ upper.id]⟩
    let watcher : Client := ⟨[⟨⟨4⟩, some lower.id⟩], [.backend ⟨6⟩ lower.id]⟩
    let calls : List ClientCall :=
      [.writeAll 0 [9], .rename "/os/a" "/os/b", .readDir 4 0, .closeFile 0, .openDir "/os"]
    let asked : List ClientCall :=
      [.onFile 0 (.seek (.start 0)), .onFile 0 (.read 8), .readDir 4 0, .onPath .stat "/os/data/a",
        .openDir "/os/data", .readDir 4 1]
    let after := (Client.run calls (client, storage)).2.2
    (after.memory part).contents? 1 "/b" = some [9] ∧
      Untouched part start run lower storage after ∧
      (Client.run asked (watcher, after)).1 = (Client.run asked (watcher, storage)).1 := by
  intro part start upper lower run storage client watcher calls asked after
  have hrun : ∀ operation ∈ run, operation.Regular part := by
    simp only [run, List.forall_mem_cons]
    exact ⟨.inl ⟨none, rfl⟩, .inl ⟨none, rfl⟩, trivial, trivial, trivial, trivial, trivial, trivial,
      trivial, by simp⟩
  have hupper (rest : List (Operation RamDisk MemoryFs)) :
      (start.after (run.take 2 ++ rest)).Answers part upper := by
    rw [after_append]
    exact Answers.after_run ⟨none, rfl⟩ rest
  have hlower (rest : List (Operation RamDisk MemoryFs)) :
      (start.after (run.take 2 ++ rest)).Answers part lower := by
    rw [after_append]
    exact Answers.after_run ⟨none, rfl⟩ rest
  have hfacts : storage.mountOf? upper.id = some upper ∧ storage.mountOf? lower.id = some lower ∧
      lower ∈ storage.mounts ∧ lower ≠ upper ∧ storage.resolve "/os/a" = .ok upper ∧
      storage.resolve "/os" = .ok upper ∧ storage.resolve "/os/data" = .ok lower ∧
      storage.resolve "/os/data/a" = .ok lower ∧
      (after.memory part).contents? 1 "/b" = some [9] := by decide +kernel
  obtain ⟨hlive, hwatched, hmem, hother, hfile, hdir, hwatchedDir, hwatchedFile, hwritten⟩ := hfacts
  have hfiles : (start.after (run.take 4)).resolve "/os/a" = .ok upper ∧
      ((openFile "/os/a" .writeOnly).outcome (start.after (run.take 4))).1 =
        .ok ⟨⟨3⟩, some upper.id⟩ ∧
      (start.after (run.take 5)).resolve "/os/data/a" = .ok lower ∧
      ((openFile "/os/data/a" .writeOnly).outcome (start.after (run.take 5))).1 =
        .ok ⟨⟨4⟩, some lower.id⟩ := by decide +kernel
  have hdirs : (start.after (run.take 7)).resolve "/os" = .ok upper ∧
      ((openDir "/os").outcome (start.after (run.take 7))).1 = .ok (.backend ⟨5⟩ upper.id) ∧
      (start.after (run.take 8)).resolve "/os/data" = .ok lower ∧
      ((openDir "/os/data").outcome (start.after (run.take 8))).1 =
        .ok (.backend ⟨6⟩ lower.id) := by decide +kernel
  have hholds : client.Holds part start run upper := by
    constructor
    · have hopens : (start.after (run.take 4)).Opens part upper _ (.file ⟨3⟩) :=
        .file (hupper ((run.drop 2).take 2)) hfiles.1 hfiles.2.1
      exact List.forall_mem_singleton.mpr (.inr ⟨rfl, hopens.openedThrough (run.drop 5)⟩)
    · have hopens : (start.after (run.take 7)).Opens part upper _ (.dir ⟨5⟩) :=
        .dir (hupper ((run.drop 2).take 5)) hdirs.1 hdirs.2.1
      exact List.forall_mem_singleton.mpr (.inr ⟨⟨5⟩, rfl, hopens.openedThrough (run.drop 8)⟩)
  have hwatches : watcher.Holds part start run lower := by
    constructor
    · have hopens : (start.after (run.take 5)).Opens part lower _ (.file ⟨4⟩) :=
        .file (hlower ((run.drop 2).take 3)) hfiles.2.2.1 hfiles.2.2.2
      exact List.forall_mem_singleton.mpr (.inr ⟨rfl, hopens.openedThrough (run.drop 6)⟩)
    · have hopens : (start.after (run.take 8)).Opens part lower _ (.dir ⟨6⟩) :=
        .dir (hlower ((run.drop 2).take 6)) hdirs.2.2.1 hdirs.2.2.2
      exact List.forall_mem_singleton.mpr (.inr ⟨⟨6⟩, rfl, hopens.openedThrough (run.drop 9)⟩)
  have hcalls : ∀ call ∈ calls, call.Through storage upper := by
    simp only [calls, List.forall_mem_cons]
    exact ⟨trivial, hfile, trivial, trivial, hdir, by simp⟩
  have hasked : ∀ call ∈ asked, call.Through storage lower := by
    simp only [asked, List.forall_mem_cons]
    exact ⟨trivial, trivial, trivial, ⟨nofun, nofun, hwatchedFile⟩, hwatchedDir, trivial, by simp⟩
  obtain ⟨-, -, -, -, hisolated⟩ := mounts_isolated_after (Handset.blocks id) rfl run hrun
  obtain ⟨huntouched, hsame⟩ := hisolated upper hlive (hupper (run.drop 2)) client hholds calls
    hcalls lower hmem (hlower (run.drop 2)) hother
  exact ⟨hwritten, huntouched, hsame hwatched watcher hwatches asked hasked⟩

end Storage

end StorageStack

import StorageStack.Handset
import StorageStack.Proofs.Memory.Listing
import StorageStack.Proofs.Storage.MemoryHosts

/-! # Directory snapshots

The memory filesystem lists a directory when it is opened. What is made, written, renamed or removed
later does not show: the readings hand out what was in the directory then, entry by entry, and the
end from there on.
-/

namespace StorageStack

variable {δ ω : Type}

/-- The operation leaves an open directory of a mount as it is: the mount stays, and the directory is
neither read nor closed. -/
def Operation.LeavesOpen (mount : MountPoint) (handle : DirHandle) : Operation δ ω → Prop
  | .unmount path => path ≠ mount.path.text
  | .unmountAll => False
  | .readDir _ (.backend other _) => other ≠ handle
  | .closeDir (.backend other _) => other ≠ handle
  | _ => True

namespace Storage

section Mounts

variable {storage after : Storage δ ω}

theorem SameTables.mounts_eq (hsame : SameTables storage after) : after.mounts = storage.mounts := by
  obtain ⟨env, rfl⟩ := hsame
  rfl

/-- An operation puts records behind those in the mount table, unless it unmounts. -/
theorem mounts_state [DiskDriver δ] (operation : Operation δ ω) (storage : Storage δ ω) :
    (∃ made, (operation.state storage).mounts = storage.mounts ++ made) ∨
      (∃ mount, operation = .unmount mount.path.text ∧
        (operation.state storage).mounts = storage.mounts.erase mount) ∨
      operation = .unmountAll := by
  have hsame {after : Storage δ ω} (htables : SameTables storage after) :
      ∃ made, after.mounts = storage.mounts ++ made :=
    ⟨[], by rw [List.append_nil, htables.mounts_eq]⟩
  cases operation with
  | unmountAll => exact .inr (.inr rfl)
  | register fsType backend =>
      refine .inl ⟨[], ?_⟩
      rw [List.append_nil, Operation.state]
      unfold Action.outcome register
      split_ifs <;> rfl
  | mount path device fsType =>
      left
      dsimp only [Operation.state, Action.outcome]
      cases hmount : mount path device fsType storage with
      | error cause after => exact hsame (sameTables_of_mount_error hmount)
      | ok _ after =>
          obtain ⟨point, hmounts, -⟩ := change_of_mount_ok hmount
          exact ⟨[point], hmounts⟩
  | mountTable entries =>
      obtain ⟨made, -, hmounts, -⟩ := evolves_mountAll entries {} storage
      exact .inl ⟨made, hmounts⟩
  | unmount path =>
      rw [Operation.state]
      cases hfound : storage.mounts.find? fun mount => mount.path.text = path with
      | none =>
          rw [outcome_unmount_of_none hfound]
          exact .inl (hsame (.refl storage))
      | some mount =>
          have hserve := sameTables_serve storage mount .unmount
          have hpath : mount.path.text = path := by simpa using List.find?_some hfound
          rw [outcome_unmount_of_found hfound]
          rcases hanswer : (serve mount .unmount).outcome storage with ⟨cause | _, after⟩
          all_goals rw [hanswer] at hserve
          · exact .inl (hsame hserve)
          · exact .inr (.inl ⟨mount, hpath ▸ rfl, congrArg (List.erase · mount) hserve.mounts_eq⟩)
  | probeDisks => exact .inl (hsame (sameTables_probeDisks storage))
  | outside change => exact .inl (hsame ⟨_, rfl⟩)
  | onPath request path => exact .inl (hsame (outcome_onPath request path storage))
  | rename source target => exact .inl (hsame (sameTables_rename storage source target))
  | openFile path options => exact .inl (hsame (sameTables_openFile storage path options))
  | onFile file request => exact .inl (hsame (sameTables_onFile storage file request))
  | writeAll file bytes => exact .inl (hsame (sameTables_writeAll storage file bytes))
  | closeFile file => exact .inl (hsame (sameTables_closeFile storage file))
  | openDir path => exact .inl (hsame (sameTables_openDir storage path))
  | readDir attempts dir => exact .inl (hsame (sameTables_readDir storage attempts dir))
  | closeDir dir => exact .inl (hsame (sameTables_closeDir storage dir))

/-- A record is found as before when another is taken out. -/
theorem find?_erase_of_ne {mounts : List MountPoint} {found other : MountPoint}
    {wanted : MountPoint → Bool} (hfound : mounts.find? wanted = some found) (hne : other ≠ found) :
    (mounts.erase other).find? wanted = some found := by
  induction mounts with
  | nil => cases hfound
  | cons mount rest ih =>
      by_cases hwanted : wanted mount = true
      · obtain rfl := Option.some.inj ((List.find?_cons_of_pos hwanted).symm.trans hfound)
        rw [List.erase_cons_tail (by simpa using Ne.symm hne), List.find?_cons_of_pos hwanted]
      · rw [List.find?_cons_of_neg hwanted] at hfound
        by_cases hsame : mount = other
        · rw [hsame, List.erase_cons_head]
          exact hfound
        · rw [List.erase_cons_tail (by simpa using hsame), List.find?_cons_of_neg hwanted]
          exact ih hfound

/-- A live mount stays live until it is unmounted. -/
theorem mountOf?_state [DiskDriver δ] {operation : Operation δ ω} {id : MountId} {mount : MountPoint}
    (hlive : storage.mountOf? id = some mount)
    (hstays : operation ≠ .unmount mount.path.text ∧ operation ≠ .unmountAll) :
    (operation.state storage).mountOf? id = some mount := by
  rcases mounts_state operation storage with ⟨made, hmounts⟩ | ⟨other, rfl, hmounts⟩ | hall
  · rw [mountOf?, hmounts, List.find?_append]
    rw [mountOf?] at hlive
    rw [hlive, Option.some_or]
  · rw [mountOf?, hmounts]
    refine find?_erase_of_ne hlive ?_
    rintro rfl
    exact hstays.1 rfl
  · exact absurd hall hstays.2

end Mounts

/-! ## Reading an open directory -/

variable [DiskDriver δ] {part : Part ω MemoryFs} {mount : MountPoint} {handle : DirHandle}
  {entries : List DirEntry} {storage : Storage δ ω}

/-- A directory of a live mount is open, and these entries are left of its listing. -/
structure Pending (part : Part ω MemoryFs) (mount : MountPoint) (handle : DirHandle)
    (entries : List DirEntry) (storage : Storage δ ω) : Prop where
  hosts : Hosts part storage
  live : storage.mountOf? mount.id = some mount
  answers : storage.Answers part mount
  listed : (storage.memory part).listings[handle.number]? = some entries

theorem Pending.state (hpending : Pending part mount handle entries storage)
    {operation : Operation δ ω} (hregular : operation.Regular part)
    (hleaves : operation.LeavesOpen mount handle) :
    Pending part mount handle entries (operation.state storage) where
  hosts := hpending.hosts.state hregular
  live := by
    refine mountOf?_state hpending.live ⟨?_, ?_⟩
    · rintro rfl
      exact hleaves rfl
    · rintro rfl
      exact hleaves
  answers := hpending.answers.after_run [operation]
  listed := by
    have hnumber : handle.number ≤ (storage.memory part).lastId := by
      refine hpending.hosts.consistent.listings _ ?_
      rw [Std.TreeMap.contains_eq_isSome_getElem?, hpending.listed, Option.isSome_some]
    have hkept := (traffic_state hpending.hosts.sound hpending.hosts.regular hregular).keeps
      (motive := fun fs => handle.number ≤ fs.lastId ∧ fs.listings[handle.number]? = some entries)
      (fun {_ request _ _} hasked heffect hprior => by
        refine ⟨Nat.le_trans hprior.1 heffect.lastId_le, ?_⟩
        rw [heffect.listing_eq (fun asked hrequest => ?_) hprior.1, hprior.2]
        obtain ⟨-, hasked⟩ := hasked
        subst hrequest
        cases hasked <;> exact hleaves rfl)
      (fun _ _ _ _ hprior => hprior) ⟨hnumber, hpending.listed⟩
    exact hkept.2

theorem Pending.after_run (hpending : Pending part mount handle entries storage)
    {run : List (Operation δ ω)}
    (hrun : ∀ operation ∈ run, operation.Regular part ∧ operation.LeavesOpen mount handle) :
    Pending part mount handle entries (storage.after run) := by
  induction run generalizing storage with
  | nil => exact hpending
  | cons operation rest ih =>
      obtain ⟨⟨hregular, hleaves⟩, hrest⟩ := List.forall_mem_cons.mp hrun
      exact ih (hpending.state hregular hleaves) hrest

/-- The memory filesystem hands out the entry in front. -/
theorem Pending.next (hpending : Pending part mount handle entries storage) :
    ∃ after, (onMount mount.id (.onDir .next handle)).outcome storage = (.ok entries.head?, after) ∧
      Pending part mount handle entries.tail after := by
  have hasked : storage.memoryOutcome mount part (.onDir .next handle) =
      (.ok entries.head?, { storage.memory part with
        listings := (storage.memory part).listings.insert handle.number entries.tail }) := by
    unfold memoryOutcome Action.outcome
    dsimp only [MemoryFs.serve, MemoryFs.nextEntry]
    rw [hpending.listed]
  have hhosts : Hosts part ((serve mount (.onDir .next handle)).outcome storage).2 :=
    hpending.hosts.after_serve fun _ => trivial
  rw [hpending.answers.outcome_serve, hasked] at hhosts
  rw [hpending.answers.outcome_onMount hpending.live, hasked]
  refine ⟨_, rfl, hhosts, hpending.live, hpending.answers, ?_⟩
  rw [memory_mapHost]
  exact Std.TreeMap.getElem?_insert_self

/-- The entries that are not for the directory itself or its parent. -/
def kept (entries : List DirEntry) : List DirEntry := entries.filter fun entry => !entry.isDot

/-- A reading hands out the first entry that is kept, or the end, and the kept ones behind it are
left. -/
theorem Pending.readEntry (hpending : Pending part mount handle entries storage) {attempts : Nat}
    (henough : entries.length < attempts) :
    ∃ left after, (readEntry mount.id handle attempts).outcome storage =
        (.ok (.ofNext (kept entries).head?), after) ∧
      Pending part mount handle left after ∧ kept left = (kept entries).tail ∧
      left.length ≤ entries.length := by
  induction attempts generalizing entries storage with
  | zero => cases henough
  | succ attempts ih =>
      obtain ⟨after, hnext, hafter⟩ := hpending.next
      rw [outcome_readEntry_succ, hnext]
      cases entries with
      | nil => exact ⟨[], after, rfl, hafter, rfl, Nat.le_refl 0⟩
      | cons entry rest =>
          cases hdot : entry.isDot with
          | true =>
              have hbehind : Pending part mount handle rest after := hafter
              obtain ⟨left, last, hread, hlast, hkept, hlength⟩ :=
                ih hbehind (Nat.lt_of_succ_lt_succ henough)
              have hsame : kept (entry :: rest) = kept rest := by simp [kept, hdot]
              rw [hsame]
              refine ⟨left, last, ?_, hlast, hkept, Nat.le_succ_of_le hlength⟩
              rw [← hread]
              simp [isDotAnswer, hdot]
          | false =>
              have hkept : kept (entry :: rest) = entry :: kept rest := by simp [kept, hdot]
              refine ⟨rest, after, ?_, hafter, by rw [hkept]; rfl, Nat.le_succ _⟩
              rw [hkept]
              simp [isDotAnswer, hdot, Except.map]

/-- Readings behind runs that leave the directory open hand out the kept entries one by one, and the
end from there on. -/
theorem Pending.readings (hpending : Pending part mount handle entries storage) {attempts : Nat}
    (henough : entries.length < attempts) {rounds : List (List (Operation δ ω))}
    (hrounds : ∀ run ∈ rounds, ∀ operation ∈ run,
      operation.Regular part ∧ operation.LeavesOpen mount handle) :
    (readings attempts rounds (.backend handle mount.id, storage)).1 =
      (List.range rounds.length).map fun index => .ok (.ofNext (kept entries)[index]?) := by
  induction rounds generalizing entries storage with
  | nil => rfl
  | cons run rest ih =>
      obtain ⟨hrun, hrest⟩ := List.forall_mem_cons.mp hrounds
      obtain ⟨left, after, hread, hafter, hkept, hlength⟩ :=
        (hpending.after_run hrun).readEntry henough
      have hlater := ih hafter (Nat.lt_of_le_of_lt hlength henough) hrest
      rw [Storage.readings, outcome_readDir_backend, hread]
      dsimp only
      rw [hlater, List.length_cons, List.range_succ_eq_map, List.map_cons, List.map_map,
        List.head?_eq_getElem?]
      refine congrArg (List.cons _) (List.map_congr_left fun index _ => ?_)
      rw [hkept, List.getElem?_tail]
      rfl

/-- Opening a directory that exists lists it, behind the entries for itself and its parent if the
memory filesystem gives these. -/
theorem Hosts.openDir (hhosts : Hosts part storage) {path : String}
    (hpath : storage.resolve path = .ok mount) (hlive : storage.mountOf? mount.id = some mount)
    (hanswers : storage.Answers part mount)
    (hdir : ((storage.memory part).volume mount.data.value).dirs.contains
      (mount.path.relative path) = true) :
    ∃ handle opened entries, openDir path storage = .ok (.backend handle mount.id) opened ∧
      Pending part mount handle entries opened ∧
      kept entries = kept
        (((storage.memory part).volume mount.data.value).children (mount.path.relative path)) := by
  obtain ⟨handle, after, dots, houtcome, hlisted, hdots⟩ :=
    MemoryFs.outcome_openDir_of_dir (storage.memory part) hdir
  have hopen := hanswers.outcome_openDir hpath
  rw [memoryOutcome, MemoryFs.serve, houtcome] at hopen
  have hhosts' : Hosts part ((Operation.openDir path).state storage) := hhosts.state trivial
  rw [Operation.state, hopen] at hhosts'
  have hpending : Pending part mount handle _ (storage.mapHost (part.set after)) :=
    ⟨hhosts', hlive, hanswers, by rw [memory_mapHost]; exact hlisted⟩
  refine ⟨handle, _, _, Action.outcome_eq_ok_iff.mp hopen, hpending, ?_⟩
  have hnone : kept dots = [] := List.filter_eq_nil_iff.mpr fun entry hentry => by
    simp [hdots entry hentry]
  rw [kept, List.filter_append, ← kept, hnone, List.nil_append]
  rfl

/-- After every run over a memory filesystem that was empty, opening a directory of a live mount
takes a snapshot of what is in it. Readings hand out the entries of the snapshot in order and then
the end, again and again, whatever is done in between, unless it reads or closes this directory or
unmounts. There is one snapshot, whether or not the memory filesystem gives the entries for a
directory itself and its parent. No more numbers are given out than calls come in, so 32 bits are
enough for them up to 2 ^ 32 calls. -/
theorem dir_snapshot_after (blocks : BlockDevices δ) {host : ω} (hfresh : part.get host = {})
    (run : List (Operation δ ω)) (hrun : ∀ operation ∈ run, operation.Regular part) :
    let start := ofBlocks blocks host
    let storage := start.after run
    (storage.memory part).lastId ≤ (storage.memory part).calls.length ∧
    ∀ path mount, storage.resolve path = .ok mount → storage.Answers part mount →
      let volume := (storage.memory part).volume mount.data.value
      let directory := mount.path.relative path
      (start.mountCount run ≤ UInt32.size → storage.mountOf? mount.id = some mount) ∧
      (storage.mountOf? mount.id = some mount → volume.dirs.contains directory = true →
        ∃ handle opened dirs files entries,
          openDir path storage = .ok (.backend handle mount.id) opened ∧
          volume.Snapshot directory dirs files entries ∧
          (∀ others otherFiles otherEntries,
            volume.Snapshot directory others otherFiles otherEntries → otherEntries = entries) ∧
          ∃ enough, ∀ attempts, enough ≤ attempts → ∀ rounds : List (List (Operation δ ω)),
            (∀ run ∈ rounds, ∀ operation ∈ run,
              operation.Regular part ∧ operation.LeavesOpen mount handle) →
            (readings attempts rounds (.backend handle mount.id, opened)).1 =
              (List.range rounds.length).map fun index => .ok (.ofNext entries[index]?)) := by
  intro start storage
  have hhosts : Hosts part storage := (hosts_ofBlocks blocks hfresh).after_run hrun
  refine ⟨hhosts.accounted, fun path mount hpath hanswers => ?_⟩
  intro volume directory
  refine ⟨fun hcount => mountOf?_after hcount (mem_of_resolve hpath), fun hlive hdir => ?_⟩
  obtain ⟨handle, opened, listed, hopen, hpending, hkept⟩ :=
    hhosts.openDir hpath hlive hanswers hdir
  have hdirectory : directory ≠ "" := by
    rintro hempty
    have habsolute := isAbsolute_relative hpath
    rw [show mount.path.relative path = "" from hempty] at habsolute
    exact absurd habsolute (by decide)
  obtain ⟨dirs, files, hsnapshot⟩ :=
    (hhosts.consistent.volumes mount.data.value).snapshot hdirectory
  refine ⟨handle, opened, dirs, files, _, hopen, hsnapshot,
    fun _ _ _ hother => hother.unique hsnapshot, listed.length + 1,
    fun attempts henough rounds hrounds => ?_⟩
  rw [hpending.readings henough hrounds, hkept]
  rfl

/-- Two directories and a file, with more below one of the directories, and with the entries for the
directory itself and its parent given. While they are read, all three are changed. -/
theorem dir_snapshot_after_switch :
    let part := Part.whole MemoryFs
    let run : List (Operation RamDisk MemoryFs) :=
      [.register .ext4 (MemoryFs.backend none part), .mount "/os" ⟨.user, 2⟩ .ext4,
        .onPath (.makeDir 0o755) "/os/d", .onPath (.makeDir 0o755) "/os/c",
        .onPath (.makeDir 0o755) "/os/d/e", .openFile "/os/a" .writeOnly,
        .writeAll ⟨⟨2⟩, some .first⟩ [1, 2, 3],
        .outside fun env => { env with host := { env.host with listsDots := true } }]
    let storage := (ofBlocks (Handset.blocks id) {}).after run
    let rounds : List (List (Operation RamDisk MemoryFs)) :=
      [[.onPath .unlink "/os/a", .openFile "/os/b" .writeOnly], [.onPath .removeDir "/os/d"],
        [.rename "/os/b" "/os/a"], [], [.onPath (.makeDir 0o755) "/os/f"]]
    ∃ handle opened enough, openDir "/os" storage = .ok (.backend handle .first) opened ∧
      ∀ attempts, enough ≤ attempts →
        (readings attempts rounds (.backend handle .first, opened)).1 =
          [.ok (.entry ⟨⟨"c", by decide⟩, .directory, none⟩),
            .ok (.entry ⟨⟨"d", by decide⟩, .directory, none⟩),
            .ok (.entry ⟨⟨"a", by decide⟩, .regular, some 3⟩), .ok .finished, .ok .finished] := by
  intro part run storage rounds
  let point : MountPoint := ⟨.first, ⟨"/os", by decide⟩, ⟨.user, 2⟩, .ext4, ⟨1⟩⟩
  have hrun : ∀ operation ∈ run, operation.Regular part := by
    simp only [run, List.forall_mem_cons]
    exact ⟨.inl ⟨none, rfl⟩, trivial, trivial, trivial, trivial, trivial, trivial,
      fun env => ⟨_, _, _, _, rfl⟩, by simp⟩
  have hanswers : storage.Answers part point := by
    refine ⟨none, ?_⟩
    dsimp only [storage, run]
    rw [after_cons]
    exact backend?_after rfl _
  have hfacts : storage.resolve "/os" = .ok point ∧ storage.mountOf? .first = some point ∧
      ((storage.memory part).volume 1).dirs.contains "/" = true ∧ point.path.relative "/os" = "/" ∧
      (((storage.memory part).volume 1).children "/").filter (fun entry => !entry.isDot) =
        [⟨⟨"c", by decide⟩, .directory, none⟩, ⟨⟨"d", by decide⟩, .directory, none⟩,
          ⟨⟨"a", by decide⟩, .regular, some 3⟩] := by decide +kernel
  obtain ⟨hpath, hlive, hdir, hname, hchildren⟩ := hfacts
  have hsnapshot :=
    (dir_snapshot_after (Handset.blocks id) rfl run hrun).2 "/os" point hpath hanswers
  rw [hname] at hsnapshot
  obtain ⟨handle, opened, dirs, files, entries, hopen, -, hunique, enough, hread⟩ :=
    hsnapshot.2 hlive hdir
  have hhosts : Hosts part storage := (hosts_ofBlocks (Handset.blocks id) rfl).after_run hrun
  obtain ⟨others, otherFiles, hlisted⟩ :=
    (hhosts.consistent.volumes 1).snapshot (show "/" ≠ "" by decide)
  have hentries := hunique others otherFiles _ hlisted
  rw [hchildren] at hentries
  subst hentries
  refine ⟨handle, opened, enough, hopen, fun attempts henough => hread attempts henough rounds ?_⟩
  simp [rounds, Operation.Regular, Operation.LeavesOpen]

end Storage

end StorageStack

import StorageStack.Handset
import StorageStack.Proofs.Storage.Calls
import StorageStack.Proofs.Storage.Handles

/-! # Unmounting everything

Every backend is asked to let go of every mount it has, the last mount first, whatever the others
have answered. The table is empty afterwards, the first failure is the answer, and a file or a
directory that was open stays dead even if its device is mounted again.
-/

namespace StorageStack

variable {δ ω : Type}

/-- Requests to let go of mounts, in the order given, with the answers. -/
def releaseCalls (mounts : List MountPoint) (answers : List (Except StorageError Unit)) : List Call :=
  List.zipWith (fun mount answer => .serve mount.fsType mount .unmount answer) mounts answers

namespace Storage

/-- What unmounting everything comes to: the answers of the backends in the order of the calls, and
the result. -/
structure Shutdown (storage : Storage δ ω) (answers : List (Except StorageError Unit))
    (result : Except StorageError Unit × Storage δ ω) : Prop where
  length_answers : answers.length = storage.mounts.length
  /-- One call for each live mount, with its own record, the last mount first, and no other call. -/
  performs : Performs (fun _ => unmountAll) storage (releaseCalls storage.mounts.reverse answers)
    result
  ok_iff : result.1 = .ok () ↔ ∀ answer ∈ answers, answer = .ok ()
  /-- The first failure in the order of the calls is the answer, unchanged. -/
  error_iff : ∀ cause, result.1 = .error cause ↔ ∃ earlier later,
    answers = earlier ++ .error cause :: later ∧ ∀ answer ∈ earlier, answer = .ok ()
  emptied : ∃ env, result.2 = { storage with env, mounts := [] }
  /-- Once more, there is nothing left to do. -/
  again : Performs (fun _ => unmountAll) result.2 [] (.ok (), result.2)
  fileDead : ∀ file id, OpenFile.mount file = some id → FileDead file result.2
  dirDead : ∀ handle id, DirDead handle id result.2

theorem releaseEach_cons (mount : MountPoint) (rest : List MountPoint) (storage : Storage δ ω) :
    releaseEach (mount :: rest) storage =
      let (answer, after) := (serve mount .unmount).outcome storage
      ((causeOf? answer).or (releaseEach rest after).1, (releaseEach rest after).2) := by
  rw [releaseEach]
  unfold Action.outcome
  cases serve mount .unmount storage <;> rfl

/-- Every mount is asked for, whatever was answered for those before it. -/
theorem exists_releaseEach {mounts : List MountPoint} {storage : Storage δ ω}
    (hserved : ∀ mount ∈ mounts, ∃ backend, storage.backend? mount.fsType = some backend) :
    ∃ answers env, answers.length = mounts.length ∧
      releaseEach mounts storage = (answers.findSome? causeOf?, { storage with env }) ∧
      ∀ earlier, releaseEach mounts (storage.logged earlier) =
        (answers.findSome? causeOf?,
          logged (earlier ++ releaseCalls mounts answers) { storage with env }) := by
  induction mounts generalizing storage with
  | nil =>
      refine ⟨[], storage.env, rfl, rfl, fun earlier => ?_⟩
      rw [releaseCalls, List.zipWith_nil_left, List.append_nil]
      rfl
  | cons mount rest ih =>
      obtain ⟨backend, hbackend⟩ := hserved mount List.mem_cons_self
      obtain ⟨hplain, hlogged⟩ := performs_serve hbackend .unmount
      obtain ⟨answer, middle, hasked⟩ :
          ∃ answer env, ask backend mount .unmount storage = (answer, { storage with env }) :=
        ⟨_, _, rfl⟩
      rw [hasked] at hplain hlogged
      have hremaining : ∀ mount ∈ rest, ∃ backend,
          Storage.backend? { storage with env := middle } mount.fsType = some backend :=
        fun mount hmount => hserved mount (List.mem_cons_of_mem _ hmount)
      obtain ⟨answers, env, hlength, hrest, hlater⟩ := ih hremaining
      refine ⟨answer :: answers, env, by rw [List.length_cons, hlength, List.length_cons], ?_,
        fun earlier => ?_⟩
      · rw [releaseEach_cons, hplain]
        dsimp only
        rw [hrest, List.findSome?_cons]
        cases causeOf? answer <;> rfl
      · rw [releaseEach_cons, hlogged]
        dsimp only
        rw [hlater, List.append_assoc, List.findSome?_cons]
        cases causeOf? answer <;> rfl

theorem outcome_unmountAll (storage : Storage δ ω) :
    unmountAll.outcome storage =
      let (cause?, after) := releaseEach storage.mounts.reverse storage
      (cause?.elim (.ok ()) .error, { after with mounts := [] }) := by
  unfold Action.outcome unmountAll
  rcases releaseEach storage.mounts.reverse storage with ⟨_ | cause, after⟩ <;> rfl

theorem performs_unmountAll_of_empty {storage : Storage δ ω} (hempty : storage.mounts = []) :
    Performs (fun _ => unmountAll) storage [] (.ok (), storage) := by
  have hnothing : ∀ {κ : Type} (storage : Storage δ κ), storage.mounts = [] →
      unmountAll.outcome storage = (.ok (), storage) := by
    rintro κ ⟨env, registry, mounts, nextId⟩ rfl
    rfl
  refine ⟨hnothing storage hempty, fun earlier => ?_⟩
  rw [hnothing (storage.logged earlier) hempty, List.append_nil]

theorem Sound.exists_shutdown {storage : Storage δ ω} (hsound : storage.Sound) :
    ∃ answers result, Shutdown storage answers result := by
  have hserved : ∀ mount ∈ storage.mounts.reverse, ∃ backend,
      storage.backend? mount.fsType = some backend :=
    fun mount hmount => hsound.backend?_isSome (List.mem_reverse.mp hmount)
  obtain ⟨answers, env, hlength, hplain, hlogged⟩ := exists_releaseEach hserved
  have hok : ∀ cause? : Option StorageError,
      cause?.elim (.ok ()) .error = (.ok () : Except StorageError Unit) ↔ cause? = none := by
    rintro (_ | cause) <;> simp
  have herror : ∀ (cause? : Option StorageError) cause,
      cause?.elim (.ok ()) .error = (.error cause : Except StorageError Unit) ↔
        cause? = some cause := by
    rintro (_ | first) cause <;> simp
  refine ⟨answers, ((answers.findSome? causeOf?).elim (.ok ()) .error,
    { storage with env, mounts := [] }), ?_⟩
  constructor
  case length_answers => rw [hlength, List.length_reverse]
  case performs =>
    refine ⟨?_, fun earlier => ?_⟩
    · rw [outcome_unmountAll, hplain]
    · rw [outcome_unmountAll, show (storage.logged earlier).mounts = storage.mounts from rfl, hlogged]
      rfl
  case ok_iff => simp only [hok, List.findSome?_eq_none_iff, causeOf?_eq_none_iff]
  case error_iff =>
    intro cause
    simp only [herror, List.findSome?_eq_some_iff, causeOf?_eq_some_iff, causeOf?_eq_none_iff]
    constructor
    · rintro ⟨earlier, answer, later, hanswers, rfl, hearlier⟩
      exact ⟨earlier, later, hanswers, hearlier⟩
    · rintro ⟨earlier, later, hanswers, hearlier⟩
      exact ⟨earlier, _, later, hanswers, rfl, hearlier⟩
  case emptied => exact ⟨env, rfl⟩
  case again => exact performs_unmountAll_of_empty rfl
  case fileDead => exact fun file id hfile => Storage.fileDead hfile rfl
  case dirDead => exact fun handle id => Storage.dirDead rfl

section Runs

variable [DiskDriver δ]

theorem mounts_after_unmountAll (storage : Storage δ ω) (run : List (Operation δ ω)) :
    (storage.after (run ++ [.unmountAll])).mounts = [] := by
  rw [after_append]
  generalize storage.after run = storage
  change (unmountAll.outcome storage).2.mounts = []
  rw [outcome_unmountAll]

/-- A handle that was open when everything was unmounted stays without a record. -/
theorem mountOf?_after_unmountAll (blocks : BlockDevices δ) (host : ω)
    (before between later : List (Operation δ ω)) {opened : Storage δ ω} {mount : MountPoint}
    (hsame : SameTables ((ofBlocks blocks host).after before) opened)
    (hmount : mount ∈ ((ofBlocks blocks host).after before).mounts)
    (hcount : (ofBlocks blocks host).mountCount before +
      opened.mountCount (between ++ .unmountAll :: later) ≤ UInt32.size) :
    (opened.after (between ++ .unmountAll :: later)).mountOf? mount.id = none := by
  obtain ⟨hlive, hgone⟩ := record_after blocks host before _ hsame hmount hcount
  apply hgone
  intro hafter
  -- The record would have been live behind the unmounting too, when the table was empty.
  have hbetween := (hlive hafter).1 (between ++ [.unmountAll]) ⟨later, by simp⟩
  rw [mounts_after_unmountAll] at hbetween
  cases hbetween

/-- After every run, whatever the backends answer, unmounting everything asks the backend of each
live mount to let go of it, in the reverse order of mounting, and leaves no mount behind. The first
failure is the answer. A file or a directory that was open is dead from then on, whatever is
mounted later, as long as the identities have not come round. -/
theorem unmountAll_after (blocks : BlockDevices δ) (host : ω) (run : List (Operation δ ω)) :
    let initial := ofBlocks blocks host
    let storage := initial.after run
    storage.mounts.Nodup ∧ storage.mounts.Sublist (initial.mountLog run) ∧
      (∀ mount ∈ storage.mounts, ∃ backend, storage.backend? mount.fsType = some backend) ∧
      (∃ answers result, Shutdown storage answers result) ∧
      ∀ later, initial.mountCount (run ++ .unmountAll :: later) ≤ UInt32.size →
        (∀ before path options between file opened,
          run = before ++ .openFile path options :: between →
          openFile path options (initial.after before) = .ok file opened →
          FileDead file (initial.after (run ++ .unmountAll :: later))) ∧
        ∀ before path between handle id opened, run = before ++ .openDir path :: between →
          openDir path (initial.after before) = .ok (.backend handle id) opened →
          DirDead handle id (initial.after (run ++ .unmountAll :: later)) := by
  intro initial storage
  have hsound : storage.Sound := sound_after blocks host run
  refine ⟨hsound.nodup_mounts, (numbered_after blocks host run).live,
    fun mount hmount => hsound.backend?_isSome hmount, hsound.exists_shutdown,
    fun later hcount => ⟨?_, ?_⟩⟩
  · rintro before path options between file opened rfl hopen
    obtain ⟨mount, hmount, hfile, hserve⟩ := of_openFile_eq_ok hopen
    rw [List.append_assoc, List.cons_append] at hcount ⊢
    rw [mountCount_append, mountCount_cons_openFile hopen] at hcount
    rw [after_append, after_cons, state_openFile hopen]
    exact Storage.fileDead hfile (mountOf?_after_unmountAll blocks host before between later
      (sameTables_of_serve_eq_ok hserve) (mem_of_resolve hmount) hcount)
  · rintro before path between handle id opened rfl hopen
    obtain ⟨mount, hmount, rfl, hserve⟩ := of_openDir_eq_ok hopen
    rw [List.append_assoc, List.cons_append] at hcount ⊢
    rw [mountCount_append, mountCount_cons_openDir hopen] at hcount
    rw [after_append, after_cons, state_openDir hopen]
    exact Storage.dirDead (mountOf?_after_unmountAll blocks host before between later
      (sameTables_of_serve_eq_ok hserve) (mem_of_resolve hmount) hcount)

end Runs

/-- The mount that was made last is let go of, the one before it is not. Both are gone, and what was
open stays dead when the device is mounted again. -/
theorem unmountAll_after_refused :
    let run : List (Operation RamDisk Unit) :=
      [.register .ext4 (.openOnly ⟨5⟩ ⟨7⟩ ⟨9⟩), .register .fat .mountOnly,
        .mount "/os" ⟨.user, 2⟩ .ext4, .openFile "/os/x" .readOnly, .openDir "/os",
        .mount "/boot" ⟨.user, 1⟩ .fat]
    let initial := ofBlocks (Handset.blocks id) ()
    let last := initial.after (run ++ [.unmountAll, .mount "/os" ⟨.user, 2⟩ .ext4])
    (initial.after run).mounts.map (·.path.text) = ["/os", "/boot"] ∧
      (∃ answers result, Shutdown (initial.after run) answers result ∧
        result.1 = .error .notSupported) ∧
      FileDead ⟨⟨7⟩, some .first⟩ last ∧ DirDead ⟨9⟩ .first last := by
  intro run initial last
  have hanswers : (initial.after run).mounts.map (·.path.text) = ["/os", "/boot"] ∧
      (unmountAll.outcome (initial.after run)).1 = .error .notSupported ∧
      initial.mountCount (run ++ [.unmountAll, .mount "/os" ⟨.user, 2⟩ .ext4]) ≤ UInt32.size ∧
      ((openFile "/os/x" .readOnly).outcome (initial.after (run.take 3))).1 =
        .ok ⟨⟨7⟩, some .first⟩ ∧
      ((openDir "/os").outcome (initial.after (run.take 4))).1 = .ok (.backend ⟨9⟩ .first) := by
    decide +kernel
  obtain ⟨hpaths, hanswer, hcount, hfile, hdir⟩ := hanswers
  obtain ⟨-, -, -, ⟨answers, result, hshutdown⟩, hdead⟩ :=
    unmountAll_after (Handset.blocks id) () run
  obtain ⟨hfiledead, hdirdead⟩ := hdead [.mount "/os" ⟨.user, 2⟩ .ext4] hcount
  refine ⟨hpaths, ⟨answers, result, hshutdown, hshutdown.performs.1 ▸ hanswer⟩, ?_, ?_⟩
  · exact hfiledead (run.take 3) "/os/x" .readOnly (run.drop 4) _ _ rfl
      (Action.eq_ok_of_outcome hfile)
  · exact hdirdead (run.take 4) "/os" (run.drop 5) _ _ _ rfl
      (Action.eq_ok_of_outcome hdir)

end Storage

end StorageStack

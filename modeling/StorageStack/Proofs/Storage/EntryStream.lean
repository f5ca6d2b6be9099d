import Mathlib.Data.Nat.Find
import Mathlib.Logic.Function.Iterate
import StorageStack.Backend.Script
import StorageStack.Proofs.Storage.HandleCalls
import StorageStack.Proofs.Storage.Tables

/-! # Reading a directory of a backend

A backend that is asked for one entry after the other gives a stream of answers. Reading the
directory takes the stream up to the first answer that is not an entry for a directory itself or
its parent, so reading it again and again gives the stream without those entries.
-/

namespace StorageStack

variable {δ ω : Type}

/-- The answers to requests for the next entry, made one after the other. -/
def Backend.entryStream (backend : Backend δ ω) (mount : MountPoint) (handle : DirHandle)
    (env : Env δ ω) (index : Nat) : Except StorageError (Option DirEntry) :=
  let next := (backend.serve mount (.onDir .next handle)).outcome
  (next ((fun env => (next env).2)^[index] env)).1

theorem isDotAnswer_eq_true_iff {answer : Except StorageError (Option DirEntry)} :
    isDotAnswer answer = true ↔ ∃ entry, answer = .ok (some entry) ∧ entry.kind = .directory ∧
      (entry.name.text = "." ∨ entry.name.text = "..") := by
  rcases answer with _ | _ | entry <;> simp [isDotAnswer, DirEntry.isDot, DirEntry.isDir]

/-- The first answers of a stream, without the dot entries among them. -/
def keptAnswers (stream : Nat → Except StorageError (Option DirEntry)) (length : Nat) :
    List (Except StorageError (Option DirEntry)) :=
  ((List.range length).map stream).filter fun answer => !isDotAnswer answer

/-- What is kept of a stream begins with its first answer that is no dot entry. -/
theorem keptAnswers_eq_cons {stream : Nat → Except StorageError (Option DirEntry)} {index : Nat}
    (hdots : ∀ earlier < index, isDotAnswer (stream earlier) = true)
    (hlast : isDotAnswer (stream index) = false) (length : Nat) :
    keptAnswers stream (index + 1 + length) =
      stream index :: keptAnswers (fun later => stream (index + 1 + later)) length := by
  have hnone : ((List.range index).map stream).filter (fun answer => !isDotAnswer answer) = [] := by
    simpa using hdots
  unfold keptAnswers
  rw [List.range_add, List.range_succ, List.map_append, List.map_append, List.filter_append,
    List.filter_append, hnone, List.map_map]
  simp [hlast, Function.comp_def]

namespace Storage

/-- The identity leads to the record, and the backend of the record is going to answer requests for
the next entry as the stream says. -/
structure Streams (id : MountId) (mount : MountPoint) (backend : Backend δ ω) (handle : DirHandle)
    (stream : Nat → Except StorageError (Option DirEntry)) (storage : Storage δ ω) : Prop where
  mountOf? : storage.mountOf? id = some mount
  backend? : storage.backend? mount.fsType = some backend
  entryStream : ∀ index, backend.entryStream mount handle storage.env index = stream index

namespace Streams

variable {id : MountId} {mount : MountPoint} {backend : Backend δ ω} {handle : DirHandle}
  {stream : Nat → Except StorageError (Option DirEntry)} {storage : Storage δ ω}

/-- A request for the next entry takes one answer off the stream. -/
theorem performs_onMount (hstreams : Streams id mount backend handle stream storage) :
    ∃ after, Streams id mount backend handle (fun later => stream (later + 1)) after ∧
      Performs (fun _ => onMount id (.onDir .next handle)) storage
        [.serve mount.fsType mount (.onDir .next handle) (stream 0)] (stream 0, after) := by
  have hfirst : (ask backend mount (.onDir .next handle) storage).1 = stream 0 :=
    hstreams.entryStream 0
  have hperforms :=
    performs_onMount_of_live hstreams.mountOf? hstreams.backend? (.onDir .next handle)
  rw [hfirst] at hperforms
  refine ⟨(ask backend mount (.onDir .next handle) storage).2, ?_, ?_⟩
  · exact ⟨hstreams.mountOf?, hstreams.backend?, fun later => hstreams.entryStream (later + 1)⟩
  · rwa [← hfirst, Prod.eta, hfirst]

/-- Asking for entries takes the stream up to the first answer that is no dot entry. -/
theorem performs_readEntry (hstreams : Streams id mount backend handle stream storage) {index : Nat}
    (hdots : ∀ earlier < index, isDotAnswer (stream earlier) = true)
    (hlast : isDotAnswer (stream index) = false) :
    ∃ after, Streams id mount backend handle (fun later => stream (index + 1 + later)) after ∧
      ∀ attempts, index < attempts → Performs (fun _ => readEntry id handle attempts) storage
        ((List.range (index + 1)).map fun position =>
          .serve mount.fsType mount (.onDir .next handle) (stream position))
        ((stream index).map DirReading.ofNext, after) := by
  obtain ⟨after, hafter, hnext⟩ := hstreams.performs_onMount
  induction index generalizing stream storage after with
  | zero =>
      refine ⟨after, by simpa [Nat.add_comm] using hafter, fun attempts hattempts => ?_⟩
      obtain ⟨attempts, rfl⟩ := Nat.exists_eq_add_one_of_ne_zero (Nat.ne_zero_of_lt hattempts)
      exact performs_readEntry_of_last hlast attempts hnext
  | succ index ih =>
      obtain ⟨middle, hmiddle, hsecond⟩ := hafter.performs_onMount
      obtain ⟨last, hrest, hreads⟩ := ih hafter
        (fun earlier hearlier => hdots (earlier + 1) (Nat.succ_lt_succ hearlier)) hlast middle hmiddle
        hsecond
      refine ⟨last, ?_, fun attempts hattempts => ?_⟩
      · convert hrest using 3
        omega
      · obtain ⟨attempts, rfl⟩ := Nat.exists_eq_add_one_of_ne_zero (Nat.ne_zero_of_lt hattempts)
        rw [List.range_succ_eq_map, List.map_cons, List.map_map]
        exact performs_readEntry_of_dot (hdots 0 (Nat.succ_pos index)) hnext
          (hreads attempts (Nat.lt_of_succ_lt_succ hattempts))

variable [DiskDriver δ]

/-- Reading the directory again and again gives the stream without its dot entries, as long as what
is done in between leaves the stream alone. -/
theorem exists_readings {rounds : List (List (Operation δ ω))}
    (hrounds : ∀ run ∈ rounds, ∀ {stream : Nat → Except StorageError (Option DirEntry)}
      {storage : Storage δ ω}, Streams id mount backend handle stream storage →
      Streams id mount backend handle stream (storage.after run))
    (hruns : ∀ start, ∃ index, start ≤ index ∧ isDotAnswer (stream index) = false)
    (hstreams : Streams id mount backend handle stream storage) :
    ∃ length enough last, (keptAnswers stream length).length = rounds.length ∧
      (∀ index, length = index + 1 → isDotAnswer (stream index) = false) ∧
      Streams id mount backend handle (fun later => stream (length + later)) last ∧
      ∀ attempts, enough ≤ attempts →
        readings attempts rounds (.backend handle id, storage) =
          ((keptAnswers stream length).map (Except.map DirReading.ofNext), .backend handle id,
            last) := by
  induction rounds generalizing stream storage with
  | nil =>
      refine ⟨0, 0, storage, rfl, by simp, by simpa using hstreams, fun attempts _ => rfl⟩
  | cons run rest ih =>
      have hsome : ∃ index, isDotAnswer (stream index) = false :=
        (hruns 0).imp fun _ hindex => hindex.2
      have hdots : ∀ earlier < Nat.find hsome, isDotAnswer (stream earlier) = true :=
        fun earlier hearlier => by simpa using Nat.find_min hsome hearlier
      have hlast := Nat.find_spec hsome
      generalize Nat.find hsome = index at hdots hlast
      have hready := hrounds run List.mem_cons_self hstreams
      obtain ⟨after, hafter, hreads⟩ := hready.performs_readEntry hdots hlast
      have hlater : ∀ start, ∃ later, start ≤ later ∧
          isDotAnswer (stream (index + 1 + later)) = false := by
        intro start
        obtain ⟨position, hposition, hkept⟩ := hruns (index + 1 + start)
        obtain ⟨rest, rfl⟩ := Nat.exists_eq_add_of_le hposition
        exact ⟨start + rest, Nat.le_add_right _ _, by rwa [← Nat.add_assoc]⟩
      obtain ⟨length, enough, last, hlength, hstop, hleft, hrest⟩ :=
        ih (fun run hrun => hrounds run (List.mem_cons_of_mem _ hrun)) hlater hafter
      refine ⟨index + 1 + length, max (index + 1) enough, last, ?_, fun position hposition => ?_, ?_,
        fun attempts hattempts => ?_⟩
      · rw [keptAnswers_eq_cons hdots hlast, List.length_cons, hlength, List.length_cons]
      · cases length with
        | zero =>
            obtain rfl : index = position := by omega
            exact hlast
        | succ length =>
            obtain rfl : position = index + 1 + length := by omega
            exact hstop length rfl
      · simpa [Nat.add_assoc] using hleft
      · have hread := performs_readDir_backend (hreads attempts (by omega))
        rw [readings, outcome_holding_eq_iff.mp hread.1]
        dsimp only
        rw [hrest attempts (by omega), keptAnswers_eq_cons hdots hlast, List.map_cons]

end Streams

variable [DiskDriver δ]

/-- After every run, whatever the backends answer, a directory of a live mount is read off the stream
of answers of the backend of the mount. A reading asks as often as it takes to come to an answer
that is no dot entry, and hands that one on: an entry, the end or a failure. Readings one after the
other, with anything in between that leaves the stream alone, answer with all that is in the stream
but its dot entries, in order. -/
theorem dir_readings_after (blocks : BlockDevices δ) (host : ω) (run : List (Operation δ ω))
    {id : MountId} {mount : MountPoint} (handle : DirHandle)
    (hmount : ((ofBlocks blocks host).after run).mountOf? id = some mount) :
    let storage := (ofBlocks blocks host).after run
    ∃ backend stream, Streams id mount backend handle stream storage ∧
      (∀ index, (∀ earlier < index, isDotAnswer (stream earlier) = true) →
        isDotAnswer (stream index) = false →
        ∃ after, Streams id mount backend handle (fun later => stream (index + 1 + later)) after ∧
          ∀ attempts, index < attempts →
            Performs (fun _ => holding (.backend handle id) (readDir attempts)) storage
              ((List.range (index + 1)).map fun position =>
                .serve mount.fsType mount (.onDir .next handle) (stream position))
              (.ok ((stream index).map DirReading.ofNext, .backend handle id), after)) ∧
      (∀ rounds : List (List (Operation δ ω)),
        (∀ run ∈ rounds, ∀ {stream storage}, Streams id mount backend handle stream storage →
          Streams id mount backend handle stream (storage.after run)) →
        (∀ start, ∃ index, start ≤ index ∧ isDotAnswer (stream index) = false) →
        ∃ length enough last, (keptAnswers stream length).length = rounds.length ∧
          (∀ index, length = index + 1 → isDotAnswer (stream index) = false) ∧
          Streams id mount backend handle (fun later => stream (length + later)) last ∧
          ∀ attempts, enough ≤ attempts →
            readings attempts rounds (.backend handle id, storage) =
              ((keptAnswers stream length).map (Except.map DirReading.ofNext), .backend handle id,
                last)) ∧
      ∀ answer, isDotAnswer answer = true ↔ ∃ entry, answer = .ok (some entry) ∧
        entry.kind = .directory ∧ (entry.name.text = "." ∨ entry.name.text = "..") := by
  intro storage
  have hsound : storage.Sound := sound_after blocks host run
  obtain ⟨backend, hbackend⟩ := hsound.backend?_isSome (mem_of_mountOf? hmount).1
  have hstreams : Streams id mount backend handle
      (backend.entryStream mount handle storage.env) storage := ⟨hmount, hbackend, fun _ => rfl⟩
  refine ⟨backend, _, hstreams, fun index hdots hlast => ?_,
    fun rounds hrounds hruns => hstreams.exists_readings hrounds hruns,
    fun answer => isDotAnswer_eq_true_iff⟩
  obtain ⟨after, hafter, hreads⟩ := hstreams.performs_readEntry hdots hlast
  exact ⟨after, hafter, fun attempts hattempts =>
    performs_readDir_backend (hreads attempts hattempts)⟩

/-- A directory that begins with an entry for itself, followed by a file of the same name. -/
theorem dir_readings_after_dot :
    let dot : DirEntry := { name := ⟨".", by decide⟩, kind := .directory }
    let file : DirEntry := { name := ⟨".", by decide⟩, kind := .regular }
    let script : Script := { answers :=
      [⟨"mount", .ok (.number 5)⟩, ⟨"readdir", .ok (.entry (some dot))⟩,
        ⟨"readdir", .ok (.entry (some file))⟩] }
    let storage := (ofBlocks (Handset.blocks id) script).after
      [.register .ext4 (Script.backend (.whole Script) : Backend RamDisk Script),
        .mount "/os" ⟨.user, 2⟩ .ext4]
    let mount : MountPoint :=
      { id := .first, path := ⟨"/os", by decide⟩, device := ⟨.user, 2⟩, fsType := .ext4, data := ⟨5⟩ }
    storage.mountOf? .first = some mount ∧
      ∃ after, Performs (fun _ => holding (.backend ⟨9⟩ .first) (readDir 2)) storage
        [.serve .ext4 mount (.onDir .next ⟨9⟩) (.ok (some dot)),
          .serve .ext4 mount (.onDir .next ⟨9⟩) (.ok (some file))]
        (.ok (.ok (.entry file), .backend ⟨9⟩ .first), after) := by
  intro dot file script storage mount
  have hmount : storage.mountOf? .first = some mount := by decide +kernel
  have hanswers :
      let answer := (Script.backend (.whole Script)).entryStream mount ⟨9⟩ storage.env
      answer 0 = .ok (some dot) ∧ answer 1 = .ok (some file) := by decide +kernel
  obtain ⟨backend, stream, hstreams, hread, -⟩ := dir_readings_after (Handset.blocks id) script
    [.register .ext4 (Script.backend (.whole Script) : Backend RamDisk Script),
      .mount "/os" ⟨.user, 2⟩ .ext4] ⟨9⟩ hmount
  have hregistered : ((ofBlocks (Handset.blocks id) script).after
      [.register .ext4 (Script.backend (.whole Script))]).backend? .ext4 =
        some (Script.backend (.whole Script) : Backend RamDisk Script) := rfl
  have hbackend := backend?_after hregistered [.mount "/os" ⟨.user, 2⟩ .ext4]
  rw [← after_append, List.singleton_append] at hbackend
  obtain rfl := Option.some.inj (hbackend.symm.trans hstreams.backend?)
  have hfirst : stream 0 = .ok (some dot) := (hstreams.entryStream 0).symm.trans hanswers.1
  have hsecond : stream 1 = .ok (some file) := (hstreams.entryStream 1).symm.trans hanswers.2
  obtain ⟨after, -, hperforms⟩ := hread 1 (by simp [hfirst, isDotAnswer_eq_true_iff, dot])
    (by simp [hsecond, isDotAnswer, DirEntry.isDot, DirEntry.isDir, file])
  have hperforms := hperforms 2 (by decide)
  rw [hsecond] at hperforms
  simp only [List.range_succ, List.range_zero, List.nil_append, List.cons_append, List.map_cons,
    List.map_nil, hfirst, hsecond] at hperforms
  exact ⟨hmount, after, hperforms⟩

end Storage

end StorageStack

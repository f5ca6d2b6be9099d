import StorageStack.Proofs.Storage.Calls

/-! # Calls on behalf of a handle

A request about an open file or directory is one call to the backend of its mount, or none. From
this it follows for each operation on a handle which calls it makes, and that only the closing
operations ask a backend to close anything.
-/

namespace StorageStack

variable {δ ω : Type}

/-- Whether a call closes a file or a directory. -/
def Call.isClose : Call → Bool
  | serve _ _ (.onFile .close _) _ => true
  | serve _ _ (.onDir .close _) _ => true
  | _ => false

/-- Whether an answer is an entry for a directory itself or its parent. -/
def isDotAnswer : Except StorageError (Option DirEntry) → Bool
  | .ok (some entry) => entry.isDot
  | _ => false

/-- What a reading of a directory makes of an answer that is kept. -/
def DirReading.ofNext : Option DirEntry → DirReading
  | none => .finished
  | some next => .entry next

/-- The live mount that an open file belongs to. -/
def OpenFile.record? (file : OpenFile) (storage : Storage δ ω) : Option MountPoint :=
  file.mount.bind storage.mountOf?

/-- The call is a request about the file, other than its close, sent for the mount of the file. -/
def Call.Uses (file : OpenFile) (storage : Storage δ ω) (call : Call) : Prop :=
  ∃ mount request answer, file.record? storage = some mount ∧ request ≠ .close ∧
    call = .serve mount.fsType mount (.onFile request file.handle) answer

theorem Call.Uses.isClose_eq {file : OpenFile} {storage : Storage δ ω} {call : Call}
    (huses : call.Uses file storage) : call.isClose = false := by
  obtain ⟨mount, request, answer, -, hrequest, rfl⟩ := huses
  cases request <;> first | rfl | exact absurd rfl hrequest

/-- While the tables stay, a use of the file later on is a use of it now. -/
theorem Call.Uses.of_sameTables {file : OpenFile} {storage after : Storage δ ω} {call : Call}
    (huses : call.Uses file after) (hsame : Storage.SameTables storage after) :
    call.Uses file storage := by
  obtain ⟨env, rfl⟩ := hsame
  exact huses

namespace Storage

/-- An operation on a handle as one on the storage layer alone. The handle that it leaves stands
beside its answer. -/
def holding {κ α : Type} (handle : κ) (action : Action (κ × Storage δ ω) α) :
    Action (Storage δ ω) (Except StorageError α × κ) := fun storage =>
  let result := action.outcome (handle, storage)
  .ok (result.1, result.2.1) result.2.2

theorem outcome_holding {κ α : Type} (handle : κ) (action : Action (κ × Storage δ ω) α)
    (storage : Storage δ ω) :
    (holding handle action).outcome storage =
      (.ok ((action.outcome (handle, storage)).1, (action.outcome (handle, storage)).2.1),
        (action.outcome (handle, storage)).2.2) :=
  rfl

theorem outcome_holding_eq_iff {κ α : Type} {handle left : κ} {action : Action (κ × Storage δ ω) α}
    {storage after : Storage δ ω} {answer : Except StorageError α} :
    (holding handle action).outcome storage = (.ok (answer, left), after) ↔
      action.outcome (handle, storage) = (answer, left, after) := by
  rw [outcome_holding]
  simp only [Prod.ext_iff, Except.ok.injEq, and_assoc]

theorem outcome_serve_of_unregistered {storage : Storage δ ω} {mount : MountPoint}
    (hnone : storage.backend? mount.fsType = none) (request : Request) :
    (serve mount request).outcome storage = (.error .notFound, storage) := by
  unfold Action.outcome serve
  rw [hnone]

section Requests

variable {storage : Storage δ ω}

theorem performs_onMount_of_live {id : MountId} {mount : MountPoint} {backend : Backend δ ω}
    (hmount : storage.mountOf? id = some mount)
    (hbackend : storage.backend? mount.fsType = some backend) (request : Request) :
    Performs (fun _ => onMount id request) storage
      [.serve mount.fsType mount request (ask backend mount request storage).1]
      (ask backend mount request storage) := by
  obtain ⟨hplain, hlogged⟩ := performs_serve hbackend request
  refine ⟨(outcome_onMount_of_mountOf? hmount request).trans hplain, fun earlier => ?_⟩
  rw [outcome_onMount_of_mountOf? ((mountOf?_logged storage earlier id).trans hmount), hlogged]

variable (storage) in
/-- A request about a mount by its identity is one call or none. -/
theorem performs_onMount (id : MountId) (request : Request) :
    ∃ calls, Performs (fun _ => onMount id request) storage calls
        ((onMount id request).outcome storage) ∧
      (calls = [] ∨ ∃ mount answer, storage.mountOf? id = some mount ∧
        calls = [.serve mount.fsType mount request answer]) := by
  cases hmount : storage.mountOf? id with
  | none =>
      refine ⟨[], ⟨rfl, fun earlier => ?_⟩, Or.inl rfl⟩
      rw [outcome_onMount_of_dead ((mountOf?_logged storage earlier id).trans hmount),
        outcome_onMount_of_dead hmount, List.append_nil]
  | some mount =>
      cases hbackend : storage.backend? mount.fsType with
      | none =>
          have hlogged (earlier : List Call) :=
            (backend?_logged storage earlier mount.fsType).trans (congrArg (Option.map _) hbackend)
          refine ⟨[], ⟨rfl, fun earlier => ?_⟩, Or.inl rfl⟩
          rw [outcome_onMount_of_mountOf? ((mountOf?_logged storage earlier id).trans hmount),
            outcome_onMount_of_mountOf? hmount, outcome_serve_of_unregistered (hlogged earlier),
            outcome_serve_of_unregistered hbackend, List.append_nil]
      | some backend =>
          have hlive := performs_onMount_of_live hmount hbackend request
          refine ⟨_, ?_, Or.inr ⟨mount, (ask backend mount request storage).1, rfl, rfl⟩⟩
          rw [hlive.1]
          exact hlive

/-- A request about a file is one call for the mount of the file, or none. -/
theorem performs_onFile (file : OpenFile) (request : FileRequest) (storage : Storage δ ω) :
    ∃ calls, Performs (fun _ => onFile file request) storage calls
        ((onFile file request).outcome storage) ∧
      (calls = [] ∨ ∃ mount answer, file.record? storage = some mount ∧
        calls = [.serve mount.fsType mount (.onFile request file.handle) answer]) := by
  cases hfile : file.mount with
  | none =>
      refine ⟨[], ⟨rfl, fun earlier => ?_⟩, Or.inl rfl⟩
      rw [outcome_onFile_of_closed _ hfile, outcome_onFile_of_closed _ hfile, List.append_nil]
  | some id =>
      obtain ⟨calls, hperforms, hcalls⟩ := performs_onMount storage id (.onFile request file.handle)
      have hrecord : file.record? storage = storage.mountOf? id := by
        rw [OpenFile.record?, hfile, Option.bind_some]
      rw [hrecord]
      refine ⟨calls, ?_, hcalls⟩
      rw [outcome_onFile_of_open storage hfile]
      exact hperforms.stop fun κ before after hanswer =>
        (outcome_onFile_of_open before hfile request).trans hanswer

/-- Every request about a file but its close is a use of the file. -/
theorem performs_onFile_of_ne_close (file : OpenFile) {request : FileRequest}
    (hrequest : request ≠ .close) (storage : Storage δ ω) :
    ∃ calls, Performs (fun _ => onFile file request) storage calls
        ((onFile file request).outcome storage) ∧
      ∀ call ∈ calls, call.Uses file storage := by
  obtain ⟨calls, hperforms, rfl | ⟨mount, answer, hrecord, rfl⟩⟩ :=
    performs_onFile file request storage
  · exact ⟨[], hperforms, by simp⟩
  · refine ⟨_, hperforms, fun call hcall => ?_⟩
    obtain rfl := List.mem_singleton.mp hcall
    exact ⟨mount, request, answer, hrecord, hrequest, rfl⟩

theorem performs_writeAll_nil (file : OpenFile) (storage : Storage δ ω) :
    Performs (fun _ => writeAll file []) storage [] (.ok (), storage) := by
  refine ⟨outcome_writeAll_nil storage file, fun earlier => ?_⟩
  rw [outcome_writeAll_nil, List.append_nil]

section Writing

variable {file : OpenFile} {bytes : Bytes} {calls later : List Call} {after : Storage δ ω}

theorem performs_writeAll_of_error (hbytes : bytes ≠ []) {cause : StorageError}
    (hwrite : Performs (fun _ => onFile file (.write bytes)) storage calls (.error cause, after)) :
    Performs (fun _ => writeAll file bytes) storage calls (.error cause, after) :=
  hwrite.stop fun κ before after hanswer => by rw [outcome_writeAll before file hbytes, hanswer]

theorem performs_writeAll_of_zero (hbytes : bytes ≠ [])
    (hwrite : Performs (fun _ => onFile file (.write bytes)) storage calls (.ok 0, after)) :
    Performs (fun _ => writeAll file bytes) storage calls (.error .ioError, after) :=
  hwrite.stop fun κ before after hanswer => by rw [outcome_writeAll before file hbytes, hanswer]

/-- Behind a write that accepts anything the rest of the payload is written. -/
theorem performs_writeAll_of_accepted (hbytes : bytes ≠ []) {count : Nat}
    (hwrite : Performs (fun _ => onFile file (.write bytes)) storage calls (.ok (count + 1), after))
    {result : Except StorageError Unit × Storage δ ω}
    (hrest : Performs (fun _ => writeAll file (bytes.drop (count + 1))) after later result) :
    Performs (fun _ => writeAll file bytes) storage (calls ++ later) result :=
  hwrite.next hrest fun κ before after hanswer => by rw [outcome_writeAll before file hbytes, hanswer]

end Writing

/-- The writes of a whole payload all go to the mount of the file. -/
theorem performs_writeAll (file : OpenFile) (bytes : Bytes) (storage : Storage δ ω) :
    ∃ calls, Performs (fun _ => writeAll file bytes) storage calls
        ((writeAll file bytes).outcome storage) ∧
      ∀ call ∈ calls, call.Uses file storage := by
  induction bytes using payload_induct generalizing storage with
  | nil => exact ⟨[], (performs_writeAll_nil file storage).self, by simp⟩
  | drop bytes hbytes ih =>
      have hwriting : FileRequest.write bytes ≠ .close := by simp
      obtain ⟨calls, hperforms, huses⟩ := performs_onFile_of_ne_close file hwriting storage
      have hsame := sameTables_onFile storage file (.write bytes)
      rcases hwrite : (onFile file (.write bytes)).outcome storage with ⟨cause | count, after⟩
      all_goals rw [hwrite] at hperforms hsame
      · exact ⟨calls, (performs_writeAll_of_error hbytes hperforms).self, huses⟩
      · cases count with
        | zero => exact ⟨calls, (performs_writeAll_of_zero hbytes hperforms).self, huses⟩
        | succ count =>
            obtain ⟨later, hlater, hrest⟩ := ih count after
            refine ⟨calls ++ later, (performs_writeAll_of_accepted hbytes hperforms hlater).self,
              List.forall_mem_append.mpr ⟨huses, fun call hcall => ?_⟩⟩
            exact (hrest call hcall).of_sameTables hsame

/-- An operation on a handle that answers from the mount table alone makes no call. -/
theorem performs_of_silent {κ α : Type} {handle after : κ}
    {action : (ω : Type) → Action (κ × Storage δ ω) α} {answer : Except StorageError α}
    (hsilent : ∀ (ω : Type) (before : Storage δ ω), before.mounts = storage.mounts →
      (action ω).outcome (handle, before) = (answer, after, before)) :
    Performs (fun ω => holding handle (action ω)) storage [] (.ok (answer, after), storage) := by
  refine ⟨?_, fun earlier => ?_⟩
  · rw [outcome_holding, hsilent _ storage rfl]
  · rw [outcome_holding, hsilent _ (storage.logged earlier) rfl, List.append_nil]

/-- A closed file is refused without a call, and closing it once more does nothing. -/
theorem performs_of_closed_file {file : OpenFile} (hfile : file.mount = none)
    (storage : Storage δ ω) :
    Performs (fun _ => holding file closeFile) storage [] (.ok (.ok (), file), storage) ∧
      ∀ request, Performs (fun _ => onFile file request) storage []
        (.error .badFileDescriptor, storage) := by
  refine ⟨performs_of_silent fun _ before _ => outcome_closeFile_of_closed before hfile,
    fun request => ⟨outcome_onFile_of_closed _ hfile request, fun earlier => ?_⟩⟩
  rw [outcome_onFile_of_closed _ hfile request, List.append_nil]

/-- A closed directory is refused without a call, and closing it once more does nothing. -/
theorem performs_of_closed_dir (storage : Storage δ ω) :
    Performs (fun _ => holding .closed closeDir) storage [] (.ok (.ok (), .closed), storage) ∧
      ∀ attempts, Performs (fun _ => holding .closed (readDir attempts)) storage []
        (.ok (.error .badFileDescriptor, .closed), storage) :=
  ⟨performs_of_silent fun _ _ _ => rfl, fun _ => performs_of_silent fun _ _ _ => rfl⟩

/-- Closing an open file is its close request, and the file is closed whatever that answers. -/
theorem performs_closeFile_of_open {file : OpenFile} {id : MountId} (hfile : file.mount = some id)
    {calls : List Call} {answer : Except StorageError Unit} {after : Storage δ ω}
    (hperforms : Performs (fun _ => onMount id (.onFile .close file.handle)) storage calls
      (answer, after)) :
    Performs (fun _ => holding file closeFile) storage calls (.ok (answer, file.closed), after) := by
  refine hperforms.stop fun κ before after hanswer => ?_
  rw [outcome_holding, outcome_closeFile_of_open before hfile, hanswer]

/-- A request about a file whose mount is live is one call to the backend of the mount. -/
theorem performs_onFile_of_live {file : OpenFile} {mount : MountPoint} {backend : Backend δ ω}
    (hmount : file.record? storage = some mount)
    (hbackend : storage.backend? mount.fsType = some backend) (request : FileRequest) :
    let asked := ask backend mount (.onFile request file.handle) storage
    Performs (fun _ => onFile file request) storage
      [.serve mount.fsType mount (.onFile request file.handle) asked.1] asked := by
  obtain ⟨id, hfile, hfound⟩ := Option.bind_eq_some_iff.mp hmount
  exact (performs_onMount_of_live hfound hbackend (.onFile request file.handle)).stop
    fun κ before after hanswer => (outcome_onFile_of_open before hfile request).trans hanswer

/-- Closing a file whose mount is live is one call to the backend of the mount. -/
theorem performs_closeFile_of_live {file : OpenFile} {mount : MountPoint} {backend : Backend δ ω}
    (hmount : file.record? storage = some mount)
    (hbackend : storage.backend? mount.fsType = some backend) :
    ∃ answer after, Performs (fun _ => holding file closeFile) storage
      [.serve mount.fsType mount (.onFile .close file.handle) answer]
      (.ok (answer, file.closed), after) := by
  obtain ⟨id, hfile, hfound⟩ := Option.bind_eq_some_iff.mp hmount
  exact ⟨_, _, performs_closeFile_of_open hfile
    (performs_onMount_of_live hfound hbackend (.onFile .close file.handle))⟩

/-- Closing a file is one call or none. -/
theorem performs_closeFile (file : OpenFile) (storage : Storage δ ω) :
    ∃ calls answer after,
      Performs (fun _ => holding file closeFile) storage calls (.ok (answer, file.closed), after) ∧
        calls.length ≤ 1 := by
  cases hfile : file.mount with
  | none =>
      have hclosed : file.closed = file := by rw [OpenFile.closed, ← hfile]
      rw [hclosed]
      exact ⟨[], .ok (), storage, (performs_of_closed_file hfile storage).1, Nat.zero_le 1⟩
  | some id =>
      obtain ⟨calls, hperforms, hcalls⟩ := performs_onMount storage id (.onFile .close file.handle)
      refine ⟨calls, _, _, performs_closeFile_of_open hfile hperforms, ?_⟩
      rcases hcalls with rfl | ⟨mount, answer, -, rfl⟩
      · exact Nat.zero_le 1
      · exact Nat.le_refl 1

/-- Asking for entries is over with the first answer that is no dot entry. -/
theorem outcome_readEntry_succ (id : MountId) (handle : DirHandle) (attempts : Nat)
    (storage : Storage δ ω) :
    (readEntry id handle (attempts + 1)).outcome storage =
      let (answer, after) := (onMount id (.onDir .next handle)).outcome storage
      if isDotAnswer answer then (readEntry id handle attempts).outcome after
      else (answer.map DirReading.ofNext, after) := by
  unfold Action.outcome
  rw [readEntry]
  cases onMount id (.onDir .next handle) storage with
  | error cause after => rfl
  | ok entry after =>
      cases entry with
      | none => rfl
      | some entry =>
          cases hdot : entry.isDot <;> simp [isDotAnswer, hdot, Except.map, DirReading.ofNext]

section Entries

variable {id : MountId} {handle : DirHandle} {calls later : List Call} {after : Storage δ ω}
  {answer : Except StorageError (Option DirEntry)}

theorem performs_readEntry_of_last (hlast : isDotAnswer answer = false) (attempts : Nat)
    (hnext : Performs (fun _ => onMount id (.onDir .next handle)) storage calls (answer, after)) :
    Performs (fun _ => readEntry id handle (attempts + 1)) storage calls
      (answer.map DirReading.ofNext, after) :=
  hnext.stop fun κ before after hanswer => by
    rw [outcome_readEntry_succ, hanswer]
    simp [hlast]

theorem performs_readEntry_of_dot (hdot : isDotAnswer answer = true) {attempts : Nat}
    (hnext : Performs (fun _ => onMount id (.onDir .next handle)) storage calls (answer, after))
    {result : Except StorageError DirReading × Storage δ ω}
    (hrest : Performs (fun _ => readEntry id handle attempts) after later result) :
    Performs (fun _ => readEntry id handle (attempts + 1)) storage (calls ++ later) result :=
  hnext.next hrest fun κ before after hanswer => by
    rw [outcome_readEntry_succ, hanswer]
    exact if_pos hdot

end Entries

/-- Asking for entries is no close. -/
theorem performs_readEntry (id : MountId) (handle : DirHandle) (attempts : Nat)
    (storage : Storage δ ω) :
    ∃ calls, Performs (fun _ => readEntry id handle attempts) storage calls
        ((readEntry id handle attempts).outcome storage) ∧
      ∀ call ∈ calls, call.isClose = false := by
  induction attempts generalizing storage with
  | zero => exact ⟨[], ⟨rfl, fun earlier => by rw [List.append_nil]; rfl⟩, by simp⟩
  | succ attempts ih =>
      obtain ⟨calls, hperforms, hcalls⟩ := performs_onMount storage id (.onDir .next handle)
      have hnext : ∀ call ∈ calls, call.isClose = false := by
        rcases hcalls with rfl | ⟨mount, answer, -, rfl⟩
        · simp
        · simp [Call.isClose]
      rcases hanswer : (onMount id (.onDir .next handle)).outcome storage with ⟨answer, after⟩
      rw [hanswer] at hperforms
      cases hdot : isDotAnswer answer with
      | true =>
          obtain ⟨later, hlater, hrest⟩ := ih after
          exact ⟨calls ++ later, (performs_readEntry_of_dot hdot hperforms hlater).self,
            List.forall_mem_append.mpr ⟨hnext, hrest⟩⟩
      | false => exact ⟨calls, (performs_readEntry_of_last hdot attempts hperforms).self, hnext⟩

theorem outcome_readDir_root (attempts cursor : Nat) (storage : Storage δ ω) :
    (readDir attempts).outcome (.root cursor, storage) =
      match storage.mounts[cursor]? with
      | none => (.ok .finished, .root cursor, storage)
      | some mount => (.ok (.entry mount.toDirEntry), .root (cursor + 1), storage) := by
  unfold Action.outcome readDir
  dsimp only
  cases storage.mounts[cursor]? <;> rfl

/-- Reading a directory of a backend is asking for entries, and leaves the directory as it is. -/
theorem performs_readDir_backend {attempts : Nat} {handle : DirHandle} {id : MountId}
    {calls : List Call} {answer : Except StorageError DirReading} {after : Storage δ ω}
    (hperforms : Performs (fun _ => readEntry id handle attempts) storage calls (answer, after)) :
    Performs (fun _ => holding (.backend handle id) (readDir attempts)) storage calls
      (.ok (answer, .backend handle id), after) :=
  hperforms.stop fun κ before after hanswer => by
    rw [outcome_holding, outcome_readDir_backend, hanswer]

/-- Reading a directory is no close. -/
theorem performs_readDir (attempts : Nat) (dir : OpenDir) (storage : Storage δ ω) :
    ∃ calls, Performs (fun _ => holding dir (readDir attempts)) storage calls
        ((holding dir (readDir attempts)).outcome storage) ∧
      ∀ call ∈ calls, call.isClose = false := by
  cases dir with
  | root cursor =>
      have hroot : ∃ answer after, Performs (fun _ => holding (.root cursor) (readDir attempts))
          storage [] (.ok (answer, after), storage) := by
        cases hmount : storage.mounts[cursor]? with
        | none =>
            refine ⟨.ok .finished, .root cursor, performs_of_silent fun _ before hmounts => ?_⟩
            rw [outcome_readDir_root, hmounts, hmount]
        | some mount =>
            refine ⟨.ok (.entry mount.toDirEntry), .root (cursor + 1),
              performs_of_silent fun _ before hmounts => ?_⟩
            rw [outcome_readDir_root, hmounts, hmount]
      obtain ⟨answer, after, hperforms⟩ := hroot
      exact ⟨[], hperforms.self, by simp⟩
  | backend handle id =>
      obtain ⟨calls, hperforms, hcalls⟩ := performs_readEntry id handle attempts storage
      exact ⟨calls, (performs_readDir_backend hperforms).self, hcalls⟩
  | closed =>
      exact ⟨[], ((performs_of_closed_dir storage).2 attempts).self, by simp⟩

/-- Closing a directory is one call or none, and the directory is closed whatever that answers. -/
theorem performs_closeDir (dir : OpenDir) (storage : Storage δ ω) :
    ∃ calls answer after,
      Performs (fun _ => holding dir closeDir) storage calls (.ok (answer, .closed), after) ∧
        calls.length ≤ 1 := by
  cases dir with
  | root cursor =>
      exact ⟨[], .ok (), storage, performs_of_silent fun _ _ _ => rfl, Nat.zero_le 1⟩
  | backend handle id =>
      obtain ⟨calls, hperforms, hcalls⟩ := performs_onMount storage id (.onDir .close handle)
      rcases hclose : (onMount id (.onDir .close handle)).outcome storage with ⟨answer, after⟩
      rw [hclose] at hperforms
      refine ⟨calls, answer, after, hperforms.stop fun κ before after hanswer => ?_, ?_⟩
      · rw [outcome_holding, outcome_closeDir_backend, hanswer]
      · rcases hcalls with rfl | ⟨mount, answer, -, rfl⟩
        · exact Nat.zero_le 1
        · exact Nat.le_refl 1
  | closed => exact ⟨[], .ok (), storage, (performs_of_closed_dir storage).1, Nat.zero_le 1⟩

end Requests

end Storage

end StorageStack

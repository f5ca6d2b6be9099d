import StorageStack.Proofs.Storage.HandleCalls
import StorageStack.Proofs.Storage.Handles
import StorageStack.Proofs.Storage.Routing

/-! # Closing

A close ends an open file or directory, whatever the backend makes of it, and nothing that is done
with the handle afterwards reaches a backend. So a handle is closed at most once, and a file that is
opened for a limited use is closed exactly once behind that use.
-/

namespace StorageStack

variable {δ ω : Type}

/-- What can be done with an open file short of closing it. -/
inductive FileUse where
  | request (asked : FileRequest) (hasked : asked ≠ .close)
  | writeAll (bytes : Bytes)

namespace FileUse

/-- A use of a file. Of the reply no more is kept than that there was one. -/
def action (file : OpenFile) : FileUse → Action (Storage δ ω) Unit
  | .request asked _ => fun storage =>
      match Storage.onFile file asked storage with
      | .ok _ after => .ok () after
      | .error cause after => .error cause after
  | .writeAll bytes => Storage.writeAll file bytes

/-- Uses of a file one after the other, whether they succeed or not. -/
def all (file : OpenFile) : List FileUse → Action (Storage δ ω) Unit
  | [], storage => .ok () storage
  | use :: rest, storage => all file rest ((use.action file).outcome storage).2

theorem outcome_request (file : OpenFile) {asked : FileRequest} (hasked : asked ≠ .close)
    (storage : Storage δ ω) :
    ((request asked hasked).action file).outcome storage =
      (((Storage.onFile file asked).outcome storage).1.map fun _ => (),
        ((Storage.onFile file asked).outcome storage).2) := by
  unfold Action.outcome action
  dsimp only
  cases Storage.onFile file asked storage <;> rfl

theorem sameTables_action (use : FileUse) (file : OpenFile) (storage : Storage δ ω) :
    Storage.SameTables storage ((use.action file).outcome storage).2 := by
  cases use with
  | request asked hasked =>
      rw [outcome_request]
      exact Storage.sameTables_onFile storage file asked
  | writeAll bytes => exact Storage.sameTables_writeAll storage file bytes

/-- A use of a file makes calls for the mount of the file only, and none of them closes it. -/
theorem performs_action (use : FileUse) (file : OpenFile) (storage : Storage δ ω) :
    ∃ calls, Storage.Performs (fun _ => use.action file) storage calls
        ((use.action file).outcome storage) ∧
      ∀ call ∈ calls, call.Uses file storage := by
  cases use with
  | request asked hasked =>
      obtain ⟨calls, hperforms, huses⟩ := Storage.performs_onFile_of_ne_close file hasked storage
      rw [outcome_request]
      rcases hasking : (Storage.onFile file asked).outcome storage with ⟨answer, after⟩
      rw [hasking] at hperforms
      refine ⟨calls, hperforms.stop fun κ before after hanswer => ?_, huses⟩
      rw [outcome_request, hanswer]
  | writeAll bytes => exact Storage.performs_writeAll file bytes storage

end FileUse

/-- How a kind of handle is used and closed. -/
structure Handling (δ κ ε α : Type) where
  use : ε → (ω : Type) → Action (κ × Storage δ ω) α
  close : (ω : Type) → Action (κ × Storage δ ω) Unit

/-- Open files, used short of a close. -/
def fileHandling (δ : Type) : Handling δ OpenFile FileUse Unit where
  use use _ := fun (file, storage) =>
    (use.action file).within Prod.snd (fun after state => (state.1, after)) (file, storage)
  close _ := Storage.closeFile

/-- Open directories, read with a bound on the attempts. -/
def dirHandling (δ : Type) : Handling δ OpenDir Nat DirReading where
  use attempts _ := Storage.readDir attempts
  close _ := Storage.closeDir

/-- What happens as long as somebody has a handle: it is used, it is closed, or something is done
that has nothing to do with it. -/
inductive HandleStep (ε δ ω : Type) where
  | use (use : ε)
  | close
  | other (operation : Operation δ ω)

namespace Handling

section Life

variable {κ ε α : Type} [DiskDriver δ] (handling : Handling δ κ ε α)

/-- One step: the calls made on behalf of the handle, the handle, and the storage layer. -/
def run : HandleStep ε δ ω → κ × Storage δ ω → List Call × κ × Storage δ ω
  | .use use, (handle, storage) =>
      (Storage.callsOf (fun ω => Storage.holding handle (handling.use use ω)) storage,
        ((handling.use use ω).outcome (handle, storage)).2)
  | .close, (handle, storage) =>
      (Storage.callsOf (fun ω => Storage.holding handle (handling.close ω)) storage,
        ((handling.close ω).outcome (handle, storage)).2)
  | .other operation, (handle, storage) => ([], handle, operation.state storage)

/-- Steps one after the other, with all calls made on behalf of the handle. -/
def life : List (HandleStep ε δ ω) → κ × Storage δ ω → List Call × κ × Storage δ ω
  | [], state => ([], state)
  | step :: rest, state =>
      let later := life rest (handling.run step state).2
      ((handling.run step state).1 ++ later.1, later.2)

theorem life_append (first second : List (HandleStep ε δ ω)) (state : κ × Storage δ ω) :
    handling.life (first ++ second) state =
      let early := handling.life first state
      let late := handling.life second early.2
      (early.1 ++ late.1, late.2) := by
  induction first generalizing state with
  | nil => rfl
  | cons step rest ih =>
      rw [List.cons_append, life, life, ih]
      dsimp only
      rw [List.append_assoc]

variable {handling} {handle left : κ} {storage after : Storage δ ω} {calls : List Call}

theorem run_use_eq {use : ε} {answer : Except StorageError α}
    (hperforms : Storage.Performs (fun ω => Storage.holding handle (handling.use use ω)) storage
      calls (.ok (answer, left), after)) :
    handling.run (.use use) (handle, storage) = (calls, left, after) := by
  rw [run, hperforms.callsOf_eq, Storage.outcome_holding_eq_iff.mp hperforms.1]

theorem run_close_eq {answer : Except StorageError Unit}
    (hperforms : Storage.Performs (fun ω => Storage.holding handle (handling.close ω)) storage
      calls (.ok (answer, left), after)) :
    handling.run .close (handle, storage) = (calls, left, after) := by
  rw [run, hperforms.callsOf_eq, Storage.outcome_holding_eq_iff.mp hperforms.1]

end Life

section Once

variable {κ ε α : Type} [DiskDriver δ]

/-- A handle that is used is not closed by that, one call at most closes it, and once it is closed
nothing is called for it. -/
structure Careful (handling : Handling δ κ ε α) (isOpen : κ → Bool) : Prop where
  use : ∀ {ω : Type} (use : ε) (handle : κ) (storage : Storage δ ω),
    ∀ call ∈ (handling.run (.use use) (handle, storage)).1, call.isClose = false
  close : ∀ {ω : Type} (handle : κ) (storage : Storage δ ω),
    (handling.run .close (handle, storage)).1.length ≤ 1 ∧
      isOpen (handling.run .close (handle, storage)).2.1 = false
  closed : ∀ {ω : Type} (step : HandleStep ε δ ω) (handle : κ) (storage : Storage δ ω),
    isOpen handle = false → (handling.run step (handle, storage)).1 = [] ∧
      isOpen (handling.run step (handle, storage)).2.1 = false

/-- Whatever is done with a handle and beside it, at most one call closes it. Its first close is
the last that a backend hears of it, and it is closed from then on. -/
structure ClosesOnce (handling : Handling δ κ ε α) (isOpen : κ → Bool) (ω : Type) : Prop where
  countP_le : ∀ (steps : List (HandleStep ε δ ω)) (state : κ × Storage δ ω),
    (handling.life steps state).1.countP Call.isClose ≤ 1
  close : ∀ (before after : List (HandleStep ε δ ω)) (state : κ × Storage δ ω),
    (handling.life (before ++ .close :: after) state).1 =
        (handling.life (before ++ [.close]) state).1 ∧
      isOpen (handling.life (before ++ .close :: after) state).2.1 = false

namespace Careful

variable {handling : Handling δ κ ε α} {isOpen : κ → Bool} (hcareful : handling.Careful isOpen)

include hcareful

theorem life_of_closed (steps : List (HandleStep ε δ ω)) {state : κ × Storage δ ω}
    (hclosed : isOpen state.1 = false) :
    (handling.life steps state).1 = [] ∧ isOpen (handling.life steps state).2.1 = false := by
  induction steps generalizing state with
  | nil => exact ⟨rfl, hclosed⟩
  | cons step rest ih =>
      obtain ⟨hcalls, hstep⟩ := hcareful.closed step state.1 state.2 hclosed
      obtain ⟨hlater, hrest⟩ := ih hstep
      exact ⟨by rw [life, hcalls, hlater, List.nil_append], hrest⟩

theorem countP_life_le (steps : List (HandleStep ε δ ω)) (state : κ × Storage δ ω) :
    (handling.life steps state).1.countP Call.isClose ≤ 1 := by
  induction steps generalizing state with
  | nil => exact Nat.zero_le 1
  | cons step rest ih =>
      rw [life, List.countP_append]
      cases step with
      | use use =>
          have huse := List.countP_eq_zero.mpr fun call hcall =>
            Bool.not_eq_true _ ▸ hcareful.use use state.1 state.2 call hcall
          rw [huse, Nat.zero_add]
          exact ih _
      | close =>
          obtain ⟨hone, hclosed⟩ := hcareful.close state.1 state.2
          -- From here on the handle is closed, so the rest of its life adds no call.
          rw [(hcareful.life_of_closed rest hclosed).1]
          exact Nat.le_trans List.countP_le_length hone
      | other operation => simpa [run] using ih _

theorem closesOnce (ω : Type) : handling.ClosesOnce isOpen ω where
  countP_le := hcareful.countP_life_le
  close before after state := by
    rw [life_append, life_append]
    dsimp only
    have hclosed := (hcareful.close (handling.life before state).2.1
      (handling.life before state).2.2).2
    obtain ⟨hcalls, hrest⟩ := hcareful.life_of_closed after hclosed
    refine ⟨?_, hrest⟩
    rw [life, life, hcalls]
    rfl

end Careful

end Once

end Handling

namespace Storage

theorem record?_of_closed {file : OpenFile} (hfile : file.mount = none) (storage : Storage δ ω) :
    file.record? storage = none := by
  rw [OpenFile.record?, hfile, Option.bind_none]

/-- Using a file is its use on the storage layer, and leaves the file as it is. -/
theorem performs_use {use : FileUse} {file : OpenFile} {storage after : Storage δ ω}
    {calls : List Call} {answer : Except StorageError Unit}
    (hperforms : Performs (fun _ => use.action file) storage calls (answer, after)) :
    Performs (fun ω => holding file ((fileHandling δ).use use ω)) storage calls
      (.ok (answer, file), after) := by
  refine hperforms.stop fun κ before after hanswer => ?_
  have hwithin := Action.outcome_within Prod.snd
    (fun after (state : OpenFile × Storage δ κ) => (state.1, after)) (use.action file) (file, before)
  rw [hanswer] at hwithin
  rw [outcome_holding]
  exact congrArg (fun result => (Except.ok (result.1, result.2.1), result.2.2)) hwithin

theorem careful_files [DiskDriver δ] : (fileHandling δ).Careful OpenFile.isOpen where
  use use file storage := by
    obtain ⟨calls, hperforms, huses⟩ := use.performs_action file storage
    rw [Handling.run_use_eq (performs_use hperforms)]
    exact fun call hcall => (huses call hcall).isClose_eq
  close file storage := by
    obtain ⟨calls, answer, after, hperforms, hone⟩ := performs_closeFile file storage
    rw [Handling.run_close_eq hperforms]
    exact ⟨hone, rfl⟩
  closed step file storage hclosed := by
    have hfile : file.mount = none := by simpa [OpenFile.isOpen] using hclosed
    cases step with
    | use use =>
        obtain ⟨calls, hperforms, huses⟩ := use.performs_action file storage
        rw [Handling.run_use_eq (performs_use hperforms)]
        refine ⟨List.eq_nil_iff_forall_not_mem.mpr fun call hcall => ?_, hclosed⟩
        obtain ⟨mount, _, _, hrecord, -⟩ := huses call hcall
        rw [record?_of_closed hfile] at hrecord
        cases hrecord
    | close =>
        rw [Handling.run_close_eq (performs_of_closed_file hfile storage).1]
        exact ⟨rfl, hclosed⟩
    | other operation => exact ⟨rfl, hclosed⟩

theorem careful_dirs [DiskDriver δ] : (dirHandling δ).Careful OpenDir.isOpen where
  use attempts dir storage := by
    obtain ⟨calls, hperforms, hcalls⟩ := performs_readDir attempts dir storage
    rw [outcome_holding] at hperforms
    rw [Handling.run_use_eq hperforms]
    exact hcalls
  close dir storage := by
    obtain ⟨calls, answer, after, hperforms, hone⟩ := performs_closeDir dir storage
    rw [Handling.run_close_eq hperforms]
    exact ⟨hone, rfl⟩
  closed step dir storage hclosed := by
    have hdir : dir = .closed := by cases dir <;> first | rfl | cases hclosed
    subst hdir
    cases step with
    | use attempts =>
        rw [Handling.run_use_eq ((performs_of_closed_dir storage).2 attempts)]
        exact ⟨rfl, rfl⟩
    | close =>
        rw [Handling.run_close_eq (performs_of_closed_dir storage).1]
        exact ⟨rfl, rfl⟩
    | other operation => exact ⟨rfl, rfl⟩

end Storage

/-- How a file that was opened for a limited use is given back: at the end of its scope, which
closes it, or by a close ahead of that. -/
inductive Ending where
  | dropped
  | closed

/-- The scope closes the file in either case. -/
def Ending.steps : Ending → List (HandleStep FileUse δ ω)
  | dropped => [.close]
  | closed => [.close, .close]

namespace Storage

section Guard

variable {storage opened used after : Storage δ ω} {file left : OpenFile}

theorem record?_of_sameTables (hsame : SameTables storage after) :
    file.record? after = file.record? storage := by
  obtain ⟨env, rfl⟩ := hsame
  rfl

theorem backend?_of_sameTables (hsame : SameTables storage after) (fsType : FsType) :
    after.backend? fsType = storage.backend? fsType := by
  obtain ⟨env, rfl⟩ := hsame
  rfl

/-- The uses of a file are so many steps of its life, and none of them closes it. -/
theorem life_uses [DiskDriver δ] (file : OpenFile) (uses : List FileUse) (storage : Storage δ ω) :
    ∃ calls after, Performs (fun _ => FileUse.all file uses) storage calls (.ok (), after) ∧
      (fileHandling δ).life (uses.map .use) (file, storage) = (calls, file, after) ∧
      SameTables storage after ∧ ∀ call ∈ calls, call.Uses file storage := by
  induction uses generalizing storage with
  | nil =>
      refine ⟨[], storage, ⟨rfl, fun earlier => ?_⟩, rfl, .refl storage, by simp⟩
      rw [List.append_nil]
      rfl
  | cons use rest ih =>
      obtain ⟨calls, hperforms, huses⟩ := use.performs_action file storage
      have hsame := use.sameTables_action file storage
      rcases huse : (use.action file).outcome storage with ⟨answer, middle⟩
      rw [huse] at hperforms hsame
      obtain ⟨later, after, hlater, hlife, hrest, hlaterUses⟩ := ih middle
      refine ⟨calls ++ later, after, hperforms.next hlater fun κ before after hanswer => ?_, ?_,
        hsame.trans hrest, List.forall_mem_append.mpr ⟨huses, fun call hcall => ?_⟩⟩
      · exact congrArg (fun result => (FileUse.all file rest).outcome result.2) hanswer
      · rw [List.map_cons, Handling.life, Handling.run_use_eq (performs_use hperforms), hlife]
      · exact (hlaterUses call hcall).of_sameTables hsame

/-- A file that is used and given back is closed by one call behind its uses. -/
theorem life_guarded [DiskDriver δ] {mount : MountPoint} {backend : Backend δ ω}
    (hmount : file.record? opened = some mount)
    (hbackend : opened.backend? mount.fsType = some backend) (uses : List FileUse) :
    ∃ made used answer after,
      Performs (fun _ => FileUse.all file uses) opened made (.ok (), used) ∧
      Performs (fun _ => holding file closeFile) used
        [.serve mount.fsType mount (.onFile .close file.handle) answer]
        (.ok (answer, file.closed), after) ∧
      (∀ call ∈ made, call.Uses file opened) ∧
      ∀ ending : Ending, (fileHandling δ).life (uses.map .use ++ ending.steps) (file, opened) =
        (made ++ [.serve mount.fsType mount (.onFile .close file.handle) answer], file.closed,
          after) := by
  obtain ⟨made, used, huses, hlife, hsame, hcalls⟩ := life_uses file uses opened
  obtain ⟨answer, after, hclose⟩ := performs_closeFile_of_live
    ((record?_of_sameTables hsame).trans hmount) ((backend?_of_sameTables hsame _).trans hbackend)
  refine ⟨made, used, answer, after, huses, hclose, hcalls, fun ending => ?_⟩
  have hfirst : (fileHandling δ).run .close (file, used) = _ := Handling.run_close_eq hclose
  -- A close ahead of the end leaves the end of the scope with a closed file.
  have hagain : (fileHandling δ).run .close (file.closed, after) = ([], file.closed, after) :=
    Handling.run_close_eq (performs_of_closed_file rfl after).1
  rw [Handling.life_append, hlife]
  cases ending with
  | dropped => simp only [Ending.steps, Handling.life, hfirst, List.append_nil]
  | closed => simp only [Ending.steps, Handling.life, hfirst, hagain, List.append_nil]

theorem outcome_withFile {α : Type} {path : String} {options : OpenOptions}
    {use : OpenFile → Action (Storage δ ω) α} {value : Except StorageError α}
    {answer : Except StorageError Unit}
    (hopen : (openFile path options).outcome storage = (.ok file, opened))
    (huse : (use file).outcome opened = (value, used))
    (hclose : closeFile.outcome (file, used) = (answer, left, after)) :
    (withFile path options use).outcome storage = (value.map fun value => (value, answer), after) := by
  have hopen := Action.outcome_eq_ok_iff.mp hopen
  unfold Action.outcome withFile
  rw [hopen]
  dsimp only
  cases value with
  | ok value =>
      rw [Action.outcome_eq_ok_iff.mp huse]
      dsimp only
      cases answer with
      | ok _ => rw [Action.outcome_eq_ok_iff.mp hclose]; rfl
      | error cause => rw [Action.outcome_eq_error_iff.mp hclose]; rfl
  | error cause =>
      rw [Action.outcome_eq_error_iff.mp huse]
      dsimp only
      cases answer with
      | ok _ => rw [Action.outcome_eq_ok_iff.mp hclose]; rfl
      | error other => rw [Action.outcome_eq_error_iff.mp hclose]; rfl

/-- A file that is opened, used and given back: the calls of the three, one after the other. -/
theorem performs_withFile {α : Type} {path : String} {options : OpenOptions}
    (use : (ω : Type) → OpenFile → Action (Storage δ ω) α) {value : Except StorageError α}
    {answer : Except StorageError Unit} {opening made closing : List Call}
    (hopen : Performs (fun _ => openFile path options) storage opening (.ok file, opened))
    (huse : Performs (fun ω => use ω file) opened made (value, used))
    (hclose : Performs (fun _ => holding file closeFile) used closing (.ok (answer, left), after)) :
    Performs (fun ω => withFile path options (use ω)) storage (opening ++ (made ++ closing))
      (value.map fun value => (value, answer), after) := by
  refine ⟨outcome_withFile hopen.1 huse.1 (outcome_holding_eq_iff.mp hclose.1), fun earlier => ?_⟩
  rw [outcome_withFile (hopen.2 earlier) (huse.2 _) (outcome_holding_eq_iff.mp (hclose.2 _)),
    List.append_assoc, List.append_assoc]

/-- A file that cannot be opened is not used, and not closed. -/
theorem performs_withFile_of_error {α : Type} {path : String} {options : OpenOptions}
    {use : (ω : Type) → OpenFile → Action (Storage δ ω) α} {cause : StorageError}
    {opening : List Call}
    (hopen : Performs (fun _ => openFile path options) storage opening (.error cause, opened)) :
    Performs (fun ω => withFile path options (use ω)) storage opening (.error cause, opened) := by
  refine hopen.stop fun κ before after hanswer => ?_
  unfold Action.outcome withFile
  rw [Action.outcome_eq_error_iff.mp hanswer]

/-- Opening a file is no close. -/
theorem performs_openFile (hsound : storage.Sound) (path : String) (options : OpenOptions) :
    ∃ opening, (∀ call ∈ opening, call.isClose = false) ∧
      Performs (fun _ => openFile path options) storage opening
        ((openFile path options).outcome storage) := by
  cases hmount : storage.resolve path with
  | error cause =>
      exact ⟨[], by simp, ((refused_of_resolve hmount).openFile options).self⟩
  | ok mount =>
      obtain ⟨backend, hbackend⟩ := hsound.backend?_isSome (mem_of_resolve hmount)
      refine ⟨_, ?_, ((routed_of_resolve hmount hbackend).openFile options).self⟩
      simp [Call.isClose]

theorem exists_record? (hsound : storage.Sound) {path : String} {options : OpenOptions}
    (hopen : openFile path options storage = .ok file opened) :
    ∃ resolved mount backend, storage.resolve path = .ok resolved ∧ file.mount = some resolved.id ∧
      mount.id = resolved.id ∧ file.record? opened = some mount ∧
      opened.backend? mount.fsType = some backend := by
  obtain ⟨resolved, hresolved, hfile, hserve⟩ := of_openFile_eq_ok hopen
  have hsame := sameTables_of_serve_eq_ok hserve
  have hfound : (storage.mountOf? resolved.id).isSome := by
    rw [mountOf?, List.find?_isSome]
    exact ⟨resolved, mem_of_resolve hresolved, decide_eq_true rfl⟩
  obtain ⟨mount, hmount⟩ := Option.isSome_iff_exists.mp hfound
  obtain ⟨hlive, hid⟩ := mem_of_mountOf? hmount
  obtain ⟨backend, hbackend⟩ := hsound.backend?_isSome hlive
  refine ⟨resolved, mount, backend, hresolved, hfile, hid, ?_,
    (backend?_of_sameTables hsame _).trans hbackend⟩
  rw [record?_of_sameTables hsame, OpenFile.record?, hfile, Option.bind_some, hmount]

end Guard

/-- As long as the identities have not come round, a file that was opened leads to the very record
that its path belonged to. -/
theorem record?_openFile [DiskDriver δ] (blocks : BlockDevices δ) (host : ω)
    (before : List (Operation δ ω)) {path : String} {options : OpenOptions} {file : OpenFile}
    {opened : Storage δ ω} {mount : MountPoint}
    (hopen : openFile path options ((ofBlocks blocks host).after before) = .ok file opened)
    (hmount : ((ofBlocks blocks host).after before).resolve path = .ok mount)
    (hcount : (ofBlocks blocks host).mountCount before ≤ UInt32.size) :
    file.record? opened = some mount := by
  obtain ⟨resolved, hresolved, hfile, hserve⟩ := of_openFile_eq_ok hopen
  obtain rfl := Except.ok.inj (hresolved.symm.trans hmount)
  have hsame := sameTables_of_serve_eq_ok hserve
  have hlive : resolved ∈ opened.mounts := by
    obtain ⟨env, rfl⟩ := hsame
    exact mem_of_resolve hmount
  have hfound := ((record_after blocks host before [] hsame (mem_of_resolve hmount) hcount).1
    hlive).2.1
  rw [OpenFile.record?, hfile, Option.bind_some]
  exact hfound

/-- In every run, with backends that answer as they like, at most one call closes a file or a
directory, whatever is done with it and beside it. Once it is closed, closing it again succeeds and
everything else is refused, without a call. A file that is opened for a limited use is closed by
exactly one call, behind all its uses, whether it is closed ahead of the end of its scope or not; a
file that cannot be opened is not closed. The call has the handle of the opening and goes to the
mount of its identity: the very record of the opening, unless the identities have come round. -/
theorem handles_closed_once [DiskDriver δ] (blocks : BlockDevices δ) (host : ω)
    (before : List (Operation δ ω)) :
    let start := (ofBlocks blocks host).after before
    (fileHandling δ).ClosesOnce OpenFile.isOpen ω ∧
    (dirHandling δ).ClosesOnce OpenDir.isOpen ω ∧
    (∀ file : OpenFile, file.isOpen = false → ∀ storage : Storage δ ω,
      Performs (fun _ => holding file closeFile) storage [] (.ok (.ok (), file), storage) ∧
      ∀ request, Performs (fun _ => onFile file request) storage []
        (.error .badFileDescriptor, storage)) ∧
    (∀ dir : OpenDir, dir.isOpen = false → ∀ storage : Storage δ ω,
      Performs (fun _ => holding dir closeDir) storage [] (.ok (.ok (), dir), storage) ∧
      ∀ attempts, Performs (fun _ => holding dir (readDir attempts)) storage []
        (.ok (.error .badFileDescriptor, dir), storage)) ∧
    ∀ path options, ∃ opening, (∀ call ∈ opening, call.isClose = false) ∧
      (∀ cause opened uses, openFile path options start = .error cause opened →
        Performs (fun _ => withFile path options fun file => FileUse.all file uses) start opening
          (.error cause, opened)) ∧
      ∀ file opened, openFile path options start = .ok file opened →
        ∃ resolved mount, start.resolve path = .ok resolved ∧ file.mount = some resolved.id ∧
          mount.id = resolved.id ∧ file.record? opened = some mount ∧
          ((ofBlocks blocks host).mountCount before ≤ UInt32.size → mount = resolved) ∧
          ∀ uses, ∃ made answer after, (∀ call ∈ made, call.Uses file opened) ∧
            (∀ ending : Ending, (fileHandling δ).life (uses.map .use ++ ending.steps) (file, opened) =
              (made ++ [.serve mount.fsType mount (.onFile .close file.handle) answer], file.closed,
                after)) ∧
            Performs (fun _ => withFile path options fun file => FileUse.all file uses) start
              (opening ++ (made ++ [.serve mount.fsType mount (.onFile .close file.handle) answer]))
              (.ok ((), answer), after) := by
  intro start
  have hsound : start.Sound := sound_after blocks host before
  refine ⟨careful_files.closesOnce ω, careful_dirs.closesOnce ω, fun file hclosed storage => ?_,
    fun dir hclosed storage => ?_, fun path options => ?_⟩
  · exact performs_of_closed_file (by simpa [OpenFile.isOpen] using hclosed) storage
  · cases dir with
    | root | backend => cases hclosed
    | closed => exact performs_of_closed_dir storage
  · obtain ⟨opening, hopening, hperforms⟩ := performs_openFile hsound path options
    refine ⟨opening, hopening, fun cause opened uses hopen => ?_, fun file opened hopen => ?_⟩
    · rw [Action.outcome_eq_error_iff.mpr hopen] at hperforms
      exact performs_withFile_of_error hperforms
    · rw [Action.outcome_eq_ok_iff.mpr hopen] at hperforms
      obtain ⟨resolved, mount, backend, hresolved, hfile, hid, hmount, hbackend⟩ :=
        exists_record? hsound hopen
      refine ⟨resolved, mount, hresolved, hfile, hid, hmount, fun hcount => ?_, fun uses => ?_⟩
      · have hrecord := record?_openFile blocks host before hopen hresolved hcount
        exact Option.some.inj (hmount.symm.trans hrecord)
      · obtain ⟨made, used, answer, after, huses, hclose, hcalls, hlife⟩ :=
          life_guarded hmount hbackend uses
        exact ⟨made, answer, after, hcalls, hlife, performs_withFile
          (fun _ file => FileUse.all file uses) hperforms huses hclose⟩

/-- A file of a backend that refuses its writes and its close: one call closes it all the same. -/
theorem handles_closed_once_refused :
    let before : List (Operation RamDisk Unit) :=
      [.register .ext4 (.openOnly ⟨5⟩ ⟨7⟩ ⟨9⟩), .mount "/os" ⟨.user, 2⟩ .ext4]
    let opening := (openFile "/os/x" .readWrite).outcome
      ((ofBlocks (Handset.blocks id) ()).after before)
    let uses : List FileUse := [.writeAll [1], .request .sync (by decide)]
    opening.1 = .ok ⟨⟨7⟩, some .first⟩ ∧ ∀ ending : Ending,
      ((fileHandling RamDisk).life (uses.map .use ++ ending.steps)
        (⟨⟨7⟩, some .first⟩, opening.2)).1.countP Call.isClose = 1 := by
  intro before opening uses
  have hanswer : opening.1 = .ok ⟨⟨7⟩, some .first⟩ := by decide +kernel
  obtain ⟨-, -, -, -, hguards⟩ := handles_closed_once (Handset.blocks id) () before
  obtain ⟨_, -, -, hopened⟩ := hguards "/os/x" .readWrite
  obtain ⟨_, mount, -, -, -, -, -, hused⟩ := hopened _ _ (Action.eq_ok_of_outcome hanswer)
  obtain ⟨made, answer, after, hmade, hlife, -⟩ := hused uses
  refine ⟨hanswer, fun ending => ?_⟩
  have hnone : made.countP Call.isClose = 0 :=
    List.countP_eq_zero.mpr fun call hcall => by simp [(hmade call hcall).isClose_eq]
  rw [hlife ending, List.countP_append, hnone]
  rfl

end Storage

end StorageStack

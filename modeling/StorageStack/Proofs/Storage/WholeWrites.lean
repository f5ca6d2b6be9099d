import Mathlib.Algebra.GroupWithZero.Nat
import StorageStack.Backend.Script
import StorageStack.Proofs.Storage.Closing

/-! # Writing a whole payload

A backend may accept any part of what it is given. The writes of a payload go on where the one
before has ended, so the parts that are accepted lie end to end, and the payload is written exactly
if nothing of it is left over. A write that fails or accepts nothing is the last one.
-/

namespace StorageStack

variable {δ ω : Type}

/-- One write of a payload: what a backend is given, and its answer. -/
structure WriteAttempt where
  piece : Bytes
  answer : Except StorageError Nat

namespace WriteAttempt

/-- The number of bytes that the backend says it has accepted. -/
def count (attempt : WriteAttempt) : Nat :=
  match attempt.answer with
  | .ok count => count
  | .error _ => 0

/-- The bytes that the backend has accepted. -/
def accepted (attempt : WriteAttempt) : Bytes := attempt.piece.take attempt.count

/-- The write as a call to the backend of a mount. -/
def call (mount : MountPoint) (handle : FileHandle) (attempt : WriteAttempt) : Call :=
  .serve mount.fsType mount (.onFile (.write attempt.piece) handle) attempt.answer

end WriteAttempt

/-- The writes of a payload, one after the other, and what they come to. -/
inductive Attempts : Bytes → List WriteAttempt → Except StorageError Unit → Prop
  | nothing : Attempts [] [] (.ok ())
  | refused {bytes : Bytes} (hbytes : bytes ≠ []) (cause : StorageError) :
      Attempts bytes [⟨bytes, .error cause⟩] (.error cause)
  | stalled {bytes : Bytes} (hbytes : bytes ≠ []) : Attempts bytes [⟨bytes, .ok 0⟩] (.error .ioError)
  | accepted {bytes : Bytes} (hbytes : bytes ≠ []) (count : Nat) {rest : List WriteAttempt}
      {answer : Except StorageError Unit} (hrest : Attempts (bytes.drop (count + 1)) rest answer) :
      Attempts bytes (⟨bytes, .ok (count + 1)⟩ :: rest) answer

/-- The writes of a payload deliver it from its beginning, each byte once, up to a failure. -/
structure Delivers (bytes : Bytes) (attempts : List WriteAttempt) (answer : Except StorageError Unit) :
    Prop where
  /-- Every write but the last accepts something, so there is an end to them. -/
  length_le : attempts.length ≤ bytes.length
  /-- A write is given what the writes before it have left over. -/
  piece_eq : ∀ {earlier attempt later}, attempts = earlier ++ attempt :: later →
    attempt.piece = bytes.drop (earlier.map WriteAttempt.count).sum
  /-- The accepted parts, end to end, are the beginning of the payload. -/
  accepted_eq : (attempts.map WriteAttempt.accepted).flatten =
    bytes.take (attempts.map WriteAttempt.count).sum
  ok_iff : answer = .ok () ↔ (attempts.map WriteAttempt.accepted).flatten = bytes
  /-- A write that accepts nothing is the last one, and fails the whole. -/
  stalled : ∀ {earlier attempt later}, attempts = earlier ++ attempt :: later →
    attempt.answer = .ok 0 → later = [] ∧ answer = .error .ioError
  /-- A write that fails is the last one, and its cause is that of the whole. -/
  refused : ∀ {earlier attempt later}, attempts = earlier ++ attempt :: later →
    ∀ cause, attempt.answer = .error cause → later = [] ∧ answer = .error cause
  /-- The whole fails for no other reason. -/
  failed : ∀ cause, answer = .error cause → ∃ earlier attempt, attempts = earlier ++ [attempt] ∧
    (attempt.answer = .error cause ∨ attempt.answer = .ok 0 ∧ cause = .ioError)

namespace Attempts

variable {bytes : Bytes} {attempts : List WriteAttempt} {answer : Except StorageError Unit}

theorem length_le (hattempts : Attempts bytes attempts answer) : attempts.length ≤ bytes.length := by
  induction hattempts with
  | nothing => exact Nat.le_refl 0
  | refused hbytes | stalled hbytes => exact List.length_pos_iff.mpr hbytes
  | accepted hbytes count _ ih =>
      have hpositive := List.length_pos_iff.mpr hbytes
      rw [List.length_drop] at ih
      rw [List.length_cons]
      omega

/-- A write is given what is left over, and no write follows one that accepts nothing or fails. -/
theorem of_split (hattempts : Attempts bytes attempts answer) {earlier later : List WriteAttempt}
    {attempt : WriteAttempt} (hsplit : attempts = earlier ++ attempt :: later) :
    attempt.piece = bytes.drop (earlier.map WriteAttempt.count).sum ∧
      (attempt.answer = .ok 0 → later = [] ∧ answer = .error .ioError) ∧
      ∀ cause, attempt.answer = .error cause → later = [] ∧ answer = .error cause := by
  induction hattempts generalizing earlier with
  | nothing => simp at hsplit
  | refused | stalled =>
      cases earlier with
      | nil =>
          cases hsplit
          simp
      | cons => simp at hsplit
  | @accepted bytes hbytes count rest answer _ ih =>
      cases earlier with
      | nil =>
          cases hsplit
          simp
      | cons first earlier =>
          obtain ⟨rfl, hrest⟩ := List.cons_eq_cons.mp hsplit
          obtain ⟨hpiece, hlast⟩ := ih hrest
          refine ⟨?_, hlast⟩
          rw [hpiece, List.drop_drop]
          rfl

theorem accepted_eq (hattempts : Attempts bytes attempts answer) :
    (attempts.map WriteAttempt.accepted).flatten =
      bytes.take (attempts.map WriteAttempt.count).sum := by
  induction hattempts with
  | nothing | refused | stalled => rfl
  | @accepted bytes hbytes count rest answer _ ih =>
      rw [List.map_cons, List.flatten_cons, ih, List.map_cons, List.sum_cons, List.take_add]
      rfl

theorem ok_iff (hattempts : Attempts bytes attempts answer) :
    answer = .ok () ↔ (attempts.map WriteAttempt.accepted).flatten = bytes := by
  induction hattempts with
  | nothing => exact iff_of_true rfl rfl
  | refused hbytes | stalled hbytes => exact iff_of_false (by simp) (Ne.symm hbytes)
  | @accepted bytes hbytes count rest answer _ ih =>
      have hcut := List.take_append_drop (count + 1) bytes
      calc answer = .ok ()
          ↔ (rest.map WriteAttempt.accepted).flatten = bytes.drop (count + 1) := ih
        _ ↔ bytes.take (count + 1) ++ (rest.map WriteAttempt.accepted).flatten =
              bytes.take (count + 1) ++ bytes.drop (count + 1) := (List.append_right_inj _).symm
        _ ↔ bytes.take (count + 1) ++ (rest.map WriteAttempt.accepted).flatten = bytes := by
            rw [hcut]

theorem failed (hattempts : Attempts bytes attempts answer) {cause : StorageError}
    (hcause : answer = .error cause) :
    ∃ earlier attempt, attempts = earlier ++ [attempt] ∧
      (attempt.answer = .error cause ∨ attempt.answer = .ok 0 ∧ cause = .ioError) := by
  induction hattempts with
  | nothing => cases hcause
  | refused =>
      cases hcause
      exact ⟨[], _, rfl, Or.inl rfl⟩
  | stalled =>
      cases hcause
      exact ⟨[], _, rfl, Or.inr ⟨rfl, rfl⟩⟩
  | accepted hbytes count _ ih =>
      obtain ⟨earlier, attempt, rfl, hlast⟩ := ih hcause
      exact ⟨_ :: earlier, attempt, rfl, hlast⟩

theorem delivers (hattempts : Attempts bytes attempts answer) : Delivers bytes attempts answer where
  length_le := hattempts.length_le
  piece_eq hsplit := (hattempts.of_split hsplit).1
  accepted_eq := hattempts.accepted_eq
  ok_iff := hattempts.ok_iff
  stalled hsplit := (hattempts.of_split hsplit).2.1
  refused hsplit := (hattempts.of_split hsplit).2.2
  failed _ := hattempts.failed

end Attempts

/-- As long as a backend never claims more than it was given, the numbers of accepted bytes alone
tell whether everything was written. -/
theorem Delivers.ok_iff_sum {bytes : Bytes} {attempts : List WriteAttempt}
    {answer : Except StorageError Unit} (hdelivers : Delivers bytes attempts answer)
    (hhonest : ∀ attempt ∈ attempts, attempt.count ≤ attempt.piece.length) :
    (attempts.map WriteAttempt.count).sum ≤ bytes.length ∧
      (answer = .ok () ↔ (attempts.map WriteAttempt.count).sum = bytes.length) := by
  have hlengths : (attempts.map WriteAttempt.accepted).flatten.length =
      (attempts.map WriteAttempt.count).sum := by
    rw [List.length_flatten, List.map_map]
    congr 1
    refine List.map_congr_left fun attempt hattempt => ?_
    simpa [WriteAttempt.accepted] using Nat.min_eq_left (hhonest attempt hattempt)
  have hle : (attempts.map WriteAttempt.count).sum ≤ bytes.length := by
    rw [← hlengths, hdelivers.accepted_eq]
    exact List.length_take_le' _ _
  refine ⟨hle, hdelivers.ok_iff.trans ⟨fun hwhole => ?_, fun hsum => ?_⟩⟩
  · rw [← hlengths, hwhole]
  · rw [hdelivers.accepted_eq, hsum, List.take_length]

namespace Storage

theorem exists_attempts {file : OpenFile} {storage : Storage δ ω} {mount : MountPoint}
    {backend : Backend δ ω} (hmount : file.record? storage = some mount)
    (hbackend : storage.backend? mount.fsType = some backend) (bytes : Bytes) :
    ∃ attempts answer after, Attempts bytes attempts answer ∧
      Performs (fun _ => writeAll file bytes) storage
        (attempts.map (WriteAttempt.call mount file.handle)) (answer, after) := by
  induction bytes using payload_induct generalizing storage with
  | nil => exact ⟨[], _, _, .nothing, performs_writeAll_nil file storage⟩
  | drop bytes hbytes ih =>
      have hperforms := performs_onFile_of_live hmount hbackend (.write bytes)
      have hsame := sameTables_onFile storage file (.write bytes)
      rw [hperforms.1] at hsame
      dsimp only at hperforms
      rcases hasked : ask backend mount (.onFile (.write bytes) file.handle) storage with
        ⟨cause | count, after⟩
      all_goals rw [hasked] at hperforms hsame
      · exact ⟨_, _, _, .refused hbytes cause, performs_writeAll_of_error hbytes hperforms⟩
      · cases count with
        | zero => exact ⟨_, _, _, .stalled hbytes, performs_writeAll_of_zero hbytes hperforms⟩
        | succ count =>
            obtain ⟨rest, answer, last, hrest, hwrites⟩ := ih count
              ((record?_of_sameTables hsame).trans hmount)
              ((backend?_of_sameTables hsame mount.fsType).trans hbackend)
            exact ⟨_, _, _, .accepted hbytes count hrest,
              performs_writeAll_of_accepted hbytes hperforms hwrites⟩

/-- In every run, with backends that accept as much of each write as they like, a payload that is
written to a file opened for a limited use is delivered in order: the calls are writes to the mount
of the file, each of what the ones before it have left over, and they are over when nothing is left
over, when nothing is accepted, or when the backend fails. -/
theorem payload_delivered [DiskDriver δ] (blocks : BlockDevices δ) (host : ω)
    (before : List (Operation δ ω)) (path : String) (options : OpenOptions) {file : OpenFile}
    {opened : Storage δ ω}
    (hopen : openFile path options ((ofBlocks blocks host).after before) = .ok file opened)
    (uses : List FileUse) (bytes : Bytes) :
    let used := ((FileUse.all file uses).outcome opened).2
    ∃ mount attempts answer after, file.record? used = some mount ∧
      Performs (fun _ => writeAll file bytes) used
        (attempts.map (WriteAttempt.call mount file.handle)) (answer, after) ∧
      Delivers bytes attempts answer ∧
      ((∀ attempt ∈ attempts, attempt.count ≤ attempt.piece.length) →
        (attempts.map WriteAttempt.count).sum ≤ bytes.length ∧
          (answer = .ok () ↔ (attempts.map WriteAttempt.count).sum = bytes.length)) := by
  intro used
  obtain ⟨_, mount, backend, -, -, -, hmount, hbackend⟩ :=
    exists_record? (sound_after blocks host before) hopen
  obtain ⟨_, after, huses, -, hsame, -⟩ := life_uses file uses opened
  have hused : used = after := congrArg Prod.snd huses.1
  rw [← hused] at hsame
  have hrecord := (record?_of_sameTables hsame).trans hmount
  obtain ⟨attempts, answer, last, hattempts, hperforms⟩ := exists_attempts hrecord
    ((backend?_of_sameTables hsame mount.fsType).trans hbackend) bytes
  exact ⟨mount, attempts, answer, last, hrecord, hperforms, hattempts.delivers,
    hattempts.delivers.ok_iff_sum⟩

/-- A backend that takes two bytes at a first write and one at a second, with a payload of three. -/
theorem payload_delivered_short :
    let script : Script := { answers :=
      [⟨"mount", .ok (.number 5)⟩, ⟨"open", .ok (.number 7)⟩, ⟨"write", .ok (.number 2)⟩,
        ⟨"write", .ok (.number 1)⟩] }
    let before : List (Operation RamDisk Script) :=
      [.register .ext4 (Script.backend (.whole Script)), .mount "/os" ⟨.user, 2⟩ .ext4]
    let opening := (openFile "/os/x" .readWrite).outcome
      ((ofBlocks (Handset.blocks id) script).after before)
    opening.1 = .ok ⟨⟨7⟩, some .first⟩ ∧ ∃ mount attempts after,
      Performs (fun _ => writeAll ⟨⟨7⟩, some .first⟩ [1, 2, 3]) opening.2
        (attempts.map (WriteAttempt.call mount ⟨7⟩)) (.ok (), after) ∧
      Delivers [1, 2, 3] attempts (.ok ()) := by
  intro script before opening
  have hanswer : opening.1 = .ok ⟨⟨7⟩, some .first⟩ := by decide +kernel
  have hwritten : ((writeAll ⟨⟨7⟩, some .first⟩ [1, 2, 3]).outcome opening.2).1 = .ok () := by
    decide +kernel
  have hunused (opened : Storage RamDisk Script) :
      ((FileUse.all ⟨⟨7⟩, some .first⟩ []).outcome opened).2 = opened := rfl
  have hdelivered := payload_delivered (Handset.blocks id) script before "/os/x" .readWrite
    (Action.eq_ok_of_outcome hanswer) [] [1, 2, 3]
  dsimp only at hdelivered
  rw [hunused] at hdelivered
  obtain ⟨mount, attempts, answer, after, -, hperforms, hdelivers, -⟩ := hdelivered
  rw [hperforms.1] at hwritten
  obtain rfl : answer = .ok () := hwritten
  exact ⟨hanswer, mount, attempts, after, hperforms, hdelivers⟩

end Storage

end StorageStack

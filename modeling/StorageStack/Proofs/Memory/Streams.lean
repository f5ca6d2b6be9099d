import StorageStack.Memory.Server

/-! # Open files of the memory filesystem

A file is known by its volume and its path, and an open file by its number. A request about an
open file changes its own position and the contents of its own file, and opening adds a number
that no open file has.
-/

namespace StorageStack

/-- Bytes that are written at a position of a file which is padded with zeros as far as the
bytes reach. -/
def Bytes.overwrite (contents : Bytes) (position : Nat) (bytes : Bytes) : Bytes :=
  let padded := contents.resize (max contents.length (position + bytes.length))
  padded.take position ++ bytes ++ padded.drop (position + bytes.length)

section Contents

variable (contents : Bytes) (position : Nat) (bytes : Bytes)

theorem Bytes.splice_eq_overwrite :
    contents.splice position bytes = contents.overwrite position bytes := by
  have hpadded : contents.resize (max contents.length (position + bytes.length)) =
      contents ++ List.replicate (position + bytes.length - contents.length) 0 := by
    rw [resize, List.take_of_length_le (Nat.le_max_left _ _)]
    congr 2
    omega
  unfold overwrite splice
  dsimp only
  rw [hpadded]
  congr 1
  · congr 1
    rw [resize, List.take_append, List.take_replicate]
    congr 2
    omega
  · rw [List.drop_append, List.drop_replicate, show position + bytes.length - contents.length -
      (position + bytes.length - contents.length) = 0 by omega, List.replicate_zero, List.append_nil]

theorem Bytes.length_overwrite :
    (contents.overwrite position bytes).length = max contents.length (position + bytes.length) := by
  rw [← splice_eq_overwrite, length_splice]

/-- Two payloads written end to end are one. -/
theorem Bytes.overwrite_append (first second : Bytes) :
    (contents.overwrite position first).overwrite (position + first.length) second =
      contents.overwrite position (first ++ second) := by
  rw [← splice_eq_overwrite, ← splice_eq_overwrite, ← splice_eq_overwrite]
  have hbefore : (contents.resize position ++ first).length = position + first.length := by
    rw [List.length_append, length_resize]
  have hresize : (contents.splice position first).resize (position + first.length) =
      contents.resize position ++ first := by
    rw [resize, length_splice, splice, List.take_left' hbefore, Nat.sub_eq_zero_of_le
      (Nat.le_max_right _ _), List.replicate_zero, List.append_nil]
  have hbehind : (contents.splice position first).drop (position + first.length + second.length) =
      contents.drop (position + (first ++ second).length) := by
    rw [← List.drop_drop, splice, List.drop_left' hbefore, List.drop_drop, List.length_append,
      Nat.add_assoc]
  rw [splice, hresize, hbehind, splice, List.append_assoc (contents.resize position)]

end Contents

/-- Where a seek aims, before it is asked whether there is such a position. -/
def Seek.aim (length position : Nat) : Seek → Int
  | start offset => offset
  | finish delta => length + delta
  | current delta => position + delta

/-- The positions that a signed word of 64 bits can tell are below this number. -/
def Seek.bound : Nat := 1 <<< 63

theorem Seek.target?_eq {length position : Nat} {seek : Seek}
    (haim : seek.aim length position < Seek.bound) :
    seek.target? length position =
      if seek.aim length position < 0 then none else some (seek.aim length position).toNat := by
  cases seek with
  | start offset =>
      have hoffset : Int.bmod offset UInt64.size = offset := by
        rw [aim, bound] at haim
        apply Int.bmod_eq_of_le_mul_two
        · omega
        · rw [UInt64.size]
          omega
      unfold target? aim
      dsimp only
      rw [hoffset]
  | finish delta => rfl
  | current delta => rfl

/-- An offset from the start whose sign bit is set counts as negative. -/
theorem Seek.target?_start_of_le {length position offset : Nat} (hlow : Seek.bound ≤ offset)
    (hhigh : offset < UInt64.size) : (Seek.start offset).target? length position = none := by
  have hoffset : Int.bmod offset UInt64.size < 0 := by
    rw [bound] at hlow
    rw [UInt64.size] at hhigh
    rw [Int.bmod_def, UInt64.size]
    omega
  unfold target?
  dsimp only
  rw [if_pos hoffset]

namespace MemoryFs

/-- The contents of a file. -/
def contents? (fs : MemoryFs) (volume : Nat) (path : String) : Option Bytes :=
  (fs.volume volume).files[path]?

/-- One open file and its file may have changed, all others are as they were. -/
structure Edited (before after : MemoryFs) (handle : FileHandle) (stream : Stream)
    (contents : Bytes) : Prop where
  streams : ∀ number, after.streams[number]? =
    if number = handle.number then some stream else before.streams[number]?
  files : ∀ volume path, after.contents? volume path =
    if volume = stream.volume ∧ path = stream.path then some contents
    else before.contents? volume path

section Views

variable {fs : MemoryFs} {handle : FileHandle} {stream : Stream} {contents : Bytes}

theorem stream_eq_ok_iff : fs.stream handle = .ok (stream, contents) ↔
    fs.streams[handle.number]? = some stream ∧
      fs.contents? stream.volume stream.path = some contents := by
  unfold MemoryFs.stream contents?
  cases fs.streams[handle.number]? with
  | none => simp
  | some found =>
      dsimp only
      cases hfile : (fs.volume found.volume).files[found.path]? with
      | none =>
          simp only [reduceCtorEq, Option.some.injEq, false_iff, not_and]
          rintro rfl hcontents
          rw [hfile] at hcontents
          cases hcontents
      | some bytes =>
          simp only [Except.ok.injEq, Prod.mk.injEq, Option.some.injEq]
          constructor
          · rintro ⟨rfl, rfl⟩
            exact ⟨rfl, hfile⟩
          · rintro ⟨rfl, hcontents⟩
            rw [hfile] at hcontents
            exact ⟨rfl, Option.some.inj hcontents⟩

theorem contents?_putVolume (fs : MemoryFs) (id : Nat) (volume : Volume) (target : Nat)
    (path : String) :
    (fs.putVolume id volume).contents? target path =
      if id = target then volume.files[path]? else fs.contents? target path := by
  unfold contents? putVolume MemoryFs.volume
  dsimp only
  rw [Std.TreeMap.getD_insert]
  by_cases hid : id = target <;> simp [hid]

/-- A file of a volume gets its contents, and the others keep theirs. -/
theorem contents?_putFile (fs : MemoryFs) (id : Nat) (path : String) (contents : Bytes)
    (target : Nat) (other : String) :
    (fs.putVolume id ((fs.volume id).putFile path contents)).contents? target other =
      if target = id ∧ other = path then some contents else fs.contents? target other := by
  rw [contents?_putVolume]
  by_cases hid : id = target
  · subst hid
    rw [if_pos rfl, Volume.putFile, Std.TreeMap.getElem?_insert]
    by_cases hpath : path = other
    · simp [hpath]
    · simp [hpath, Ne.symm hpath, contents?]
  · rw [if_neg hid, if_neg fun hboth => hid hboth.1.symm]

theorem getElem?_insert_stream (streams : Std.TreeMap Nat Stream) (added : Nat) (stream : Stream)
    (number : Nat) : (streams.insert added stream)[number]? =
      if number = added then some stream else streams[number]? := by
  rw [Std.TreeMap.getElem?_insert]
  by_cases hnumber : added = number
  · simp [hnumber]
  · simp [hnumber, Ne.symm hnumber]

end Views

namespace Edited

variable {before middle after : MemoryFs} {handle : FileHandle} {stream : Stream} {contents : Bytes}

theorem stream_self (hedited : Edited before after handle stream contents) :
    after.stream handle = .ok (stream, contents) :=
  stream_eq_ok_iff.mpr ⟨(hedited.streams _).trans (if_pos rfl),
    (hedited.files _ _).trans (if_pos ⟨rfl, rfl⟩)⟩

/-- Nothing has changed. -/
theorem refl (hstream : before.stream handle = .ok (stream, contents)) :
    Edited before before handle stream contents where
  streams number := by
    split
    · next hnumber => rw [hnumber, (stream_eq_ok_iff.mp hstream).1]
    · rfl
  files volume path := by
    split
    · next hfile => rw [hfile.1, hfile.2, (stream_eq_ok_iff.mp hstream).2]
    · rfl

/-- Of two changes of one open file the later one counts. -/
theorem trans {earlier : Stream} {prior : Bytes} (hfirst : Edited before middle handle earlier prior)
    (hsecond : Edited middle after handle stream contents) (hvolume : stream.volume = earlier.volume)
    (hpath : stream.path = earlier.path) : Edited before after handle stream contents where
  streams number := by
    rw [hsecond.streams, hfirst.streams]
    split <;> rfl
  files volume path := by
    rw [hsecond.files, hfirst.files, hvolume, hpath]
    split <;> rfl

end Edited

/-- The open file gets a position and its file contents, in this order or the other. -/
theorem edited_put (fs : MemoryFs) (handle : FileHandle) (stream : Stream) (contents : Bytes) :
    Edited fs ((fs.putContents stream contents).putStream handle stream) handle stream contents where
  streams number := getElem?_insert_stream fs.streams handle.number stream number
  files := contents?_putFile fs stream.volume stream.path contents

/-! ## Requests about one open file -/

section Requests

variable {fs : MemoryFs} {handle : FileHandle} {stream : Stream} {contents : Bytes}

/-- A position changes, and no file does. -/
theorem edited_putStream (hstream : fs.stream handle = .ok (stream, contents)) (position : Nat) :
    Edited fs (fs.putStream handle { stream with position }) handle { stream with position }
      contents where
  streams number := getElem?_insert_stream fs.streams handle.number { stream with position } number
  files volume path := ((Edited.refl hstream).files volume path)

/-- A file changes, and no position does. -/
theorem edited_putContents (hstream : fs.stream handle = .ok (stream, contents)) (later : Bytes) :
    Edited fs (fs.putContents stream later) handle stream later where
  streams := (Edited.refl hstream).streams
  files := contents?_putFile fs stream.volume stream.path later

variable (hstream : fs.stream handle = .ok (stream, contents))

include hstream

theorem outcome_readFile (length : Nat) :
    let bytes := (contents.drop stream.position).take length
    ∃ after, (readFile handle length).outcome fs = (.ok bytes, after) ∧
      Edited fs after handle { stream with position := stream.position + bytes.length } contents := by
  intro bytes
  refine ⟨_, ?_, edited_putStream hstream _⟩
  unfold Action.outcome readFile
  rw [hstream]

theorem outcome_writeFile (bytes : Bytes) :
    let position := if stream.appends then contents.length else stream.position
    ∃ after, (writeFile handle bytes).outcome fs = (.ok bytes.length, after) ∧
      Edited fs after handle { stream with position := position + bytes.length }
        (contents.overwrite position bytes) := by
  intro position
  refine ⟨_, ?_, edited_put fs handle { stream with position := position + bytes.length } _⟩
  unfold Action.outcome writeFile
  rw [hstream]
  dsimp only
  rw [← Bytes.splice_eq_overwrite]
  rfl

theorem outcome_tellFile :
    (tellFile handle).outcome fs = (.ok stream.position, fs) := by
  unfold Action.outcome tellFile
  rw [(stream_eq_ok_iff.mp hstream).1]

theorem outcome_truncateFile (length : Nat) :
    ∃ after, (truncateFile handle length).outcome fs = (.ok (), after) ∧
      Edited fs after handle stream (contents.resize length) := by
  refine ⟨_, ?_, edited_putContents hstream _⟩
  unfold Action.outcome truncateFile
  rw [hstream]

theorem outcome_seekFile (seek : Seek) :
    ∃ after, (seekFile handle seek).outcome fs =
        ((match seek.target? contents.length stream.position with
          | none => .error .invalidArgument
          | some position => .ok position), after) ∧
      Edited fs after handle
        { stream with position := (seek.target? contents.length stream.position).getD stream.position }
        contents := by
  obtain ⟨hopen, hfile⟩ := stream_eq_ok_iff.mp hstream
  have hlength : ((fs.volume stream.volume).files.getD stream.path []).length = contents.length := by
    rw [Std.TreeMap.getD_eq_getD_getElem?, ← contents?, hfile, Option.getD_some]
  unfold Action.outcome seekFile
  rw [hopen]
  dsimp only
  rw [hlength]
  cases seek.target? contents.length stream.position with
  | none => exact ⟨fs, rfl, .refl hstream⟩
  | some position => exact ⟨_, rfl, edited_putStream hstream position⟩

end Requests

/-! ## Opening and closing -/

/-- No open file and no file has changed. -/
structure Unchanged (before after : MemoryFs) : Prop where
  streams : ∀ number : Nat, after.streams[number]? = before.streams[number]?
  files : ∀ volume path, after.contents? volume path = before.contents? volume path

/-- One open file is gone, all others are as they were, and so are the files. -/
structure Closed (before after : MemoryFs) (handle : FileHandle) : Prop where
  streams : ∀ number, after.streams[number]? =
    if number = handle.number then none else before.streams[number]?
  files : ∀ volume path, after.contents? volume path = before.contents? volume path

/-- Why a file is not opened: it is a directory, it is missing and not to be made, or it exists and
was to be new. -/
def openRefusal? (fs : MemoryFs) (id : Nat) (path : String) (options : OpenOptions) :
    Option StorageError :=
  if (fs.volume id).dirs.contains path then some .invalidArgument
  else if (fs.contents? id path).isNone && !(options.create || options.createNew) then some .notFound
  else if (fs.contents? id path).isSome && options.createNew then some .alreadyExists
  else none

theorem no_dir_of_openRefusal?_eq_none {fs : MemoryFs} {id : Nat} {path : String}
    {options : OpenOptions} (hopened : fs.openRefusal? id path options = none) :
    (fs.volume id).dirs.contains path = false := by
  unfold openRefusal? at hopened
  split at hopened
  · cases hopened
  · next hdir => exact Bool.eq_false_iff.mpr hdir

section Opening

variable (fs : MemoryFs) (id : Nat) (path : String) {options : OpenOptions}

theorem contains_files : (fs.volume id).files.contains path = (fs.contents? id path).isSome :=
  Std.TreeMap.contains_eq_isSome_getElem?

/-- Opening, once it is known whether it is refused. -/
theorem openFile_eq (options : OpenOptions) :
    openFile id path options fs =
      let noted := fs.note s!"open {path}"
      match fs.openRefusal? id path options with
      | some cause => .error cause noted
      | none =>
          let made := if !(fs.contents? id path).isSome || options.truncate then
            noted.putVolume id ((fs.volume id).putFile path []) else noted
          .ok ⟨fs.lastId + 1⟩ { made with
            lastId := made.lastId + 1
            streams := made.streams.insert (made.lastId + 1)
              { volume := id, path, appends := options.append } } := by
  unfold openFile openRefusal?
  have hfound := contains_files fs id path
  have hvolume : (fs.note s!"open {path}").volume id = fs.volume id := rfl
  simp only [hvolume, hfound]
  split
  · rfl
  · cases fs.contents? id path with
    | none =>
        cases options.create <;> cases options.createNew <;> rfl
    | some contents =>
        cases options.createNew <;> cases options.truncate <;> rfl

theorem outcome_openFile_of_refused {cause : StorageError}
    (hrefused : fs.openRefusal? id path options = some cause) :
    ∃ after, (openFile id path options).outcome fs = (.error cause, after) ∧ Unchanged fs after := by
  refine ⟨fs.note s!"open {path}", ?_, fun _ => rfl, fun _ _ => rfl⟩
  rw [Action.outcome, openFile_eq, hrefused]

/-- A file is opened at its beginning, under the next number. It is empty if it is new or was to be
emptied. -/
theorem outcome_openFile (hopened : fs.openRefusal? id path options = none) :
    ∃ after, (openFile id path options).outcome fs = (.ok ⟨fs.lastId + 1⟩, after) ∧
      Edited fs after ⟨fs.lastId + 1⟩ { volume := id, path, appends := options.append }
        (if options.truncate then [] else (fs.contents? id path).getD []) := by
  rw [Action.outcome, openFile_eq, hopened]
  dsimp only
  cases hcontents : fs.contents? id path with
  | none =>
      have hempty : (if options.truncate then [] else (none : Option Bytes).getD []) = [] := by
        cases options.truncate <;> rfl
      rw [hempty]
      exact ⟨_, rfl, getElem?_insert_stream _ _ _, contents?_putFile fs id path []⟩
  | some contents =>
      cases options.truncate with
      | true => exact ⟨_, rfl, getElem?_insert_stream _ _ _, contents?_putFile fs id path []⟩
      | false =>
          refine ⟨_, rfl, getElem?_insert_stream _ _ _, fun volume other => ?_⟩
          by_cases hfile : volume = id ∧ other = path
          · obtain ⟨rfl, rfl⟩ := hfile
            exact hcontents.trans (if_pos ⟨rfl, rfl⟩).symm
          · exact (if_neg hfile).symm

end Opening

/-- Closing leaves no open file under the number, whatever it answers, and nothing else changes. -/
theorem closed_closeFile (fs : MemoryFs) (handle : FileHandle) :
    let after := ((closeFile handle).outcome fs).2
    Closed fs after handle ∧ after.volumes = fs.volumes ∧ after.lastId = fs.lastId := by
  unfold Action.outcome closeFile
  dsimp only [note]
  cases hcontains : fs.streams.contains handle.number with
  | false =>
      have hfree : fs.streams[handle.number]? = none := by
        rw [← Option.isNone_iff_eq_none, ← Option.not_isSome,
          ← Std.TreeMap.contains_eq_isSome_getElem?, hcontains, Bool.not_false]
      have hsame : ∀ number : Nat, fs.streams[number]? =
          if number = handle.number then none else fs.streams[number]? := by
        intro number
        by_cases hnumber : number = handle.number
        · rw [if_pos hnumber, hnumber, hfree]
        · rw [if_neg hnumber]
      exact ⟨⟨hsame, fun _ _ => rfl⟩, rfl, rfl⟩
  | true =>
      have herased : ∀ number : Nat, (fs.streams.erase handle.number)[number]? =
          if number = handle.number then none else fs.streams[number]? := by
        intro number
        rw [Std.TreeMap.getElem?_erase]
        by_cases hnumber : handle.number = number
        · simp [hnumber]
        · simp [hnumber, Ne.symm hnumber]
      cases fs.closeFails <;> exact ⟨⟨herased, fun _ _ => rfl⟩, rfl, rfl⟩

theorem answer_closeFile {fs : MemoryFs} {handle : FileHandle} {stream : Stream}
    (hopen : fs.streams[handle.number]? = some stream) :
    ((closeFile handle).outcome fs).1 = if fs.closeFails then .error .ioError else .ok () := by
  have hcontains : fs.streams.contains handle.number = true := by
    rw [Std.TreeMap.contains_eq_isSome_getElem?, hopen, Option.isSome_some]
  unfold Action.outcome closeFile
  dsimp only [note]
  rw [if_pos hcontains]
  cases fs.closeFails <;> rfl

end MemoryFs

end StorageStack

import Mathlib.Algebra.GroupWithZero.Nat
import StorageStack.Handset
import StorageStack.Proofs.CallLists
import StorageStack.Proofs.Storage.MemoryMounts

/-! # Positional files

The laws of reading, writing and seeking hold in every state that operations on the files of a
memory mount lead to, however many files are open, on one path or on several. Writes in a row come
to one write, and a file that is opened again is read in full, in pieces of any sizes.
-/

namespace StorageStack

/-- Cut bytes into pieces of the given sizes, as far as the bytes reach. -/
def Bytes.cut (bytes : Bytes) : List Nat → List Bytes
  | [] => []
  | size :: rest => bytes.take size :: Bytes.cut (bytes.drop size) rest

/-- Pieces that bytes are read in, from their beginning. With positive sizes a piece without bytes
says that all have been read, and among enough pieces there is one. -/
structure Bytes.Pieces (bytes : Bytes) (sizes : List Nat) (pieces : List Bytes) : Prop where
  flatten_eq : pieces.flatten = bytes.take sizes.sum
  whole : (∀ size ∈ sizes, 0 < size) → [] ∈ pieces → pieces.flatten = bytes
  ends : (∀ size ∈ sizes, 0 < size) → bytes.length < sizes.length → [] ∈ pieces

section Pieces

variable (bytes : Bytes) (sizes : List Nat)

theorem Bytes.flatten_cut : (bytes.cut sizes).flatten = bytes.take sizes.sum := by
  induction sizes generalizing bytes with
  | nil => rw [cut, List.flatten_nil, List.sum_nil, List.take_zero]
  | cons size rest ih => rw [cut, List.flatten_cons, ih, List.sum_cons, List.take_add]

variable {sizes} (hsizes : ∀ size ∈ sizes, 0 < size)

include hsizes

theorem Bytes.length_le_sum (hempty : [] ∈ bytes.cut sizes) : bytes.length ≤ sizes.sum := by
  induction sizes generalizing bytes with
  | nil => cases hempty
  | cons size rest ih =>
      obtain ⟨hsize, hrest⟩ := List.forall_mem_cons.mp hsizes
      rw [List.sum_cons]
      rcases List.mem_cons.mp hempty with hfirst | hlater
      · have hnothing := congrArg List.length hfirst
        rw [List.length_nil, List.length_take] at hnothing
        omega
      · have hbehind := ih (bytes.drop size) hrest hlater
        rw [List.length_drop] at hbehind
        omega

theorem Bytes.nil_mem_cut (hlength : bytes.length < sizes.length) : [] ∈ bytes.cut sizes := by
  induction sizes generalizing bytes with
  | nil => cases hlength
  | cons size rest ih =>
      obtain ⟨hsize, hrest⟩ := List.forall_mem_cons.mp hsizes
      rw [cut]
      cases bytes with
      | nil =>
          rw [List.take_nil]
          exact List.mem_cons_self
      | cons byte later =>
          refine List.mem_cons_of_mem _ (ih _ hrest ?_)
          rw [List.length_cons, List.length_cons] at hlength
          rw [List.length_drop, List.length_cons]
          omega

omit hsizes in
theorem Bytes.pieces_cut (bytes : Bytes) (sizes : List Nat) :
    bytes.Pieces sizes (bytes.cut sizes) where
  flatten_eq := bytes.flatten_cut sizes
  whole hsizes hempty := by
    rw [flatten_cut, List.take_of_length_le (bytes.length_le_sum hsizes hempty)]
  ends hsizes hlength := bytes.nil_mem_cut hsizes hlength

end Pieces

/-- A file with these contents stands at a path, and no directory does. -/
structure MemoryFs.FileAt (fs : MemoryFs) (volume : Nat) (path : String) (contents : Bytes) :
    Prop where
  contents_eq : fs.contents? volume path = some contents
  no_dir : (fs.volume volume).dirs.contains path = false

theorem MemoryFs.FileAt.openRefusal?_eq {fs : MemoryFs} {volume : Nat} {path : String}
    {contents : Bytes} (hfile : fs.FileAt volume path contents) {options : OpenOptions}
    (hnew : options.createNew = false) : fs.openRefusal? volume path options = none := by
  unfold openRefusal?
  rw [hfile.contents_eq, hfile.no_dir, hnew]
  rfl

namespace Storage

variable {δ ω : Type}

/-- A write, as one call of a list of calls. -/
def writeCall (file : OpenFile) (bytes : Bytes) : StateM (Storage δ ω) (Except StorageError Nat) :=
  (onFile file (.write bytes)).outcome

/-- A read, as one call of a list of calls. -/
def readCall (file : OpenFile) (length : Nat) : StateM (Storage δ ω) (Except StorageError Bytes) :=
  (onFile file (.read length)).outcome

/-- A file is open on the mount, at a position and with contents. -/
structure OpenOn (part : Part ω MemoryFs) (mount : MountPoint) (storage : Storage δ ω)
    (file : OpenFile) (stream : Stream) (contents : Bytes) : Prop where
  mount_eq : file.mount = some mount.id
  stream_eq : (storage.memory part).stream file.handle = .ok (stream, contents)

/-- A request about an open file is answered, and afterwards the file has the given position and
contents. All other open files and all other files are as they were, and nothing outside of the
memory filesystem has changed. -/
def Yields (part : Part ω MemoryFs) (storage : Storage δ ω) (file : OpenFile) (request : FileRequest)
    (answer : Except StorageError request.Reply) (stream : Stream) (contents : Bytes) : Prop :=
  ∃ fs, (onFile file request).outcome storage = (answer, storage.mapHost (part.set fs)) ∧
    MemoryFs.Edited (storage.memory part) fs file.handle stream contents

/-- The laws of an open file that stands at a position of its contents. -/
structure PositionalFile (part : Part ω MemoryFs) (storage : Storage δ ω) (file : OpenFile)
    (stream : Stream) (contents : Bytes) : Prop where
  write : ∀ bytes : Bytes,
    let position := if stream.appends then contents.length else stream.position
    Yields part storage file (.write bytes) (.ok bytes.length)
      { stream with position := position + bytes.length } (contents.overwrite position bytes)
  read : ∀ length : Nat,
    let bytes := (contents.drop stream.position).take length
    Yields part storage file (.read length) (.ok bytes)
      { stream with position := stream.position + bytes.length } contents
  seek : ∀ seek : Seek, seek.aim contents.length stream.position < Seek.bound →
    ∀ position : Nat, seek.aim contents.length stream.position = position →
      Yields part storage file (.seek seek) (.ok position) { stream with position } contents
  seekBack : ∀ seek : Seek, seek.aim contents.length stream.position < 0 →
    Yields part storage file (.seek seek) (.error .invalidArgument) stream contents
  -- The sign bit of such an offset is set, so it counts as negative.
  seekWrapped : ∀ offset : Nat, Seek.bound ≤ offset → offset < UInt64.size →
    Yields part storage file (.seek (.start offset)) (.error .invalidArgument) stream contents
  tell : Yields part storage file .tell (.ok stream.position) stream contents
  truncate : ∀ length : Nat,
    Yields part storage file (.truncate length) (.ok ()) stream (contents.resize length)
  close : ∃ fs, closeFile.outcome (file, storage) =
      (if (storage.memory part).closeFails then .error .ioError else .ok (), file.closed,
        storage.mapHost (part.set fs)) ∧
    MemoryFs.Closed (storage.memory part) fs file.handle

/-- The laws of opening a file on the mount. -/
structure Opening (part : Part ω MemoryFs) (mount : MountPoint) (storage : Storage δ ω)
    (path : String) (options : OpenOptions) : Prop where
  refused : ∀ cause, (storage.memory part).openRefusal? mount.data.value (mount.path.relative path)
      options = some cause →
    ∃ fs, (openFile path options).outcome storage = (.error cause, storage.mapHost (part.set fs)) ∧
      MemoryFs.Unchanged (storage.memory part) fs
  opened : (storage.memory part).openRefusal? mount.data.value (mount.path.relative path)
      options = none →
    ∃ handle fs, (openFile path options).outcome storage =
        (.ok ⟨handle, some mount.id⟩, storage.mapHost (part.set fs)) ∧
      (storage.memory part).streams[handle.number]? = none ∧
      MemoryFs.Edited (storage.memory part) fs handle
        { volume := mount.data.value, path := mount.path.relative path, appends := options.append }
        (if options.truncate then []
          else ((storage.memory part).contents? mount.data.value (mount.path.relative path)).getD [])

/-- Writes in a row leave what one write of all their bytes leaves. -/
def WritesAsOne (part : Part ω MemoryFs) (storage : Storage δ ω) (file : OpenFile)
    (payloads : List Bytes) : Prop :=
  ∃ stream contents,
    Yields part storage file (.write payloads.flatten) (.ok payloads.flatten.length) stream contents ∧
    let written := (payloads.mapM (writeCall file)).run storage
    written.1 = payloads.map (fun bytes => .ok bytes.length) ∧
      MemoryFs.Edited (storage.memory part) (written.2.memory part) file.handle stream contents

/-- The path is opened, and reading it in pieces reads these contents and changes no file. -/
def ReadsInFull (part : Part ω MemoryFs) (storage : Storage δ ω) (path : String)
    (options : OpenOptions) (contents : Bytes) : Prop :=
  ∃ file opened, openFile path options storage = .ok file opened ∧
    ∀ sizes, ∃ pieces,
      let read := (sizes.mapM (readCall file)).run opened
      read.1 = pieces.map .ok ∧ contents.Pieces sizes pieces ∧
        ∀ volume other, (read.2.memory part).contents? volume other =
          (storage.memory part).contents? volume other

section Continues

variable {part : Part ω MemoryFs} {mount : MountPoint} {before after : Storage δ ω}
  {spared : FileHandle → Prop} {contents : Bytes} (hcontinues : Continues part spared before after)

include hcontinues

theorem Continues.openOn {file : OpenFile} {stream : Stream} (hspared : spared file.handle)
    (hopen : OpenOn part mount before file stream contents) :
    ∃ position later, OpenOn part mount after file { stream with position } later := by
  obtain ⟨position, later, hstream⟩ := hcontinues.opens _ hspared _ _ hopen.stream_eq
  exact ⟨position, later, hopen.mount_eq, hstream⟩

theorem Continues.fileAt {volume : Nat} {path : String}
    (hfile : (before.memory part).FileAt volume path contents) :
    ∃ later, (after.memory part).FileAt volume path later := by
  obtain ⟨later, hlater⟩ := hcontinues.paths.files _ _ _ hfile.contents_eq
  exact ⟨later, hlater, by rw [hcontinues.paths.dirs, hfile.no_dir]⟩

end Continues

section Laws

variable [DiskDriver δ] {storage : Storage δ ω} {mount : MountPoint} {signature : Option Bytes}
  {part : Part ω MemoryFs} {file : OpenFile} {stream : Stream} {contents : Bytes}

theorem MemoryMount.yields (hmount : MemoryMount storage mount signature part)
    (hfile : file.mount = some mount.id) {request : FileRequest}
    {answer : Except StorageError request.Reply}
    (hanswer : ∃ fs, storage.memoryOutcome mount part (.onFile request file.handle) = (answer, fs) ∧
      MemoryFs.Edited (storage.memory part) fs file.handle stream contents) :
    Yields part storage file request answer stream contents := by
  obtain ⟨fs, hanswer, hedited⟩ := hanswer
  refine ⟨fs, ?_, hedited⟩
  rw [hmount.outcome_onFile hfile, hanswer]

theorem MemoryMount.positionalFile (hmount : MemoryMount storage mount signature part)
    (hopen : OpenOn part mount storage file stream contents) :
    PositionalFile part storage file stream contents where
  write bytes := hmount.yields hopen.mount_eq (MemoryFs.outcome_writeFile hopen.stream_eq bytes)
  read length := hmount.yields hopen.mount_eq (MemoryFs.outcome_readFile hopen.stream_eq length)
  seek seek hlimit position haim := by
    have hseek := MemoryFs.outcome_seekFile hopen.stream_eq seek
    rw [Seek.target?_eq hlimit, haim, if_neg (Int.not_lt.mpr (Int.natCast_nonneg position))] at hseek
    exact hmount.yields hopen.mount_eq hseek
  seekBack seek hnegative := by
    have hseek := MemoryFs.outcome_seekFile hopen.stream_eq seek
    rw [Seek.target?_eq (Int.lt_trans hnegative (by decide)), if_pos hnegative] at hseek
    exact hmount.yields hopen.mount_eq hseek
  seekWrapped offset hlow hhigh := by
    have hseek := MemoryFs.outcome_seekFile hopen.stream_eq (.start offset)
    rw [Seek.target?_start_of_le hlow hhigh] at hseek
    exact hmount.yields hopen.mount_eq hseek
  tell := hmount.yields hopen.mount_eq
    ⟨_, MemoryFs.outcome_tellFile hopen.stream_eq, .refl hopen.stream_eq⟩
  truncate length :=
    hmount.yields hopen.mount_eq (MemoryFs.outcome_truncateFile hopen.stream_eq length)
  close := by
    refine ⟨_, ?_, (MemoryFs.closed_closeFile (storage.memory part) file.handle).1⟩
    rw [hmount.outcome_closeFile hopen.mount_eq,
      ← MemoryFs.answer_closeFile (MemoryFs.stream_eq_ok_iff.mp hopen.stream_eq).1]
    rfl

theorem MemoryMount.opening (hmount : MemoryMount storage mount signature part) {path : String}
    (hpath : storage.resolve path = .ok mount) (options : OpenOptions) :
    Opening part mount storage path options where
  refused cause hrefused := by
    obtain ⟨fs, houtcome, hsame⟩ := MemoryFs.outcome_openFile_of_refused _ _ _ hrefused
    have hanswer : storage.memoryOutcome mount part
        (.onPath (.openFile options) (mount.path.relative path)) = _ := houtcome
    refine ⟨fs, ?_, hsame⟩
    rw [hmount.outcome_openFile hpath, hanswer]
    rfl
  opened hopened := by
    obtain ⟨fs, houtcome, hedited⟩ := MemoryFs.outcome_openFile _ _ _ hopened
    have hanswer : storage.memoryOutcome mount part
        (.onPath (.openFile options) (mount.path.relative path)) = _ := houtcome
    refine ⟨_, fs, ?_, ?_, hedited⟩
    · rw [hmount.outcome_openFile hpath, hanswer]
      rfl
    · rw [Option.eq_none_iff_forall_ne_some]
      intro stream hstream
      exact absurd (hmount.reachable.numbered _ stream hstream) (Nat.not_succ_le_self _)

/-- A request that yields something leaves the mount in place and the file open. -/
theorem Yields.next (hmount : MemoryMount storage mount signature part)
    (hfile : file.mount = some mount.id) {request : FileRequest}
    {answer : Except StorageError request.Reply}
    (hyields : Yields part storage file request answer stream contents) :
    ∃ after, (onFile file request).outcome storage = (answer, after) ∧
      MemoryMount after mount signature part ∧ OpenOn part mount after file stream contents ∧
      MemoryFs.Edited (storage.memory part) (after.memory part) file.handle stream contents := by
  obtain ⟨fs, hanswer, hedited⟩ := hyields
  have hafter := hmount.step (.onFile request file.handle)
  rw [← hmount.state_eq (.onFile request hfile), Operation.state, hanswer] at hafter
  refine ⟨_, hanswer, hafter, ⟨hfile, ?_⟩, ?_⟩
  · rw [memory_mapHost]
    exact hedited.stream_self
  · rwa [memory_mapHost]

/-! ## Calls in a row -/

/-- Writes in a row are each answered by their length, and together they write one payload. -/
theorem MemoryMount.run_writeCalls (hmount : MemoryMount storage mount signature part)
    (hopen : OpenOn part mount storage file stream contents) (first : Bytes) (rest : List Bytes) :
    let position := if stream.appends then contents.length else stream.position
    let payload := (first :: rest).flatten
    let written := ((first :: rest).mapM (writeCall file)).run storage
    written.1 = (first :: rest).map (fun bytes => .ok bytes.length) ∧
      MemoryFs.Edited (storage.memory part) (written.2.memory part) file.handle
        { stream with position := position + payload.length }
        (contents.overwrite position payload) := by
  induction rest generalizing storage stream contents first with
  | nil =>
      intro position payload written
      obtain ⟨after, hanswer, -, -, hedited⟩ :=
        ((hmount.positionalFile hopen).write first).next hmount hopen.mount_eq
      have hcall : (writeCall file first).run storage = (.ok first.length, after) := hanswer
      have hwritten : written = ([.ok first.length], after) :=
        CallList.run_mapM_cons_of_run hcall []
      have hpayload : payload = first := List.append_nil first
      rw [hwritten, hpayload]
      exact ⟨rfl, hedited⟩
  | cons second rest ih =>
      intro position payload written
      obtain ⟨after, hanswer, hafter, hstill, hedited⟩ :=
        ((hmount.positionalFile hopen).write first).next hmount hopen.mount_eq
      have hcall : (writeCall file first).run storage = (.ok first.length, after) := hanswer
      obtain ⟨hanswers, hlast⟩ := ih hafter hstill second
      -- An appending file goes on at its end, which is where the first write has stopped.
      have hposition : (if stream.appends then (contents.overwrite position first).length
          else position + first.length) = position + first.length := by
        cases happends : stream.appends with
        | false => rfl
        | true =>
            have hend : position = contents.length := if_pos happends
            rw [if_pos rfl, Bytes.length_overwrite, hend]
            exact Nat.max_eq_right (Nat.le_add_right _ _)
      have hpayload : payload = first ++ (second :: rest).flatten := rfl
      have hwritten : written = _ := CallList.run_mapM_cons_of_run hcall (second :: rest)
      rw [hwritten, hpayload]
      refine ⟨congrArg (List.cons _) hanswers, ?_⟩
      have htogether := hedited.trans hlast rfl rfl
      dsimp only at htogether
      rwa [hposition, Bytes.overwrite_append, Nat.add_assoc, ← List.length_append] at htogether

/-- Reads in a row are answered by the pieces of what lies behind the position. -/
theorem MemoryMount.run_readCalls (hmount : MemoryMount storage mount signature part)
    (hopen : OpenOn part mount storage file stream contents) (sizes : List Nat) :
    let pieces := Bytes.cut (contents.drop stream.position) sizes
    let read := (sizes.mapM (readCall file)).run storage
    read.1 = pieces.map .ok ∧
      MemoryFs.Edited (storage.memory part) (read.2.memory part) file.handle
        { stream with position := stream.position + pieces.flatten.length } contents := by
  induction sizes generalizing storage stream with
  | nil => exact ⟨rfl, .refl hopen.stream_eq⟩
  | cons size rest ih =>
      intro pieces read
      let bytes := (contents.drop stream.position).take size
      obtain ⟨after, hanswer, hafter, hstill, hedited⟩ :=
        ((hmount.positionalFile hopen).read size).next hmount hopen.mount_eq
      have hcall : (readCall file size).run storage = (.ok bytes, after) := hanswer
      obtain ⟨hanswers, hlast⟩ := ih hafter hstill
      have hbehind : contents.drop (stream.position + bytes.length) =
          (contents.drop stream.position).drop size := by
        have hcut : (bytes ++ (contents.drop stream.position).drop size).drop bytes.length =
            (contents.drop stream.position).drop size := List.drop_left
        rwa [List.take_append_drop, List.drop_drop] at hcut
      dsimp only at hanswers hlast
      rw [hbehind] at hanswers hlast
      have hread : read = _ := CallList.run_mapM_cons_of_run hcall rest
      rw [hread]
      refine ⟨congrArg (List.cons _) hanswers, ?_⟩
      have htogether := hedited.trans hlast rfl rfl
      rwa [Nat.add_assoc, ← List.length_append] at htogether

theorem MemoryMount.writesAsOne (hmount : MemoryMount storage mount signature part)
    (hopen : OpenOn part mount storage file stream contents) {payloads : List Bytes}
    (hpayloads : payloads ≠ []) : WritesAsOne part storage file payloads := by
  obtain ⟨first, rest, rfl⟩ := List.exists_cons_of_ne_nil hpayloads
  exact ⟨_, _, (hmount.positionalFile hopen).write _, hmount.run_writeCalls hopen first rest⟩

/-! ## Opened files -/

/-- A file that was opened stands at its beginning, and its path is there. -/
theorem MemoryMount.of_openFile_eq_ok (hmount : MemoryMount storage mount signature part)
    {path : String} (hpath : storage.resolve path = .ok mount) {options : OpenOptions}
    {opened : Storage δ ω} (hopen : openFile path options storage = .ok file opened) :
    MemoryMount opened mount signature part ∧ SameTables storage opened ∧
      ∃ contents,
        OpenOn part mount opened file
          { volume := mount.data.value, path := mount.path.relative path, appends := options.append }
          contents ∧
        (opened.memory part).FileAt mount.data.value (mount.path.relative path) contents := by
  have houtcome := Action.outcome_eq_ok_iff.mpr hopen
  have hafter := hmount.step (.onPath (.openFile options) (mount.path.relative path))
  have hcontinues := hmount.continues_step (.openFile options hpath)
  rw [← hmount.state_eq (.openFile options hpath), state_openFile hopen] at hafter hcontinues
  cases hrefusal : (storage.memory part).openRefusal? mount.data.value (mount.path.relative path)
      options with
  | some cause =>
      obtain ⟨fs, hrefused, -⟩ := (hmount.opening hpath options).refused cause hrefusal
      rw [houtcome] at hrefused
      cases hrefused
  | none =>
      obtain ⟨handle, fs, hopened, -, hedited⟩ := (hmount.opening hpath options).opened hrefusal
      rw [houtcome] at hopened
      cases hopened
      rw [← memory_mapHost storage part fs] at hedited
      refine ⟨hafter, hcontinues.tables, _, ⟨rfl, hedited.stream_self⟩, ?_, ?_⟩
      · exact (hedited.files _ _).trans (if_pos ⟨rfl, rfl⟩)
      · rw [hcontinues.paths.dirs]
        exact MemoryFs.no_dir_of_openRefusal?_eq_none hrefusal

/-- A file that is opened again is read from its beginning to its end. -/
theorem MemoryMount.readsInFull (hmount : MemoryMount storage mount signature part) {path : String}
    (hpath : storage.resolve path = .ok mount)
    (hfile : (storage.memory part).FileAt mount.data.value (mount.path.relative path) contents)
    {options : OpenOptions} (hnew : options.createNew = false) (hkeep : options.truncate = false) :
    ReadsInFull part storage path options contents := by
  obtain ⟨handle, fs, houtcome, -, hedited⟩ :=
    (hmount.opening hpath options).opened (hfile.openRefusal?_eq hnew)
  have hopen := Action.outcome_eq_ok_iff.mp houtcome
  obtain ⟨hafter, -, -⟩ := hmount.of_openFile_eq_ok hpath hopen
  rw [hkeep, hfile.contents_eq, if_neg Bool.false_ne_true, Option.getD_some,
    ← memory_mapHost storage part fs] at hedited
  have hstart : OpenOn part mount (storage.mapHost (part.set fs)) ⟨handle, some mount.id⟩
      { volume := mount.data.value, path := mount.path.relative path, appends := options.append }
      contents := ⟨rfl, hedited.stream_self⟩
  refine ⟨_, _, hopen, fun sizes => ⟨contents.cut sizes, ?_⟩⟩
  intro read
  obtain ⟨hanswers, hread⟩ := hafter.run_readCalls hstart sizes
  refine ⟨hanswers, contents.pieces_cut sizes, fun volume other => ?_⟩
  rw [(hedited.trans hread rfl rfl).files]
  split
  · next hsame => rw [hsame.1, hsame.2, hfile.contents_eq]
  · rfl

/-- Over every run of openings, reads, writes, seeks, truncations and closings on the files of a
memory mount, each file that is open obeys the laws of positions, and changes no other file and the
position of no other open file. Writes in a row come to one write. A file that was opened stays open
until it is closed, and its path can be opened again, to read all that the file holds. -/
theorem positional_files_after (hmount : MemoryMount storage mount signature part)
    (run : List (Operation δ ω)) (hrun : ∀ operation ∈ run, storage.OnFilesOf mount operation) :
    let last := storage.after run
    MemoryMount last mount signature part ∧
      (∀ file stream contents, OpenOn part mount storage file stream contents →
        (∀ operation ∈ run, ¬storage.Closes mount file.handle operation) →
        ∃ position later, OpenOn part mount last file { stream with position } later) ∧
      (∀ file stream contents, OpenOn part mount last file stream contents →
        PositionalFile part last file stream contents ∧
        ∀ payloads ≠ [], WritesAsOne part last file payloads) ∧
      (∀ path, storage.resolve path = .ok mount →
        (∀ options, Opening part mount last path options) ∧
        ∀ contents, (last.memory part).FileAt mount.data.value (mount.path.relative path) contents →
          ∀ options : OpenOptions, options.createNew = false → options.truncate = false →
            ReadsInFull part last path options contents) ∧
      ∀ earlier path options later file opened, run = earlier ++ .openFile path options :: later →
        openFile path options (storage.after earlier) = .ok file opened →
        storage.resolve path = .ok mount ∧
        (∃ contents,
          (last.memory part).FileAt mount.data.value (mount.path.relative path) contents) ∧
        ((∀ operation ∈ later, ¬storage.Closes mount file.handle operation) →
          ∃ position contents, OpenOn part mount last file
            { volume := mount.data.value, path := mount.path.relative path, position,
              appends := options.append } contents) := by
  intro last
  obtain ⟨hlast, hcontinues⟩ := hmount.after_run hrun
  refine ⟨hlast, fun file stream contents hopen hspared => hcontinues.openOn hspared hopen,
    fun file stream contents hopen => ?_, fun path hpath => ?_, ?_⟩
  · exact ⟨hlast.positionalFile hopen, fun payloads hpayloads => hlast.writesAsOne hopen hpayloads⟩
  · have hresolve := (resolve_of_sameTables hcontinues.tables path).trans hpath
    exact ⟨hlast.opening hresolve, fun contents hfile options hnew hkeep =>
      hlast.readsInFull hresolve hfile hnew hkeep⟩
  · rintro earlier path options later file opened rfl hopen
    obtain ⟨hearlier, hrest⟩ := List.forall_mem_append.mp hrun
    obtain ⟨⟨request, hoperation⟩, hlater⟩ := List.forall_mem_cons.mp hrest
    cases hoperation with
    | openFile options hpath =>
        obtain ⟨hbefore, hfirst⟩ := hmount.after_run hearlier
        obtain ⟨hopened, hsame, contents, hstart, hfile⟩ := hbefore.of_openFile_eq_ok
          ((resolve_of_sameTables hfirst.tables path).trans hpath) hopen
        have htables := hfirst.tables.trans hsame
        obtain ⟨-, hsecond⟩ := hopened.after_run fun operation hmem =>
          (hlater operation hmem).sameTables htables
        have hend : last = opened.after later := by
          dsimp only [last]
          rw [after_append, after_cons, state_openFile hopen]
        rw [hend]
        refine ⟨hpath, hsecond.fileAt hfile, fun hspared => hsecond.openOn ?_ hstart⟩
        exact fun operation hmem hcloses =>
          hspared operation hmem (hcloses.sameTables htables.symm)

end Laws

/-- Two files open on one path: one appends, the other cuts the file off and goes on writing where
it stood, beyond the end. -/
theorem positional_files_after_shared :
    let part := Part.whole MemoryFs
    let point : MountPoint := ⟨.first, ⟨"/data", by decide⟩, ⟨.user, 2⟩, .ext4, ⟨1⟩⟩
    let registered : Storage RamDisk MemoryFs :=
      (ofBlocks (Handset.blocks id) {}).after [.register .ext4 (MemoryFs.backend none part)]
    let storage := ((mount "/data" ⟨.user, 2⟩ .ext4).outcome registered).2
    let writer : OpenFile := ⟨⟨2⟩, some .first⟩
    let appender : OpenFile := ⟨⟨3⟩, some .first⟩
    let run : List (Operation RamDisk MemoryFs) :=
      [.openFile "/data/a" .writeOnly, .openFile "/data/a" .appending,
        .onFile writer (.write [1, 2, 3]), .onFile appender (.write [4]),
        .onFile writer (.truncate 1), .onFile writer (.write [9])]
    let last := storage.after run
    MemoryMount storage point none part ∧ (∀ operation ∈ run, storage.OnFilesOf point operation) ∧
      PositionalFile part last writer ⟨1, "/a", 4, false⟩ [1, 0, 0, 9] ∧
      WritesAsOne part last appender [[5], [6, 7]] ∧
      ReadsInFull part last "/data/a" .readOnly [1, 0, 0, 9] := by
  intro part point registered storage writer appender run last
  have hserved : registered.backend? .ext4 = some (MemoryFs.backend none part) := rfl
  have hfresh : MemoryFs.Reachable (registered.memory part) := .fresh
  have hempty : registered.mounts = [] := rfl
  have hanswers : ((mount "/data" ⟨.user, 2⟩ .ext4).outcome registered).1 = .ok () ∧
      storage.mounts = [point] ∧ storage.resolve "/data/a" = .ok point ∧
      (last.memory part).stream writer.handle = .ok (⟨1, "/a", 4, false⟩, [1, 0, 0, 9]) ∧
      (last.memory part).stream appender.handle = .ok (⟨1, "/a", 4, true⟩, [1, 0, 0, 9]) ∧
      (last.memory part).contents? 1 (point.path.relative "/data/a") = some [1, 0, 0, 9] ∧
      ((last.memory part).volume 1).dirs.contains (point.path.relative "/data/a") = false := by
    decide +kernel
  obtain ⟨hanswer, hmounts, hpath, hwriter, happender, hcontents, hdirs⟩ := hanswers
  have hmount : MemoryMount storage point none part := by
    obtain ⟨mount, hlisted, hmount⟩ := memoryMount_of_mount_eq_ok (by decide) hserved hfresh
      (by simp [hempty]) (Action.eq_ok_of_outcome hanswer)
    rw [hempty, List.nil_append] at hlisted
    obtain rfl := List.singleton_inj.mp (hmounts.symm.trans hlisted)
    exact hmount
  have hrun : ∀ operation ∈ run, storage.OnFilesOf point operation := by
    simp only [run, List.forall_mem_cons]
    exact ⟨⟨_, .openFile _ hpath⟩, ⟨_, .openFile _ hpath⟩, ⟨_, .onFile _ rfl⟩, ⟨_, .onFile _ rfl⟩,
      ⟨_, .onFile _ rfl⟩, ⟨_, .onFile _ rfl⟩, by simp⟩
  obtain ⟨-, -, hfiles, hpaths, -⟩ := positional_files_after hmount run hrun
  exact ⟨hmount, hrun, (hfiles writer _ _ ⟨rfl, hwriter⟩).1,
    (hfiles appender _ _ ⟨rfl, happender⟩).2 _ (by decide),
    (hpaths "/data/a" hpath).2 _ ⟨hcontents, hdirs⟩ .readOnly rfl rfl⟩

end Storage

end StorageStack

import StorageStack.Proofs.Memory.Streams

/-! # Numbers of open files

The memory filesystem gives out each number once. So an open file stays open, on the same file,
whatever else is opened, read, written or closed, until its own number is closed.
-/

namespace StorageStack

/-- The result of an action leaves a state with the property, whether it is a success or not. -/
def Action.Leaves {σ α : Type} (motive : σ → Prop) : EStateM.Result StorageError σ α → Prop
  | .ok _ after => motive after
  | .error _ after => motive after

theorem Action.Leaves.outcome {σ α : Type} {motive : σ → Prop} {action : Action σ α} {state : σ}
    (hleaves : Leaves motive (action state)) : motive (action.outcome state).2 := by
  unfold Action.outcome
  cases hresult : action state with
  | ok value after =>
      rw [hresult] at hleaves
      exact hleaves
  | error cause after =>
      rw [hresult] at hleaves
      exact hleaves

namespace MemoryFs

/-- The states that requests lead to, with the switches set at any time. -/
inductive Reachable : MemoryFs → Prop
  | fresh : Reachable {}
  | serve {fs : MemoryFs} (info : Except StorageError BlockInfo) (mount : MountPoint)
      (request : Request) (hprior : Reachable fs) :
      Reachable ((serve info mount request).outcome fs).2
  | switch {fs : MemoryFs} (mountFailure : Option StorageError)
      (unmountFails closeFails listsDots : Bool) (hprior : Reachable fs) :
      Reachable { fs with mountFailure, unmountFails, closeFails, listsDots }

/-- No open file has a number that was not given out. -/
def Numbered (fs : MemoryFs) : Prop :=
  ∀ (number : Nat) stream, fs.streams[number]? = some stream → number ≤ fs.lastId

/-- No file goes away, though its contents may change, and directories stay as they are. -/
structure KeepsPaths (before after : MemoryFs) : Prop where
  files : ∀ volume path contents, before.contents? volume path = some contents →
    ∃ later, after.contents? volume path = some later
  dirs : ∀ volume, (after.volume volume).dirs = (before.volume volume).dirs

namespace KeepsPaths

theorem of_volumes {before after : MemoryFs} (hvolumes : after.volumes = before.volumes) :
    KeepsPaths before after where
  files volume path contents hcontents := by
    refine ⟨contents, ?_⟩
    rwa [contents?, MemoryFs.volume, hvolumes]
  dirs volume := by rw [MemoryFs.volume, hvolumes, MemoryFs.volume]

theorem refl (fs : MemoryFs) : KeepsPaths fs fs := of_volumes rfl

theorem trans {before middle after : MemoryFs} (hfirst : KeepsPaths before middle)
    (hsecond : KeepsPaths middle after) : KeepsPaths before after where
  files volume path contents hcontents := by
    obtain ⟨earlier, hearlier⟩ := hfirst.files volume path contents hcontents
    exact hsecond.files volume path earlier hearlier
  dirs volume := (hsecond.dirs volume).trans (hfirst.dirs volume)

/-- A file gets contents. -/
theorem putFile (fs : MemoryFs) (id : Nat) (path : String) (contents : Bytes) :
    KeepsPaths fs (fs.putVolume id ((fs.volume id).putFile path contents)) where
  files volume other earlier hearlier := by
    rw [contents?_putFile]
    split
    · exact ⟨contents, rfl⟩
    · exact ⟨earlier, hearlier⟩
  dirs volume := by
    unfold putVolume MemoryFs.volume
    dsimp only
    rw [Std.TreeMap.getD_insert]
    by_cases hid : id = volume
    · subst hid
      simp [Volume.putFile]
    · simp [hid]

end KeepsPaths

/-- What a request about an open file other than to close it can change: the position there, and
the contents of files that exist. -/
structure Moved (before after : MemoryFs) (handle : FileHandle) : Prop where
  own : ∃ position, after.streams[handle.number]? =
    before.streams[handle.number]?.map fun stream => { stream with position }
  others : ∀ number ≠ handle.number, after.streams[number]? = before.streams[number]?
  paths : KeepsPaths before after
  lastId_eq : after.lastId = before.lastId

section Steps

variable {fs after : MemoryFs} {handle : FileHandle} {stream : Stream} {contents : Bytes}

theorem Numbered.mono (hnumbered : fs.Numbered)
    (hstreams : ∀ (number : Nat) stream, after.streams[number]? = some stream →
      fs.streams[number]? = some stream)
    (hlast : fs.lastId ≤ after.lastId) : after.Numbered := fun number stream hstream =>
  Nat.le_trans (hnumbered number stream (hstreams number stream hstream)) hlast

theorem Moved.numbered (hmoved : Moved fs after handle) (hnumbered : fs.Numbered) :
    after.Numbered := by
  intro number stream hstream
  rw [hmoved.lastId_eq]
  by_cases hnumber : number = handle.number
  · subst hnumber
    obtain ⟨position, hown⟩ := hmoved.own
    rw [hown] at hstream
    obtain ⟨earlier, hearlier, -⟩ := Option.map_eq_some_iff.mp hstream
    exact hnumbered _ earlier hearlier
  · rw [hmoved.others number hnumber] at hstream
    exact hnumbered number stream hstream

theorem Moved.refl (fs : MemoryFs) (handle : FileHandle) : Moved fs fs handle where
  own := by
    cases hstream : fs.streams[handle.number]? with
    | none => exact ⟨0, rfl⟩
    | some stream => exact ⟨stream.position, rfl⟩
  others _ _ := rfl
  paths := .refl fs
  lastId_eq := rfl

theorem moved_putStream (hopen : fs.streams[handle.number]? = some stream) (position : Nat) :
    Moved fs (fs.putStream handle { stream with position }) handle where
  own := ⟨position, by
    rw [hopen, putStream, getElem?_insert_stream, if_pos rfl, Option.map_some]⟩
  others number hnumber := by rw [putStream, getElem?_insert_stream, if_neg hnumber]
  paths := .of_volumes rfl
  lastId_eq := rfl

theorem moved_putContents (fs : MemoryFs) (handle : FileHandle) (stream : Stream) (contents : Bytes) :
    Moved fs (fs.putContents stream contents) handle where
  own := (Moved.refl fs handle).own
  others _ _ := rfl
  paths := .putFile fs stream.volume stream.path contents
  lastId_eq := rfl

theorem Moved.trans {middle : MemoryFs} (hfirst : Moved fs middle handle)
    (hsecond : Moved middle after handle) : Moved fs after handle where
  own := by
    obtain ⟨_, hearlier⟩ := hfirst.own
    obtain ⟨position, hlater⟩ := hsecond.own
    refine ⟨position, ?_⟩
    rw [hlater, hearlier, Option.map_map]
    rfl
  others number hnumber := (hsecond.others number hnumber).trans (hfirst.others number hnumber)
  paths := hfirst.paths.trans hsecond.paths
  lastId_eq := hsecond.lastId_eq.trans hfirst.lastId_eq

section Requests

variable (fs : MemoryFs) (handle : FileHandle)

theorem moved_readFile (length : Nat) : Moved fs ((readFile handle length).outcome fs).2 handle := by
  unfold Action.outcome readFile
  cases hstream : fs.stream handle with
  | error cause => exact .refl fs handle
  | ok found => exact moved_putStream (stream_eq_ok_iff.mp hstream).1 _

theorem moved_writeFile (bytes : Bytes) : Moved fs ((writeFile handle bytes).outcome fs).2 handle := by
  unfold Action.outcome writeFile
  cases hstream : fs.stream handle with
  | error cause => exact .refl fs handle
  | ok found =>
      obtain ⟨stream, contents⟩ := found
      let later := contents.splice (if stream.appends then contents.length else stream.position) bytes
      have hopen : (fs.putContents stream later).streams[handle.number]? = some stream :=
        (stream_eq_ok_iff.mp hstream).1
      exact (moved_putContents fs handle stream later).trans (moved_putStream hopen _)

theorem moved_seekFile (seek : Seek) : Moved fs ((seekFile handle seek).outcome fs).2 handle := by
  unfold Action.outcome seekFile
  cases hopen : fs.streams[handle.number]? with
  | none => exact .refl fs handle
  | some stream =>
      dsimp only
      cases seek.target? ((fs.volume stream.volume).files.getD stream.path []).length
        stream.position with
      | none => exact .refl fs handle
      | some position => exact moved_putStream hopen position

theorem moved_tellFile : Moved fs ((tellFile handle).outcome fs).2 handle := by
  unfold Action.outcome tellFile
  cases fs.streams[handle.number]? <;> exact .refl fs handle

theorem moved_truncateFile (length : Nat) :
    Moved fs ((truncateFile handle length).outcome fs).2 handle := by
  unfold Action.outcome truncateFile
  cases fs.stream handle with
  | error cause => exact .refl fs handle
  | ok found => exact moved_putContents fs handle found.1 _

theorem moved_syncFile : Moved fs ((syncFile handle).outcome fs).2 handle := by
  unfold Action.outcome syncFile
  cases fs.streams.contains handle.number <;> exact .refl fs handle

/-- A request about an open file moves its position and changes its file, at most. -/
theorem moved_onFile (info : Except StorageError BlockInfo) (mount : MountPoint)
    {request : FileRequest} (hrequest : request ≠ .close) :
    Moved fs ((serve info mount (.onFile request handle)).outcome fs).2 handle := by
  cases request with
  | read length => exact moved_readFile fs handle length
  | write bytes => exact moved_writeFile fs handle bytes
  | seek seek => exact moved_seekFile fs handle seek
  | tell => exact moved_tellFile fs handle
  | truncate length => exact moved_truncateFile fs handle length
  | sync => exact moved_syncFile fs handle
  | close => exact absurd rfl hrequest

end Requests

/-- The open files are the same, and no number has been taken back. -/
def SameStreams (before after : MemoryFs) : Prop :=
  after.streams = before.streams ∧ before.lastId ≤ after.lastId

/-- A request about a path opens no file, unless it says so. -/
theorem sameStreams_onPath (info : Except StorageError BlockInfo) (mount : MountPoint)
    {request : PathRequest} (hrequest : ∀ options, request ≠ .openFile options) (path : String)
    (fs : MemoryFs) :
    SameStreams fs ((serve info mount (.onPath request path)).outcome fs).2 := by
  apply Action.Leaves.outcome
  cases request with
  | openFile options => exact absurd rfl (hrequest options)
  | openDir =>
      dsimp only [serve, openDir]
      split
      · exact ⟨rfl, Nat.le_succ _⟩
      · exact ⟨rfl, Nat.le_refl _⟩
  | makeDir mode =>
      dsimp only [serve, makeDir]
      split <;> exact ⟨rfl, Nat.le_refl _⟩
  | setMode mode =>
      dsimp only [serve, setMode]
      split <;> exact ⟨rfl, Nat.le_refl _⟩
  | unlink =>
      dsimp only [serve, unlink]
      split <;> exact ⟨rfl, Nat.le_refl _⟩
  | removeDir =>
      dsimp only [serve, removeDir]
      split <;> exact ⟨rfl, Nat.le_refl _⟩
  | stat =>
      dsimp only [serve, stat]
      split <;> exact ⟨rfl, Nat.le_refl _⟩
  | statVolume =>
      dsimp only [serve, statVolume]
      split <;> exact ⟨rfl, Nat.le_refl _⟩

/-- Nothing else opens or closes a file. -/
theorem sameStreams_serve (info : Except StorageError BlockInfo) (mount : MountPoint)
    {request : Request} (hopen : ∀ options path, request ≠ .onPath (.openFile options) path)
    (hfile : ∀ request' handle, request ≠ .onFile request' handle) (fs : MemoryFs) :
    SameStreams fs ((serve info mount request).outcome fs).2 := by
  cases request with
  | mount =>
      apply Action.Leaves.outcome
      dsimp only [serve, mountVolume]
      split
      · exact ⟨rfl, Nat.le_refl _⟩
      · split
        · exact ⟨rfl, Nat.le_refl _⟩
        · exact ⟨rfl, Nat.le_succ _⟩
  | unmount =>
      apply Action.Leaves.outcome
      dsimp only [serve, unmountVolume]
      split <;> exact ⟨rfl, Nat.le_refl _⟩
  | onPath request path =>
      exact sameStreams_onPath info mount (fun options heq => hopen options path (heq ▸ rfl)) path fs
  | onFile request handle => exact absurd rfl (hfile request handle)
  | onDir request handle =>
      apply Action.Leaves.outcome
      cases request with
      | next =>
          dsimp only [serve, nextEntry]
          split <;> exact ⟨rfl, Nat.le_refl _⟩
      | close =>
          dsimp only [serve, closeDir]
          split <;> exact ⟨rfl, Nat.le_refl _⟩
  | rename source target =>
      apply Action.Leaves.outcome
      dsimp only [serve, rename]
      split <;> exact ⟨rfl, Nat.le_refl _⟩

theorem numbered_openFile (hnumbered : fs.Numbered) (id : Nat) (path : String)
    (options : OpenOptions) : ((openFile id path options).outcome fs).2.Numbered := by
  have hadded : ∀ (added : Stream) (number : Nat) stream,
      (fs.streams.insert (fs.lastId + 1) added)[number]? = some stream → number ≤ fs.lastId + 1 := by
    intro added number stream hstream
    rw [getElem?_insert_stream] at hstream
    split at hstream
    · next hnumber => exact Nat.le_of_eq hnumber
    · exact Nat.le_succ_of_le (hnumbered number stream hstream)
  apply Action.Leaves.outcome
  rw [openFile_eq]
  cases fs.openRefusal? id path options with
  | some cause => exact hnumbered.mono (fun _ _ hstream => hstream) (Nat.le_refl _)
  | none =>
      dsimp only
      cases (!(fs.contents? id path).isSome || options.truncate) <;> exact hadded _

theorem numbered_closeFile (hnumbered : fs.Numbered) (handle : FileHandle) :
    ((closeFile handle).outcome fs).2.Numbered := by
  obtain ⟨hclosed, -, hlast⟩ := closed_closeFile fs handle
  refine hnumbered.mono (fun number stream hstream => ?_) (Nat.le_of_eq hlast.symm)
  rw [hclosed.streams] at hstream
  split at hstream
  · cases hstream
  · exact hstream

theorem numbered_serve (hnumbered : fs.Numbered) (info : Except StorageError BlockInfo)
    (mount : MountPoint) (request : Request) :
    ((serve info mount request).outcome fs).2.Numbered := by
  by_cases hopen : ∃ options path, request = .onPath (.openFile options) path
  · obtain ⟨options, path, rfl⟩ := hopen
    exact numbered_openFile hnumbered mount.data.value path options
  · by_cases hfile : ∃ request' handle, request = .onFile request' handle
    · obtain ⟨request', handle, rfl⟩ := hfile
      by_cases hclose : request' = .close
      · subst hclose
        exact numbered_closeFile hnumbered handle
      · exact (moved_onFile fs handle info mount hclose).numbered hnumbered
    · have hsame := sameStreams_serve info mount (fun options path heq => hopen ⟨options, path, heq⟩)
        (fun request' handle heq => hfile ⟨request', handle, heq⟩) fs
      refine hnumbered.mono (fun number stream hstream => ?_) hsame.2
      rwa [hsame.1] at hstream

/-- In a reachable state every open file has a number that was given out. -/
theorem Reachable.numbered (hreach : Reachable fs) : fs.Numbered := by
  induction hreach with
  | fresh => exact fun number stream hstream => by simp at hstream
  | serve info mount request _ ih => exact numbered_serve ih info mount request
  | switch _ _ _ _ _ ih => exact ih

end Steps

/-! ## Files that stay open -/

/-- An open file is still open, on the same file and with the same options, where the position and
the contents may have changed. -/
def KeepsOpen (before after : MemoryFs) (spared : FileHandle) : Prop :=
  ∀ stream contents, before.stream spared = .ok (stream, contents) →
    ∃ position later, after.stream spared = .ok ({ stream with position }, later)

namespace KeepsOpen

variable {before middle after : MemoryFs} {spared handle : FileHandle}

theorem refl (fs : MemoryFs) (spared : FileHandle) : KeepsOpen fs fs spared :=
  fun stream contents hstream => ⟨stream.position, contents, hstream⟩

theorem trans (hfirst : KeepsOpen before middle spared) (hsecond : KeepsOpen middle after spared) :
    KeepsOpen before after spared := by
  intro stream contents hstream
  obtain ⟨_, _, hmiddle⟩ := hfirst stream contents hstream
  obtain ⟨position, later, hafter⟩ := hsecond _ _ hmiddle
  exact ⟨position, later, hafter⟩

theorem of_streams (hstream : after.streams[spared.number]? = before.streams[spared.number]?)
    (hpaths : KeepsPaths before after) : KeepsOpen before after spared := by
  intro stream contents hbefore
  obtain ⟨hopen, hfile⟩ := stream_eq_ok_iff.mp hbefore
  obtain ⟨later, hlater⟩ := hpaths.files _ _ _ hfile
  exact ⟨stream.position, later, stream_eq_ok_iff.mpr ⟨hstream.trans hopen, hlater⟩⟩

theorem of_moved (hmoved : Moved before after handle) (spared : FileHandle) :
    KeepsOpen before after spared := by
  by_cases hown : spared.number = handle.number
  · intro stream contents hbefore
    obtain ⟨hopen, hfile⟩ := stream_eq_ok_iff.mp hbefore
    obtain ⟨position, hposition⟩ := hmoved.own
    obtain ⟨later, hlater⟩ := hmoved.paths.files _ _ _ hfile
    refine ⟨position, later, stream_eq_ok_iff.mpr ⟨?_, hlater⟩⟩
    rw [hown, hposition, ← hown, hopen, Option.map_some]
  · exact of_streams (hmoved.others _ hown) hmoved.paths

end KeepsOpen

section KeepsOpen

variable {fs : MemoryFs} {handle spared : FileHandle}

theorem keepsPaths_openFile (fs : MemoryFs) (id : Nat) (path : String) (options : OpenOptions) :
    KeepsPaths fs ((openFile id path options).outcome fs).2 := by
  apply Action.Leaves.outcome
  rw [openFile_eq]
  cases fs.openRefusal? id path options with
  | some cause => exact KeepsPaths.of_volumes rfl
  | none =>
      dsimp only
      cases (!(fs.contents? id path).isSome || options.truncate) with
      | false => exact KeepsPaths.of_volumes rfl
      | true => exact (KeepsPaths.putFile fs id path []).trans (.of_volumes rfl)

/-- Opening a file closes none, because its number is new. -/
theorem keepsOpen_openFile (hnumbered : fs.Numbered) (id : Nat) (path : String)
    (options : OpenOptions) : KeepsOpen fs ((openFile id path options).outcome fs).2 spared := by
  have hpaths := keepsPaths_openFile fs id path options
  cases hrefusal : fs.openRefusal? id path options with
  | some cause =>
      obtain ⟨after, houtcome, hsame⟩ := outcome_openFile_of_refused fs id path hrefusal
      rw [houtcome] at hpaths ⊢
      exact .of_streams (hsame.streams _) hpaths
  | none =>
      obtain ⟨after, houtcome, hedited⟩ := outcome_openFile fs id path hrefusal
      rw [houtcome] at hpaths ⊢
      intro stream contents hstream
      have hknown := hnumbered _ stream (stream_eq_ok_iff.mp hstream).1
      refine KeepsOpen.of_streams ?_ hpaths stream contents hstream
      rw [hedited.streams, if_neg (Nat.ne_of_lt (Nat.lt_succ_of_le hknown))]

theorem keepsPaths_closeFile (fs : MemoryFs) (handle : FileHandle) :
    KeepsPaths fs ((closeFile handle).outcome fs).2 :=
  .of_volumes (closed_closeFile fs handle).2.1

theorem keepsOpen_closeFile (hother : handle ≠ spared) :
    KeepsOpen fs ((closeFile handle).outcome fs).2 spared := by
  refine .of_streams ?_ (keepsPaths_closeFile fs handle)
  rw [(closed_closeFile fs handle).1.streams, if_neg fun heq => hother (congrArg FileHandle.mk heq.symm)]

theorem keepsPaths_onFile (fs : MemoryFs) (info : Except StorageError BlockInfo) (mount : MountPoint)
    (request : FileRequest) (handle : FileHandle) :
    KeepsPaths fs ((serve info mount (.onFile request handle)).outcome fs).2 := by
  by_cases hclose : request = .close
  · subst hclose
    exact keepsPaths_closeFile fs handle
  · exact (moved_onFile fs handle info mount hclose).paths

/-- A request about one open file closes no other, and its own only if it says so. -/
theorem keepsOpen_onFile (info : Except StorageError BlockInfo) (mount : MountPoint)
    {request : FileRequest} (hspared : request = .close → handle ≠ spared) :
    KeepsOpen fs ((serve info mount (.onFile request handle)).outcome fs).2 spared := by
  by_cases hclose : request = .close
  · subst hclose
    exact keepsOpen_closeFile (hspared rfl)
  · exact .of_moved (moved_onFile fs handle info mount hclose) spared

end KeepsOpen

end MemoryFs

end StorageStack

import StorageStack.Proofs.Memory.Consistency

/-! # Isolation of volumes

Open files and open directories are numbered across all volumes, and a request about one of them is
served by its number alone. As long as the numbers in use belong to one volume, requests about this
volume leave all others as they are, with their open files and open directories.
-/

namespace StorageStack

namespace MemoryFs

/-- The number has been given out, and no open file of another volume has it. -/
structure Owned (volume number : Nat) (fs : MemoryFs) : Prop where
  given : number ≤ fs.lastId
  own : ∀ stream : Stream, fs.streams[number]? = some stream → stream.volume = volume

/-- A handle to an open file or an open directory. -/
inductive Handle where
  | file (handle : FileHandle)
  | dir (handle : DirHandle)

def Handle.number : Handle → Nat
  | file handle => handle.number
  | dir handle => handle.number

def IsOpen (fs : MemoryFs) : Handle → Prop
  | .file handle => fs.streams.contains handle.number = true
  | .dir handle => fs.listings.contains handle.number = true

end MemoryFs

/-- A request keeps to a volume: it is about a path of the volume, about an open file of it, or about
one of the given open directories. -/
def Request.Within (fs : MemoryFs) (volume : Nat) (dirs : Nat → Prop) : Request → Prop
  | .mount => False
  | .unmount => False
  | .onPath _ _ => True
  | .onFile _ handle => fs.Owned volume handle.number
  | .onDir _ handle => dirs handle.number
  | .rename _ _ => True

theorem Request.Within.mono {fs after : MemoryFs} {volume : Nat} {dirs : Nat → Prop} {request : Request}
    (hwithin : request.Within fs volume dirs)
    (howned : ∀ number, fs.Owned volume number → after.Owned volume number) :
    request.Within after volume dirs := by
  cases request with
  | onFile asked handle => exact howned _ hwithin
  | _ => exact hwithin

/-- The request is for opening a file or a directory. -/
def Request.IsOpening : Request → Prop
  | .onPath (.openFile _) _ => True
  | .onPath .openDir _ => True
  | _ => False

namespace MemoryFs

variable {volume number : Nat} {dirs : Nat → Prop} {mount : MountPoint} {request : Request}
  {fs middle after : MemoryFs}

/-- A number keeps its owner: it is not given out again, and no open file moves to another
volume. -/
theorem Effect.owned (heffect : Effect mount request fs after) (howned : fs.Owned volume number) :
    after.Owned volume number := by
  obtain ⟨hgiven, hown⟩ := howned
  refine ⟨Nat.le_trans hgiven heffect.lastId_le, ?_⟩
  cases heffect with
  | noted | rooted | edited | emptied | written | listed | advanced | dropped => exact hown
  | opened _ =>
      -- The number that is given out now is none of those given out before.
      intro stream hstream
      rw [getElem?_insert_stream, if_neg (Nat.ne_of_lt (Nat.lt_succ_of_le hgiven))] at hstream
      exact hown stream hstream
  | @moved _ handle earlier position _ hopen =>
      intro stream hstream
      rw [putStream, getElem?_insert_stream] at hstream
      split at hstream
      · next hnumber =>
          obtain rfl := Option.some.inj hstream
          subst hnumber
          exact hown earlier hopen
      · exact hown stream hstream
  | closed _ =>
      intro stream hstream
      rw [Std.TreeMap.getElem?_erase] at hstream
      split at hstream
      · cases hstream
      · exact hown stream hstream

/-- What is not of a volume, or of the given open directories, is as it was. -/
structure Apart (volume : Nat) (dirs : Nat → Prop) (before after : MemoryFs) : Prop where
  lastId_le : before.lastId ≤ after.lastId
  volumes : ∀ other, other ≠ volume → after.volume other = before.volume other
  streams : ∀ (number : Nat) (stream : Stream), stream.volume ≠ volume →
    (after.streams[number]? = some stream ↔ before.streams[number]? = some stream)
  listings : ∀ number ≤ before.lastId, ¬dirs number →
    after.listings[number]? = before.listings[number]?
  closeFails_eq : after.closeFails = before.closeFails
  listsDots_eq : after.listsDots = before.listsDots

theorem Apart.refl (volume : Nat) (dirs : Nat → Prop) (fs : MemoryFs) : Apart volume dirs fs fs where
  lastId_le := Nat.le_refl _
  volumes _ _ := rfl
  streams _ _ _ := Iff.rfl
  listings _ _ _ := rfl
  closeFails_eq := rfl
  listsDots_eq := rfl

/-- Open directories with new numbers may join those that are given. -/
theorem Apart.trans {later : Nat → Prop} (hfirst : Apart volume dirs fs middle)
    (hsecond : Apart volume later middle after)
    (hlater : ∀ number, later number → dirs number ∨ fs.lastId < number) :
    Apart volume dirs fs after where
  lastId_le := Nat.le_trans hfirst.lastId_le hsecond.lastId_le
  volumes other hother := (hsecond.volumes other hother).trans (hfirst.volumes other hother)
  streams number stream hstream :=
    (hsecond.streams number stream hstream).trans (hfirst.streams number stream hstream)
  listings number hgiven hother := by
    refine (hsecond.listings number (Nat.le_trans hgiven hfirst.lastId_le) fun hnew => ?_).trans
      (hfirst.listings number hgiven hother)
    exact (hlater number hnew).elim hother (Nat.not_lt_of_le hgiven)
  closeFails_eq := hsecond.closeFails_eq.trans hfirst.closeFails_eq
  listsDots_eq := hsecond.listsDots_eq.trans hfirst.listsDots_eq

section Parts

variable (heffect : Effect mount request fs after)

include heffect

/-- Only the volume that a request is about changes, or a new one is made. -/
theorem Effect.volume_eq (hmount : request ≠ .mount) {other : Nat} (hother : other ≠ mount.data.value)
    (hwithin : request.Within fs mount.data.value dirs) : after.volume other = fs.volume other := by
  cases heffect with
  | noted | opened | moved | closed | listed | advanced | dropped => rfl
  | rooted hrequest => exact absurd hrequest hmount
  | edited | emptied => rw [volume_putVolume, if_neg (Ne.symm hother)]
  | @written _ handle stream _ contents hrequest hstream =>
      subst hrequest
      have hvolume := hwithin.own stream (stream_eq_ok_iff.mp hstream).1
      rw [putContents, hvolume, volume_putVolume, if_neg (Ne.symm hother)]

/-- Open files of other volumes stay, and none is added. -/
theorem Effect.stream_iff (hfs : fs.Consistent) (hwithin : request.Within fs mount.data.value dirs)
    {stream : Stream} (hother : stream.volume ≠ mount.data.value) (number : Nat) :
    after.streams[number]? = some stream ↔ fs.streams[number]? = some stream := by
  cases heffect with
  | noted | rooted | edited | emptied | written | listed | advanced | dropped => exact Iff.rfl
  | opened _ =>
      rw [getElem?_insert_stream]
      split
      · next hnumber =>
          refine iff_of_false (fun hnew => hother ?_) fun hold => ?_
          · rw [← Option.some.inj hnew]
          · subst hnumber
            exact Nat.not_succ_le_self _ (hfs.streams _ stream hold).1
      · exact Iff.rfl
  | @moved _ handle earlier position hrequest hopen =>
      -- What moves is an open file of the volume, so it is none of those asked about.
      subst hrequest
      rw [putStream, getElem?_insert_stream]
      split
      · next hnumber =>
          subst hnumber
          refine iff_of_false (fun hnew => hother ?_) fun hold => hother (hwithin.own stream hold)
          rw [← Option.some.inj hnew]
          exact hwithin.own earlier hopen
      · exact Iff.rfl
  | @closed handle hrequest =>
      subst hrequest
      rw [Std.TreeMap.getElem?_erase]
      split
      · next hnumber =>
          obtain rfl : handle.number = number := by simpa using hnumber
          exact iff_of_false (fun hnone => by cases hnone) fun hold => hother (hwithin.own stream hold)
      · exact Iff.rfl

end Parts

/-- An effect of a request that keeps to its volume leaves everything else as it is. -/
theorem Effect.apart (heffect : Effect mount request fs after) (hfs : fs.Consistent)
    (hwithin : request.Within fs mount.data.value dirs) :
    Apart mount.data.value dirs fs after where
  lastId_le := heffect.lastId_le
  volumes other hother := by
    have hmount : request ≠ .mount := by
      rintro rfl
      exact hwithin
    exact heffect.volume_eq hmount hother hwithin
  streams number stream hother := heffect.stream_iff hfs hwithin hother number
  listings number hgiven hother := by
    have hforeign : ∀ asked, request ≠ .onDir asked ⟨number⟩ := by
      rintro asked rfl
      exact hother hwithin
    exact heffect.listing_eq hforeign hgiven
  closeFails_eq := by cases heffect <;> rfl
  listsDots_eq := by cases heffect <;> rfl

theorem Effects.owned (heffects : Effects mount request fs after) (howned : fs.Owned volume number) :
    after.Owned volume number := by
  induction heffects with
  | refl => exact howned
  | tail _ heffect ih => exact heffect.owned ih

/-- A proper request that keeps to its volume leaves everything else as it is. -/
theorem Effects.apart (heffects : Effects mount request fs after) (hfs : fs.Consistent)
    (hproper : request.Proper mount fs.lastId)
    (hwithin : request.Within fs mount.data.value dirs) :
    Apart mount.data.value dirs fs after := by
  induction heffects with
  | refl => exact .refl _ dirs fs
  | @tail middle _ hprior heffect ih =>
      have hmiddle : middle.Consistent := Effects.consistent hprior hproper hfs
      have hlater := hwithin.mono fun _ => Effects.owned hprior
      exact ih.trans (heffect.apart hmiddle hlater) fun _ hdir => .inl hdir

/-! ## New numbers -/

theorem owned_insert (fs : MemoryFs) {id : Nat} {stream : Stream} (hvolume : stream.volume = id) :
    Owned id (fs.lastId + 1)
      { fs with
        lastId := fs.lastId + 1, streams := fs.streams.insert (fs.lastId + 1) stream } where
  given := Nat.le_refl _
  own found hfound := by
    rw [getElem?_insert_stream, if_pos rfl] at hfound
    rw [← Option.some.inj hfound]
    exact hvolume

/-- A file is opened under the next number, in the volume it was asked for. -/
theorem openFile_eq_ok {id : Nat} {path : String} {options : OpenOptions} {handle : FileHandle}
    (hopen : (openFile id path options).outcome fs = (.ok handle, after)) :
    handle.number = fs.lastId + 1 ∧ after.Owned id handle.number := by
  rw [Action.outcome, openFile_eq] at hopen
  cases hrefusal : fs.openRefusal? id path options with
  | some cause =>
      rw [hrefusal] at hopen
      cases hopen
  | none =>
      rw [hrefusal] at hopen
      dsimp only at hopen
      cases hmade : (!(fs.contents? id path).isSome || options.truncate) with
      | true =>
          rw [hmade] at hopen
          cases hopen
          exact ⟨rfl, owned_insert ((fs.note s!"open {path}").putVolume id _) rfl⟩
      | false =>
          rw [hmade] at hopen
          cases hopen
          exact ⟨rfl, owned_insert (fs.note s!"open {path}") rfl⟩

/-- A directory is opened under the next number. -/
theorem openDir_eq_ok {id : Nat} {path : String} {handle : DirHandle}
    (hopen : (openDir id path).outcome fs = (.ok handle, after)) :
    handle.number = fs.lastId + 1 ∧ after.lastId = fs.lastId + 1 := by
  rw [outcome_openDir] at hopen
  split at hopen
  · cases hopen
    exact ⟨rfl, rfl⟩
  · cases hopen

/-! ## Handles in use -/

variable {handle : Handle}

/-- Only an opening adds a handle to those in use. -/
theorem Effect.isOpen (heffect : Effect mount request fs after) (hrequest : ¬request.IsOpening)
    (hopen : after.IsOpen handle) : fs.IsOpen handle := by
  cases handle with
  | file handle =>
      cases heffect with
      | noted | rooted | edited | emptied | written | listed | advanced | dropped => exact hopen
      | opened hopening => exact absurd (hopening ▸ trivial) hrequest
      | moved position _ hmoved =>
          rcases contains_insert_iff.mp hopen with hsame | hold
          · rw [IsOpen, Std.TreeMap.contains_eq_isSome_getElem?, ← hsame, hmoved, Option.isSome_some]
          · exact hold
      | closed _ =>
          rw [IsOpen, Std.TreeMap.contains_erase] at hopen
          exact (Bool.and_eq_true_iff.mp hopen).2
  | dir handle =>
      cases heffect with
      | noted | rooted | edited | emptied | opened | moved | written | closed => exact hopen
      | listed entries hopening => exact absurd (hopening ▸ trivial) hrequest
      | advanced _ hlisted =>
          rcases contains_insert_iff.mp hopen with hsame | hold
          · rw [IsOpen, Std.TreeMap.contains_eq_isSome_getElem?, ← hsame, hlisted, Option.isSome_some]
          · exact hold
      | dropped _ =>
          rw [IsOpen, Std.TreeMap.contains_erase] at hopen
          exact (Bool.and_eq_true_iff.mp hopen).2

/-- What is in use after a file was opened was in use before, or is the handle given out. -/
theorem isOpen_openFile {id : Nat} {path : String} {options : OpenOptions}
    (hopen : ((openFile id path options).outcome fs).2.IsOpen handle) :
    fs.IsOpen handle ∨ ∃ opened, handle = .file opened ∧
      ((openFile id path options).outcome fs).1 = .ok opened := by
  unfold Action.outcome at hopen ⊢
  rw [openFile_eq] at hopen ⊢
  cases hrefusal : fs.openRefusal? id path options with
  | some cause =>
      rw [hrefusal] at hopen
      exact .inl (by cases handle <;> exact hopen)
  | none =>
      rw [hrefusal] at hopen
      dsimp only at hopen ⊢
      cases handle with
      | dir handle =>
          left
          split at hopen <;> exact hopen
      | file handle =>
          have hnew : fs.lastId + 1 = handle.number ∨ fs.streams.contains handle.number = true := by
            split at hopen <;> exact contains_insert_iff.mp hopen
          rcases hnew with hsame | hold
          · exact .inr ⟨⟨fs.lastId + 1⟩, by rw [hsame], rfl⟩
          · exact .inl hold

/-- What is in use after a directory was opened was in use before, or is the handle given out. -/
theorem isOpen_openDir {id : Nat} {path : String}
    (hopen : ((openDir id path).outcome fs).2.IsOpen handle) :
    fs.IsOpen handle ∨ ∃ opened, handle = .dir opened ∧
      ((openDir id path).outcome fs).1 = .ok opened := by
  rw [outcome_openDir] at hopen ⊢
  by_cases hdir : (fs.volume id).dirs.contains path = true
  · rw [if_pos hdir] at hopen ⊢
    cases handle with
    | file handle => exact .inl hopen
    | dir handle =>
        rcases contains_insert_iff.mp hopen with hsame | hold
        · exact .inr ⟨⟨fs.lastId + 1⟩, by rw [hsame], rfl⟩
        · exact .inl hold
  · rw [if_neg hdir] at hopen
    exact .inl (by cases handle <;> exact hopen)

end MemoryFs

end StorageStack

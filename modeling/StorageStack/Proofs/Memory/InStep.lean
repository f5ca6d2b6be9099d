import StorageStack.Proofs.Memory.Isolation

/-! # Memory filesystems in step

Two memory filesystems with the same volume answer requests about the volume in the same way and go
on to have the same volume, whatever else is in them. They may have given out different numbers, so
numbers of the one stand for numbers of the other, and a new pair comes with each opening.
-/

namespace StorageStack

/-- Numbers that stand for each other. -/
abbrev Pairing := Nat → Nat → Prop

/-- One more pair. -/
def Pairing.add (pairs : Pairing) (left right : Nat) : Pairing := fun first second =>
  pairs first second ∨ first = left ∧ second = right

/-- Both answers are failures of the same cause, or both are successes with related values. -/
inductive Corresponds {α β : Type} (related : α → β → Prop) :
    Except StorageError α → Except StorageError β → Prop
  | ok {first : α} {second : β} (hrelated : related first second) :
      Corresponds related (.ok first) (.ok second)
  | error (cause : StorageError) : Corresponds related (.error cause) (.error cause)

theorem Corresponds.map {α β γ ε : Type} {related : α → β → Prop} {others : γ → ε → Prop}
    {first : Except StorageError α} {second : Except StorageError β}
    (hanswers : Corresponds related first second) {left : α → γ} {right : β → ε}
    (hmap : ∀ value other, related value other → others (left value) (right other)) :
    Corresponds others (first.map left) (second.map right) := by
  cases hanswers with
  | ok hrelated => exact .ok (hmap _ _ hrelated)
  | error cause => exact .error cause

/-- The same answer, with related states. -/
def SameAnswer {σ α : Type} (related : σ → σ → Prop) (first second : α × σ) : Prop :=
  first.1 = second.1 ∧ related first.2 second.2

/-- Two results have the same answer and leave related states. -/
def Action.Agree {σ α : Type} (related : σ → σ → Prop) :
    EStateM.Result StorageError σ α → EStateM.Result StorageError σ α → Prop
  | .ok first left, .ok second right => first = second ∧ related left right
  | .error first left, .error second right => first = second ∧ related left right
  | _, _ => False

theorem Action.Agree.outcome {σ α : Type} {related : σ → σ → Prop} {first second : Action σ α}
    {left right : σ} (hagree : Agree related (first left) (second right)) :
    SameAnswer related (first.outcome left) (second.outcome right) := by
  unfold SameAnswer Action.outcome
  generalize first left = result, second right = other at hagree
  cases result <;> cases other <;> simp_all [Agree]

/-- Two tables have the same entries under numbers that stand for each other. All of these numbers
have been given out. -/
structure InStep {α : Type} (pairs : Pairing) (lastLeft lastRight : Nat)
    (left right : Std.TreeMap Nat α) : Prop where
  given : ∀ first second, pairs first second → first ≤ lastLeft ∧ second ≤ lastRight
  unique : ∀ first second other another, pairs first second → pairs other another →
    (first = other ↔ second = another)
  same : ∀ first second, pairs first second → left[first]? = right[second]?

namespace InStep

variable {α : Type} {pairs : Pairing} {lastLeft lastRight first second : Nat}
  {left right : Std.TreeMap Nat α}

theorem insert (hstep : InStep pairs lastLeft lastRight left right) (hpair : pairs first second)
    (entry : α) :
    InStep pairs lastLeft lastRight (left.insert first entry) (right.insert second entry) where
  given := hstep.given
  unique := hstep.unique
  same other another hother := by
    have hiff := hstep.unique _ _ _ _ hpair hother
    rw [Std.TreeMap.getElem?_insert, Std.TreeMap.getElem?_insert]
    by_cases hsame : first = other
    · rw [if_pos (by simpa using hsame), if_pos (by simpa using hiff.mp hsame)]
    · rw [if_neg (by simpa using hsame), if_neg (by simpa using hsame ∘ hiff.mpr)]
      exact hstep.same _ _ hother

theorem erase (hstep : InStep pairs lastLeft lastRight left right) (hpair : pairs first second) :
    InStep pairs lastLeft lastRight (left.erase first) (right.erase second) where
  given := hstep.given
  unique := hstep.unique
  same other another hother := by
    have hiff := hstep.unique _ _ _ _ hpair hother
    rw [Std.TreeMap.getElem?_erase, Std.TreeMap.getElem?_erase]
    by_cases hsame : first = other
    · rw [if_pos (by simpa using hsame), if_pos (by simpa using hiff.mp hsame)]
    · rw [if_neg (by simpa using hsame), if_neg (by simpa using hsame ∘ hiff.mpr)]
      exact hstep.same _ _ hother

/-- The next number is given out on both sides, for something else. -/
theorem next (hstep : InStep pairs lastLeft lastRight left right) :
    InStep pairs (lastLeft + 1) (lastRight + 1) left right where
  given _ _ hpair :=
    ⟨Nat.le_succ_of_le (hstep.given _ _ hpair).1, Nat.le_succ_of_le (hstep.given _ _ hpair).2⟩
  unique := hstep.unique
  same := hstep.same

/-- The next number is given out on both sides, for the same entry. -/
theorem add (hstep : InStep pairs lastLeft lastRight left right) (entry : α) :
    InStep (pairs.add (lastLeft + 1) (lastRight + 1)) (lastLeft + 1) (lastRight + 1)
      (left.insert (lastLeft + 1) entry) (right.insert (lastRight + 1) entry) where
  given first second hpair := by
    rcases hpair with hold | ⟨rfl, rfl⟩
    · exact hstep.next.given _ _ hold
    · exact ⟨Nat.le_refl _, Nat.le_refl _⟩
  unique first second other another hpair hother := by
    -- Neither side has given out a number of the new pair before.
    rcases hpair with hold | ⟨rfl, rfl⟩ <;> rcases hother with hold' | ⟨rfl, rfl⟩
    · exact hstep.unique _ _ _ _ hold hold'
    · have := hstep.given _ _ hold
      omega
    · have := hstep.given _ _ hold'
      omega
    · exact iff_of_true rfl rfl
  same first second hpair := by
    rw [Std.TreeMap.getElem?_insert, Std.TreeMap.getElem?_insert]
    rcases hpair with hold | ⟨rfl, rfl⟩
    · have hgiven := hstep.given _ _ hold
      have hleft : lastLeft + 1 ≠ first := by omega
      have hright : lastRight + 1 ≠ second := by omega
      rw [if_neg (by simpa using hleft), if_neg (by simpa using hright)]
      exact hstep.same _ _ hold
    · rw [if_pos (by simp), if_pos (by simp)]

end InStep

namespace MemoryFs

/-- Two memory filesystems have the same volume, and the same open files and open directories of the
volume under numbers that stand for each other. -/
structure Alike (volume : Nat) (files dirs : Pairing) (left right : MemoryFs) : Prop where
  volume_eq : left.volume volume = right.volume volume
  closeFails_eq : left.closeFails = right.closeFails
  listsDots_eq : left.listsDots = right.listsDots
  streams : InStep files left.lastId right.lastId left.streams right.streams
  own : ∀ (first second : Nat) stream, files first second → left.streams[first]? = some stream →
    stream.volume = volume
  listings : InStep dirs left.lastId right.lastId left.listings right.listings

namespace Alike

variable {volume : Nat} {files dirs : Pairing} {left right : MemoryFs}
  (halike : Alike volume files dirs left right)

include halike

theorem note (call other : String) : Alike volume files dirs (left.note call) (right.note other) :=
  ⟨halike.volume_eq, halike.closeFails_eq, halike.listsDots_eq, halike.streams, halike.own,
    halike.listings⟩

theorem putVolume (changed : Volume) :
    Alike volume files dirs (left.putVolume volume changed) (right.putVolume volume changed) where
  volume_eq := by rw [volume_putVolume, volume_putVolume, if_pos rfl, if_pos rfl]
  closeFails_eq := halike.closeFails_eq
  listsDots_eq := halike.listsDots_eq
  streams := halike.streams
  own := halike.own
  listings := halike.listings

theorem contents?_eq (path : String) : left.contents? volume path = right.contents? volume path := by
  rw [contents?, halike.volume_eq, contents?]

/-- A file is opened on both sides. -/
theorem addStream {stream : Stream} (hvolume : stream.volume = volume) :
    Alike volume (files.add (left.lastId + 1) (right.lastId + 1)) dirs
      { left with
        lastId := left.lastId + 1, streams := left.streams.insert (left.lastId + 1) stream }
      { right with
        lastId := right.lastId + 1, streams := right.streams.insert (right.lastId + 1) stream } where
  volume_eq := halike.volume_eq
  closeFails_eq := halike.closeFails_eq
  listsDots_eq := halike.listsDots_eq
  streams := halike.streams.add stream
  own first second other hpair hother := by
    rw [getElem?_insert_stream] at hother
    split at hother
    · rw [← Option.some.inj hother]
      exact hvolume
    · next hne => exact halike.own first second other (hpair.resolve_right fun hnew => hne hnew.1) hother
  listings := halike.listings.next

/-- A directory is opened on both sides. -/
theorem addListing (entries : List DirEntry) :
    Alike volume files (dirs.add (left.lastId + 1) (right.lastId + 1))
      { left with
        lastId := left.lastId + 1, listings := left.listings.insert (left.lastId + 1) entries }
      { right with
        lastId := right.lastId + 1
        listings := right.listings.insert (right.lastId + 1) entries } where
  volume_eq := halike.volume_eq
  closeFails_eq := halike.closeFails_eq
  listsDots_eq := halike.listsDots_eq
  streams := halike.streams.next
  own := halike.own
  listings := halike.listings.add entries

omit halike in
/-- A changed position leaves an open file in its volume. -/
theorem putStream (halike : Alike volume files dirs left right) {handle other : FileHandle}
    (hpair : files handle.number other.number) {stream : Stream} (hvolume : stream.volume = volume) :
    Alike volume files dirs (left.putStream handle stream) (right.putStream other stream) where
  volume_eq := halike.volume_eq
  closeFails_eq := halike.closeFails_eq
  listsDots_eq := halike.listsDots_eq
  streams := halike.streams.insert hpair stream
  own first second found hfirst hfound := by
    rw [MemoryFs.putStream, getElem?_insert_stream] at hfound
    split at hfound
    · rw [← Option.some.inj hfound]
      exact hvolume
    · exact halike.own first second found hfirst hfound
  listings := halike.listings

theorem putContents {stream : Stream} (hvolume : stream.volume = volume) (contents : Bytes) :
    Alike volume files dirs (left.putContents stream contents)
      (right.putContents stream contents) := by
  subst hvolume
  rw [MemoryFs.putContents, MemoryFs.putContents, halike.volume_eq]
  exact halike.putVolume _

theorem dropStream {handle other : FileHandle} (hpair : files handle.number other.number) :
    Alike volume files dirs { left with streams := left.streams.erase handle.number }
      { right with streams := right.streams.erase other.number } where
  volume_eq := halike.volume_eq
  closeFails_eq := halike.closeFails_eq
  listsDots_eq := halike.listsDots_eq
  streams := halike.streams.erase hpair
  own first second found hfirst hfound := by
    rw [Std.TreeMap.getElem?_erase] at hfound
    split at hfound
    · cases hfound
    · exact halike.own first second found hfirst hfound
  listings := halike.listings

theorem putListing {handle other : DirHandle} (hpair : dirs handle.number other.number)
    (entries : List DirEntry) :
    Alike volume files dirs
      { left with listings := left.listings.insert handle.number entries }
      { right with listings := right.listings.insert other.number entries } where
  volume_eq := halike.volume_eq
  closeFails_eq := halike.closeFails_eq
  listsDots_eq := halike.listsDots_eq
  streams := halike.streams
  own := halike.own
  listings := halike.listings.insert hpair entries

theorem dropListing {handle other : DirHandle} (hpair : dirs handle.number other.number) :
    Alike volume files dirs { left with listings := left.listings.erase handle.number }
      { right with listings := right.listings.erase other.number } where
  volume_eq := halike.volume_eq
  closeFails_eq := halike.closeFails_eq
  listsDots_eq := halike.listsDots_eq
  streams := halike.streams
  own := halike.own
  listings := halike.listings.erase hpair

theorem stream_eq {handle other : FileHandle} (hpair : files handle.number other.number) :
    left.stream handle = right.stream other := by
  unfold MemoryFs.stream
  rw [← halike.streams.same _ _ hpair]
  cases hstream : left.streams[handle.number]? with
  | none => rfl
  | some stream =>
      obtain rfl := halike.own _ _ stream hpair hstream
      dsimp only
      rw [halike.volume_eq]

end Alike

/-! ## Requests -/

section Requests

variable {files dirs : Pairing} {left right : MemoryFs} {mount : MountPoint}
  (halike : Alike mount.data.value files dirs left right) (info : Except StorageError BlockInfo)

include halike

/-- A request about a path that opens nothing is answered alike. -/
theorem Alike.onPath {request : PathRequest} (hdir : request ≠ .openDir)
    (hfile : ∀ options, request ≠ .openFile options) (path : String) :
    SameAnswer (Alike mount.data.value files dirs)
      ((serve info mount (.onPath request path)).outcome left)
      ((serve info mount (.onPath request path)).outcome right) := by
  have hnoted (call : String) := halike.note call call
  have hvolume (call : String) := (hnoted call).volume_eq
  apply Action.Agree.outcome
  cases request with
  | openFile options => exact absurd rfl (hfile options)
  | openDir => exact absurd rfl hdir
  | makeDir mode =>
      dsimp only [serve, makeDir]
      rw [hvolume]
      cases ((right.note s!"mkdir {path}").volume mount.data.value).holds path with
      | true => exact ⟨rfl, hnoted _⟩
      | false => exact ⟨rfl, (hnoted _).putVolume _⟩
  | setMode mode =>
      dsimp only [serve, setMode]
      rw [halike.volume_eq]
      cases (right.volume mount.data.value).holds path with
      | true => exact ⟨rfl, halike.putVolume _⟩
      | false => exact ⟨rfl, halike⟩
  | unlink =>
      dsimp only [serve, unlink]
      rw [hvolume]
      cases ((right.note s!"unlink {path}").volume mount.data.value).files.contains path with
      | true => exact ⟨rfl, (hnoted _).putVolume _⟩
      | false => exact ⟨rfl, hnoted _⟩
  | removeDir =>
      dsimp only [serve, removeDir]
      rw [hvolume]
      cases ((right.note s!"rmdir {path}").volume mount.data.value).dirs.contains path with
      | true => exact ⟨rfl, (hnoted _).putVolume _⟩
      | false => exact ⟨rfl, hnoted _⟩
  | stat =>
      dsimp only [serve, stat]
      rw [halike.volume_eq]
      cases (right.volume mount.data.value).stat? path with
      | none => exact ⟨rfl, halike⟩
      | some found => exact ⟨rfl, halike⟩
  | statVolume =>
      dsimp only [serve, statVolume]
      cases info with
      | error cause => exact ⟨rfl, halike⟩
      | ok found => exact ⟨rfl, halike⟩

theorem Alike.rename (source target : String) :
    SameAnswer (Alike mount.data.value files dirs)
      ((serve info mount (.rename source target)).outcome left)
      ((serve info mount (.rename source target)).outcome right) := by
  have hnoted := halike.note s!"rename {source} {target}" s!"rename {source} {target}"
  apply Action.Agree.outcome
  dsimp only [serve, MemoryFs.rename]
  rw [hnoted.volume_eq]
  cases ((right.note s!"rename {source} {target}").volume mount.data.value).files[source]? with
  | none => exact ⟨rfl, hnoted⟩
  | some contents => exact ⟨rfl, hnoted.putVolume _⟩

/-- A request about an open file is answered alike. -/
theorem Alike.onFile {handle other : FileHandle} (hpair : files handle.number other.number)
    (request : FileRequest) :
    SameAnswer (Alike mount.data.value files dirs)
      ((serve info mount (.onFile request handle)).outcome left)
      ((serve info mount (.onFile request other)).outcome right) := by
  have hown (stream : Stream) := halike.own _ _ stream hpair
  have hstream := halike.stream_eq hpair
  have hopen := halike.streams.same _ _ hpair
  apply Action.Agree.outcome
  cases request with
  | read length =>
      dsimp only [serve, readFile]
      rw [← hstream]
      cases hfound : left.stream handle with
      | error cause => exact ⟨rfl, halike⟩
      | ok found =>
          have hvolume := hown _ (stream_eq_ok_iff.mp hfound).1
          exact ⟨rfl, halike.putStream hpair hvolume⟩
  | write bytes =>
      dsimp only [serve, writeFile]
      rw [← hstream]
      cases hfound : left.stream handle with
      | error cause => exact ⟨rfl, halike⟩
      | ok found =>
          have hvolume := hown _ (stream_eq_ok_iff.mp hfound).1
          exact ⟨rfl, (halike.putContents hvolume _).putStream hpair hvolume⟩
  | seek position =>
      dsimp only [serve, seekFile]
      rw [← hopen]
      cases hfound : left.streams[handle.number]? with
      | none => exact ⟨rfl, halike⟩
      | some stream =>
          have hvolume := hown stream hfound
          have hfiles : (left.volume stream.volume).files = (right.volume stream.volume).files := by
            rw [hvolume, halike.volume_eq]
          dsimp only
          rw [hfiles]
          split
          · exact ⟨rfl, halike⟩
          · exact ⟨rfl, halike.putStream hpair hvolume⟩
  | tell =>
      dsimp only [serve, tellFile]
      rw [← hopen]
      cases left.streams[handle.number]? with
      | none => exact ⟨rfl, halike⟩
      | some stream => exact ⟨rfl, halike⟩
  | truncate length =>
      dsimp only [serve, truncateFile]
      rw [← hstream]
      cases hfound : left.stream handle with
      | error cause => exact ⟨rfl, halike⟩
      | ok found => exact ⟨rfl, halike.putContents (hown _ (stream_eq_ok_iff.mp hfound).1) _⟩
  | sync =>
      dsimp only [serve, syncFile]
      rw [Std.TreeMap.contains_eq_isSome_getElem?, Std.TreeMap.contains_eq_isSome_getElem?, ← hopen]
      cases left.streams[handle.number]? with
      | none => exact ⟨rfl, halike⟩
      | some stream => exact ⟨rfl, halike⟩
  | close =>
      have hnoted := halike.note "close" "close"
      dsimp only [serve, closeFile]
      rw [Std.TreeMap.contains_eq_isSome_getElem?, Std.TreeMap.contains_eq_isSome_getElem?,
        hnoted.streams.same _ _ hpair]
      cases (right.note "close").streams[other.number]? with
      | none => exact ⟨rfl, hnoted⟩
      | some stream =>
          have hfails := hnoted.closeFails_eq
          rw [Option.isSome_some, if_pos rfl, if_pos rfl]
          by_cases hright : (right.note "close").closeFails = true
          · rw [if_pos (hfails.trans hright), if_pos hright]
            exact ⟨rfl, hnoted.dropStream hpair⟩
          · rw [if_neg (hfails ▸ hright), if_neg hright]
            exact ⟨rfl, hnoted.dropStream hpair⟩

/-- A request about an open directory is answered alike. -/
theorem Alike.onDir {handle other : DirHandle} (hpair : dirs handle.number other.number)
    (request : DirRequest) :
    SameAnswer (Alike mount.data.value files dirs)
      ((serve info mount (.onDir request handle)).outcome left)
      ((serve info mount (.onDir request other)).outcome right) := by
  have hlisted := halike.listings.same _ _ hpair
  apply Action.Agree.outcome
  cases request with
  | next =>
      dsimp only [serve, nextEntry]
      rw [hlisted]
      cases right.listings[other.number]? with
      | none => exact ⟨rfl, halike⟩
      | some entries => exact ⟨rfl, halike.putListing hpair _⟩
  | close =>
      dsimp only [serve, closeDir]
      rw [Std.TreeMap.contains_eq_isSome_getElem?, Std.TreeMap.contains_eq_isSome_getElem?, hlisted]
      cases right.listings[other.number]? with
      | none => exact ⟨rfl, halike⟩
      | some entries => exact ⟨rfl, halike.dropListing hpair⟩

/-- A file is opened alike, under a number of each side. -/
theorem Alike.openFile (path : String) (options : OpenOptions) :
    ∃ more : Pairing, (∀ first second, files first second → more first second) ∧
      Corresponds (fun first second : FileHandle => more first.number second.number)
        ((serve info mount (.onPath (.openFile options) path)).outcome left).1
        ((serve info mount (.onPath (.openFile options) path)).outcome right).1 ∧
      Alike mount.data.value more dirs
        ((serve info mount (.onPath (.openFile options) path)).outcome left).2
        ((serve info mount (.onPath (.openFile options) path)).outcome right).2 := by
  have hnoted := halike.note s!"open {path}" s!"open {path}"
  have hrefusal : left.openRefusal? mount.data.value path options =
      right.openRefusal? mount.data.value path options := by
    rw [openRefusal?, openRefusal?, halike.volume_eq, halike.contents?_eq]
  dsimp only [serve]
  unfold Action.outcome
  rw [openFile_eq, openFile_eq, hrefusal, halike.contents?_eq, halike.volume_eq]
  dsimp only
  cases right.openRefusal? mount.data.value path options with
  | some cause => exact ⟨files, fun _ _ hpair => hpair, .error cause, hnoted⟩
  | none =>
      cases (!(right.contents? mount.data.value path).isSome || options.truncate) with
      | true => exact ⟨_, fun _ _ hpair => .inl hpair, .ok (.inr ⟨rfl, rfl⟩),
          (hnoted.putVolume _).addStream rfl⟩
      | false => exact ⟨_, fun _ _ hpair => .inl hpair, .ok (.inr ⟨rfl, rfl⟩), hnoted.addStream rfl⟩

/-- A directory is opened alike, under a number of each side. -/
theorem Alike.openDir (path : String) :
    ∃ more : Pairing, (∀ first second, dirs first second → more first second) ∧
      Corresponds (fun first second : DirHandle => more first.number second.number)
        ((serve info mount (.onPath .openDir path)).outcome left).1
        ((serve info mount (.onPath .openDir path)).outcome right).1 ∧
      Alike mount.data.value files more
        ((serve info mount (.onPath .openDir path)).outcome left).2
        ((serve info mount (.onPath .openDir path)).outcome right).2 := by
  have hnoted := halike.note s!"opendir {path}" s!"opendir {path}"
  have hdots : (if (left.note s!"opendir {path}").listsDots then Volume.dotEntries else []) =
      if (right.note s!"opendir {path}").listsDots then Volume.dotEntries else [] := by
    rw [hnoted.listsDots_eq]
  unfold Action.outcome
  dsimp only [serve, MemoryFs.openDir]
  rw [hnoted.volume_eq, hdots]
  cases ((right.note s!"opendir {path}").volume mount.data.value).dirs.contains path with
  | true => exact ⟨dirs.add (left.lastId + 1) (right.lastId + 1), fun _ _ hpair => .inl hpair,
      .ok (.inr ⟨rfl, rfl⟩), hnoted.addListing _⟩
  | false => exact ⟨dirs, fun _ _ hpair => hpair, .error _, hnoted⟩

end Requests

/-! ## From another volume -/

section Apart

variable {volume other : Nat} {dirs kept : Nat → Prop} {before after : MemoryFs}

/-- What another volume has under a number stays there. -/
theorem Apart.stream_eq (hapart : Apart volume dirs before after) (hother : other ≠ volume)
    {number : Nat} (hbefore : before.Owned other number) (hafter : after.Owned other number) :
    after.streams[number]? = before.streams[number]? := by
  have hforeign {stream : Stream} (hvolume : stream.volume = other) : stream.volume ≠ volume :=
    hvolume.symm ▸ hother
  cases hstream : before.streams[number]? with
  | some stream =>
      have hvolume := hforeign (hbefore.own stream hstream)
      exact (hapart.streams number stream hvolume).mpr hstream
  | none =>
      cases hnew : after.streams[number]? with
      | none => rfl
      | some stream =>
          have hold := (hapart.streams number stream (hforeign (hafter.own stream hnew))).mp hnew
          cases hstream.symm.trans hold

/-- What is apart from a volume looks the same from another one. -/
theorem Apart.alike (hapart : Apart volume dirs before after) (hother : other ≠ volume)
    (howned : ∀ number, before.Owned other number → after.Owned other number)
    (hkept : ∀ number, kept number → number ≤ before.lastId ∧ ¬dirs number) :
    Alike other (fun first second => first = second ∧ before.Owned other first)
      (fun first second => first = second ∧ kept first) before after where
  volume_eq := (hapart.volumes other hother).symm
  closeFails_eq := hapart.closeFails_eq.symm
  listsDots_eq := hapart.listsDots_eq.symm
  streams := {
    given := by
      rintro number _ ⟨rfl, hnumber⟩
      exact ⟨hnumber.given, Nat.le_trans hnumber.given hapart.lastId_le⟩
    unique := by
      rintro first _ second _ ⟨rfl, -⟩ ⟨rfl, -⟩
      rfl
    same := by
      rintro number _ ⟨rfl, hnumber⟩
      exact (hapart.stream_eq hother hnumber (howned number hnumber)).symm }
  own number _ stream hpair hstream := hpair.2.own stream hstream
  listings := {
    given := by
      rintro number _ ⟨rfl, hnumber⟩
      have hgiven := (hkept number hnumber).1
      exact ⟨hgiven, Nat.le_trans hgiven hapart.lastId_le⟩
    unique := by
      rintro first _ second _ ⟨rfl, -⟩ ⟨rfl, -⟩
      rfl
    same := by
      rintro number _ ⟨rfl, hnumber⟩
      obtain ⟨hgiven, hforeign⟩ := hkept number hnumber
      exact (hapart.listings number hgiven hforeign).symm }

end Apart

end MemoryFs

end StorageStack

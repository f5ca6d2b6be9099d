import StorageStack.Proofs.Memory.Effects

/-! # Consistency of the memory filesystem

The storage layer asks about absolute paths of volumes that were mounted. As long as nothing else is
asked, all paths in the volumes are absolute, a number that was not given out names nothing, and
what is kept as permissions does not reach into the kind of a file.
-/

namespace StorageStack

/-- A request as the storage layer sends it: about absolute paths, and about a volume whose number
has been given out. -/
def Request.Proper (mount : MountPoint) (lastId : Nat) : Request → Prop
  | .onPath _ path => IsAbsolute path ∧ mount.data.value ≤ lastId
  | .rename source target => (IsAbsolute source ∧ IsAbsolute target) ∧ mount.data.value ≤ lastId
  | _ => True

theorem Request.Proper.mono {mount : MountPoint} {request : Request} {earlier later : Nat}
    (hproper : request.Proper mount earlier) (hle : earlier ≤ later) :
    request.Proper mount later := by
  cases request with
  | onPath asked path => exact ⟨hproper.1, Nat.le_trans hproper.2 hle⟩
  | rename source target => exact ⟨hproper.1, Nat.le_trans hproper.2 hle⟩
  | _ => trivial

section Tables

variable {α β : Type} {order : α → α → Ordering} [Std.TransCmp order] [Std.LawfulEqCmp order]
  {added key : α}

theorem contains_insert_iff {table : Std.TreeMap α β order} {entry : β} :
    (table.insert added entry).contains key = true ↔ added = key ∨ table.contains key = true := by
  rw [Std.TreeMap.contains_insert, Bool.or_eq_true_iff, beq_iff_eq,
    Std.LawfulEqCmp.compare_eq_iff_eq]

theorem contains_insert_set_iff {set : Std.TreeSet α order} :
    (set.insert added).contains key = true ↔ added = key ∨ set.contains key = true := by
  rw [Std.TreeSet.contains_insert, Bool.or_eq_true_iff, beq_iff_eq,
    Std.LawfulEqCmp.compare_eq_iff_eq]

end Tables

/-- What holds of a volume whose paths came from the storage layer. -/
structure Volume.Consistent (volume : Volume) : Prop where
  files : ∀ path, volume.files.contains path = true → IsAbsolute path
  dirs : ∀ path, volume.dirs.contains path = true → IsAbsolute path
  modes : ∀ (path : String) mode, volume.modes[path]? = some mode → mode &&& FileKind.modeMask = 0

namespace Volume

variable {volume after : Volume}

theorem consistent_empty : Consistent {} := by
  constructor <;> intro path <;> simp

theorem permissionMask_and_modeMask : permissionMask &&& FileKind.modeMask = 0 := rfl

theorem Consistent.withRoot (hvolume : volume.Consistent) : volume.withRoot.Consistent where
  files := hvolume.files
  dirs path hpath := by
    rcases contains_insert_set_iff.mp hpath with rfl | hold
    · decide
    · exact hvolume.dirs path hold
  modes := hvolume.modes

theorem Consistent.putFile (hvolume : volume.Consistent) {path : String}
    (habsolute : IsAbsolute path) (contents : Bytes) : (volume.putFile path contents).Consistent where
  files other hother := by
    rcases contains_insert_iff.mp hother with rfl | hold
    · exact habsolute
    · exact hvolume.files other hold
  dirs := hvolume.dirs
  modes := hvolume.modes

theorem Consistent.dropFile (hvolume : volume.Consistent) (path : String) :
    (volume.dropFile path).Consistent where
  files other hother := by
    rw [Volume.dropFile, Std.TreeMap.contains_erase] at hother
    exact hvolume.files other (Bool.and_eq_true_iff.mp hother).2
  dirs := hvolume.dirs
  modes := hvolume.modes

theorem Consistent.putMode (hvolume : volume.Consistent) (path : String) (mode : UInt32) :
    (volume.putMode path mode).Consistent where
  files := hvolume.files
  dirs := hvolume.dirs
  modes other kept hkept := by
    rw [Volume.putMode, Std.TreeMap.getElem?_insert] at hkept
    split at hkept
    · obtain rfl := Option.some.inj hkept
      rw [UInt32.and_assoc, permissionMask_and_modeMask, UInt32.and_zero]
    · exact hvolume.modes other kept hkept

theorem Consistent.putDir (hvolume : volume.Consistent) {path : String}
    (habsolute : IsAbsolute path) (mode : UInt32) : (volume.putDir path mode).Consistent where
  files := hvolume.files
  dirs other hother := by
    rcases contains_insert_set_iff.mp hother with rfl | hold
    · exact habsolute
    · exact hvolume.dirs other hold
  modes := (hvolume.putMode path mode).modes

theorem Consistent.dropDir (hvolume : volume.Consistent) (path : String) :
    (volume.dropDir path).Consistent where
  files := hvolume.files
  dirs other hother := by
    rw [Volume.dropDir, Std.TreeSet.contains_erase] at hother
    exact hvolume.dirs other (Bool.and_eq_true_iff.mp hother).2
  modes := hvolume.modes

/-- An edit about absolute paths leaves a consistent volume. -/
theorem Edit.consistent {mount : MountPoint} {lastId : Nat} {request : Request}
    (hedit : volume.Edit request after) (hproper : request.Proper mount lastId)
    (hvolume : volume.Consistent) : after.Consistent := by
  cases hedit with
  | makeDir _ => exact hvolume.putDir hproper.1 _
  | setMode _ => exact hvolume.putMode _ _
  | unlink => exact hvolume.dropFile _
  | removeDir => exact hvolume.dropDir _
  | rename _ => exact (hvolume.dropFile _).putFile hproper.1.2 _

end Volume

namespace MemoryFs

theorem volume_putVolume (fs : MemoryFs) (id : Nat) (volume : Volume) (other : Nat) :
    (fs.putVolume id volume).volume other = if id = other then volume else fs.volume other := by
  unfold putVolume MemoryFs.volume
  dsimp only
  rw [Std.TreeMap.getD_insert]
  by_cases hid : id = other <;> simp [hid]

/-- What holds of a memory filesystem that only a storage layer uses. -/
structure Consistent (fs : MemoryFs) : Prop where
  volumes : ∀ id, (fs.volume id).Consistent
  unused : ∀ id, fs.lastId < id → fs.volume id = {}
  streams : ∀ (number : Nat) stream, fs.streams[number]? = some stream →
    number ≤ fs.lastId ∧ stream.volume ≤ fs.lastId
  listings : ∀ number, fs.listings.contains number = true → number ≤ fs.lastId

theorem consistent_empty : Consistent {} where
  volumes id := by
    rw [MemoryFs.volume, Std.TreeMap.getD_emptyc]
    exact Volume.consistent_empty
  unused id _ := by rw [MemoryFs.volume, Std.TreeMap.getD_emptyc]
  streams number stream hstream := by simp at hstream
  listings number hlisting := by simp at hlisting

variable {mount : MountPoint} {request : Request} {fs after : MemoryFs}

theorem Effect.lastId_le (heffect : Effect mount request fs after) : fs.lastId ≤ after.lastId := by
  cases heffect <;> first | exact Nat.le_refl _ | exact Nat.le_succ _

theorem Effects.lastId_le (heffects : Effects mount request fs after) :
    fs.lastId ≤ after.lastId := by
  induction heffects with
  | refl => exact Nat.le_refl _
  | tail _ heffect ih => exact Nat.le_trans ih heffect.lastId_le

/-- A listing that is open stays as it is until a request is about it. -/
theorem Effect.listing_eq (heffect : Effect mount request fs after) {handle : DirHandle}
    (hother : ∀ asked, request ≠ .onDir asked handle) (hgiven : handle.number ≤ fs.lastId) :
    after.listings[handle.number]? = fs.listings[handle.number]? := by
  cases heffect with
  | noted | rooted | edited | emptied | opened | moved | written | closed => rfl
  | listed entries _ =>
      have hnew : fs.lastId + 1 ≠ handle.number := Nat.ne_of_gt (Nat.lt_succ_of_le hgiven)
      rw [Std.TreeMap.getElem?_insert, if_neg (by simpa using hnew)]
  | @advanced other _ hrequest _ =>
      have hne : other.number ≠ handle.number := fun heq =>
        hother .next (hrequest.trans (congrArg (Request.onDir .next ∘ DirHandle.mk) heq))
      rw [Std.TreeMap.getElem?_insert, if_neg (by simpa using hne)]
  | @dropped other hrequest =>
      have hne : other.number ≠ handle.number := fun heq =>
        hother .close (hrequest.trans (congrArg (Request.onDir .close ∘ DirHandle.mk) heq))
      rw [Std.TreeMap.getElem?_erase, if_neg (by simpa using hne)]

/-- A consistent volume is put in the place of one whose number has been given out. -/
theorem Consistent.putVolume (hfs : fs.Consistent) {id : Nat} {volume : Volume}
    (hid : id ≤ fs.lastId) (hvolume : volume.Consistent) : (fs.putVolume id volume).Consistent where
  volumes other := by
    rw [volume_putVolume]
    split
    · exact hvolume
    · exact hfs.volumes other
  unused other hother := by
    have hne : id ≠ other := Nat.ne_of_lt (Nat.lt_of_le_of_lt hid hother)
    rw [volume_putVolume, if_neg hne]
    exact hfs.unused other hother
  streams := hfs.streams
  listings := hfs.listings

/-- Giving out the next number for something of a volume that has been made. -/
theorem Consistent.next (hfs : fs.Consistent) {streams : Std.TreeMap Nat Stream}
    {listings : Std.TreeMap Nat (List DirEntry)}
    (hstreams : ∀ (number : Nat) stream, streams[number]? = some stream →
      number ≤ fs.lastId + 1 ∧ stream.volume ≤ fs.lastId)
    (hlistings : ∀ number, listings.contains number = true → number ≤ fs.lastId + 1) :
    Consistent { fs with lastId := fs.lastId + 1, streams, listings } where
  volumes := hfs.volumes
  unused id hid := hfs.unused id (Nat.lt_of_succ_lt hid)
  streams number stream hstream :=
    ⟨(hstreams number stream hstream).1, Nat.le_succ_of_le (hstreams number stream hstream).2⟩
  listings := hlistings

/-- An effect of a proper request leaves a consistent memory filesystem. -/
theorem Effect.consistent (heffect : Effect mount request fs after)
    (hproper : request.Proper mount fs.lastId) (hfs : fs.Consistent) : after.Consistent := by
  cases heffect with
  | noted calls mounted => exact ⟨hfs.volumes, hfs.unused, hfs.streams, hfs.listings⟩
  | rooted _ =>
      have hgiven := hfs.next
        (fun number stream hstream =>
          ⟨Nat.le_succ_of_le (hfs.streams number stream hstream).1,
            (hfs.streams number stream hstream).2⟩)
        fun number hlisting => Nat.le_succ_of_le (hfs.listings number hlisting)
      exact hgiven.putVolume (Nat.le_refl _) (hfs.volumes (fs.lastId + 1)).withRoot
  | edited hedit =>
      have hbound : mount.data.value ≤ fs.lastId := by cases hedit <;> exact hproper.2
      exact hfs.putVolume hbound (hedit.consistent hproper (hfs.volumes _))
  | emptied hrequest _ =>
      subst hrequest
      exact hfs.putVolume hproper.2 ((hfs.volumes _).putFile hproper.1 [])
  | opened hrequest =>
      subst hrequest
      refine hfs.next (fun number stream hstream => ?_) fun number hlisting =>
        Nat.le_succ_of_le (hfs.listings number hlisting)
      rw [getElem?_insert_stream] at hstream
      split at hstream
      · next hnumber =>
          obtain rfl := Option.some.inj hstream
          exact ⟨Nat.le_of_eq hnumber, hproper.2⟩
      · obtain ⟨hnumber, hvolume⟩ := hfs.streams number stream hstream
        exact ⟨Nat.le_succ_of_le hnumber, hvolume⟩
  | @moved _ handle stream position _ hopen =>
      refine ⟨hfs.volumes, hfs.unused, fun number other hother => ?_, hfs.listings⟩
      rw [putStream, getElem?_insert_stream] at hother
      split at hother
      · next hnumber =>
          obtain rfl := Option.some.inj hother
          rw [hnumber]
          exact hfs.streams _ stream hopen
      · exact hfs.streams number other hother
  | @written _ _ stream _ contents _ hstream =>
      obtain ⟨hopen, hfile⟩ := stream_eq_ok_iff.mp hstream
      have hpath : (fs.volume stream.volume).files.contains stream.path = true := by
        rw [contains_files, hfile, Option.isSome_some]
      exact hfs.putVolume (hfs.streams _ stream hopen).2
        ((hfs.volumes _).putFile ((hfs.volumes _).files _ hpath) contents)
  | closed _ =>
      refine ⟨hfs.volumes, hfs.unused, fun number stream hstream => ?_, hfs.listings⟩
      rw [Std.TreeMap.getElem?_erase] at hstream
      split at hstream
      · cases hstream
      · exact hfs.streams number stream hstream
  | listed entries _ =>
      refine hfs.next (fun number stream hstream => ?_) fun number hlisting => ?_
      · obtain ⟨hnumber, hvolume⟩ := hfs.streams number stream hstream
        exact ⟨Nat.le_succ_of_le hnumber, hvolume⟩
      · rcases contains_insert_iff.mp hlisting with hnew | hold
        · exact Nat.le_of_eq hnew.symm
        · exact Nat.le_succ_of_le (hfs.listings number hold)
  | @advanced handle entries _ hlisted =>
      refine ⟨hfs.volumes, hfs.unused, hfs.streams, fun number hlisting => ?_⟩
      rcases contains_insert_iff.mp hlisting with rfl | hold
      · refine hfs.listings _ ?_
        rw [Std.TreeMap.contains_eq_isSome_getElem?, hlisted, Option.isSome_some]
      · exact hfs.listings number hold
  | dropped _ =>
      refine ⟨hfs.volumes, hfs.unused, hfs.streams, fun number hlisting => ?_⟩
      rw [Std.TreeMap.contains_erase] at hlisting
      exact hfs.listings number (Bool.and_eq_true_iff.mp hlisting).2

theorem Effects.consistent (heffects : Effects mount request fs after)
    (hproper : request.Proper mount fs.lastId) (hfs : fs.Consistent) : after.Consistent := by
  induction heffects with
  | refl => exact hfs
  | tail hprior heffect ih => exact heffect.consistent (hproper.mono (Effects.lastId_le hprior)) ih

/-! ## Numbers and calls -/

/-- No more numbers have been given out than calls have come in. -/
def Accounted (fs : MemoryFs) : Prop := fs.lastId ≤ fs.calls.length

/-- A call that is noted is good for one more number. -/
theorem Accounted.note {fs : MemoryFs} (hfs : fs.Accounted) (call : String) :
    fs.lastId + 1 ≤ (fs.note call).calls.length := by
  rw [MemoryFs.note, List.length_append]
  exact Nat.succ_le_succ hfs

theorem Accounted.serve {fs : MemoryFs} (hfs : fs.Accounted) (info : Except StorageError BlockInfo)
    (mount : MountPoint) (request : Request) :
    ((serve info mount request).outcome fs).2.Accounted := by
  -- A number is given out only behind a call that is noted, and every call notes itself once.
  have hnumber (call : String) := hfs.note call
  have hnone (call : String) := Nat.le_of_succ_le (hfs.note call)
  apply Action.Leaves.outcome
  cases request with
  | mount =>
      dsimp only [MemoryFs.serve, mountVolume]
      split
      · exact hnone _
      · split
        · exact hnone _
        · exact hnumber _
  | unmount =>
      dsimp only [MemoryFs.serve, unmountVolume]
      split <;> exact hnone _
  | rename source target =>
      dsimp only [MemoryFs.serve, rename]
      split <;> exact hnone _
  | onPath request path =>
      cases request with
      | openFile options =>
          dsimp only [MemoryFs.serve]
          rw [openFile_eq]
          cases fs.openRefusal? mount.data.value path options with
          | some cause => exact hnone _
          | none =>
              dsimp only
              split <;> exact hnumber _
      | openDir =>
          dsimp only [MemoryFs.serve, openDir]
          split
          · exact hnumber _
          · exact hnone _
      | makeDir | unlink | removeDir =>
          dsimp only [MemoryFs.serve, makeDir, unlink, removeDir]
          split <;> exact hnone _
      | setMode | stat | statVolume =>
          dsimp only [MemoryFs.serve, setMode, stat, statVolume]
          split <;> exact hfs
  | onFile request handle =>
      cases request with
      | close =>
          dsimp only [MemoryFs.serve, closeFile]
          split
          · split <;> exact hnone _
          · exact hnone _
      | seek =>
          dsimp only [MemoryFs.serve, seekFile]
          split
          · exact hfs
          · split <;> exact hfs
      | read | write | tell | truncate | sync =>
          dsimp only [MemoryFs.serve, readFile, writeFile, tellFile, truncateFile, syncFile]
          split <;> exact hfs
  | onDir request handle =>
      cases request with
      | next | close =>
          dsimp only [MemoryFs.serve, nextEntry, closeDir]
          split <;> exact hfs

end MemoryFs

end StorageStack

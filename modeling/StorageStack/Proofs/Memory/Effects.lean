import Mathlib.Logic.Relation
import StorageStack.Proofs.Memory.Numbering

/-! # Effects on the memory filesystem

Each request comes to a few small effects, one after the other, and there are only eleven kinds of
them. What a request keeps is proved kind by kind.
-/

namespace StorageStack

/-- A change of one volume that a request about one of its paths may make. -/
inductive Volume.Edit (volume : Volume) : Request → Volume → Prop
  | makeDir {mode : UInt32} {path : String} (hfree : volume.holds path = false) :
      Edit volume (.onPath (.makeDir mode) path) (volume.putDir path mode)
  | setMode {mode : UInt32} {path : String} (hheld : volume.holds path = true) :
      Edit volume (.onPath (.setMode mode) path) (volume.putMode path mode)
  | unlink {path : String} : Edit volume (.onPath .unlink path) (volume.dropFile path)
  | removeDir {path : String} : Edit volume (.onPath .removeDir path) (volume.dropDir path)
  -- Whether a directory stands at the target is not asked.
  | rename {source target : String} {contents : Bytes}
      (hsource : volume.files[source]? = some contents) :
      Edit volume (.rename source target) ((volume.dropFile source).putFile target contents)

namespace MemoryFs

/-- One effect of a request about a mount. -/
inductive Effect (mount : MountPoint) (request : Request) (fs : MemoryFs) : MemoryFs → Prop
  | noted (calls : List String) (mounted : Std.TreeSet Nat) :
      Effect mount request fs { fs with calls, mounted }
  | rooted (hrequest : request = .mount) :
      Effect mount request fs
        { fs.putVolume (fs.lastId + 1) (fs.volume (fs.lastId + 1)).withRoot with
          lastId := fs.lastId + 1 }
  | edited {volume : Volume} (hedit : (fs.volume mount.data.value).Edit request volume) :
      Effect mount request fs (fs.putVolume mount.data.value volume)
  | emptied {options : OpenOptions} {path : String}
      (hrequest : request = .onPath (.openFile options) path)
      (hdir : (fs.volume mount.data.value).dirs.contains path = false) :
      Effect mount request fs
        (fs.putVolume mount.data.value ((fs.volume mount.data.value).putFile path []))
  | opened {options : OpenOptions} {path : String}
      (hrequest : request = .onPath (.openFile options) path) :
      Effect mount request fs
        { fs with
          lastId := fs.lastId + 1
          streams := fs.streams.insert (fs.lastId + 1)
            { volume := mount.data.value, path, appends := options.append } }
  | moved {asked : FileRequest} {handle : FileHandle} {stream : Stream} (position : Nat)
      (hrequest : request = .onFile asked handle)
      (hopen : fs.streams[handle.number]? = some stream) :
      Effect mount request fs (fs.putStream handle { stream with position })
  | written {asked : FileRequest} {handle : FileHandle} {stream : Stream} {earlier : Bytes}
      (contents : Bytes) (hrequest : request = .onFile asked handle)
      (hstream : fs.stream handle = .ok (stream, earlier)) :
      Effect mount request fs (fs.putContents stream contents)
  | closed {handle : FileHandle} (hrequest : request = .onFile .close handle) :
      Effect mount request fs { fs with streams := fs.streams.erase handle.number }
  | listed {path : String} (entries : List DirEntry) (hrequest : request = .onPath .openDir path) :
      Effect mount request fs
        { fs with
          lastId := fs.lastId + 1
          listings := fs.listings.insert (fs.lastId + 1) entries }
  | advanced {handle : DirHandle} {entries : List DirEntry}
      (hrequest : request = .onDir .next handle)
      (hlisted : fs.listings[handle.number]? = some entries) :
      Effect mount request fs
        { fs with listings := fs.listings.insert handle.number entries.tail }
  | dropped {handle : DirHandle} (hrequest : request = .onDir .close handle) :
      Effect mount request fs { fs with listings := fs.listings.erase handle.number }

/-- What a request may come to. -/
abbrev Effects (mount : MountPoint) (request : Request) : MemoryFs → MemoryFs → Prop :=
  Relation.ReflTransGen (Effect mount request)

theorem effects_note (mount : MountPoint) (request : Request) (fs : MemoryFs) (call : String) :
    Effects mount request fs (fs.note call) :=
  .single (.noted (fs.calls ++ [call]) fs.mounted)

/-- A directory that exists is opened under the next number, on a listing of its own: its children,
behind the entries for itself and its parent if these are given. -/
theorem outcome_openDir (fs : MemoryFs) (id : Nat) (path : String) :
    (openDir id path).outcome fs =
      if (fs.volume id).dirs.contains path then
        (.ok ⟨fs.lastId + 1⟩, { fs.note s!"opendir {path}" with
          lastId := fs.lastId + 1
          listings := fs.listings.insert (fs.lastId + 1)
            ((if fs.listsDots then Volume.dotEntries else []) ++ (fs.volume id).children path) })
      else (.error .notFound, fs.note s!"opendir {path}") := by
  have hvolume : (fs.note s!"opendir {path}").volume id = fs.volume id := rfl
  unfold Action.outcome openDir
  dsimp only
  rw [hvolume]
  cases (fs.volume id).dirs.contains path <;> rfl

section Serve

variable (mount : MountPoint) (fs : MemoryFs)

theorem effects_mountVolume (info : Except StorageError BlockInfo) (path : String) :
    Effects mount .mount fs ((mountVolume info path).outcome fs).2 := by
  have hnoted := effects_note mount .mount fs s!"mount {path}"
  apply Action.Leaves.outcome
  dsimp only [mountVolume]
  split
  · exact hnoted
  · split
    · exact hnoted
    · exact (hnoted.tail (.rooted rfl)).tail (.noted _ _)

theorem effects_unmountVolume (id : Nat) (path : String) :
    Effects mount .unmount fs ((unmountVolume id path).outcome fs).2 := by
  have hnoted := effects_note mount .unmount fs s!"unmount {path}"
  apply Action.Leaves.outcome
  dsimp only [unmountVolume]
  split
  · exact hnoted
  · exact hnoted.tail (.noted _ _)

theorem effects_openFile (path : String) (options : OpenOptions) :
    Effects mount (.onPath (.openFile options) path) fs
      ((openFile mount.data.value path options).outcome fs).2 := by
  have hnoted := effects_note mount (.onPath (.openFile options) path) fs s!"open {path}"
  apply Action.Leaves.outcome
  rw [openFile_eq]
  cases hrefusal : fs.openRefusal? mount.data.value path options with
  | some cause => exact hnoted
  | none =>
      have hdir := no_dir_of_openRefusal?_eq_none hrefusal
      dsimp only
      cases (!(fs.contents? mount.data.value path).isSome || options.truncate) with
      | false => exact hnoted.tail (.opened rfl)
      | true => exact (hnoted.tail (.emptied rfl hdir)).tail (.opened rfl)

theorem effects_onFile (info : Except StorageError BlockInfo) (request : FileRequest)
    (handle : FileHandle) :
    Effects mount (.onFile request handle) fs
      ((serve info mount (.onFile request handle)).outcome fs).2 := by
  apply Action.Leaves.outcome
  cases request with
  | read length =>
      dsimp only [serve, readFile]
      split
      · exact .refl
      · next hstream => exact .single (.moved _ rfl (stream_eq_ok_iff.mp hstream).1)
  | write bytes =>
      dsimp only [serve, writeFile]
      split
      · exact .refl
      · next hstream =>
          exact (Relation.ReflTransGen.single (.written _ rfl hstream)).tail
            (.moved _ rfl (stream_eq_ok_iff.mp hstream).1)
  | seek position =>
      dsimp only [serve, seekFile]
      split
      · exact .refl
      · next hopen =>
          split
          · exact .refl
          · exact .single (.moved _ rfl hopen)
  | tell =>
      dsimp only [serve, tellFile]
      split <;> exact .refl
  | truncate length =>
      dsimp only [serve, truncateFile]
      split
      · exact .refl
      · next hstream => exact .single (.written _ rfl hstream)
  | sync =>
      dsimp only [serve, syncFile]
      split <;> exact .refl
  | close =>
      have hnoted := effects_note mount (.onFile .close handle) fs "close"
      dsimp only [serve, closeFile]
      split
      · split <;> exact hnoted.tail (.closed rfl)
      · exact hnoted

theorem effects_onDir (info : Except StorageError BlockInfo) (request : DirRequest)
    (handle : DirHandle) :
    Effects mount (.onDir request handle) fs
      ((serve info mount (.onDir request handle)).outcome fs).2 := by
  apply Action.Leaves.outcome
  cases request with
  | next =>
      dsimp only [serve, nextEntry]
      split
      · exact .refl
      · next hlisted => exact .single (.advanced rfl hlisted)
  | close =>
      dsimp only [serve, closeDir]
      split
      · exact .single (.dropped rfl)
      · exact .refl

theorem effects_onPath (info : Except StorageError BlockInfo) (request : PathRequest)
    (path : String) :
    Effects mount (.onPath request path) fs
      ((serve info mount (.onPath request path)).outcome fs).2 := by
  have hnoted := effects_note mount (.onPath request path) fs
  cases request with
  | openFile options => exact effects_openFile mount fs path options
  | openDir =>
      apply Action.Leaves.outcome
      dsimp only [serve, openDir]
      split
      · exact (hnoted _).tail (.listed _ rfl)
      · exact hnoted _
  | makeDir mode =>
      apply Action.Leaves.outcome
      dsimp only [serve, makeDir]
      split
      · exact hnoted _
      · next hfree => exact (hnoted _).tail (.edited (.makeDir (Bool.eq_false_iff.mpr hfree)))
  | setMode mode =>
      apply Action.Leaves.outcome
      dsimp only [serve, setMode]
      split
      · next hheld => exact .single (.edited (.setMode hheld))
      · exact .refl
  | unlink =>
      apply Action.Leaves.outcome
      dsimp only [serve, unlink]
      split
      · exact (hnoted _).tail (.edited .unlink)
      · exact hnoted _
  | removeDir =>
      apply Action.Leaves.outcome
      dsimp only [serve, removeDir]
      split
      · exact (hnoted _).tail (.edited .removeDir)
      · exact hnoted _
  | stat =>
      apply Action.Leaves.outcome
      dsimp only [serve, stat]
      split <;> exact .refl
  | statVolume =>
      apply Action.Leaves.outcome
      dsimp only [serve, statVolume]
      split <;> exact .refl

/-- Whatever is asked, and whatever is answered, what is left comes from effects of the request. -/
theorem effects_serve (info : Except StorageError BlockInfo) (request : Request) :
    Effects mount request fs ((serve info mount request).outcome fs).2 := by
  cases request with
  | mount => exact effects_mountVolume mount fs info mount.path.text
  | unmount => exact effects_unmountVolume mount fs mount.data.value mount.path.text
  | onPath request path => exact effects_onPath mount fs info request path
  | onFile request handle => exact effects_onFile mount fs info request handle
  | onDir request handle => exact effects_onDir mount fs info request handle
  | rename source target =>
      have hnoted := effects_note mount (.rename source target) fs s!"rename {source} {target}"
      apply Action.Leaves.outcome
      dsimp only [serve, rename]
      split
      · exact hnoted
      · next hsource => exact hnoted.tail (.edited (.rename hsource))

end Serve

end MemoryFs

end StorageStack

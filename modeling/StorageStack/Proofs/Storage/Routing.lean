import StorageStack.Proofs.Storage.Calls
import StorageStack.Proofs.Storage.Resolution

/-! # Routing of requests about paths

A request about a path is refused before any backend hears of it, or it goes to one backend:
the one registered for the type of the mount that the path belongs to.
-/

namespace StorageStack.Storage

variable {δ ω : Type}

/-- Every request about the path fails with the cause, without a call and without effect. The
path `/` can be opened as a directory all the same. -/
structure Refused (storage : Storage δ ω) (path : String) (cause : StorageError) : Prop where
  onPath : ∀ request,
    Performs (fun _ => Storage.onPath request path) storage [] (.error cause, storage)
  openFile : ∀ options,
    Performs (fun _ => Storage.openFile path options) storage [] (.error cause, storage)
  openDir : path ≠ "/" →
    Performs (fun _ => Storage.openDir path) storage [] (.error cause, storage)

/-- Every request about the path is the same request to the backend of the mount, about the
name that the path has within the mount. The answer is handed on, a handle together with the
identity of the mount. -/
structure Routed (storage : Storage δ ω) (path : String) (mount : MountPoint)
    (backend : Backend δ ω) : Prop where
  named : mount.path.NamesWithin path (mount.path.relative path)
  onPath : ∀ request,
    let asked := ask backend mount (.onPath request (mount.path.relative path)) storage
    Performs (fun _ => Storage.onPath request path) storage
      [.serve mount.fsType mount (.onPath request (mount.path.relative path)) asked.1] asked
  openFile : ∀ options,
    let asked := ask backend mount (.onPath (.openFile options) (mount.path.relative path)) storage
    Performs (fun _ => Storage.openFile path options) storage
      [.serve mount.fsType mount (.onPath (.openFile options) (mount.path.relative path)) asked.1]
      (asked.1.map fun handle => ⟨handle, some mount.id⟩, asked.2)
  openDir : path ≠ "/" →
    let asked := ask backend mount (.onPath .openDir (mount.path.relative path)) storage
    Performs (fun _ => Storage.openDir path) storage
      [.serve mount.fsType mount (.onPath .openDir (mount.path.relative path)) asked.1]
      (asked.1.map fun handle => .backend handle mount.id, asked.2)

section Path

variable {storage : Storage δ ω} {path : String}

theorem outcome_onPath_of_unresolved {cause : StorageError}
    (hmount : storage.resolve path = .error cause) (request : PathRequest) :
    (onPath request path).outcome storage = (.error cause, storage) := by
  unfold Action.outcome onPath
  rw [hmount]

/-- A path without a mount reaches no backend. -/
theorem refused_of_resolve {cause : StorageError} (hmount : storage.resolve path = .error cause) :
    Refused storage path cause where
  onPath request := by
    refine ⟨outcome_onPath_of_unresolved hmount request, fun earlier => ?_⟩
    rw [outcome_onPath_of_unresolved ((resolve_logged storage earlier path).trans hmount),
      List.append_nil]
  openFile options := by
    refine ⟨outcome_openFile_of_unresolved hmount options, fun earlier => ?_⟩
    rw [outcome_openFile_of_unresolved ((resolve_logged storage earlier path).trans hmount),
      List.append_nil]
  openDir hroot := by
    refine ⟨outcome_openDir_of_unresolved hroot hmount, fun earlier => ?_⟩
    rw [outcome_openDir_of_unresolved hroot ((resolve_logged storage earlier path).trans hmount),
      List.append_nil]

/-- A path with a mount reaches the backend of the mount, once. -/
theorem routed_of_resolve {mount : MountPoint} {backend : Backend δ ω}
    (hmount : storage.resolve path = .ok mount)
    (hbackend : storage.backend? mount.fsType = some backend) : Routed storage path mount backend where
  named := MountPath.namesWithin_relative
    (MountPoint.of_longestCover?_eq_some (resolve_eq_ok_iff.mp hmount).2).2.1
  onPath request := by
    obtain ⟨hplain, hlogged⟩ :=
      performs_serve hbackend (.onPath request (mount.path.relative path))
    refine ⟨(outcome_onPath_of_resolve hmount request).trans hplain, fun earlier => ?_⟩
    rw [outcome_onPath_of_resolve ((resolve_logged storage earlier path).trans hmount), hlogged]
  openFile options := by
    obtain ⟨hplain, hlogged⟩ :=
      performs_serve hbackend (.onPath (.openFile options) (mount.path.relative path))
    refine ⟨?_, fun earlier => ?_⟩
    · rw [outcome_openFile_of_resolve hmount, hplain]
    · rw [outcome_openFile_of_resolve ((resolve_logged storage earlier path).trans hmount), hlogged]
  openDir hroot := by
    obtain ⟨hplain, hlogged⟩ := performs_serve hbackend (.onPath .openDir (mount.path.relative path))
    refine ⟨?_, fun earlier => ?_⟩
    · rw [outcome_openDir_of_resolve hroot hmount, hplain]
    · rw [outcome_openDir_of_resolve hroot ((resolve_logged storage earlier path).trans hmount),
        hlogged]

end Path

variable [DiskDriver δ]

/-- After every run, a request about a relative path or about a path outside all mounts calls
no backend, and any other is one call to the backend that is registered for the type of the
mount that the path resolves to. The tables stay as they are. -/
theorem path_requests_after (blocks : BlockDevices δ) (host : ω) (run : List (Operation δ ω))
    (path : String) :
    let storage := (ofBlocks blocks host).after run
    (¬ IsAbsolute path → Refused storage path .invalidArgument) ∧
    (IsAbsolute path → (∀ mount ∈ storage.mounts, mount.path.covers path = false) →
      Refused storage path .notFound) ∧
    (IsAbsolute path → (∃ mount ∈ storage.mounts, mount.path.covers path = true) →
      ∃ mount backend, storage.resolve path = .ok mount ∧
        storage.backend? mount.fsType = some backend ∧ Routed storage path mount backend) ∧
    (∀ request, SameTables storage ((onPath request path).outcome storage).2) ∧
    (∀ options, SameTables storage ((openFile path options).outcome storage).2) ∧
    SameTables storage ((openDir path).outcome storage).2 := by
  intro storage
  have hsound : storage.Sound := sound_after blocks host run
  refine ⟨fun hrelative => ?_, fun habsolute huncovered => ?_, fun habsolute hcovered => ?_,
    fun request => outcome_onPath request path storage, sameTables_openFile storage path,
    sameTables_openDir storage path⟩
  · exact refused_of_resolve (if_neg hrelative)
  · exact refused_of_resolve ((resolve_eq_notFound_iff habsolute).mpr huncovered)
  · obtain ⟨mount, hmount⟩ := exists_resolve habsolute hcovered
    obtain ⟨backend, hbackend⟩ := hsound.backend?_isSome (mem_of_resolve hmount)
    exact ⟨mount, backend, hmount, hbackend, routed_of_resolve hmount hbackend⟩

/-- Two nested mounts, with a relative path, a look-alike and a path below the inner mount. -/
theorem path_requests_after_nested :
    let storage := (ofBlocks (Handset.blocks id) ()).after
      [.register .ext4 (.mountOnly : Backend RamDisk Unit), .mount "/os" ⟨.user, 2⟩ .ext4,
        .mount "/os/data" ⟨.user, 3⟩ .ext4]
    Refused storage "os/data" .invalidArgument ∧ Refused storage "/osx" .notFound ∧
      (storage.resolve "/os/data/x").map (·.path.relative "/os/data/x") = .ok "/x" ∧
      ∃ mount backend, storage.resolve "/os/data/x" = .ok mount ∧
        storage.backend? mount.fsType = some backend ∧ Routed storage "/os/data/x" mount backend := by
  intro storage
  have habsolute : ∀ path ∈ ["/osx", "/os/data/x"], IsAbsolute path := by decide
  have huncovered : ∀ mount ∈ storage.mounts, mount.path.covers "/osx" = false := by decide +kernel
  have hcovered : ∃ mount ∈ storage.mounts, mount.path.covers "/os/data/x" = true := by
    decide +kernel
  refine ⟨?_, ?_, by decide +kernel, ?_⟩
  · exact (path_requests_after (Handset.blocks id) () _ "os/data").1 (by decide)
  · exact (path_requests_after (Handset.blocks id) () _ "/osx").2.1 (habsolute _ (by simp)) huncovered
  · exact (path_requests_after (Handset.blocks id) () _ "/os/data/x").2.2.1
      (habsolute _ (by simp)) hcovered

end StorageStack.Storage

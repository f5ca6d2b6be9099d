import StorageStack.Proofs.Storage.Tables

/-! # Which mount a path belongs to

In a table of distinct paths the mounts that cover one path differ in length. So the
longest of them is unique, and the order of the table plays no part in finding it.
-/

namespace StorageStack

namespace MountPath

/-- The name of a path within a mount: `/` for the mount itself, else what follows the mount path. -/
def NamesWithin (mount : MountPath) (path name : String) : Prop :=
  path = mount.text ∧ name = "/" ∨ path ≠ mount.text ∧ mount.text ++ name = path

theorem namesWithin_relative {mount : MountPath} {path : String}
    (hcovers : mount.covers path = true) : mount.NamesWithin path (mount.relative path) := by
  obtain ⟨-, hself, hbelow⟩ := relative_of_covers hcovers
  by_cases hpath : path = mount.text
  · exact Or.inl ⟨hpath, hself hpath⟩
  · exact Or.inr ⟨hpath, hbelow hpath⟩

end MountPath

namespace MountPoint

variable {mounts : List MountPoint} {path : String} {mount : MountPoint}

/-- The record covers the path and is longer than every other record that does. -/
def IsLongestCover (mounts : List MountPoint) (path : String) (mount : MountPoint) : Prop :=
  mount ∈ mounts ∧ mount.path.covers path = true ∧
    ∀ other ∈ mounts, other ≠ mount → other.path.covers path = true →
      other.path.text.utf8ByteSize < mount.path.text.utf8ByteSize

theorem eq_of_covers (hdistinct : (mounts.map (·.path)).Nodup) {other : MountPoint}
    (hmount : mount ∈ mounts) (hother : other ∈ mounts) (hcovers : mount.path.covers path = true)
    (hcovered : other.path.covers path = true)
    (hsize : mount.path.text.utf8ByteSize = other.path.text.utf8ByteSize) : mount = other :=
  List.inj_on_of_nodup_map hdistinct hmount hother (MountPath.eq_of_covers hcovers hcovered hsize)

theorem IsLongestCover.unique {other : MountPoint} (hmount : IsLongestCover mounts path mount)
    (hother : IsLongestCover mounts path other) : mount = other := by
  by_contra hne
  have hshorter := hmount.2.2 other hother.1 (Ne.symm hne) hother.2.1
  have hlonger := hother.2.2 mount hmount.1 hne hmount.2.1
  omega

theorem longestCover?_eq_some_iff (hdistinct : (mounts.map (·.path)).Nodup) :
    longestCover? mounts path = some mount ↔ IsLongestCover mounts path mount := by
  have hsound : ∀ found, longestCover? mounts path = some found →
      IsLongestCover mounts path found := by
    intro found hfound
    obtain ⟨hmem, hcovers, hlongest⟩ := of_longestCover?_eq_some hfound
    refine ⟨hmem, hcovers, fun other hother hne hcovered => ?_⟩
    apply Nat.lt_of_le_of_ne (hlongest other hother hcovered)
    intro hsize
    exact hne (eq_of_covers hdistinct hother hmem hcovered hcovers hsize)
  refine ⟨hsound mount, fun hmount => ?_⟩
  cases hfound : longestCover? mounts path with
  | none =>
      have hnone := (longestCover?_eq_none_iff mounts path).mp hfound mount hmount.1
      rw [hmount.2.1] at hnone
      cases hnone
  | some found => rw [(hsound found hfound).unique hmount]

theorem longestCover?_perm {others : List MountPoint} (hdistinct : (mounts.map (·.path)).Nodup)
    (hperm : others.Perm mounts) : longestCover? others path = longestCover? mounts path := by
  have hdistinct' : (others.map (·.path)).Nodup := ((hperm.map _).nodup_iff).mpr hdistinct
  apply Option.ext
  intro mount
  rw [longestCover?_eq_some_iff hdistinct, longestCover?_eq_some_iff hdistinct']
  simp only [IsLongestCover, hperm.mem_iff]

end MountPoint

namespace Storage

variable {δ ω : Type}

theorem resolve_eq_notFound_iff {storage : Storage δ ω} {path : String} (habsolute : IsAbsolute path) :
    storage.resolve path = .error .notFound ↔
      ∀ mount ∈ storage.mounts, mount.path.covers path = false := by
  rw [← MountPoint.longestCover?_eq_none_iff, resolve, if_pos habsolute]
  cases MountPoint.longestCover? storage.mounts path <;> simp

theorem exists_resolve {storage : Storage δ ω} {path : String} (habsolute : IsAbsolute path)
    (hcovered : ∃ mount ∈ storage.mounts, mount.path.covers path = true) :
    ∃ mount, storage.resolve path = .ok mount := by
  obtain ⟨mount, hmount, hcovers⟩ := hcovered
  cases hfound : MountPoint.longestCover? storage.mounts path with
  | none =>
      have hnone := (MountPoint.longestCover?_eq_none_iff _ _).mp hfound mount hmount
      rw [hcovers] at hnone
      cases hnone
  | some found => exact ⟨found, resolve_eq_ok_iff.mpr ⟨habsolute, hfound⟩⟩

variable [DiskDriver δ]

/-- After every run, an absolute path belongs to the one mount among those that cover it, by
their segments, that is longer than the others. What is left of the path behind that mount is
an absolute path again. -/
theorem resolve_after (blocks : BlockDevices δ) (host : ω) (run : List (Operation δ ω))
    (path : String) :
    let storage := (ofBlocks blocks host).after run
    (¬ IsAbsolute path → storage.resolve path = .error .invalidArgument) ∧
    (IsAbsolute path →
      (∀ mount ∈ storage.mounts,
        mount.path.covers path = true ↔ segments mount.path.text <+: segments path) ∧
      (storage.resolve path = .error .notFound ↔
        ∀ mount ∈ storage.mounts, mount.path.covers path = false) ∧
      ((∃ mount ∈ storage.mounts, mount.path.covers path = true) →
        ∃ mount, storage.resolve path = .ok mount) ∧
      (∀ mount, storage.resolve path = .ok mount ↔
        MountPoint.IsLongestCover storage.mounts path mount) ∧
      (∀ mounts : List MountPoint, mounts.Perm storage.mounts →
        { storage with mounts }.resolve path = storage.resolve path) ∧
      ∀ mount, storage.resolve path = .ok mount →
        IsAbsolute (mount.path.relative path) ∧
        (path = mount.path.text → mount.path.relative path = "/") ∧
        (path ≠ mount.path.text → mount.path.text ++ mount.path.relative path = path)) := by
  intro storage
  have hdistinct : (storage.mounts.map (·.path)).Nodup := (sound_after blocks host run).nodup_paths
  refine ⟨fun hrelative => if_neg hrelative, fun habsolute => ?_⟩
  refine ⟨fun mount _ => mount.path.covers_iff_segments path, resolve_eq_notFound_iff habsolute,
    ?_, ?_, ?_, ?_⟩
  · exact exists_resolve habsolute
  · intro mount
    rw [resolve_eq_ok_iff, MountPoint.longestCover?_eq_some_iff hdistinct]
    exact and_iff_right habsolute
  · intro mounts hperm
    unfold resolve
    dsimp only
    rw [MountPoint.longestCover?_perm hdistinct hperm]
  · intro mount hmount
    obtain ⟨-, hfound⟩ := resolve_eq_ok_iff.mp hmount
    exact MountPath.relative_of_covers (MountPoint.of_longestCover?_eq_some hfound).2.1

/-- Of two nested mounts and a look-alike, a path below the inner one belongs to the inner one. -/
theorem resolve_after_nested :
    let storage := (ofBlocks (Handset.blocks id) ()).after
      [.register .ext4 (.mountOnly : Backend RamDisk Unit), .mount "/os" ⟨.user, 2⟩ .ext4,
        .mount "/os/data" ⟨.user, 3⟩ .ext4, .mount "/os/dat" ⟨.user, 4⟩ .ext4]
    IsAbsolute "/os/data//x" ∧
      ∃ mount, storage.resolve "/os/data//x" = .ok mount ∧ mount.path.text = "/os/data" ∧
        mount.path.text ++ mount.path.relative "/os/data//x" = "/os/data//x" := by
  intro storage
  have habsolute : IsAbsolute "/os/data//x" := by decide
  have htext : (storage.resolve "/os/data//x").toOption.map (·.path.text) = some "/os/data" := by
    decide +kernel
  cases hmount : storage.resolve "/os/data//x" with
  | error cause =>
      rw [hmount] at htext
      cases htext
  | ok mount =>
      rw [hmount] at htext
      have hpath : mount.path.text = "/os/data" := Option.some.inj htext
      obtain ⟨-, -, -, -, -, hrelative⟩ := (resolve_after (Handset.blocks id) () _ _).2 habsolute
      refine ⟨habsolute, mount, rfl, hpath, (hrelative mount hmount).2.2 ?_⟩
      rw [hpath]
      decide

end Storage

end StorageStack

import StorageStack.Proofs.Storage.Calls
import StorageStack.Proofs.Storage.Resolution

/-! # Renaming

A rename stays within one mount. It is one request to the backend of the mount that both paths
belong to, or it is refused before any backend hears of it. That two mounts have a backend or a
device in common does not make them one.
-/

namespace StorageStack

namespace MountPath

variable {mount nested : MountPath} {path : String}

theorem isAbsolute_of_covers (hcovers : mount.covers path = true) : IsAbsolute path := by
  obtain ⟨rest, hpath, -⟩ := (mount.covers_iff path).mp hcovers
  have habsolute : mount.text.toList.head? = some '/' := mount.valid.1
  rw [IsAbsolute, hpath, List.head?_append, habsolute]
  rfl

/-- A mount below another has the longer path. -/
theorem size_lt_of_covers (hinside : mount.covers nested.text = true) (hne : nested ≠ mount) :
    mount.text.utf8ByteSize < nested.text.utf8ByteSize := by
  obtain ⟨rest, hrest, -⟩ := (mount.covers_iff nested.text).mp hinside
  by_contra hsize
  have htext : mount.text = nested.text :=
    eq_of_prefix_of_size_le ⟨rest, hrest.symm⟩ (Nat.le_of_not_lt hsize)
  exact hne ((eq_mk_iff mount.valid).mpr htext.symm)

end MountPath

open MountPoint (IsLongestCover)

/-- Why a rename is refused. A relative path comes before a source outside all mounts, and that
before a target that does not belong to the mount of the source. -/
inductive RenameRefused (mounts : List MountPoint) (source target : String) : StorageError → Prop
  | relative (hrelative : ¬ (IsAbsolute source ∧ IsAbsolute target)) :
      RenameRefused mounts source target .invalidArgument
  | unmounted (hsource : IsAbsolute source) (htarget : IsAbsolute target)
      (hnone : ∀ mount ∈ mounts, mount.path.covers source = false) :
      RenameRefused mounts source target .notFound
  | outside (htarget : IsAbsolute target) {mount : MountPoint}
      (hsource : IsLongestCover mounts source mount)
      (hnone : ∀ mount ∈ mounts, mount.path.covers target = false) :
      RenameRefused mounts source target .invalidArgument
  /-- The mounts may be of one type and on one device, and one may lie below the other. -/
  | crossing {mount other : MountPoint} (hsource : IsLongestCover mounts source mount)
      (htarget : IsLongestCover mounts target other) (hne : other ≠ mount) :
      RenameRefused mounts source target .invalidArgument

namespace Storage

variable {δ ω : Type}

/-- Both paths belong to the mount, and the rename is one request to its backend, which names both
of them as the mount does. The answer is handed on. -/
structure RenamedWithin (storage : Storage δ ω) (source target : String) (mount : MountPoint)
    (backend : Backend δ ω) : Prop where
  source_resolves : storage.resolve source = .ok mount
  target_resolves : storage.resolve target = .ok mount
  registered : storage.backend? mount.fsType = some backend
  performs :
    let request : Request := .rename (mount.path.relative source) (mount.path.relative target)
    let asked := ask backend mount request storage
    Performs (fun _ => rename source target) storage [.serve mount.fsType mount request asked.1] asked
  source_named : mount.path.NamesWithin source (mount.path.relative source)
  target_named : mount.path.NamesWithin target (mount.path.relative target)

section Rename

variable {storage : Storage δ ω} {source target : String} {mount : MountPoint}

theorem resolve_eq_ok_iff_isLongestCover {path : String}
    (hdistinct : (storage.mounts.map (·.path)).Nodup) :
    storage.resolve path = .ok mount ↔ IsLongestCover storage.mounts path mount := by
  rw [resolve_eq_ok_iff, MountPoint.longestCover?_eq_some_iff hdistinct]
  exact and_iff_right_of_imp fun hcover => MountPath.isAbsolute_of_covers hcover.2.1

theorem outcome_rename_of_refused {cause : StorageError}
    (hdistinct : (storage.mounts.map (·.path)).Nodup)
    (hrefused : RenameRefused storage.mounts source target cause) :
    (rename source target).outcome storage = (.error cause, storage) := by
  unfold Action.outcome rename
  cases hrefused with
  | relative hrelative => rw [if_neg hrelative]
  | unmounted hsource htarget hnone =>
      rw [if_pos ⟨hsource, htarget⟩, (resolve_eq_notFound_iff hsource).mpr hnone]
  | outside htarget hsource hnone =>
      have habsolute := MountPath.isAbsolute_of_covers hsource.2.1
      rw [if_pos ⟨habsolute, htarget⟩, (resolve_eq_ok_iff_isLongestCover hdistinct).mpr hsource,
        (resolve_eq_notFound_iff htarget).mpr hnone]
  | @crossing mount other hsource htarget hne =>
      have hpaths : other.path ≠ mount.path := fun hpath =>
        hne (List.inj_on_of_nodup_map hdistinct htarget.1 hsource.1 hpath)
      have habsolute : IsAbsolute source ∧ IsAbsolute target :=
        ⟨MountPath.isAbsolute_of_covers hsource.2.1, MountPath.isAbsolute_of_covers htarget.2.1⟩
      rw [if_pos habsolute, (resolve_eq_ok_iff_isLongestCover hdistinct).mpr hsource,
        (resolve_eq_ok_iff_isLongestCover hdistinct).mpr htarget]
      dsimp only
      rw [if_neg hpaths]

theorem outcome_rename_of_shared (hsource : storage.resolve source = .ok mount)
    (htarget : storage.resolve target = .ok mount) :
    (rename source target).outcome storage =
      (serve mount (.rename (mount.path.relative source) (mount.path.relative target))).outcome
        storage := by
  have habsolute : IsAbsolute source ∧ IsAbsolute target :=
    ⟨(resolve_eq_ok_iff.mp hsource).1, (resolve_eq_ok_iff.mp htarget).1⟩
  unfold Action.outcome rename
  rw [if_pos habsolute, hsource, htarget]
  dsimp only
  rw [if_pos rfl]

/-- A rename that is refused calls no backend. -/
theorem performs_rename_of_refused {cause : StorageError}
    (hdistinct : (storage.mounts.map (·.path)).Nodup)
    (hrefused : RenameRefused storage.mounts source target cause) :
    Performs (fun _ => rename source target) storage [] (.error cause, storage) := by
  refine ⟨outcome_rename_of_refused hdistinct hrefused, fun earlier => ?_⟩
  have hlogged : ((storage.logged earlier).mounts.map (·.path)).Nodup := hdistinct
  rw [outcome_rename_of_refused hlogged hrefused, List.append_nil]

theorem renamedWithin_of_resolve {backend : Backend δ ω}
    (hsource : storage.resolve source = .ok mount) (htarget : storage.resolve target = .ok mount)
    (hbackend : storage.backend? mount.fsType = some backend) :
    RenamedWithin storage source target mount backend := by
  have hcovers {path : String} (hmount : storage.resolve path = .ok mount) :
      mount.path.covers path = true :=
    (MountPoint.of_longestCover?_eq_some (resolve_eq_ok_iff.mp hmount).2).2.1
  refine ⟨hsource, htarget, hbackend, ?_, MountPath.namesWithin_relative (hcovers hsource),
    MountPath.namesWithin_relative (hcovers htarget)⟩
  obtain ⟨hplain, hlogged⟩ := performs_serve hbackend
    (.rename (mount.path.relative source) (mount.path.relative target))
  refine ⟨(outcome_rename_of_shared hsource htarget).trans hplain, fun earlier => ?_⟩
  rw [outcome_rename_of_shared ((resolve_logged storage earlier source).trans hsource)
    ((resolve_logged storage earlier target).trans htarget), hlogged]

/-- Two paths belong to one mount, or there is a cause to refuse the rename. -/
theorem shared_or_refused (hdistinct : (storage.mounts.map (·.path)).Nodup) (source target : String) :
    (∃ mount, storage.resolve source = .ok mount ∧ storage.resolve target = .ok mount) ∨
      ∃ cause, RenameRefused storage.mounts source target cause := by
  by_cases habsolute : IsAbsolute source ∧ IsAbsolute target
  · obtain ⟨hsource, htarget⟩ := habsolute
    by_cases hmounted : ∃ mount ∈ storage.mounts, mount.path.covers source = true
    · obtain ⟨mount, hmount⟩ := exists_resolve hsource hmounted
      have hcover := (resolve_eq_ok_iff_isLongestCover hdistinct).mp hmount
      by_cases hreached : ∃ mount ∈ storage.mounts, mount.path.covers target = true
      · obtain ⟨other, hother⟩ := exists_resolve htarget hreached
        by_cases hsame : other = mount
        · exact Or.inl ⟨mount, hmount, hsame ▸ hother⟩
        · exact Or.inr ⟨_, .crossing hcover ((resolve_eq_ok_iff_isLongestCover hdistinct).mp hother)
            hsame⟩
      · exact Or.inr ⟨_, .outside htarget hcover (by simpa using hreached)⟩
    · exact Or.inr ⟨_, .unmounted hsource htarget (by simpa using hmounted)⟩
  · exact Or.inr ⟨_, .relative habsolute⟩

/-- A target below a mount that lies within the mount of the source does not belong to the latter. -/
theorem refused_of_nested {nested : MountPoint} (hdistinct : (storage.mounts.map (·.path)).Nodup)
    (hsource : storage.resolve source = .ok mount) (hnested : nested ∈ storage.mounts)
    (hne : nested ≠ mount) (hinside : mount.path.covers nested.path.text = true)
    (hcovers : nested.path.covers target = true) :
    RenameRefused storage.mounts source target .invalidArgument := by
  obtain ⟨other, hother⟩ :=
    exists_resolve (MountPath.isAbsolute_of_covers hcovers) ⟨nested, hnested, hcovers⟩
  have hlongest := (resolve_eq_ok_iff_isLongestCover hdistinct).mp hother
  refine .crossing ((resolve_eq_ok_iff_isLongestCover hdistinct).mp hsource) hlongest ?_
  rintro rfl
  have hpaths : nested.path ≠ other.path := fun hpath =>
    hne (List.inj_on_of_nodup_map hdistinct hnested hlongest.1 hpath)
  have hshorter := hlongest.2.2 nested hnested hne hcovers
  have hlonger := MountPath.size_lt_of_covers hinside hpaths
  omega

end Rename

variable [DiskDriver δ]

/-- After every run a rename calls a backend exactly if both paths are absolute and belong to the
same live mount. It is then one request to the backend of that mount, about both paths as the mount
names them. Any other rename is refused without effect, for the first cause that applies. A target
below a mount that lies within the mount of the source is refused like any other. -/
theorem rename_after (blocks : BlockDevices δ) (host : ω) (run : List (Operation δ ω))
    (source target : String) :
    let storage := (ofBlocks blocks host).after run
    ((∃ mount, storage.resolve source = .ok mount ∧ storage.resolve target = .ok mount) ∨
      ∃ cause, RenameRefused storage.mounts source target cause) ∧
    (∀ mount, storage.resolve source = .ok mount → storage.resolve target = .ok mount →
      ∃ backend, RenamedWithin storage source target mount backend) ∧
    (∀ cause, RenameRefused storage.mounts source target cause →
      Performs (fun _ => rename source target) storage [] (.error cause, storage)) ∧
    (callsOf (fun _ => rename source target) storage ≠ [] ↔
      ∃ mount, storage.resolve source = .ok mount ∧ storage.resolve target = .ok mount) ∧
    ∀ mount nested, storage.resolve source = .ok mount → nested ∈ storage.mounts → nested ≠ mount →
      mount.path.covers nested.path.text = true → nested.path.covers target = true →
      RenameRefused storage.mounts source target .invalidArgument := by
  intro storage
  have hsound : storage.Sound := sound_after blocks host run
  have hdistinct := hsound.nodup_paths
  have hshared : ∀ mount, storage.resolve source = .ok mount → storage.resolve target = .ok mount →
      ∃ backend, RenamedWithin storage source target mount backend := by
    intro mount hsource htarget
    obtain ⟨backend, hbackend⟩ := hsound.backend?_isSome (mem_of_resolve hsource)
    exact ⟨backend, renamedWithin_of_resolve hsource htarget hbackend⟩
  refine ⟨shared_or_refused hdistinct source target, hshared,
    fun cause => performs_rename_of_refused hdistinct, ⟨fun hcalls => ?_, ?_⟩,
    fun mount nested hsource hnested hne => refused_of_nested hdistinct hsource hnested hne⟩
  · refine (shared_or_refused hdistinct source target).resolve_right ?_
    rintro ⟨cause, hrefused⟩
    exact hcalls (performs_rename_of_refused hdistinct hrefused).callsOf_eq
  · rintro ⟨mount, hsource, htarget⟩
    obtain ⟨backend, hrenamed⟩ := hshared mount hsource htarget
    rw [hrenamed.performs.callsOf_eq]
    exact List.cons_ne_nil _ _

/-- Of two nested mounts of one device and one type, a rename within the outer one, one from the
outer to the inner one, and one from outside both. -/
theorem rename_after_nested :
    let storage := (ofBlocks (Handset.blocks id) ()).after
      [.register .ext4 (.mountOnly : Backend RamDisk Unit), .mount "/os" ⟨.user, 2⟩ .ext4,
        .mount "/os/data" ⟨.user, 2⟩ .ext4]
    (∃ mount backend, mount.path.text = "/os" ∧
      RenamedWithin storage "/os/a" "/os/datab" mount backend) ∧
    Performs (fun _ => rename "/os/a" "/os/data/a") storage [] (.error .invalidArgument, storage) ∧
    Performs (fun _ => rename "/boot/a" "/os/a") storage [] (.error .notFound, storage) := by
  intro storage
  have hmounts : ∃ outer ∈ storage.mounts, ∃ inner ∈ storage.mounts, outer.path.text = "/os" ∧
      storage.resolve "/os/a" = .ok outer ∧ storage.resolve "/os/datab" = .ok outer ∧
      inner ≠ outer ∧ outer.path.covers inner.path.text = true ∧
      inner.path.covers "/os/data/a" = true := by
    decide +kernel
  have hoff : IsAbsolute "/boot/a" ∧ IsAbsolute "/os/a" ∧
      ∀ mount ∈ storage.mounts, mount.path.covers "/boot/a" = false := by
    decide +kernel
  obtain ⟨outer, -, inner, hinner, htext, hsource, htarget, hne, hinside, hcovers⟩ := hmounts
  have hrename := rename_after (Handset.blocks id) ()
    [.register .ext4 (.mountOnly : Backend RamDisk Unit), .mount "/os" ⟨.user, 2⟩ .ext4,
      .mount "/os/data" ⟨.user, 2⟩ .ext4]
  refine ⟨?_, ?_, ?_⟩
  · obtain ⟨-, hwithin, -⟩ := hrename "/os/a" "/os/datab"
    obtain ⟨backend, hrenamed⟩ := hwithin outer hsource htarget
    exact ⟨outer, backend, htext, hrenamed⟩
  · obtain ⟨-, -, hrefused, -, hnested⟩ := hrename "/os/a" "/os/data/a"
    exact hrefused _ (hnested outer inner hsource hinner hne hinside hcovers)
  · obtain ⟨-, -, hrefused, -, -⟩ := hrename "/boot/a" "/os/a"
    exact hrefused _ (.unmounted hoff.1 hoff.2.1 hoff.2.2)

end Storage

end StorageStack

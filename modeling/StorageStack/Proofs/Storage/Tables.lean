import Mathlib.Data.List.Nodup
import StorageStack.Handset
import StorageStack.Proofs.Mount.Segments
import StorageStack.Proofs.Storage.Changes

/-! # The registry and the mount table

After every run the mounts have distinct paths and registered backends, and the table is
within its capacity. A backend that was registered stays, and a mount that its backend has
accepted always finds its place in the table.
-/

namespace StorageStack.Storage

variable {δ ω : Type}

/-- What holds of the registry and the mount table after every run. -/
structure Sound (storage : Storage δ ω) : Prop where
  length_mounts_le : storage.mounts.length ≤ Limits.maxMounts
  nodup_paths : (storage.mounts.map (·.path)).Nodup
  registered : ∀ mount ∈ storage.mounts,
    ∃ registration ∈ storage.registry, registration.fsType = mount.fsType
  nodup_types : (storage.registry.map (·.fsType)).Nodup
  concrete : ∀ registration ∈ storage.registry, registration.fsType ≠ .auto

theorem sound_ofBlocks (blocks : BlockDevices δ) (host : ω) : (ofBlocks blocks host).Sound := by
  constructor <;> simp [ofBlocks]

/-- Forgetting records does no harm to a sound mount table. -/
theorem Sound.of_sublist {storage : Storage δ ω} (hsound : storage.Sound) (env : Env δ ω)
    {mounts : List MountPoint} (hmounts : mounts.Sublist storage.mounts) :
    Sound { storage with env, mounts } where
  length_mounts_le := Nat.le_trans hmounts.length_le hsound.length_mounts_le
  nodup_paths := hsound.nodup_paths.sublist (hmounts.map _)
  registered mount hmount := hsound.registered mount (hmounts.subset hmount)
  nodup_types := hsound.nodup_types
  concrete := hsound.concrete

theorem fsType_ne_of_backend?_eq_none {storage : Storage δ ω} {fsType : FsType}
    (hnone : storage.backend? fsType = none) :
    ∀ registration ∈ storage.registry, registration.fsType ≠ fsType := by
  intro registration hregistration
  simpa using List.find?_eq_none.mp (Option.map_eq_none_iff.mp hnone) registration hregistration

theorem Change.sound {storage after : Storage δ ω} {made : List MountPoint}
    (hchange : Change storage made after) (hsound : storage.Sound) : after.Sound := by
  cases hchange with
  | environment env => exact hsound.of_sublist env (List.Sublist.refl _)
  | register registration hconcrete hnew hroom =>
      have htypes := fsType_ne_of_backend?_eq_none hnew
      refine ⟨hsound.length_mounts_le, hsound.nodup_paths, ?_, ?_, ?_⟩
      · intro mount hmount
        obtain ⟨known, hknown, htype⟩ := hsound.registered mount hmount
        exact ⟨known, List.mem_append_left _ hknown, htype⟩
      · dsimp only
        rw [List.map_append, List.map_singleton, ← List.concat_eq_append]
        apply hsound.nodup_types.concat
        intro hmem
        obtain ⟨known, hknown, htype⟩ := List.mem_map.mp hmem
        exact htypes known hknown htype
      · intro known hknown
        rcases List.mem_append.mp hknown with hold | hsame
        · exact hsound.concrete known hold
        · rw [List.mem_singleton.mp hsame]
          exact hconcrete
  | mount point env hid hnew hroom hserved =>
      refine ⟨?_, ?_, ?_, hsound.nodup_types, hsound.concrete⟩
      · dsimp only [entered]
        rw [List.length_append, List.length_singleton]
        exact hroom
      · dsimp only [entered]
        rw [List.map_append, List.map_singleton, ← List.concat_eq_append]
        apply hsound.nodup_paths.concat
        intro hmem
        obtain ⟨mount, hmount, hpath⟩ := List.mem_map.mp hmem
        exact hnew mount hmount hpath
      · intro mount hmount
        rcases List.mem_append.mp hmount with hold | hsame
        · exact hsound.registered mount hold
        · rw [List.mem_singleton.mp hsame]
          exact hserved
  | unmount mount env => exact hsound.of_sublist env List.erase_sublist
  | unmountAll env => exact hsound.of_sublist env (List.nil_sublist _)

/-- A backend that is registered stays registered. -/
theorem Change.backend?_eq_some {storage after : Storage δ ω} {made : List MountPoint}
    (hchange : Change storage made after) {fsType : FsType} {backend : Backend δ ω}
    (hbackend : storage.backend? fsType = some backend) :
    after.backend? fsType = some backend := by
  cases hchange with
  | register registration hconcrete hnew hroom =>
      obtain ⟨known, hknown, rfl⟩ := Option.map_eq_some_iff.mp hbackend
      rw [backend?, List.find?_append, hknown]
      rfl
  | environment | mount | unmount | unmountAll => exact hbackend

theorem Sound.backend?_isSome {storage : Storage δ ω} (hsound : storage.Sound) {mount : MountPoint}
    (hmount : mount ∈ storage.mounts) : ∃ backend, storage.backend? mount.fsType = some backend := by
  obtain ⟨registration, hregistration, htype⟩ := hsound.registered mount hmount
  have hfound : (storage.registry.find? fun registration =>
      registration.fsType = mount.fsType).isSome := by
    rw [List.find?_isSome]
    exact ⟨registration, hregistration, decide_eq_true htype⟩
  obtain ⟨known, hknown⟩ := Option.isSome_iff_exists.mp hfound
  exact ⟨known.backend, by rw [backend?, hknown, Option.map_some]⟩

theorem mem_of_mountOf? {storage : Storage δ ω} {id : MountId} {mount : MountPoint}
    (hmount : storage.mountOf? id = some mount) : mount ∈ storage.mounts ∧ mount.id = id :=
  ⟨List.mem_of_find?_eq_some hmount, by simpa using List.find?_some hmount⟩

theorem resolve_eq_ok_iff {storage : Storage δ ω} {path : String} {mount : MountPoint} :
    storage.resolve path = .ok mount ↔
      IsAbsolute path ∧ MountPoint.longestCover? storage.mounts path = some mount := by
  unfold resolve
  by_cases habsolute : IsAbsolute path
  · rw [if_pos habsolute]
    cases MountPoint.longestCover? storage.mounts path <;> simp [habsolute]
  · simp [habsolute]

theorem mem_of_resolve {storage : Storage δ ω} {path : String} {mount : MountPoint}
    (hmount : storage.resolve path = .ok mount) : mount ∈ storage.mounts :=
  (MountPoint.of_longestCover?_eq_some (resolve_eq_ok_iff.mp hmount).2).1

/-- No record stands in the table twice. -/
theorem Sound.nodup_mounts {storage : Storage δ ω} (hsound : storage.Sound) : storage.mounts.Nodup :=
  hsound.nodup_paths.of_map _

variable [DiskDriver δ]

theorem sound_after (blocks : BlockDevices δ) (host : ω) (run : List (Operation δ ω)) :
    ((ofBlocks blocks host).after run).Sound :=
  after_induct Change.sound (sound_ofBlocks blocks host) run

/-- A backend that is registered is there after every run. -/
theorem backend?_after {storage : Storage δ ω} {fsType : FsType} {backend : Backend δ ω}
    (hbackend : storage.backend? fsType = some backend) (run : List (Operation δ ω)) :
    (storage.after run).backend? fsType = some backend :=
  after_induct (motive := fun storage => storage.backend? fsType = some backend)
    (fun hchange hprior => hchange.backend?_eq_some hprior) hbackend run

/-- After every run of operations, with backends that answer as they like, the registry and
the mount table are sound. So a live mount always has its backend to answer for it, and a
backend that accepts a mount is always entered into the table. -/
theorem tables_after (blocks : BlockDevices δ) (host : ω) (run : List (Operation δ ω)) :
    let storage := (ofBlocks blocks host).after run
    storage.mounts.length ≤ Limits.maxMounts ∧
      (storage.mounts.map (·.path)).Nodup ∧
      (∀ mount ∈ storage.mounts,
        mount.path.text.utf8ByteSize ≤ Limits.maxMountPathLength ∧ IsAbsolute mount.path.text ∧
        1 < mount.path.text.utf8ByteSize ∧ mount.path.text.toList.getLast? ≠ some '/' ∧
        (∀ segment ∈ (segments mount.path.text).tail, segment ≠ []) ∧ mount.fsType ≠ .auto ∧
        ∃ backend, storage.backend? mount.fsType = some backend ∧
          ∀ request, (serve mount request).outcome storage = ask backend mount request storage) ∧
      (storage.registry.map (·.fsType)).Nodup ∧
      (∀ registration ∈ storage.registry, registration.fsType ≠ .auto) ∧
      (∀ later fsType backend, storage.backend? fsType = some backend →
        (storage.after later).backend? fsType = some backend) ∧
      (∀ request path mount, storage.resolve path = .ok mount →
        ∃ backend, storage.backend? mount.fsType = some backend ∧
          (onPath request path).outcome storage =
            ask backend mount (.onPath request (mount.path.relative path)) storage) ∧
      (∀ request id mount, storage.mountOf? id = some mount →
        ∃ backend, storage.backend? mount.fsType = some backend ∧
          (onMount id request).outcome storage = ask backend mount request storage) ∧
      ∀ path device fsType mountPath registration probed data env,
        storage.checkMount path device fsType = .ok mountPath →
        chooseBackend device fsType storage = (some registration, probed) →
        registration.backend.serve
          { id := storage.nextId, path := mountPath, device, fsType := registration.fsType }
          .mount probed = .ok data env →
        storage.mounts.length < Limits.maxMounts ∧
        mount path device fsType storage = .ok ()
          (storage.entered ⟨storage.nextId, mountPath, device, registration.fsType, data⟩ env) := by
  intro storage
  have hsound : storage.Sound := sound_after blocks host run
  have hserved : ∀ mount ∈ storage.mounts, ∃ backend,
      storage.backend? mount.fsType = some backend ∧
        ∀ request, (serve mount request).outcome storage = ask backend mount request storage := by
    intro mount hmount
    obtain ⟨backend, hbackend⟩ := hsound.backend?_isSome hmount
    exact ⟨backend, hbackend, outcome_serve_of_backend hbackend⟩
  refine ⟨hsound.length_mounts_le, hsound.nodup_paths, ?_, hsound.nodup_types, hsound.concrete,
    ?_, ?_, ?_, ?_⟩
  · intro mount hmount
    obtain ⟨habsolute, hlong, hlast, -, hsize⟩ := mount.path.valid
    obtain ⟨names, -, hnames, hsegments⟩ := mount.path.segments_text
    obtain ⟨registration, hregistration, htype⟩ := hsound.registered mount hmount
    refine ⟨hsize, habsolute, hlong, hlast, ?_, ?_, hserved mount hmount⟩
    · rw [hsegments]
      exact hnames
    · rw [← htype]
      exact hsound.concrete registration hregistration
  · exact fun later _ _ hbackend => backend?_after hbackend later
  · intro request path mount hmount
    obtain ⟨backend, hbackend, hanswer⟩ := hserved mount (mem_of_resolve hmount)
    exact ⟨backend, hbackend, by rw [outcome_onPath_of_resolve hmount, hanswer]⟩
  · intro request id mount hmount
    obtain ⟨backend, hbackend, hanswer⟩ := hserved mount (mem_of_mountOf? hmount).1
    exact ⟨backend, hbackend, by rw [outcome_onMount_of_mountOf? hmount, hanswer]⟩
  · intro path device fsType mountPath registration probed data env hcheck hchoose haccepts
    exact ⟨(of_checkMount_eq_ok hcheck).2.2, mount_of_accepted hcheck hchoose haccepts⟩

/-- A mount behind a failed one, and before a registration that comes too late. -/
theorem tables_after_handset :
    let run : List (Operation RamDisk Unit) :=
      [.register .ext4 .mountOnly, .mount "/os/" ⟨.user, 2⟩ .ext4, .mount "/os" ⟨.user, 2⟩ .ext4,
        .register .ext4 .minimal]
    let storage := (ofBlocks (Handset.blocks id) ()).after run
    storage.mounts.map (·.path.text) = ["/os"] ∧
      ∀ mount ∈ storage.mounts, ∃ backend, storage.backend? mount.fsType = some backend := by
  intro run storage
  refine ⟨by decide +kernel, fun mount hmount => ?_⟩
  obtain ⟨-, -, hmounts, -⟩ := tables_after (Handset.blocks id) () run
  obtain ⟨-, -, -, -, -, -, backend, hbackend, -⟩ := hmounts mount hmount
  exact ⟨backend, hbackend⟩

end StorageStack.Storage

import StorageStack.Proofs.Storage.Choice
import StorageStack.Proofs.Storage.Tables

/-! # Mounting and unmounting, all or nothing

A mount asks a backend only after every check has passed, and asks one backend once. Its
record goes into the table if that backend accepts, and otherwise the tables stay as they
were. An unmount asks the backend of the record, and takes the record out if it lets go.
-/

namespace StorageStack

/-- The cause that belongs to the first check that fails. -/
def firstFailure? (checks : List (Bool × StorageError)) : Option StorageError :=
  (checks.find? fun check => !check.1).map Prod.snd

theorem firstFailure?_cons (passes : Bool) (cause : StorageError) (rest : List (Bool × StorageError)) :
    firstFailure? ((passes, cause) :: rest) = if passes then firstFailure? rest else some cause := by
  cases passes <;> rfl

theorem firstFailure?_eq_none_iff {checks : List (Bool × StorageError)} :
    firstFailure? checks = none ↔ ∀ check ∈ checks, check.1 = true := by
  simp [firstFailure?]

theorem mem_of_firstFailure? {checks : List (Bool × StorageError)} {cause : StorageError}
    (hfirst : firstFailure? checks = some cause) : (false, cause) ∈ checks := by
  obtain ⟨⟨passes, _⟩, hfound, rfl⟩ := Option.map_eq_some_iff.mp hfirst
  obtain rfl : passes = false := by simpa using List.find?_some hfound
  exact List.mem_of_find?_eq_some hfound

/-- A device is described, or it does not exist. -/
theorem BlockDevices.eq_notFound_of_info {δ : Type} {blocks : BlockDevices δ} {device : DeviceHandle}
    {cause : StorageError} (hinfo : blocks.info device = .error cause) : cause = .notFound := by
  unfold info at hinfo
  split at hinfo
  · cases hinfo; rfl
  · split at hinfo
    · cases hinfo; rfl
    · cases hinfo

namespace Storage

variable {δ ω : Type}

/-- The checks of a mount in their order, each with the cause of its failure: the path may
stand as a mount path, no live mount has it, the table has room, a concrete type is
registered, the device exists. -/
def mountChecks (storage : Storage δ ω) (path : String) (device : DeviceHandle) (fsType : FsType) :
    List (Bool × StorageError) :=
  [(decide (IsMountPath path), .invalidArgument),
    (storage.mounts.all fun mount => mount.path.text ≠ path, .busy),
    (decide (storage.mounts.length < Limits.maxMounts), .outOfMemory),
    (decide (fsType = .auto) || (storage.backend? fsType).isSome, .notFound),
    ((storage.env.blocks.info device).isOk, .notFound)]

/-- A mount is refused for the first check that fails. -/
theorem firstFailure?_mountChecks (storage : Storage δ ω) (path : String) (device : DeviceHandle)
    (fsType : FsType) :
    firstFailure? (storage.mountChecks path device fsType) =
      match storage.checkMount path device fsType with
      | .error cause => some cause
      | .ok _ => none := by
  unfold mountChecks checkMount MountPath.ofString?
  simp only [firstFailure?_cons]
  by_cases hvalid : IsMountPath path
  · have hbusy : (storage.mounts.all fun mount => mount.path.text ≠ path) =
        !(storage.mounts.any fun mount => mount.path = ⟨path, hvalid⟩) := by
      rw [List.not_any_eq_all_not]
      congr 1
      funext mount
      simp [MountPath.eq_mk_iff hvalid]
    simp only [dif_pos hvalid, hbusy]
    cases storage.mounts.any fun mount => mount.path = ⟨path, hvalid⟩ with
    | true => simp [hvalid]
    | false =>
        by_cases hfull : Limits.maxMounts ≤ storage.mounts.length
        · simp [hvalid, hfull, Nat.not_lt.mpr hfull]
        · have hserved : (decide (fsType = .auto) || (storage.backend? fsType).isSome) =
              !decide (fsType ≠ .auto ∧ (storage.backend? fsType).isNone) := by
            cases storage.backend? fsType <;> simp
          simp only [hvalid, hserved, decide_true, Nat.lt_of_not_le hfull, hfull, if_true, if_false,
            Bool.not_false, Bool.false_eq_true]
          by_cases hunknown : fsType ≠ .auto ∧ (storage.backend? fsType).isNone
          · rw [if_pos hunknown]
            simp [hunknown]
          · rw [if_neg hunknown]
            simp only [hunknown]
            cases hinfo : storage.env.blocks.info device with
            | ok info => rfl
            | error cause =>
                cases BlockDevices.eq_notFound_of_info hinfo
                rfl
  · simp [hvalid]

section Checks

variable {storage : Storage δ ω} {path : String} {device : DeviceHandle} {fsType : FsType}

theorem checkMount_eq_error_iff {cause : StorageError} :
    storage.checkMount path device fsType = .error cause ↔
      firstFailure? (storage.mountChecks path device fsType) = some cause := by
  rw [firstFailure?_mountChecks]
  cases storage.checkMount path device fsType <;> simp

theorem exists_checkMount_iff :
    (∃ mountPath, storage.checkMount path device fsType = .ok mountPath) ↔
      firstFailure? (storage.mountChecks path device fsType) = none := by
  rw [firstFailure?_mountChecks]
  cases storage.checkMount path device fsType <;> simp

end Checks

/-! ## Mounting -/

theorem firstFailure?_of_checkMount {storage : Storage δ ω} {path : String} {device : DeviceHandle}
    {fsType : FsType} {mountPath : MountPath}
    (hcheck : storage.checkMount path device fsType = .ok mountPath) :
    firstFailure? (storage.mountChecks path device fsType) = none :=
  exists_checkMount_iff.mp ⟨mountPath, hcheck⟩

/-- With an explicit type, the checks have found the backend. -/
theorem backend?_of_checkMount {storage : Storage δ ω} {path : String} {device : DeviceHandle}
    {fsType : FsType} {mountPath : MountPath}
    (hcheck : storage.checkMount path device fsType = .ok mountPath) (hconcrete : fsType ≠ .auto) :
    (storage.backend? fsType).isSome := by
  have htype := firstFailure?_eq_none_iff.mp (firstFailure?_of_checkMount hcheck)
    (decide (fsType = .auto) || (storage.backend? fsType).isSome, .notFound) (by simp [mountChecks])
  simpa [hconcrete] using htype

theorem checkMount_logged (storage : Storage δ ω) (calls : List Call) (path : String)
    (device : DeviceHandle) (fsType : FsType) :
    (storage.logged calls).checkMount path device fsType = storage.checkMount path device fsType := by
  unfold checkMount
  rw [backend?_logged, Option.isNone_map]
  rfl

section Performs

variable {storage : Storage δ ω} {path : String} {device : DeviceHandle} {fsType : FsType}

theorem performs_mount_of_refused {cause : StorageError}
    (hcheck : storage.checkMount path device fsType = .error cause) :
    Performs (fun _ => mount path device fsType) storage [] (.error cause, storage) := by
  refine ⟨outcome_mount_of_refused hcheck, fun earlier => ?_⟩
  rw [outcome_mount_of_refused ((checkMount_logged storage earlier path device fsType).trans hcheck),
    List.append_nil]

variable {mountPath : MountPath} {probed : Env δ ω}

theorem performs_mount_of_unclaimed
    (hcheck : storage.checkMount path device fsType = .ok mountPath)
    (hchoose : chooseBackend device fsType storage = (none, probed)) :
    Performs (fun _ => mount path device fsType) storage (choiceCalls device fsType storage)
      (.error .notFound, { storage with env := probed }) := by
  refine ⟨outcome_mount_of_unclaimed hcheck hchoose, fun earlier => ?_⟩
  have hlogged := chooseBackend_logged storage earlier device fsType
  rw [hchoose] at hlogged
  rw [outcome_mount_of_unclaimed ((checkMount_logged storage earlier path device fsType).trans hcheck)
    hlogged]
  rfl

theorem performs_mount_of_chosen {registration : Registration δ ω} {env : Env δ ω}
    {answer : Except StorageError MountData}
    (hcheck : storage.checkMount path device fsType = .ok mountPath)
    (hchoose : chooseBackend device fsType storage = (some registration, probed))
    (hserve : (registration.backend.serve
        { id := storage.nextId, path := mountPath, device, fsType := registration.fsType }
        .mount).outcome probed = (answer, env)) :
    let point : MountPoint :=
      { id := storage.nextId, path := mountPath, device, fsType := registration.fsType }
    Performs (fun _ => mount path device fsType) storage
      (choiceCalls device fsType storage ++ [.serve registration.fsType point .mount answer])
      (storage.mounted point env answer) := by
  intro point
  refine ⟨outcome_mount_of_chosen hcheck hchoose hserve, fun earlier => ?_⟩
  have hlogged := chooseBackend_logged storage earlier device fsType
  rw [hchoose] at hlogged
  have hasked := Backend.outcome_serve_logged registration.fsType registration.backend point .mount
    (earlier ++ choiceCalls device fsType storage) probed
  rw [hserve] at hasked
  rw [outcome_mount_of_chosen ((checkMount_logged storage earlier path device fsType).trans hcheck)
    hlogged hasked, ← List.append_assoc]
  cases answer <;> rfl

end Performs

/-- What a mount comes to: the probes that it makes, then the calls to mount, and the result. -/
structure Mounting (storage : Storage δ ω) (path : String) (device : DeviceHandle) (fsType : FsType)
    (probes mounts : List Call) (result : Except StorageError Unit × Storage δ ω) : Prop where
  performs : Performs (fun _ => mount path device fsType) storage (probes ++ mounts) result
  /-- Only `auto` asks registered backends about the device. -/
  probed : ∀ call ∈ probes, fsType = .auto ∧
    ∃ registration ∈ storage.registry, ∃ claimed, call = .probe registration.fsType device claimed
  /-- The first check that fails refuses the mount before any call. -/
  refused : ∀ cause, firstFailure? (storage.mountChecks path device fsType) = some cause →
    probes = [] ∧ mounts = [] ∧ result = (.error cause, storage)
  length_mounts_le : mounts.length ≤ 1
  /-- A backend is asked to mount exactly if every check passes and, for `auto`, some backend
  claims the device. -/
  asked_iff : mounts ≠ [] ↔
    firstFailure? (storage.mountChecks path device fsType) = none ∧
      (fsType = .auto → ∃ concrete, Call.probe concrete device true ∈ probes)
  /-- Without such a claim every backend has been asked. -/
  unclaimed : firstFailure? (storage.mountChecks path device fsType) = none → mounts = [] →
    result.1 = .error .notFound ∧
      ∀ registration ∈ storage.registry, Call.probe registration.fsType device false ∈ probes
  /-- The call carries the record as it is to stand, and its answer decides. -/
  answered : ∀ call ∈ mounts, ∃ registration ∈ storage.registry,
    ∃ (mountPath : MountPath) (env : Env δ ω) (answer : Except StorageError MountData),
      (fsType ≠ .auto → registration.fsType = fsType) ∧
      (fsType = .auto → Call.probe registration.fsType device true ∈ probes) ∧
      mountPath.text = path ∧
      let point : MountPoint :=
        { id := storage.nextId, path := mountPath, device, fsType := registration.fsType }
      call = .serve registration.fsType point .mount answer ∧
        result = match answer with
          | .error cause => (.error cause, { storage with env })
          | .ok data => (.ok (), { storage with
              env
              mounts := storage.mounts ++ [{ point with data }]
              nextId := storage.nextId.next })
  /-- A mount that succeeds counts the identity up by one, in 32 bits. -/
  counted : result.1 = .ok () →
    result.2.nextId.number.toNat = (storage.nextId.number.toNat + 1) % UInt32.size
  /-- A mount that fails leaves the tables and the counter as they were. -/
  failed : ∀ cause, result.1 = .error cause → SameTables storage result.2

namespace Mounting

variable {storage : Storage δ ω} {path : String} {device : DeviceHandle} {fsType : FsType}

theorem of_refused {cause : StorageError}
    (hcheck : storage.checkMount path device fsType = .error cause) :
    Mounting storage path device fsType [] [] (.error cause, storage) := by
  have hfirst := checkMount_eq_error_iff.mp hcheck
  refine ⟨performs_mount_of_refused hcheck, by simp, ?_, Nat.zero_le _, ?_, ?_, by simp, by simp, ?_⟩
  · intro other hother
    cases hfirst.symm.trans hother
    exact ⟨rfl, rfl, rfl⟩
  · rw [hfirst]
    simp
  · rw [hfirst]
    simp
  · exact fun _ _ => .refl storage

variable {mountPath : MountPath} {probed : Env δ ω}

theorem of_unclaimed (hcheck : storage.checkMount path device fsType = .ok mountPath)
    (hchoose : chooseBackend device fsType storage = (none, probed)) :
    Mounting storage path device fsType (choiceCalls device fsType storage) []
      (.error .notFound, { storage with env := probed }) := by
  have hfirst := firstFailure?_of_checkMount hcheck
  have hauto : fsType = .auto := by
    by_contra hconcrete
    have hbackend := backend?_of_checkMount hcheck hconcrete
    unfold chooseBackend at hchoose
    rw [if_neg hconcrete] at hchoose
    have hnone : (storage.registry.find? fun registration => registration.fsType = fsType) = none :=
      congrArg Prod.fst hchoose
    rw [backend?, hnone] at hbackend
    cases hbackend
  have hcalls := choiceCalls_of_unclaimed hauto hchoose
  refine ⟨by simpa using performs_mount_of_unclaimed hcheck hchoose,
    fun _ hcall => of_mem_choiceCalls hcall, ?_, Nat.zero_le _, ?_, ?_, by simp, by simp, ?_⟩
  · intro cause hcause
    cases hfirst.symm.trans hcause
  · refine iff_of_false (by simp) ?_
    rintro ⟨-, hclaimed⟩
    obtain ⟨concrete, hclaim⟩ := hclaimed hauto
    rw [hcalls] at hclaim
    simp at hclaim
  · refine fun _ _ => ⟨rfl, fun registration hregistration => ?_⟩
    rw [hcalls]
    exact List.mem_map.mpr ⟨registration, mem_probeOrder.mpr hregistration, rfl⟩
  · exact fun _ _ => ⟨probed, rfl⟩

theorem of_chosen {registration : Registration δ ω} {env : Env δ ω}
    {answer : Except StorageError MountData}
    (hcheck : storage.checkMount path device fsType = .ok mountPath)
    (hchoose : chooseBackend device fsType storage = (some registration, probed))
    (hserve : (registration.backend.serve
        { id := storage.nextId, path := mountPath, device, fsType := registration.fsType }
        .mount).outcome probed = (answer, env)) :
    let point : MountPoint :=
      { id := storage.nextId, path := mountPath, device, fsType := registration.fsType }
    Mounting storage path device fsType (choiceCalls device fsType storage)
      [.serve registration.fsType point .mount answer] (storage.mounted point env answer) := by
  intro point
  have hfirst := firstFailure?_of_checkMount hcheck
  obtain ⟨hconcrete, hclaims⟩ := of_chooseBackend hchoose
  have hregistered := mem_of_chooseBackend (congrArg Prod.fst hchoose)
  refine ⟨performs_mount_of_chosen hcheck hchoose hserve, fun _ hcall => of_mem_choiceCalls hcall,
    ?_, Nat.le_refl 1, ?_, ?_, ?_, ?_, ?_⟩
  · intro cause hcause
    cases hfirst.symm.trans hcause
  · exact iff_of_true (by simp) ⟨hfirst, fun hauto => ⟨_, hclaims hauto⟩⟩
  · simp
  · intro call hcall
    refine ⟨registration, hregistered, mountPath, env, answer, hconcrete, hclaims,
      (of_checkMount_eq_ok hcheck).1, List.mem_singleton.mp hcall, ?_⟩
    cases answer <;> rfl
  · intro hok
    cases answer with
    | error _ => cases hok
    | ok data => exact storage.nextId.toNat_next
  · intro cause hcause
    cases answer with
    | error _ => exact ⟨env, rfl⟩
    | ok data => cases hcause

end Mounting

theorem exists_mounting (storage : Storage δ ω) (path : String) (device : DeviceHandle)
    (fsType : FsType) :
    ∃ probes mounts result, Mounting storage path device fsType probes mounts result := by
  cases hcheck : storage.checkMount path device fsType with
  | error cause => exact ⟨_, _, _, Mounting.of_refused hcheck⟩
  | ok mountPath =>
      rcases hchoose : chooseBackend device fsType storage with ⟨_ | registration, probed⟩
      · exact ⟨_, _, _, Mounting.of_unclaimed hcheck hchoose⟩
      · exact ⟨_, _, _, Mounting.of_chosen hcheck hchoose (Prod.eta _).symm⟩

/-- A mount succeeds exactly if a backend was asked to mount and accepted. -/
theorem Mounting.ok_iff {storage : Storage δ ω} {path : String} {device : DeviceHandle}
    {fsType : FsType} {probes mounts : List Call} {result : Except StorageError Unit × Storage δ ω}
    (hmounting : Mounting storage path device fsType probes mounts result) :
    result.1 = .ok () ↔ ∃ concrete point data, Call.serve concrete point .mount (.ok data) ∈ mounts := by
  cases mounts with
  | nil =>
      refine iff_of_false (fun hok => ?_) (by simp)
      cases hfirst : firstFailure? (storage.mountChecks path device fsType) with
      | some cause =>
          rw [(hmounting.refused cause hfirst).2.2] at hok
          cases hok
      | none =>
          rw [(hmounting.unclaimed hfirst rfl).1] at hok
          cases hok
  | cons call rest =>
      obtain rfl : rest = [] := List.length_eq_zero_iff.mp (Nat.le_zero.mp
        (Nat.le_of_succ_le_succ hmounting.length_mounts_le))
      obtain ⟨_, _, _, _, answer, -, -, -, rfl, rfl⟩ := hmounting.answered call (by simp)
      cases answer with
      | error cause => simp
      | ok data => exact iff_of_true rfl ⟨_, _, data, List.mem_singleton.mpr rfl⟩

/-! ## Unmounting -/

/-- What the unmount of a live mount comes to: one call to its backend with the record, and
the result. -/
structure Unmounting (storage : Storage δ ω) (mount : MountPoint) (answer : Except StorageError Unit)
    (result : Except StorageError Unit × Storage δ ω) : Prop where
  performs : Performs (fun _ => unmount mount.path.text) storage
    [.serve mount.fsType mount .unmount answer] result
  /-- A mount that its backend keeps stays. -/
  kept : ∀ cause, answer = .error cause → result.1 = .error cause ∧ SameTables storage result.2
  /-- A mount that its backend lets go of is taken out, and no other. -/
  released : answer = .ok () → result.1 = .ok () ∧ ∃ front back env,
    storage.mounts = front ++ mount :: back ∧
      result.2 = { storage with env, mounts := front ++ back }

section Unmount

variable {storage : Storage δ ω}

theorem performs_unmount_of_none {path : String}
    (hnone : (storage.mounts.find? fun mount => mount.path.text = path) = none) :
    Performs (fun _ => unmount path) storage [] (.error .notSupported, storage) := by
  refine ⟨outcome_unmount_of_none hnone, fun earlier => ?_⟩
  have hlogged : ((storage.logged earlier).mounts.find? fun mount => mount.path.text = path) = none :=
    hnone
  rw [outcome_unmount_of_none hlogged, List.append_nil]

theorem released_logged (mount : MountPoint) (answer : Except StorageError Unit)
    (calls : List Call) :
    released mount (answer, storage.logged calls) =
      let (result, after) := released mount (answer, storage)
      (result, after.logged calls) := by
  cases answer <;> rfl

theorem performs_unmount_of_found {path : String} {mount : MountPoint} {backend : Backend δ ω}
    (hfound : (storage.mounts.find? fun mount => mount.path.text = path) = some mount)
    (hbackend : storage.backend? mount.fsType = some backend) :
    Performs (fun _ => unmount path) storage
      [.serve mount.fsType mount .unmount (ask backend mount .unmount storage).1]
      (released mount (ask backend mount .unmount storage)) := by
  obtain ⟨hplain, hlogged⟩ := performs_serve hbackend .unmount
  refine ⟨?_, fun earlier => ?_⟩
  · rw [outcome_unmount_of_found hfound, hplain]
  · have hkept :
        ((storage.logged earlier).mounts.find? fun mount => mount.path.text = path) = some mount :=
      hfound
    rw [outcome_unmount_of_found hkept, hlogged, released_logged]

/-- With distinct paths, a live mount is the one that its path finds. -/
theorem Sound.find?_path (hsound : storage.Sound) {mount : MountPoint}
    (hmount : mount ∈ storage.mounts) :
    (storage.mounts.find? fun other => other.path.text = mount.path.text) = some mount := by
  have hsame : ∀ other ∈ storage.mounts, other.path.text = mount.path.text → other = mount :=
    fun other hother htext => List.inj_on_of_nodup_map hsound.nodup_paths hother hmount
      ((MountPath.eq_mk_iff mount.path.valid).mpr htext)
  cases hfound : storage.mounts.find? fun other => other.path.text = mount.path.text with
  | none => simpa using List.find?_eq_none.mp hfound mount hmount
  | some other =>
      rw [hsame other (List.mem_of_find?_eq_some hfound) (by simpa using List.find?_some hfound)]

theorem Sound.unmounting (hsound : storage.Sound) {mount : MountPoint} {backend : Backend δ ω}
    (hmount : mount ∈ storage.mounts) (hbackend : storage.backend? mount.fsType = some backend) :
    Unmounting storage mount (ask backend mount .unmount storage).1
      (Storage.released mount (ask backend mount .unmount storage)) := by
  obtain ⟨answer, env, hasked⟩ :
      ∃ answer env, ask backend mount .unmount storage = (answer, { storage with env }) := ⟨_, _, rfl⟩
  have hperforms := performs_unmount_of_found (hsound.find?_path hmount) hbackend
  rw [hasked] at hperforms ⊢
  refine ⟨hperforms, ?_, ?_⟩
  · rintro cause rfl
    exact ⟨rfl, env, rfl⟩
  · rintro rfl
    obtain ⟨front, back, -, hmounts, herase⟩ := List.exists_erase_eq hmount
    refine ⟨rfl, front, back, env, hmounts, ?_⟩
    rw [Storage.released, herase]

end Unmount

variable [DiskDriver δ]

/-- After every run a mount and an unmount are all or nothing, whatever the backends answer.
A mount asks one backend, once, if every check passes, and enters its record exactly if that
backend accepts. An unmount of a live mount asks its backend, once, and removes the record
exactly if that backend lets go; without such a mount no backend is asked. -/
theorem mount_unmount_after (blocks : BlockDevices δ) (host : ω) (run : List (Operation δ ω)) :
    let storage := (ofBlocks blocks host).after run
    (∀ path device fsType, ∃ probes mounts result,
      Mounting storage path device fsType probes mounts result ∧
      (result.1 = .ok () ↔
        ∃ concrete point data, Call.serve concrete point .mount (.ok data) ∈ mounts)) ∧
    (∀ path, (∀ mount ∈ storage.mounts, mount.path.text ≠ path) →
      Performs (fun _ => unmount path) storage [] (.error .notSupported, storage)) ∧
    ∀ mount ∈ storage.mounts, ∃ backend, storage.backend? mount.fsType = some backend ∧
      ∃ result, Unmounting storage mount (ask backend mount .unmount storage).1 result := by
  intro storage
  have hsound : storage.Sound := sound_after blocks host run
  refine ⟨fun path device fsType => ?_, fun path habsent => ?_, fun mount hmount => ?_⟩
  · obtain ⟨probes, mounts, result, hmounting⟩ := exists_mounting storage path device fsType
    exact ⟨probes, mounts, result, hmounting, hmounting.ok_iff⟩
  · exact performs_unmount_of_none (List.find?_eq_none.mpr (by simpa using habsent))
  · obtain ⟨backend, hbackend⟩ := hsound.backend?_isSome hmount
    exact ⟨backend, hbackend, _, hsound.unmounting hmount hbackend⟩

/-- A mount over a live one, a mount that is asked for, and an unmount in the middle of the
table. -/
theorem mount_unmount_after_handset :
    let storage := (ofBlocks (Handset.blocks id) ()).after
      [.register .ext4 (.mountOnly : Backend RamDisk Unit), .mount "/os" ⟨.user, 2⟩ .ext4,
        .mount "/os/data" ⟨.user, 3⟩ .ext4]
    Performs (fun _ => mount "/os" ⟨.user, 3⟩ .ext4) storage [] (.error .busy, storage) ∧
    (∃ mounts result, mounts ≠ [] ∧ Mounting storage "/boot" ⟨.user, 1⟩ .ext4 [] mounts result) ∧
    Performs (fun _ => unmount "/os/") storage [] (.error .notSupported, storage) ∧
    ∃ mount ∈ storage.mounts, mount.path.text = "/os" ∧
      ∃ answer result, Unmounting storage mount answer result := by
  intro storage
  have hbusy : firstFailure? (storage.mountChecks "/os" ⟨.user, 3⟩ .ext4) = some .busy := by
    decide +kernel
  have hpasses : firstFailure? (storage.mountChecks "/boot" ⟨.user, 1⟩ .ext4) = none := by
    decide +kernel
  have habsent : ∀ mount ∈ storage.mounts, mount.path.text ≠ "/os/" := by decide +kernel
  have hlive : ∃ mount ∈ storage.mounts, mount.path.text = "/os" := by decide +kernel
  obtain ⟨hmount, hmissing, hunmount⟩ := mount_unmount_after (Handset.blocks id) ()
    [.register .ext4 (.mountOnly : Backend RamDisk Unit), .mount "/os" ⟨.user, 2⟩ .ext4,
      .mount "/os/data" ⟨.user, 3⟩ .ext4]
  refine ⟨?_, ?_, hmissing "/os/" habsent, ?_⟩
  · obtain ⟨probes, mounts, result, hmounting, -⟩ := hmount "/os" ⟨.user, 3⟩ .ext4
    obtain ⟨rfl, rfl, rfl⟩ := hmounting.refused .busy hbusy
    exact hmounting.performs
  · obtain ⟨probes, mounts, result, hmounting, -⟩ := hmount "/boot" ⟨.user, 1⟩ .ext4
    have hasked : mounts ≠ [] := hmounting.asked_iff.mpr ⟨hpasses, by simp⟩
    have hprobes : probes = [] := List.eq_nil_iff_forall_not_mem.mpr fun call hcall => by
      cases (hmounting.probed call hcall).1
    exact ⟨mounts, result, hasked, hprobes ▸ hmounting⟩
  · obtain ⟨mount, hmember, hpath⟩ := hlive
    obtain ⟨backend, -, result, hunmounting⟩ := hunmount mount hmember
    exact ⟨mount, hmember, hpath, _, result, hunmounting⟩

end Storage

end StorageStack

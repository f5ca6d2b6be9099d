import StorageStack.Proofs.Storage.Operations

/-! # Changes of the tables

Whatever the backends answer, an operation changes the registry and the mount table in a few
ways only. A run is a sequence of such changes, and puts as many records into the mount
table as mounts succeed in it.
-/

namespace StorageStack

variable {δ ω : Type}

/-- Count an answer. The first cause of failure is kept. -/
def MountSummary.count (summary : MountSummary) : Except StorageError Unit → MountSummary
  | .ok _ => { summary with mounted := summary.mounted + 1 }
  | .error cause =>
      { summary with
        failed := summary.failed + 1
        firstError := summary.firstError.or (some cause) }

namespace Storage

/-- The storage layer with one more record in the mount table. -/
def entered (storage : Storage δ ω) (point : MountPoint) (env : Env δ ω) : Storage δ ω :=
  { storage with env, mounts := storage.mounts ++ [point], nextId := storage.nextId.next }

/-- What a mount comes to once the backend has answered. -/
def mounted (storage : Storage δ ω) (point : MountPoint) (env : Env δ ω) :
    Except StorageError MountData → Except StorageError Unit × Storage δ ω
  | .error cause => (.error cause, { storage with env })
  | .ok data => (.ok (), storage.entered { point with data } env)

/-- What an unmount comes to once the backend has answered. -/
def released (mount : MountPoint) :
    Except StorageError Unit × Storage δ ω → Except StorageError Unit × Storage δ ω
  | (.error cause, after) => (.error cause, after)
  | (.ok _, after) => (.ok (), { after with mounts := after.mounts.erase mount })

/-- One change of the storage layer, with the records that it puts into the mount table. -/
inductive Change (storage : Storage δ ω) : List MountPoint → Storage δ ω → Prop
  | environment (env : Env δ ω) : Change storage [] { storage with env }
  | register (registration : Registration δ ω) (hconcrete : registration.fsType ≠ .auto)
      (hnew : storage.backend? registration.fsType = none)
      (hroom : storage.registry.length < Limits.maxBackends) :
      Change storage [] { storage with registry := storage.registry ++ [registration] }
  | mount (point : MountPoint) (env : Env δ ω) (hid : point.id = storage.nextId)
      (hnew : ∀ mount ∈ storage.mounts, mount.path ≠ point.path)
      (hroom : storage.mounts.length < Limits.maxMounts)
      (hserved : ∃ registration ∈ storage.registry, registration.fsType = point.fsType) :
      Change storage [point] (storage.entered point env)
  | unmount (mount : MountPoint) (env : Env δ ω) :
      Change storage [] { storage with env, mounts := storage.mounts.erase mount }
  | unmountAll (env : Env δ ω) : Change storage [] { storage with env, mounts := [] }

/-- A sequence of changes, with the records that they put into the mount table in order. -/
inductive Evolves (start : Storage δ ω) : List MountPoint → Storage δ ω → Prop
  | refl : Evolves start [] start
  | tail {made new : List MountPoint} {between after : Storage δ ω}
      (hprior : Evolves start made between) (hchange : Change between new after) :
      Evolves start (made ++ new) after

theorem Change.evolves {storage after : Storage δ ω} {made : List MountPoint}
    (hchange : Change storage made after) : Evolves storage made after :=
  .tail .refl hchange

theorem Evolves.trans {first second third : Storage δ ω} {before later : List MountPoint}
    (hfirst : Evolves first before second) (hsecond : Evolves second later third) :
    Evolves first (before ++ later) third := by
  induction hsecond with
  | refl =>
      rw [List.append_nil]
      exact hfirst
  | tail _ hchange ih =>
      rw [← List.append_assoc]
      exact ih.tail hchange

theorem SameTables.change {storage after : Storage δ ω} (hsame : SameTables storage after) :
    Change storage [] after := by
  obtain ⟨env, rfl⟩ := hsame
  exact .environment env

/-- The records that a change puts into the mount table stand behind those that were there. -/
theorem Change.drop_mounts {storage after : Storage δ ω} {made : List MountPoint}
    (hchange : Change storage made after) : after.mounts.drop storage.mounts.length = made := by
  cases hchange with
  | environment | register => exact List.drop_length
  | mount => exact List.drop_left
  | unmount mount => exact List.drop_eq_nil_of_le List.erase_sublist.length_le
  | unmountAll => exact List.drop_nil

/-! ## Mounting -/

theorem mem_of_detect {device : DeviceHandle} {candidates : List (Registration δ ω)}
    {env : Env δ ω} {registration : Registration δ ω}
    (hdetect : (detect device candidates env).1 = some registration) :
    registration ∈ candidates := by
  induction candidates generalizing env with
  | nil => cases hdetect
  | cons candidate rest ih =>
      rw [detect] at hdetect
      rcases hprobe : candidate.backend.probe device env with ⟨_ | _, probed⟩
      · rw [hprobe] at hdetect
        exact List.mem_cons_of_mem _ (ih hdetect)
      · rw [hprobe] at hdetect
        cases hdetect
        exact List.mem_cons_self

/-- Only a registered backend is chosen. -/
theorem mem_of_chooseBackend {storage : Storage δ ω} {device : DeviceHandle} {fsType : FsType}
    {registration : Registration δ ω}
    (hchoose : (chooseBackend device fsType storage).1 = some registration) :
    registration ∈ storage.registry := by
  unfold chooseBackend at hchoose
  by_cases hauto : fsType = .auto
  · rw [if_pos hauto] at hchoose
    have hmem := mem_of_detect hchoose
    simp only [probeOrder, List.mem_append, List.mem_filter] at hmem
    exact hmem.elim And.left And.left
  · rw [if_neg hauto] at hchoose
    exact List.mem_of_find?_eq_some hchoose

/-- A mount that passes the checks has a new path and finds room in the table. -/
theorem of_checkMount_eq_ok {storage : Storage δ ω} {path : String} {device : DeviceHandle}
    {fsType : FsType} {mountPath : MountPath}
    (hcheck : storage.checkMount path device fsType = .ok mountPath) :
    mountPath.text = path ∧ (∀ mount ∈ storage.mounts, mount.path ≠ mountPath) ∧
      storage.mounts.length < Limits.maxMounts := by
  unfold checkMount MountPath.ofString? at hcheck
  by_cases hvalid : IsMountPath path
  · simp only [dif_pos hvalid] at hcheck
    split at hcheck
    · cases hcheck
    · next hbusy =>
      split at hcheck
      · cases hcheck
      · next hfull =>
        split at hcheck
        · cases hcheck
        · split at hcheck
          · cases hcheck
          · cases hcheck
            refine ⟨rfl, fun mount hmount hpath => hbusy ?_, Nat.lt_of_not_le hfull⟩
            exact List.any_eq_true.mpr ⟨mount, hmount, decide_eq_true hpath⟩
  · simp [dif_neg hvalid] at hcheck

theorem outcome_mount_of_refused {storage : Storage δ ω} {path : String} {device : DeviceHandle}
    {fsType : FsType} {cause : StorageError}
    (hcheck : storage.checkMount path device fsType = .error cause) :
    (mount path device fsType).outcome storage = (.error cause, storage) := by
  unfold Action.outcome mount
  rw [hcheck]

theorem outcome_mount_of_unclaimed {storage : Storage δ ω} {path : String} {device : DeviceHandle}
    {fsType : FsType} {mountPath : MountPath} {probed : Env δ ω}
    (hcheck : storage.checkMount path device fsType = .ok mountPath)
    (hchoose : chooseBackend device fsType storage = (none, probed)) :
    (mount path device fsType).outcome storage =
      (.error .notFound, { storage with env := probed }) := by
  unfold Action.outcome mount
  rw [hcheck]
  dsimp only
  rw [hchoose]

/-- A mount that passes the checks and finds a backend is decided by the answer of that
backend. Once the backend has accepted it, nothing is left that could fail. -/
theorem outcome_mount_of_chosen {storage : Storage δ ω} {path : String} {device : DeviceHandle}
    {fsType : FsType} {mountPath : MountPath} {registration : Registration δ ω}
    {probed env : Env δ ω} {answer : Except StorageError MountData}
    (hcheck : storage.checkMount path device fsType = .ok mountPath)
    (hchoose : chooseBackend device fsType storage = (some registration, probed))
    (hserve : (registration.backend.serve
        { id := storage.nextId, path := mountPath, device, fsType := registration.fsType }
        .mount).outcome probed = (answer, env)) :
    (mount path device fsType).outcome storage =
      storage.mounted { id := storage.nextId, path := mountPath, device, fsType := registration.fsType }
        env answer := by
  have hroom := (of_checkMount_eq_ok hcheck).2.2
  unfold Action.outcome mount
  rw [hcheck]
  dsimp only
  rw [hchoose]
  dsimp only
  cases answer with
  | error cause =>
      rw [Action.outcome_eq_error_iff.mp hserve]
      rfl
  | ok data =>
      rw [Action.outcome_eq_ok_iff.mp hserve]
      dsimp only
      rw [enter, if_neg (Nat.not_le.mpr hroom)]
      rfl

theorem mount_of_accepted {storage : Storage δ ω} {path : String} {device : DeviceHandle}
    {fsType : FsType} {mountPath : MountPath} {registration : Registration δ ω}
    {probed env : Env δ ω} {data : MountData}
    (hcheck : storage.checkMount path device fsType = .ok mountPath)
    (hchoose : chooseBackend device fsType storage = (some registration, probed))
    (haccepts : registration.backend.serve
      { id := storage.nextId, path := mountPath, device, fsType := registration.fsType }
      .mount probed = .ok data env) :
    mount path device fsType storage =
      .ok () (storage.entered ⟨storage.nextId, mountPath, device, registration.fsType, data⟩ env) := by
  rw [← Action.outcome_eq_ok_iff]
  exact outcome_mount_of_chosen hcheck hchoose (Action.outcome_eq_ok_iff.mpr haccepts)

/-- A mount fails and leaves the tables alone, or is checked, given to a backend, accepted
by it and entered into the table. -/
theorem mount_cases (storage : Storage δ ω) (path : String) (device : DeviceHandle)
    (fsType : FsType) :
    (∃ cause after, mount path device fsType storage = .error cause after ∧
        SameTables storage after) ∨
      ∃ mountPath registration probed data env,
        storage.checkMount path device fsType = .ok mountPath ∧
        chooseBackend device fsType storage = (some registration, probed) ∧
        registration.backend.serve
          { id := storage.nextId, path := mountPath, device, fsType := registration.fsType }
          .mount probed = .ok data env := by
  cases hcheck : storage.checkMount path device fsType with
  | error cause =>
      have hmount := outcome_mount_of_refused hcheck
      exact Or.inl ⟨cause, storage, Action.outcome_eq_error_iff.mp hmount, .refl storage⟩
  | ok mountPath =>
      rcases hchoose : chooseBackend device fsType storage with ⟨_ | registration, probed⟩
      · have hmount := outcome_mount_of_unclaimed hcheck hchoose
        exact Or.inl ⟨.notFound, _, Action.outcome_eq_error_iff.mp hmount, probed, rfl⟩
      · cases hserve : registration.backend.serve
            { id := storage.nextId, path := mountPath, device, fsType := registration.fsType }
            .mount probed with
        | error cause env =>
            have hmount :=
              outcome_mount_of_chosen hcheck hchoose (Action.outcome_eq_error_iff.mpr hserve)
            exact Or.inl ⟨cause, _, Action.outcome_eq_error_iff.mp hmount, env, rfl⟩
        | ok data env => exact Or.inr ⟨mountPath, registration, probed, data, env, rfl, rfl, hserve⟩

theorem sameTables_of_mount_error {storage after : Storage δ ω} {path : String}
    {device : DeviceHandle} {fsType : FsType} {cause : StorageError}
    (hmount : mount path device fsType storage = .error cause after) :
    SameTables storage after := by
  rcases mount_cases storage path device fsType with
    ⟨_, _, herror, hsame⟩ | ⟨_, _, _, _, _, hcheck, hchoose, haccepts⟩
  · cases herror.symm.trans hmount
    exact hsame
  · cases (mount_of_accepted hcheck hchoose haccepts).symm.trans hmount

theorem change_of_mount_ok {storage after : Storage δ ω} {path : String} {device : DeviceHandle}
    {fsType : FsType} (hmount : mount path device fsType storage = .ok () after) :
    ∃ point, after.mounts = storage.mounts ++ [point] ∧ Change storage [point] after := by
  rcases mount_cases storage path device fsType with
    ⟨_, _, herror, _⟩ | ⟨_, registration, _, _, env, hcheck, hchoose, haccepts⟩
  · cases herror.symm.trans hmount
  · cases (mount_of_accepted hcheck hchoose haccepts).symm.trans hmount
    obtain ⟨_, hnew, hroom⟩ := of_checkMount_eq_ok hcheck
    have hregistered := mem_of_chooseBackend (congrArg Prod.fst hchoose)
    exact ⟨_, rfl, .mount _ env rfl hnew hroom ⟨registration, hregistered, rfl⟩⟩

/-- Mounting a table is mounting its first entry, counting the answer, and going on with the rest. -/
theorem mountAll_cons {entry : MountEntry} {rest : List MountEntry} {summary : MountSummary}
    {storage after : Storage δ ω} {answer : Except StorageError Unit}
    (hmount : (mount entry.path entry.device entry.fsType).outcome storage = (answer, after)) :
    mountAll (entry :: rest) summary storage = mountAll rest (summary.count answer) after := by
  rw [mountAll]
  cases answer with
  | ok _ => rw [Action.outcome_eq_ok_iff.mp hmount, MountSummary.count]
  | error cause => rw [Action.outcome_eq_error_iff.mp hmount, MountSummary.count]

/-- Mounting a table puts the records behind those that are there, one for each success. -/
theorem evolves_mountAll (entries : List MountEntry) (summary : MountSummary)
    (storage : Storage δ ω) :
    ∃ made, summary.mounted + made.length = (mountAll entries summary storage).1.mounted ∧
      (mountAll entries summary storage).2.mounts = storage.mounts ++ made ∧
      Evolves storage made (mountAll entries summary storage).2 := by
  induction entries generalizing summary storage with
  | nil => exact ⟨[], rfl, (List.append_nil _).symm, .refl⟩
  | cons entry rest ih =>
      rcases hmount : (mount entry.path entry.device entry.fsType).outcome storage with ⟨answer, after⟩
      rw [mountAll_cons hmount]
      obtain ⟨made, hcount, hlater, hmade⟩ := ih (summary.count answer) after
      rcases answer with cause | _
      · obtain ⟨env, rfl⟩ := sameTables_of_mount_error (Action.outcome_eq_error_iff.mp hmount)
        rw [MountSummary.count] at hcount
        exact ⟨[] ++ made, hcount, hlater, (Change.environment env).evolves.trans hmade⟩
      · obtain ⟨point, hmounts, hpoint⟩ := change_of_mount_ok (Action.outcome_eq_ok_iff.mp hmount)
        refine ⟨[point] ++ made, ?_, ?_, hpoint.evolves.trans hmade⟩
        · rw [← hcount, MountSummary.count, List.length_append, List.length_singleton, Nat.add_assoc]
        · rw [hlater, hmounts, List.append_assoc]

/-! ## The other operations on the tables -/

theorem outcome_unmount_of_none {storage : Storage δ ω} {path : String}
    (hnone : (storage.mounts.find? fun mount => mount.path.text = path) = none) :
    (unmount path).outcome storage = (.error .notSupported, storage) := by
  unfold Action.outcome unmount
  rw [hnone]

/-- An unmount of a live mount is decided by the answer of its backend. -/
theorem outcome_unmount_of_found {storage : Storage δ ω} {path : String} {mount : MountPoint}
    (hfound : (storage.mounts.find? fun mount => mount.path.text = path) = some mount) :
    (unmount path).outcome storage = released mount ((serve mount .unmount).outcome storage) := by
  unfold Action.outcome unmount
  rw [hfound]
  dsimp only
  cases serve mount .unmount storage <;> rfl

theorem change_released {storage after : Storage δ ω} (mount : MountPoint)
    (answer : Except StorageError Unit) (hsame : SameTables storage after) :
    Change storage [] (released mount (answer, after)).2 := by
  cases answer with
  | error cause => exact hsame.change
  | ok _ =>
      obtain ⟨env, rfl⟩ := hsame
      exact .unmount mount env

theorem change_unmount (path : String) (storage : Storage δ ω) :
    Change storage [] ((unmount path).outcome storage).2 := by
  cases hfind : storage.mounts.find? fun mount => mount.path.text = path with
  | none =>
      rw [outcome_unmount_of_none hfind]
      exact (SameTables.refl storage).change
  | some mount =>
      rw [outcome_unmount_of_found hfind]
      exact change_released mount _ (sameTables_serve storage mount .unmount)

theorem sameTables_releaseEach (mounts : List MountPoint) (storage : Storage δ ω) :
    SameTables storage (releaseEach mounts storage).2 := by
  induction mounts generalizing storage with
  | nil => exact .refl storage
  | cons mount rest ih =>
      have hserve := sameTables_serve storage mount .unmount
      unfold Action.outcome at hserve
      rw [releaseEach]
      cases hanswer : serve mount .unmount storage with
      | ok _ after =>
          rw [hanswer] at hserve
          exact hserve.trans (ih after)
      | error cause after =>
          rw [hanswer] at hserve
          exact hserve.trans (ih after)

theorem change_unmountAll (storage : Storage δ ω) :
    Change storage [] (unmountAll.outcome storage).2 := by
  obtain ⟨env, henv⟩ := sameTables_releaseEach storage.mounts.reverse storage
  unfold Action.outcome unmountAll
  rcases hrelease : releaseEach storage.mounts.reverse storage with ⟨_ | cause, after⟩
  · rw [hrelease] at henv
    obtain rfl : after = _ := henv
    exact .unmountAll env
  · rw [hrelease] at henv
    obtain rfl : after = _ := henv
    exact .unmountAll env

theorem change_register (fsType : FsType) (backend : Backend δ ω) (storage : Storage δ ω) :
    Change storage [] ((register fsType backend).outcome storage).2 := by
  unfold Action.outcome register
  by_cases hauto : fsType = .auto
  · rw [if_pos hauto]
    exact (SameTables.refl storage).change
  · rw [if_neg hauto]
    by_cases hknown : (storage.backend? fsType).isSome
    · rw [if_pos hknown]
      exact (SameTables.refl storage).change
    · rw [if_neg hknown]
      by_cases hfull : Limits.maxBackends ≤ storage.registry.length
      · rw [if_pos hfull]
        exact (SameTables.refl storage).change
      · rw [if_neg hfull]
        exact .register ⟨fsType, backend⟩ hauto (by simpa using hknown) (Nat.lt_of_not_le hfull)

theorem sameTables_probeDisks [DiskDriver δ] (storage : Storage δ ω) :
    SameTables storage ((onBlocks BlockDevices.probeAll).outcome storage).2 := by
  rw [onBlocks, Action.outcome_within]
  exact ⟨_, rfl⟩

/-! ## Runs -/

variable [DiskDriver δ]

/-- Every operation but the mounting of a table is one change. -/
theorem change_state_or_mountTable (operation : Operation δ ω) (storage : Storage δ ω) :
    (∃ made, made.length = operation.mountCount storage ∧
        Change storage made (operation.state storage)) ∨
      ∃ entries, operation = .mountTable entries := by
  cases operation with
  | mountTable entries => exact .inr ⟨entries, rfl⟩
  | mount path device fsType =>
      left
      dsimp only [Operation.mountCount, Operation.state, Action.outcome]
      cases hmount : mount path device fsType storage with
      | ok _ after =>
          obtain ⟨point, -, hpoint⟩ := change_of_mount_ok hmount
          exact ⟨[point], rfl, hpoint⟩
      | error cause after => exact ⟨[], rfl, (sameTables_of_mount_error hmount).change⟩
  | register fsType backend => exact .inl ⟨[], rfl, change_register fsType backend storage⟩
  | probeDisks => exact .inl ⟨[], rfl, (sameTables_probeDisks storage).change⟩
  | outside change => exact .inl ⟨[], rfl, .environment _⟩
  | unmount path => exact .inl ⟨[], rfl, change_unmount path storage⟩
  | unmountAll => exact .inl ⟨[], rfl, change_unmountAll storage⟩
  | onPath request path =>
      exact .inl ⟨[], rfl, (show SameTables _ _ from outcome_onPath request path storage).change⟩
  | rename source target => exact .inl ⟨[], rfl, (sameTables_rename storage source target).change⟩
  | openFile path options => exact .inl ⟨[], rfl, (sameTables_openFile storage path options).change⟩
  | onFile file request => exact .inl ⟨[], rfl, (sameTables_onFile storage file request).change⟩
  | writeAll file bytes => exact .inl ⟨[], rfl, (sameTables_writeAll storage file bytes).change⟩
  | closeFile file => exact .inl ⟨[], rfl, (sameTables_closeFile storage file).change⟩
  | openDir path => exact .inl ⟨[], rfl, (sameTables_openDir storage path).change⟩
  | readDir attempts dir => exact .inl ⟨[], rfl, (sameTables_readDir storage attempts dir).change⟩
  | closeDir dir => exact .inl ⟨[], rfl, (sameTables_closeDir storage dir).change⟩

/-- An operation is a sequence of changes, with a record for each mount that succeeds. -/
theorem evolves_newMounts (operation : Operation δ ω) (storage : Storage δ ω) :
    (operation.newMounts storage).length = operation.mountCount storage ∧
      Evolves storage (operation.newMounts storage) (operation.state storage) := by
  rcases change_state_or_mountTable operation storage with ⟨made, hcount, hchange⟩ | ⟨entries, rfl⟩
  · rw [Operation.newMounts, hchange.drop_mounts]
    exact ⟨hcount, hchange.evolves⟩
  · obtain ⟨made, hcount, hmounts, hmade⟩ := evolves_mountAll entries {} storage
    have hnew : (Operation.mountTable entries).newMounts storage = made :=
      (congrArg (List.drop _) hmounts).trans List.drop_left
    rw [hnew]
    exact ⟨(Nat.zero_add _).symm.trans hcount, hmade⟩

/-- A run is a sequence of changes. -/
theorem evolves_mountLog (storage : Storage δ ω) (run : List (Operation δ ω)) :
    (storage.mountLog run).length = storage.mountCount run ∧
      Evolves storage (storage.mountLog run) (storage.after run) := by
  induction run generalizing storage with
  | nil => exact ⟨rfl, .refl⟩
  | cons operation rest ih =>
      obtain ⟨hfirst, hstep⟩ := evolves_newMounts operation storage
      obtain ⟨hlater, hrest⟩ := ih (operation.state storage)
      refine ⟨?_, hstep.trans hrest⟩
      rw [mountLog, List.length_append, hfirst, hlater, mountCount]

/-- What every change keeps, every run keeps. -/
theorem after_induct {motive : Storage δ ω → Prop}
    (step : ∀ {storage after : Storage δ ω} {made : List MountPoint}, Change storage made after →
      motive storage → motive after)
    {storage : Storage δ ω} (hstorage : motive storage) (run : List (Operation δ ω)) :
    motive (storage.after run) := by
  have hevolves := (evolves_mountLog storage run).2
  generalize storage.after run = after, storage.mountLog run = made at hevolves
  induction hevolves with
  | refl => exact hstorage
  | tail _ hchange ih => exact step hchange ih

end Storage

end StorageStack

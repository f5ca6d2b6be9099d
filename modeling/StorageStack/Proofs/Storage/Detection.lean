import StorageStack.Backend.Script
import StorageStack.Proofs.Storage.Atomicity

/-! # Detecting the type of a device

A mount of the type `auto` asks the backends whether the device holds their format. The type code of
the partition decides which of them is asked first and nothing else: a backend is mounted only after
it has claimed the device, and none is asked behind the first that does.
-/

namespace StorageStack.Storage

variable {δ ω : Type}

/-- The type code of the device's partition suggests the type. -/
def Suggests (storage : Storage δ ω) (device : DeviceHandle) (fsType : FsType) : Prop :=
  ∃ partition, storage.env.blocks.partition device = .ok partition ∧
    FsType.ofTypeCode? partition.typeCode = some fsType

/-- The order of asking: the backend of the suggested type in front, if there is one, and the others
as they were registered. -/
inductive AskingOrder (registry : List (Registration δ ω)) (suggests : FsType → Prop) :
    List (Registration δ ω) → Prop
  | suggested {front back : List (Registration δ ω)} {registration : Registration δ ω}
      (hregistry : registry = front ++ registration :: back)
      (hsuggests : suggests registration.fsType) :
      AskingOrder registry suggests (registration :: (front ++ back))
  | registered (hnone : ∀ registration ∈ registry, ¬ suggests registration.fsType) :
      AskingOrder registry suggests registry

/-- A mount by detection: the calls to the backends, which are asked in order, and the result. -/
inductive Detection (storage : Storage δ ω) (path : String) (device : DeviceHandle)
    (order : List (Registration δ ω)) : List Call → Except StorageError Unit × Storage δ ω → Prop
  | unclaimed {env : Env δ ω} (hdeclines : Declines device order storage.env env) :
      Detection storage path device order
        (order.map fun registration => .probe registration.fsType device false)
        (.error .notFound, { storage with env })
  | claimed {front back : List (Registration δ ω)} {claimant : Registration δ ω}
      {asked probed env : Env δ ω} {mountPath : MountPath} {answer : Except StorageError MountData}
      (horder : order = front ++ claimant :: back)
      (hdeclines : Declines device front storage.env asked)
      (hclaims : claimant.backend.probe device asked = (true, probed))
      (hpath : mountPath.text = path)
      (hanswer : (claimant.backend.serve
        { id := storage.nextId, path := mountPath, device, fsType := claimant.fsType }
        .mount).outcome probed = (answer, env)) :
      Detection storage path device order
        (front.map (fun registration => .probe registration.fsType device false) ++
          [.probe claimant.fsType device true,
            .serve claimant.fsType
              { id := storage.nextId, path := mountPath, device, fsType := claimant.fsType }
              .mount answer])
        (storage.mounted
          { id := storage.nextId, path := mountPath, device, fsType := claimant.fsType } env answer)

theorem suggestedType?_eq_some_iff {storage : Storage δ ω} {device : DeviceHandle} {fsType : FsType} :
    storage.suggestedType? device = some fsType ↔ storage.Suggests device fsType := by
  unfold suggestedType? Suggests
  cases storage.env.blocks.partition device <;> simp

/-! ## The order of asking -/

theorem AskingOrder.perm {registry order : List (Registration δ ω)} {suggests : FsType → Prop}
    (horder : AskingOrder registry suggests order) : order.Perm registry := by
  cases horder with
  | suggested hregistry => exact hregistry ▸ List.perm_middle.symm
  | registered => exact .refl _

/-- Of backends that do not have the suggested type, none goes to the front. -/
theorem filter_of_unsuggested {suggested : Option FsType} {others : List (Registration δ ω)}
    (hnone : ∀ other ∈ others, suggested ≠ some other.fsType) :
    others.filter (fun other => suggested = some other.fsType) = [] ∧
      others.filter (fun other => suggested ≠ some other.fsType) = others :=
  ⟨List.filter_eq_nil_iff.mpr (by simpa using hnone), List.filter_eq_self.mpr (by simpa using hnone)⟩

theorem probeOrder_of_unsuggested {suggested : Option FsType} {registry : List (Registration δ ω)}
    (hnone : ∀ registration ∈ registry, suggested ≠ some registration.fsType) :
    probeOrder suggested registry = registry := by
  obtain ⟨hchosen, hleft⟩ := filter_of_unsuggested hnone
  rw [probeOrder, hchosen, hleft, List.nil_append]

theorem probeOrder_of_suggested {suggested : Option FsType} {front back : List (Registration δ ω)}
    {registration : Registration δ ω} (hsuggested : suggested = some registration.fsType)
    (hnone : ∀ other ∈ front ++ back, suggested ≠ some other.fsType) :
    probeOrder suggested (front ++ registration :: back) = registration :: (front ++ back) := by
  obtain ⟨hfront, hback⟩ := List.forall_mem_append.mp hnone
  obtain ⟨hfrontchosen, hfrontleft⟩ := filter_of_unsuggested hfront
  obtain ⟨hbackchosen, hbackleft⟩ := filter_of_unsuggested hback
  rw [probeOrder, List.filter_append, List.filter_append, List.filter_cons_of_pos (by simpa),
    List.filter_cons_of_neg (by simpa), hfrontchosen, hfrontleft, hbackchosen, hbackleft]
  rfl

theorem askingOrder_probeOrder {storage : Storage δ ω}
    (htypes : (storage.registry.map (·.fsType)).Nodup) (device : DeviceHandle) :
    AskingOrder storage.registry (storage.Suggests device)
      (probeOrder (storage.suggestedType? device) storage.registry) := by
  by_cases hfound : ∃ registration ∈ storage.registry, storage.Suggests device registration.fsType
  · obtain ⟨registration, hregistration, hsuggests⟩ := hfound
    obtain ⟨front, back, hregistry⟩ := List.append_of_mem hregistration
    have hsuggested := suggestedType?_eq_some_iff.mpr hsuggests
    have hothers : ∀ other ∈ front ++ back,
        storage.suggestedType? device ≠ some other.fsType := by
      rw [hregistry, List.map_append, List.map_cons, List.nodup_middle, ← List.map_append] at htypes
      intro other hother htype
      refine (List.nodup_cons.mp htypes).1 (List.mem_map.mpr ⟨other, hother, ?_⟩)
      exact Option.some.inj (htype.symm.trans hsuggested)
    rw [hregistry, probeOrder_of_suggested hsuggested hothers]
    exact .suggested rfl hsuggests
  · have hnone : ∀ registration ∈ storage.registry,
        storage.suggestedType? device ≠ some registration.fsType := by
      intro registration hregistration hsuggested
      exact hfound ⟨registration, hregistration, suggestedType?_eq_some_iff.mp hsuggested⟩
    rw [probeOrder_of_unsuggested hnone]
    exact .registered fun registration hregistration hsuggests =>
      hfound ⟨registration, hregistration, hsuggests⟩

/-! ## Detection -/

section Detection

variable {storage : Storage δ ω} {path : String} {device : DeviceHandle}

/-- A mount by detection that passes the checks asks the backends in the order of probing. -/
theorem exists_detection {mountPath : MountPath}
    (hcheck : storage.checkMount path device .auto = .ok mountPath) :
    ∃ calls result,
      Detection storage path device (probeOrder (storage.suggestedType? device) storage.registry)
        calls result ∧
      Performs (fun _ => mount path device .auto) storage calls result := by
  have hchoice : chooseBackend device .auto storage =
      detect device (probeOrder (storage.suggestedType? device) storage.registry) storage.env :=
    if_pos rfl
  have hcalls : choiceCalls device .auto storage =
      probeCalls device (probeOrder (storage.suggestedType? device) storage.registry) storage.env :=
    if_pos rfl
  rcases detect_cases device (probeOrder (storage.suggestedType? device) storage.registry)
      storage.env with
    ⟨env, hdeclines, hdetect, hprobes⟩ |
    ⟨front, claimant, back, asked, probed, horder, hdeclines, hclaims, hdetect, hprobes⟩
  · have hperforms := performs_mount_of_unclaimed hcheck (hchoice.trans hdetect)
    rw [hcalls, hprobes] at hperforms
    exact ⟨_, _, .unclaimed hdeclines, hperforms⟩
  · have hperforms := performs_mount_of_chosen hcheck (hchoice.trans hdetect) (Prod.eta _).symm
    dsimp only at hperforms
    rw [hcalls, hprobes, List.append_assoc] at hperforms
    exact ⟨_, _, .claimed horder hdeclines hclaims (of_checkMount_eq_ok hcheck).1 (Prod.eta _).symm,
      hperforms⟩

variable {order : List (Registration δ ω)} {calls : List Call}
  {result : Except StorageError Unit × Storage δ ω}

/-- A backend that is asked to mount has claimed the device. -/
theorem Detection.claimed_of_serve (hdetection : Detection storage path device order calls result)
    {fsType : FsType} {point : MountPoint} {request : Request}
    {answer : Except StorageError request.Reply}
    (hcall : Call.serve fsType point request answer ∈ calls) :
    Call.probe fsType device true ∈ calls := by
  cases hdetection with
  | unclaimed => simp at hcall
  | claimed =>
      rcases List.mem_append.mp hcall with hfront | hlast
      · obtain ⟨_, -, hprobe⟩ := List.mem_map.mp hfront
        cases hprobe
      · rcases List.mem_cons.mp hlast with hprobe | hserve
        · cases hprobe
        · cases List.mem_singleton.mp hserve
          simp

end Detection

/-- With an explicit type no backend is asked about the device. -/
theorem not_probe_of_explicit (storage : Storage δ ω) (path : String) (device : DeviceHandle)
    {fsType : FsType} (hexplicit : fsType ≠ .auto) :
    ∀ call ∈ callsOf (fun _ => mount path device fsType) storage,
      ∃ point answer, call = .serve fsType point .mount answer := by
  obtain ⟨probes, mounts, result, hmounting⟩ := exists_mounting storage path device fsType
  rw [hmounting.performs.callsOf_eq]
  intro call hcall
  rcases List.mem_append.mp hcall with hprobe | hmount
  · exact absurd (hmounting.probed call hprobe).1 hexplicit
  · obtain ⟨registration, -, mountPath, env, answer, htype, -, -, rfl, -⟩ :=
      hmounting.answered call hmount
    rw [htype hexplicit]
    exact ⟨_, answer, rfl⟩

variable [DiskDriver δ]

/-- After every run, whatever the backends answer, a mount by detection asks no backend before all
checks have passed. Then it asks each at most once: the one of the type that the partition suggests
first, if it is registered, and the others in the order of registration, up to the first that claims
the device. That backend, and no other, is asked to mount; if there is none, the device is not
found. A mount of an explicit type asks no backend about the device. -/
theorem detection_after (blocks : BlockDevices δ) (host : ω) (run : List (Operation δ ω))
    (path : String) (device : DeviceHandle) :
    let storage := (ofBlocks blocks host).after run
    (∀ cause, firstFailure? (storage.mountChecks path device .auto) = some cause →
      Performs (fun _ => mount path device .auto) storage [] (.error cause, storage)) ∧
    (firstFailure? (storage.mountChecks path device .auto) = none →
      ∃ order calls result, AskingOrder storage.registry (storage.Suggests device) order ∧
        order.Perm storage.registry ∧ (order.map (·.fsType)).Nodup ∧
        Detection storage path device order calls result ∧
        Performs (fun _ => mount path device .auto) storage calls result ∧
        ∀ fsType point request answer, Call.serve fsType point request answer ∈ calls →
          Call.probe fsType device true ∈ calls) ∧
    ∀ fsType, fsType ≠ .auto → ∀ call ∈ callsOf (fun _ => mount path device fsType) storage,
      ∃ point answer, call = .serve fsType point .mount answer := by
  intro storage
  have htypes : (storage.registry.map (·.fsType)).Nodup := (sound_after blocks host run).nodup_types
  refine ⟨fun cause hcause => ?_, fun hpasses => ?_, fun fsType => ?_⟩
  · exact performs_mount_of_refused (checkMount_eq_error_iff.mpr hcause)
  · obtain ⟨mountPath, hcheck⟩ := exists_checkMount_iff.mpr hpasses
    have horder := askingOrder_probeOrder htypes device
    obtain ⟨calls, result, hdetection, hperforms⟩ := exists_detection hcheck
    exact ⟨_, calls, result, horder, horder.perm, ((horder.perm.map _).nodup_iff).mpr htypes,
      hdetection, hperforms, fun _ _ _ _ => hdetection.claimed_of_serve⟩
  · exact not_probe_of_explicit storage path device

/-- The type code suggests a backend that declines, so the mount goes to another one, and has its
type. -/
theorem detection_after_declined :
    let script : Script := { probes := [false, true], answers := [⟨"mount", .ok (.number 5)⟩] }
    let storage := (ofBlocks (Handset.blocks id) script).after
      [.register .fat (Script.backend (.whole Script)),
        .register .littleFs (Script.backend (.whole Script))]
    firstFailure? (storage.mountChecks "/user" ⟨.user, 5⟩ .auto) = none ∧
      storage.suggestedType? ⟨.user, 5⟩ = some .littleFs ∧
      ∃ order calls result, AskingOrder storage.registry (storage.Suggests ⟨.user, 5⟩) order ∧
        Detection storage "/user" ⟨.user, 5⟩ order calls result ∧
        Performs (fun _ => mount "/user" ⟨.user, 5⟩ .auto) storage calls result ∧
        result.2.mounts.map (·.fsType) = [.fat] := by
  intro script storage
  have hanswers : firstFailure? (storage.mountChecks "/user" ⟨.user, 5⟩ .auto) = none ∧
      storage.suggestedType? ⟨.user, 5⟩ = some .littleFs ∧
      ((mount "/user" ⟨.user, 5⟩ .auto).outcome storage).2.mounts.map (·.fsType) = [.fat] := by
    decide +kernel
  obtain ⟨hpasses, hsuggested, hmounted⟩ := hanswers
  obtain ⟨-, hdetected, -⟩ := detection_after (Handset.blocks id) script
    [.register .fat (Script.backend (.whole Script)),
      .register .littleFs (Script.backend (.whole Script))] "/user" ⟨.user, 5⟩
  obtain ⟨order, calls, result, horder, -, -, hdetection, hperforms, -⟩ := hdetected hpasses
  have hresult : (mount "/user" ⟨.user, 5⟩ .auto).outcome storage = result := hperforms.1
  rw [hresult] at hmounted
  exact ⟨hpasses, hsuggested, order, calls, result, horder, hdetection, hperforms, hmounted⟩

end StorageStack.Storage

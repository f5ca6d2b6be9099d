import StorageStack.Proofs.Storage.Calls

/-! # The choice of a backend

To find the backend of a device, backends are asked one after the other up to the first that
claims it. Which of them are asked, and what each has answered, is stated as a list of calls.
-/

namespace StorageStack.Storage

variable {δ ω : Type}

/-- The calls that detecting a device takes: backends are asked in order, up to the first one
that claims the device. -/
def probeCalls (device : DeviceHandle) : List (Registration δ ω) → Env δ ω → List Call
  | [], _ => []
  | registration :: rest, env =>
      match registration.backend.probe device env with
      | (true, _) => [.probe registration.fsType device true]
      | (false, env) => .probe registration.fsType device false :: probeCalls device rest env

theorem detect_logged (device : DeviceHandle) (candidates : List (Registration δ ω)) (env : Env δ ω)
    (calls : List Call) :
    detect device (candidates.map Registration.logged) (env.logged calls) =
      let (found, after) := detect device candidates env
      (found.map Registration.logged, after.logged (calls ++ probeCalls device candidates env)) := by
  induction candidates generalizing env calls with
  | nil => simp [detect, probeCalls]
  | cons candidate rest ih =>
      rw [List.map_cons, detect, detect, probeCalls, Registration.logged, Backend.probe_logged]
      rcases candidate.backend.probe device env with ⟨_ | _, probed⟩
      · dsimp only
        rw [ih, List.append_assoc]
        rfl
      · rfl

/-- Backends that are asked about the device in order, each where the one before it has left the
environment, and that do not claim it. -/
inductive Declines (device : DeviceHandle) : List (Registration δ ω) → Env δ ω → Env δ ω → Prop
  | nil (env : Env δ ω) : Declines device [] env env
  | cons {registration : Registration δ ω} {rest : List (Registration δ ω)}
      {env between after : Env δ ω} (hprobe : registration.backend.probe device env = (false, between))
      (hrest : Declines device rest between after) : Declines device (registration :: rest) env after

/-- Either every backend is asked and none claims the device, or the first one that claims it
is found, and those before it do not. -/
theorem detect_cases (device : DeviceHandle) (candidates : List (Registration δ ω)) (env : Env δ ω) :
    (∃ after, Declines device candidates env after ∧
      detect device candidates env = (none, after) ∧
      probeCalls device candidates env =
        candidates.map fun registration => .probe registration.fsType device false) ∨
    ∃ front registration back asked after, candidates = front ++ registration :: back ∧
      Declines device front env asked ∧ registration.backend.probe device asked = (true, after) ∧
      detect device candidates env = (some registration, after) ∧
      probeCalls device candidates env =
        front.map (fun passed => .probe passed.fsType device false) ++
          [.probe registration.fsType device true] := by
  induction candidates generalizing env with
  | nil => exact Or.inl ⟨env, .nil env, rfl, rfl⟩
  | cons candidate rest ih =>
      rw [detect, probeCalls]
      rcases hprobe : candidate.backend.probe device env with ⟨_ | _, probed⟩
      · dsimp only
        rcases ih probed with ⟨after, hdeclines, hdetect, hcalls⟩ |
          ⟨front, registration, back, asked, after, rfl, hdeclines, hclaims, hdetect, hcalls⟩
        · exact Or.inl ⟨after, .cons hprobe hdeclines, hdetect, by rw [hcalls, List.map_cons]⟩
        · refine Or.inr ⟨candidate :: front, registration, back, asked, after, rfl,
            .cons hprobe hdeclines, hclaims, hdetect, ?_⟩
          rw [hcalls, List.map_cons, List.cons_append]
      · exact Or.inr ⟨[], candidate, rest, env, probed, rfl, .nil env, hprobe, rfl, rfl⟩

/-- The calls that choosing a backend takes: only `auto` asks for any. -/
def choiceCalls (device : DeviceHandle) (fsType : FsType) (storage : Storage δ ω) : List Call :=
  if fsType = .auto then
    probeCalls device (probeOrder (storage.suggestedType? device) storage.registry) storage.env
  else []

theorem probeOrder_logged (suggested : Option FsType) (registry : List (Registration δ ω)) :
    probeOrder suggested (registry.map Registration.logged) =
      (probeOrder suggested registry).map Registration.logged := by
  unfold probeOrder
  rw [List.map_append, List.filter_map, List.filter_map]
  rfl

theorem mem_probeOrder {suggested : Option FsType} {registry : List (Registration δ ω)}
    {registration : Registration δ ω} :
    registration ∈ probeOrder suggested registry ↔ registration ∈ registry := by
  unfold probeOrder
  by_cases hsuggested : suggested = some registration.fsType <;> simp [hsuggested]

section Logged

variable (storage : Storage δ ω) (calls : List Call) (device : DeviceHandle) (fsType : FsType)

theorem chooseBackend_logged :
    chooseBackend device fsType (storage.logged calls) =
      let (chosen, env) := chooseBackend device fsType storage
      (chosen.map Registration.logged, env.logged (calls ++ choiceCalls device fsType storage)) := by
  unfold chooseBackend choiceCalls
  by_cases hauto : fsType = .auto
  · rw [if_pos hauto, if_pos hauto, if_pos hauto]
    change detect device (probeOrder (storage.suggestedType? device)
      (storage.registry.map Registration.logged)) (storage.env.logged calls) = _
    rw [probeOrder_logged, detect_logged]
  · rw [if_neg hauto, if_neg hauto, if_neg hauto, find?_logged, List.append_nil]
    rfl

end Logged

/-- Choosing a backend asks only registered ones, and only for `auto`. -/
theorem of_mem_choiceCalls {storage : Storage δ ω} {device : DeviceHandle} {fsType : FsType}
    {call : Call} (hcall : call ∈ choiceCalls device fsType storage) :
    fsType = .auto ∧ ∃ registration ∈ storage.registry, ∃ claimed,
      call = .probe registration.fsType device claimed := by
  unfold choiceCalls at hcall
  by_cases hauto : fsType = .auto
  · rw [if_pos hauto] at hcall
    refine ⟨hauto, ?_⟩
    rcases detect_cases device (probeOrder (storage.suggestedType? device) storage.registry)
      storage.env with
      ⟨_, -, -, hcalls⟩ | ⟨front, registration, back, _, _, horder, -, -, -, hcalls⟩
    · rw [hcalls] at hcall
      obtain ⟨passed, hpassed, rfl⟩ := List.mem_map.mp hcall
      exact ⟨passed, mem_probeOrder.mp hpassed, false, rfl⟩
    · rw [hcalls] at hcall
      have hmem : ∀ asked ∈ front ++ registration :: back, asked ∈ storage.registry :=
        fun asked hasked => mem_probeOrder.mp (horder ▸ hasked)
      rcases List.mem_append.mp hcall with hfront | hlast
      · obtain ⟨passed, hpassed, rfl⟩ := List.mem_map.mp hfront
        exact ⟨passed, hmem passed (List.mem_append_left _ hpassed), false, rfl⟩
      · exact ⟨registration, hmem registration (by simp), true, List.mem_singleton.mp hlast⟩
  · rw [if_neg hauto] at hcall
    cases hcall

/-- Where no backend is chosen for `auto`, each has been asked and has not claimed the device. -/
theorem choiceCalls_of_unclaimed {storage : Storage δ ω} {device : DeviceHandle} {fsType : FsType}
    {probed : Env δ ω} (hauto : fsType = .auto)
    (hchoose : chooseBackend device fsType storage = (none, probed)) :
    choiceCalls device fsType storage =
      (probeOrder (storage.suggestedType? device) storage.registry).map
        fun registration => .probe registration.fsType device false := by
  unfold chooseBackend at hchoose
  rw [if_pos hauto] at hchoose
  rw [choiceCalls, if_pos hauto]
  rcases detect_cases device (probeOrder (storage.suggestedType? device) storage.registry)
    storage.env with ⟨_, -, -, hcalls⟩ | ⟨_, _, _, _, _, -, -, -, hdetect, -⟩
  · exact hcalls
  · cases hdetect.symm.trans hchoose

/-- The backend that is chosen serves the type that was named, or has claimed the device. -/
theorem of_chooseBackend {storage : Storage δ ω} {device : DeviceHandle} {fsType : FsType}
    {registration : Registration δ ω} {probed : Env δ ω}
    (hchoose : chooseBackend device fsType storage = (some registration, probed)) :
    (fsType ≠ .auto → registration.fsType = fsType) ∧
      (fsType = .auto →
        Call.probe registration.fsType device true ∈ choiceCalls device fsType storage) := by
  unfold chooseBackend at hchoose
  refine ⟨fun hconcrete => ?_, fun hauto => ?_⟩
  · rw [if_neg hconcrete] at hchoose
    simpa using List.find?_some (congrArg Prod.fst hchoose)
  · rw [if_pos hauto] at hchoose
    rw [choiceCalls, if_pos hauto]
    rcases detect_cases device (probeOrder (storage.suggestedType? device) storage.registry)
      storage.env with ⟨_, -, hdetect, -⟩ | ⟨_, claimant, _, _, _, -, -, -, hdetect, hcalls⟩
    · cases hdetect.symm.trans hchoose
    · cases hdetect.symm.trans hchoose
      rw [hcalls]
      simp

end StorageStack.Storage

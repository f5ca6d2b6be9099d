import StorageStack.Proofs.Storage.MemoryTraffic

/-! # Storage layers over one memory filesystem

The storage layer and the memory filesystem agree on what they have given out. The record of each
live mount carries a number of its own that the memory filesystem knows, and the memory filesystem
is consistent. Every regular run from the beginning keeps it so.
-/

namespace StorageStack

theorem MemoryFs.mountVolume_eq_ok {info : Except StorageError BlockInfo} {path : String}
    {fs after : MemoryFs} {data : MountData}
    (hmount : (mountVolume info path).outcome fs = (.ok data, after)) :
    data.value = fs.lastId + 1 ∧ after.lastId = fs.lastId + 1 := by
  rw [Action.outcome_eq_ok_iff] at hmount
  dsimp only [mountVolume] at hmount
  split at hmount
  · cases hmount
  · split at hmount
    · cases hmount
    · cases hmount
      exact ⟨rfl, rfl⟩

namespace Storage

variable {δ ω : Type} [DiskDriver δ]

/-- What holds of a storage layer that works on the memory filesystem in a part of the host. -/
structure Hosts (part : Part ω MemoryFs) (storage : Storage δ ω) : Prop where
  sound : storage.Sound
  regular : storage.Regular part
  consistent : (storage.memory part).Consistent
  accounted : (storage.memory part).Accounted
  bounded : ∀ mount ∈ storage.mounts, storage.Answers part mount →
    mount.data.value ≤ (storage.memory part).lastId
  distinct : ∀ first ∈ storage.mounts, ∀ second ∈ storage.mounts, storage.Answers part first →
    storage.Answers part second → first.data = second.data → first = second

variable {part : Part ω MemoryFs} {storage after : Storage δ ω}

theorem hosts_ofBlocks (blocks : BlockDevices δ) {host : ω} (hfresh : part.get host = {}) :
    Hosts part (ofBlocks blocks host) where
  sound := sound_ofBlocks blocks host
  regular registration hregistration := by cases hregistration
  consistent := by
    change (part.get host).Consistent
    rw [hfresh]
    exact MemoryFs.consistent_empty
  accounted := by
    change (part.get host).Accounted
    rw [hfresh]
    exact Nat.zero_le _
  bounded mount hmount := by cases hmount
  distinct first hfirst := by cases hfirst

omit [DiskDriver δ] in
/-- A request about a path of a live mount goes out with an absolute path. -/
theorem isAbsolute_relative {path : String} {mount : MountPoint}
    (hpath : storage.resolve path = .ok mount) : IsAbsolute (mount.path.relative path) :=
  (MountPath.relative_of_covers
    (MountPoint.of_longestCover?_eq_some (resolve_eq_ok_iff.mp hpath).2).2.1).1

omit [DiskDriver δ] in
/-- Mounts with the same path have their paths relative to the same. -/
theorem resolve_eq_of_path_eq (hsound : storage.Sound) {path other : String}
    {first second : MountPoint} (hfirst : storage.resolve path = .ok first)
    (hsecond : storage.resolve other = .ok second) (hsame : second.path = first.path) :
    second = first :=
  List.inj_on_of_nodup_map hsound.nodup_paths (mem_of_resolve hsecond) (mem_of_resolve hfirst) hsame

/-- What an operation asks the memory filesystem is proper. -/
theorem Hosts.proper (hhosts : Hosts part storage) {operation : Operation δ ω} {mount : MountPoint}
    {request : Request} (hanswers : storage.Answers part mount)
    (hasked : operation.Asks storage mount request) :
    request.Proper mount (storage.memory part).lastId := by
  cases hasked with
  | onPath hpath | openFile hpath | openDir hpath =>
      exact ⟨isAbsolute_relative hpath, hhosts.bounded mount (mem_of_resolve hpath) hanswers⟩
  | rename hsource htarget hsame =>
      obtain rfl := resolve_eq_of_path_eq hhosts.sound hsource htarget hsame
      exact ⟨⟨isAbsolute_relative hsource, isAbsolute_relative htarget⟩,
        hhosts.bounded _ (mem_of_resolve hsource) hanswers⟩
  | mount | mountTable | unmount | unmountAll | onFile | writeAll | closeFile | readDir | closeDir =>
      trivial

/-- A live mount is answered for by the backend that it had before. -/
theorem answers_of_change {made : List MountPoint} (hchange : Change storage made after)
    (hsound : storage.Sound) {mount : MountPoint} (hmount : mount ∈ storage.mounts) :
    after.Answers part mount ↔ storage.Answers part mount := by
  obtain ⟨backend, hbackend⟩ := hsound.backend?_isSome hmount
  rw [Answers, Answers, hchange.backend?_eq_some hbackend, hbackend]

/-- Traffic of proper requests is seen by no mount record that stays. -/
theorem Hosts.of_traffic (hhosts : Hosts part storage) (hchange : Change storage [] after)
    (hregular : after.Regular part) {asked : MountPoint → Request → Prop}
    (htraffic : MemoryFs.Traffic asked (storage.memory part) (after.memory part))
    (hproper : ∀ mount request, asked mount request →
      request.Proper mount (storage.memory part).lastId) : Hosts part after := by
  have hstays : ∀ mount ∈ after.mounts, mount ∈ storage.mounts := by
    cases hchange with
    | environment | register => exact fun _ hmount => hmount
    | unmount => exact fun _ hmount => List.erase_subset hmount
    | unmountAll => exact fun _ hmount => absurd hmount List.not_mem_nil
  have hanswers : ∀ mount ∈ after.mounts, after.Answers part mount → storage.Answers part mount :=
    fun mount hmount => (answers_of_change hchange hhosts.sound (hstays mount hmount)).mp
  refine ⟨hchange.sound hhosts.sound, hregular, htraffic.consistent hproper hhosts.consistent,
    htraffic.accounted hhosts.accounted, fun mount hmount hlater => ?_,
    fun first hfirst second hsecond hfirst' hsecond' hdata => ?_⟩
  · exact Nat.le_trans (hhosts.bounded mount (hstays mount hmount) (hanswers mount hmount hlater))
      htraffic.lastId_le
  · exact hhosts.distinct first (hstays first hfirst) second (hstays second hsecond)
      (hanswers first hfirst hfirst') (hanswers second hsecond hsecond') hdata

/-- A proper request leaves the storage layer and the memory filesystem in agreement. -/
theorem Hosts.after_serve (hhosts : Hosts part storage) {mount : MountPoint} {request : Request}
    (hproper : storage.Answers part mount → request.Proper mount (storage.memory part).lastId) :
    Hosts part ((serve mount request).outcome storage).2 := by
  have hsame := sameTables_serve storage mount request
  have htraffic : MemoryFs.Traffic
      (fun point asked => storage.Answers part point ∧ point = mount ∧ asked = request)
      (storage.memory part) (((serve mount request).outcome storage).2.memory part) :=
    traffic_serve hhosts.regular ⟨rfl, rfl⟩
  refine hhosts.of_traffic hsame.change ((regular_congr hsame.registry_eq).mpr hhosts.regular)
    htraffic ?_
  rintro _ _ ⟨hanswers, rfl, rfl⟩
  exact hproper hanswers

/-- A new record carries the number given out last, or is none of the memory filesystem's. -/
theorem Hosts.after_mount (hhosts : Hosts part storage) (path : String) (device : DeviceHandle)
    (fsType : FsType) : Hosts part ((mount path device fsType).outcome storage).2 := by
  have hsound := sound_mount hhosts.sound path device fsType
  have hregular := (regular_congr (registry_mount storage path device fsType)).mpr hhosts.regular
  have htraffic := traffic_mount hhosts.sound hhosts.regular path device fsType
  have hproper (point : MountPoint) (request : Request)
      (hasked : storage.Answers part point ∧ request = .mount) :
      request.Proper point (storage.memory part).lastId := hasked.2 ▸ trivial
  have hconsistent := htraffic.consistent hproper hhosts.consistent
  have haccounted := htraffic.accounted hhosts.accounted
  rcases mount_seen hhosts.sound hhosts.regular path device fsType with
    ⟨cause, env, houtcome, -⟩ | ⟨point, env, houtcome, hseen⟩
  all_goals rw [houtcome] at hsound hregular htraffic hconsistent haccounted ⊢
  · exact hhosts.of_traffic (.environment env) hregular htraffic hproper
  · have hnumber : storage.Answers part point → point.data.value = (storage.memory part).lastId + 1 ∧
        (part.get env.host).lastId = (storage.memory part).lastId + 1 := by
      intro hanswers
      rcases hseen with ⟨-, info, hserve⟩ | ⟨hunanswered, -⟩
      · exact MemoryFs.mountVolume_eq_ok hserve
      · exact absurd hanswers hunanswered
    -- Records that are live carry numbers given out before, so none of them carries the new one.
    have hnew : ∀ mount ∈ storage.mounts, storage.Answers part mount → storage.Answers part point →
        mount.data ≠ point.data := by
      intro mount hmount hanswers hpoint hdata
      have hbound := hhosts.bounded mount hmount hanswers
      rw [hdata, (hnumber hpoint).1] at hbound
      exact Nat.not_succ_le_self _ hbound
    refine ⟨hsound, hregular, hconsistent, haccounted, fun mount hmount hanswers => ?_,
      fun first hfirst second hsecond hfirst' hsecond' hdata => ?_⟩
    · rcases List.mem_append.mp hmount with hold | hlast
      · exact Nat.le_trans (hhosts.bounded mount hold hanswers) htraffic.lastId_le
      · obtain rfl := List.mem_singleton.mp hlast
        have hgiven := hnumber hanswers
        exact Nat.le_of_eq (hgiven.1.trans hgiven.2.symm)
    · rcases List.mem_append.mp hfirst with hold | hlast <;>
        rcases List.mem_append.mp hsecond with hold' | hlast'
      · exact hhosts.distinct first hold second hold' hfirst' hsecond' hdata
      · obtain rfl := List.mem_singleton.mp hlast'
        exact absurd hdata (hnew first hold hfirst' hsecond')
      · obtain rfl := List.mem_singleton.mp hlast
        exact absurd hdata.symm (hnew second hold' hsecond' hfirst')
      · rw [List.mem_singleton.mp hlast, List.mem_singleton.mp hlast']

theorem Hosts.after_mountAll (hhosts : Hosts part storage) (entries : List MountEntry)
    (summary : MountSummary) : Hosts part (mountAll entries summary storage).2 := by
  induction entries generalizing summary storage with
  | nil => exact hhosts
  | cons entry rest ih =>
      have hfirst := hhosts.after_mount entry.path entry.device entry.fsType
      rcases hmount : (mount entry.path entry.device entry.fsType).outcome storage with ⟨answer, after⟩
      rw [hmount] at hfirst
      rw [mountAll_cons hmount]
      exact ih hfirst _

omit [DiskDriver δ] in
theorem registry_mountAll (entries : List MountEntry) (summary : MountSummary) :
    (mountAll entries summary storage).2.registry = storage.registry := by
  induction entries generalizing summary storage with
  | nil => rfl
  | cons entry rest ih =>
      have hfirst := registry_mount storage entry.path entry.device entry.fsType
      rcases hmount : (mount entry.path entry.device entry.fsType).outcome storage with ⟨answer, after⟩
      rw [hmount] at hfirst
      rw [mountAll_cons hmount]
      exact (ih _).trans hfirst

omit [DiskDriver δ] in
theorem registry_unmount (path : String) :
    ((unmount path).outcome storage).2.registry = storage.registry := by
  cases hfound : storage.mounts.find? fun mount => mount.path.text = path with
  | none => rw [outcome_unmount_of_none hfound]
  | some mount =>
      have hserve := (sameTables_serve storage mount .unmount).registry_eq
      rw [outcome_unmount_of_found hfound]
      rcases hanswer : (serve mount .unmount).outcome storage with ⟨_ | _, after⟩
      all_goals
        rw [hanswer] at hserve
        exact hserve

omit [DiskDriver δ] in
theorem registry_unmountAll : (unmountAll.outcome storage).2.registry = storage.registry := by
  have hrelease := (sameTables_releaseEach storage.mounts.reverse storage).registry_eq
  unfold Action.outcome unmountAll
  rcases hanswer : releaseEach storage.mounts.reverse storage with ⟨_ | cause, after⟩
  all_goals
    rw [hanswer] at hrelease
    exact hrelease

/-- Only a registration changes the registry. -/
theorem regular_state (hregular : storage.Regular part) {operation : Operation δ ω}
    (hoperation : operation.Regular part) : (operation.state storage).Regular part := by
  cases operation with
  | register fsType backend =>
      dsimp only [Operation.state]
      unfold Action.outcome register
      by_cases hauto : fsType = .auto
      · rw [if_pos hauto]
        exact hregular
      · rw [if_neg hauto]
        split_ifs
        · exact hregular
        · exact hregular
        · intro registration hregistration
          rcases List.mem_append.mp hregistration with hold | hnew
          · exact hregular registration hold
          · rw [List.mem_singleton.mp hnew]
            exact hoperation
  | mount path device fsType =>
      exact (regular_congr (registry_mount storage path device fsType)).mpr hregular
  | mountTable entries => exact (regular_congr (registry_mountAll entries {})).mpr hregular
  | unmount path => exact (regular_congr (registry_unmount path)).mpr hregular
  | unmountAll => exact (regular_congr registry_unmountAll).mpr hregular
  | outside change => exact hregular
  | probeDisks => exact (regular_congr (sameTables_probeDisks storage).registry_eq).mpr hregular
  | onPath request path =>
      exact (regular_congr (SameTables.registry_eq (outcome_onPath request path storage))).mpr hregular
  | rename source target =>
      exact (regular_congr (sameTables_rename storage source target).registry_eq).mpr hregular
  | openFile path options =>
      exact (regular_congr (sameTables_openFile storage path options).registry_eq).mpr hregular
  | onFile file request =>
      exact (regular_congr (sameTables_onFile storage file request).registry_eq).mpr hregular
  | writeAll file bytes =>
      exact (regular_congr (sameTables_writeAll storage file bytes).registry_eq).mpr hregular
  | closeFile file =>
      exact (regular_congr (sameTables_closeFile storage file).registry_eq).mpr hregular
  | openDir path => exact (regular_congr (sameTables_openDir storage path).registry_eq).mpr hregular
  | readDir attempts dir =>
      exact (regular_congr (sameTables_readDir storage attempts dir).registry_eq).mpr hregular
  | closeDir dir => exact (regular_congr (sameTables_closeDir storage dir).registry_eq).mpr hregular

/-- A regular operation leaves the storage layer and the memory filesystem in agreement. -/
theorem Hosts.state (hhosts : Hosts part storage) {operation : Operation δ ω}
    (hoperation : operation.Regular part) : Hosts part (operation.state storage) := by
  -- Only these two add records: after every other operation a live record was live before.
  by_cases hmount : (∃ path device fsType, operation = .mount path device fsType) ∨
      ∃ entries, operation = .mountTable entries
  · rcases hmount with ⟨path, device, fsType, rfl⟩ | ⟨entries, rfl⟩
    · exact hhosts.after_mount path device fsType
    · exact hhosts.after_mountAll entries {}
  · rcases change_state_or_mountTable operation storage with ⟨made, hcount, hchange⟩ | htable
    · have hnone : operation.mountCount storage = 0 := by
        cases operation with
        | mount path device fsType => exact absurd (.inl ⟨path, device, fsType, rfl⟩) hmount
        | mountTable entries => exact absurd (.inr ⟨entries, rfl⟩) hmount
        | _ => rfl
      obtain rfl := List.eq_nil_of_length_eq_zero (hcount.trans hnone)
      exact hhosts.of_traffic hchange (regular_state hhosts.regular hoperation)
        (traffic_state hhosts.sound hhosts.regular hoperation)
        fun mount request hasked => hhosts.proper hasked.1 hasked.2
    · exact absurd (.inr htable) hmount

theorem Hosts.after_run (hhosts : Hosts part storage) {run : List (Operation δ ω)}
    (hrun : ∀ operation ∈ run, operation.Regular part) : Hosts part (storage.after run) := by
  induction run generalizing storage with
  | nil => exact hhosts
  | cons operation rest ih =>
      obtain ⟨hfirst, hrest⟩ := List.forall_mem_cons.mp hrun
      exact ih (hhosts.state hfirst) hrest

/-! ## Requests to the memory filesystem -/

omit [DiskDriver δ] in
/-- No mount covers the root directory. -/
theorem ne_root_of_resolve {path : String} {mount : MountPoint}
    (hpath : storage.resolve path = .ok mount) : path ≠ "/" := by
  have hcovers := (MountPoint.of_longestCover?_eq_some (resolve_eq_ok_iff.mp hpath).2).2.1
  obtain ⟨rest, hrest, -⟩ := (MountPath.covers_iff mount.path path).mp hcovers
  rintro rfl
  have hsize : 1 < mount.path.text.utf8ByteSize := mount.path.valid.2.1
  have hlonger : mount.path.text ++ String.ofList rest = "/" :=
    String.toList_inj.mp (by rw [String.toList_append, String.toList_ofList, hrest])
  have htotal := congrArg String.utf8ByteSize hlonger
  rw [String.utf8ByteSize_append, show "/".utf8ByteSize = 1 from rfl] at htotal
  omega

namespace Answers

variable {mount : MountPoint} {path : String} (hanswers : storage.Answers part mount)

include hanswers

theorem outcome_onPath (hpath : storage.resolve path = .ok mount) (request : PathRequest) :
    (onPath request path).outcome storage =
      let answer := storage.memoryOutcome mount part (.onPath request (mount.path.relative path))
      (answer.1, storage.mapHost (part.set answer.2)) := by
  rw [outcome_onPath_of_resolve hpath, hanswers.outcome_serve]

theorem outcome_onMount (hlive : storage.mountOf? mount.id = some mount) (request : Request) :
    (onMount mount.id request).outcome storage =
      let answer := storage.memoryOutcome mount part request
      (answer.1, storage.mapHost (part.set answer.2)) := by
  rw [outcome_onMount_of_mountOf? hlive, hanswers.outcome_serve]

theorem outcome_openFile (hpath : storage.resolve path = .ok mount) (options : OpenOptions) :
    (openFile path options).outcome storage =
      let answer := storage.memoryOutcome mount part
        (.onPath (.openFile options) (mount.path.relative path))
      (answer.1.map fun handle => ⟨handle, some mount.id⟩, storage.mapHost (part.set answer.2)) := by
  rw [outcome_openFile_of_resolve hpath, hanswers.outcome_serve]

theorem outcome_openDir (hpath : storage.resolve path = .ok mount) :
    (openDir path).outcome storage =
      let answer := storage.memoryOutcome mount part (.onPath .openDir (mount.path.relative path))
      (answer.1.map fun handle => .backend handle mount.id,
        storage.mapHost (part.set answer.2)) := by
  rw [outcome_openDir_of_resolve (ne_root_of_resolve hpath) hpath, hanswers.outcome_serve]

omit hanswers in
/-- What answers for a mount goes on to answer for it. -/
theorem after_run (hanswers : storage.Answers part mount) (run : List (Operation δ ω)) :
    (storage.after run).Answers part mount := by
  obtain ⟨signature, hbackend⟩ := hanswers
  exact ⟨signature, backend?_after hbackend run⟩

end Answers

end Storage

end StorageStack

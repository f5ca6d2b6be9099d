import StorageStack.Handset
import StorageStack.Proofs.Storage.Handles

/-! # When identities come round

The counter of identities has 32 bits and wraps around. Two mounts of a run take the same
identity exactly if the number of mounts from the one to the other is a multiple of
`UInt32.size`. A run that is long enough therefore leaves two live mounts with one identity,
or lets a mount answer for a file that was opened on an earlier one.
-/

namespace StorageStack

namespace Storage

variable {δ ω : Type}

/-- A mount that succeeds enters one record, and the record takes the next identity. -/
theorem of_mount_eq_ok {storage after : Storage δ ω} {path : String} {device : DeviceHandle}
    {fsType : FsType} (hmount : mount path device fsType storage = .ok () after) :
    ∃ point env, point.id = storage.nextId ∧ after = storage.entered point env := by
  obtain ⟨point, -, hchange⟩ := change_of_mount_ok hmount
  cases hchange with
  | mount _ env hid => exact ⟨point, env, hid, rfl⟩

theorem state_mount [DiskDriver δ] {storage after : Storage δ ω} {path : String}
    {device : DeviceHandle} {fsType : FsType}
    (hmount : mount path device fsType storage = .ok () after) :
    (Operation.mount path device fsType).state storage = after := by
  rw [Operation.state, Action.outcome_eq_ok_iff.mpr hmount]

theorem Change.nextId {storage after : Storage δ ω} {new : List MountPoint} {index : Nat}
    (hchange : Change storage new after) (hindex : storage.nextId = .ofIndex index) :
    after.nextId = .ofIndex (index + new.length) := by
  cases hchange with
  | environment | register | unmount | unmountAll => exact hindex
  | mount point env _ _ _ _ =>
      dsimp only [entered]
      rw [hindex, MountId.next_ofIndex, List.length_singleton]

theorem Evolves.nextId {start after : Storage δ ω} {made : List MountPoint} {index : Nat}
    (hevolves : Evolves start made after) (hindex : start.nextId = .ofIndex index) :
    after.nextId = .ofIndex (index + made.length) := by
  induction hevolves with
  | refl => exact hindex
  | tail _ hchange ih =>
      rw [List.length_append, ← Nat.add_assoc]
      exact hchange.nextId ih

section Run

variable [DiskDriver δ]

/-- Each mount moves the counter on by one, and nothing else does. -/
theorem nextId_after {storage : Storage δ ω} {index : Nat}
    (hindex : storage.nextId = .ofIndex index) (run : List (Operation δ ω)) :
    (storage.after run).nextId = .ofIndex (index + storage.mountCount run) := by
  obtain ⟨hlength, hevolves⟩ := evolves_mountLog storage run
  rw [← hlength]
  exact hevolves.nextId hindex

/-- Two mounts of a run take the same identity exactly if the number of mounts from the one to
the other is a multiple of `UInt32.size`. -/
theorem mount_identities_eq_iff (blocks : BlockDevices δ) (host : ω)
    (before between : List (Operation δ ω)) {path laterPath : String}
    {device laterDevice : DeviceHandle} {fsType laterType : FsType} {first second : Storage δ ω}
    (hfirst : mount path device fsType ((ofBlocks blocks host).after before) = .ok () first)
    (hsecond : mount laterPath laterDevice laterType (first.after between) = .ok () second) :
    ∃ point later,
      first.mounts = ((ofBlocks blocks host).after before).mounts ++ [point] ∧
      second.mounts = (first.after between).mounts ++ [later] ∧
      (point.id = later.id ↔ UInt32.size ∣ first.mountCount between + 1) := by
  obtain ⟨point, env, hpoint, rfl⟩ := of_mount_eq_ok hfirst
  obtain ⟨later, laterEnv, hlater, rfl⟩ := of_mount_eq_ok hsecond
  refine ⟨point, later, rfl, rfl, ?_⟩
  have hstart : (ofBlocks blocks host : Storage δ ω).nextId = .ofIndex 0 := rfl
  have hbefore := nextId_after hstart before
  have hentered : (((ofBlocks blocks host).after before).entered point env).nextId = _ :=
    (congrArg MountId.next hbefore).trans (MountId.next_ofIndex _)
  have hbetween := nextId_after hentered between
  have hsize : UInt32.size = 4294967296 := rfl
  rw [hpoint, hlater, hbefore, hbetween, MountId.ofIndex_eq_ofIndex_iff, hsize]
  omega

end Run

/-! ## Mounting and unmounting over and over -/

/-- What was entered last is what its path finds. -/
theorem find?_path_entered {storage : Storage δ ω} {point : MountPoint} {env : Env δ ω}
    (hnew : ∀ mount ∈ storage.mounts, mount.path ≠ point.path) :
    ((storage.entered point env).mounts.find? fun mount => mount.path.text = point.path.text) =
      some point := by
  have hothers :
      (storage.mounts.find? fun mount => mount.path.text = point.path.text) = none := by
    refine List.find?_eq_none.mpr fun other hother htext => hnew other hother ?_
    rw [MountPath.mk.injEq]
    exact of_decide_eq_true htext
  rw [entered, List.find?_append, hothers]
  simp

/-- A backend that only mounts and unmounts lets go of the record that was entered last. -/
theorem outcome_unmount_entered {storage : Storage δ ω} {point : MountPoint} {env : Env δ ω}
    (hnew : ∀ mount ∈ storage.mounts, mount.path ≠ point.path)
    (hbackend : storage.backend? point.fsType = some .mountOnly) :
    (unmount point.path.text).outcome (storage.entered point env) =
      (.ok (), { storage with env, nextId := storage.nextId.next }) := by
  have hnone : point ∉ storage.mounts := fun hmem => hnew point hmem rfl
  have hentered : (storage.entered point env).backend? point.fsType = some .mountOnly := hbackend
  rw [outcome_unmount_of_found (find?_path_entered hnew), outcome_serve_of_backend hentered]
  simp only [ask, Backend.mountOnly, Action.outcome, released, entered,
    List.erase_append_right _ hnone, List.erase_cons_head, List.append_nil]

/-- The checks of a mount do not look at the counter. -/
theorem checkMount_nextId (storage : Storage δ ω) (nextId : MountId) (path : String)
    (device : DeviceHandle) (fsType : FsType) :
    { storage with nextId }.checkMount path device fsType =
      storage.checkMount path device fsType := rfl

/-- Mount at a path and unmount there, so many times. -/
def rounds (path : String) (device : DeviceHandle) (fsType : FsType) (count : Nat) :
    List (Operation δ ω) :=
  (List.replicate count [.mount path device fsType, .unmount path]).flatten

section Rounds

variable [DiskDriver δ] {storage : Storage δ ω} {path : String} {device : DeviceHandle}
  {fsType : FsType} {mountPath : MountPath} (hconcrete : fsType ≠ .auto)
  (hserved : (storage.registry.find? fun registration => registration.fsType = fsType) =
    some ⟨fsType, .mountOnly⟩)
  (hcheck : storage.checkMount path device fsType = .ok mountPath)

include hconcrete hserved hcheck

/-- One round with a backend that only mounts and unmounts uses up one identity. -/
theorem after_round :
    storage.after [.mount path device fsType, .unmount path] =
      { storage with nextId := storage.nextId.next } := by
  obtain ⟨rfl, hnew, -⟩ := of_checkMount_eq_ok hcheck
  have hchoose : chooseBackend device fsType storage = (some ⟨fsType, .mountOnly⟩, storage.env) := by
    rw [chooseBackend, if_neg hconcrete, hserved]
  have hmount := mount_of_accepted hcheck hchoose rfl
  have hbackend : storage.backend? fsType = some .mountOnly := by
    rw [backend?, hserved]
    rfl
  have hunmount := @outcome_unmount_entered _ _ storage
    ⟨storage.nextId, mountPath, device, fsType, {}⟩ storage.env hnew hbackend
  rw [after_cons, state_mount hmount, after_cons, after_nil, Operation.state, hunmount]

/-- Any number of rounds uses up as many identities and leaves nothing else behind. -/
theorem after_rounds {index : Nat} (hindex : storage.nextId = .ofIndex index) (count : Nat) :
    storage.after (rounds path device fsType count) =
      { storage with nextId := .ofIndex (index + count) } := by
  induction count generalizing storage index with
  | zero =>
      rw [Nat.add_zero, ← hindex]
      rfl
  | succ count ih =>
      have hsplit : (rounds path device fsType (count + 1) : List (Operation δ ω)) =
          [.mount path device fsType, .unmount path] ++ rounds path device fsType count := rfl
      -- A round leaves everything as it was that the next one is checked against.
      have hnext : storage.nextId.next = .ofIndex (index + 1) := by
        rw [hindex, MountId.next_ofIndex]
      rw [hsplit, after_append, after_round hconcrete hserved hcheck]
      have hrest := @ih { storage with nextId := storage.nextId.next } hserved hcheck _ hnext
      rwa [Nat.add_assoc, Nat.add_comm 1 count] at hrest

end Rounds

/-! ## A run that comes round -/

/-- The handset with a backend that opens files and one that only mounts. -/
def equipped (mounts : List MountPoint) (nextId : MountId) : Storage RamDisk Unit where
  env := ⟨Handset.blocks id, ()⟩
  registry := [⟨.ext4, .openOnly ⟨5⟩ ⟨7⟩ ⟨9⟩⟩, ⟨.fat, .mountOnly⟩]
  mounts
  nextId

/-- Register the two backends. -/
def registrations : List (Operation RamDisk Unit) :=
  [.register .ext4 (.openOnly ⟨5⟩ ⟨7⟩ ⟨9⟩), .register .fat .mountOnly]

theorem after_registrations :
    (ofBlocks (Handset.blocks id) ()).after registrations = equipped [] .first := rfl

/-- Register the backends, and mount with the one that opens files. -/
def startUp : List (Operation RamDisk Unit) := registrations ++ [.mount "/os" ⟨.user, 2⟩ .ext4]

/-- What is mounted at the start. -/
def osMount : MountPoint := ⟨.first, ⟨"/os", by decide⟩, ⟨.user, 2⟩, .ext4, ⟨5⟩⟩

/-- What is mounted beside it, with the identity that is next. -/
def bootMount (id : MountId) : MountPoint := ⟨id, ⟨"/boot", by decide⟩, ⟨.user, 1⟩, .fat, {}⟩

theorem mount_os_equipped :
    mount "/os" ⟨.user, 2⟩ .ext4 (equipped [] .first) =
      .ok () (equipped [osMount] (.ofIndex 1)) := by
  have hcheck : (equipped [] .first).checkMount "/os" ⟨.user, 2⟩ .ext4 = .ok ⟨"/os", by decide⟩ := by
    decide +kernel
  exact mount_of_accepted hcheck rfl rfl

theorem checkMount_boot_equipped {mounts : List MountPoint} (hmounts : mounts ∈ [[], [osMount]])
    (nextId : MountId) :
    (equipped mounts nextId).checkMount "/boot" ⟨.user, 1⟩ .fat = .ok ⟨"/boot", by decide⟩ := by
  have hfirst : ∀ mounts ∈ [[], [osMount]],
      (equipped mounts .first).checkMount "/boot" ⟨.user, 1⟩ .fat = .ok ⟨"/boot", by decide⟩ := by
    decide +kernel
  exact (checkMount_nextId (equipped mounts .first) nextId ..).trans (hfirst mounts hmounts)

theorem mount_boot_equipped (nextId : MountId) :
    mount "/boot" ⟨.user, 1⟩ .fat (equipped [osMount] nextId) =
      .ok () (equipped [osMount, bootMount nextId] nextId.next) :=
  mount_of_accepted (checkMount_boot_equipped (by simp) nextId) rfl rfl

theorem after_startUp :
    (ofBlocks (Handset.blocks id) ()).after startUp = equipped [osMount] (.ofIndex 1) := by
  rw [startUp, after_append, after_registrations, after_cons, after_nil,
    state_mount mount_os_equipped]

/-- The two mounts follow each other, so they take different identities. -/
theorem mount_identities_eq_iff_equipped :
    mount "/os" ⟨.user, 2⟩ .ext4 ((ofBlocks (Handset.blocks id) ()).after registrations) =
        .ok () (equipped [osMount] (.ofIndex 1)) ∧
      mount "/boot" ⟨.user, 1⟩ .fat (equipped [osMount] (.ofIndex 1)) =
        .ok () (equipped [osMount, bootMount (.ofIndex 1)] (.ofIndex 2)) ∧
      osMount.id ≠ (bootMount (.ofIndex 1)).id := by
  have hfirst : mount "/os" ⟨.user, 2⟩ .ext4 ((ofBlocks (Handset.blocks id) ()).after registrations) =
      .ok () (equipped [osMount] (.ofIndex 1)) := mount_os_equipped
  have hsecond := mount_boot_equipped (.ofIndex 1)
  rw [MountId.next_ofIndex] at hsecond
  obtain ⟨point, later, hpoint, hlater, hsame⟩ :=
    mount_identities_eq_iff (Handset.blocks id) () registrations [] hfirst hsecond
  cases hpoint
  cases hlater
  refine ⟨hfirst, hsecond, fun heq => ?_⟩
  exact absurd (hsame.mp heq) (by decide)

/-- Mounting and unmounting at another path until the counter has come round. -/
theorem after_rounds_equipped {mounts : List MountPoint} (hmounts : mounts ∈ [[], [osMount]]) :
    (equipped mounts (.ofIndex 1)).after (rounds "/boot" ⟨.user, 1⟩ .fat (UInt32.size - 1)) =
      equipped mounts .first := by
  have hround : MountId.ofIndex (1 + (UInt32.size - 1)) = .first :=
    MountId.ofIndex_eq_ofIndex_iff.mpr (by decide)
  have hafter := after_rounds (by decide) rfl (checkMount_boot_equipped hmounts (.ofIndex 1)) rfl
    (UInt32.size - 1)
  rw [hafter, hround]
  rfl

/-- Identities are used again. Two live mounts can have the same one. A file whose mount is gone can
be served once more, by a mount that was made later. -/
theorem identities_come_round :
    let initial : Storage RamDisk Unit := ofBlocks (Handset.blocks id) ()
    let churn := rounds "/boot" ⟨.user, 1⟩ .fat (UInt32.size - 1)
    let file : OpenFile := ⟨⟨7⟩, some .first⟩
    (initial.after (startUp ++ churn ++ [.mount "/boot" ⟨.user, 1⟩ .fat])).mounts =
        [osMount, bootMount .first] ∧ osMount.id = (bootMount .first).id ∧
      (openFile "/os/x" .readOnly).outcome (initial.after startUp) = (.ok file, initial.after startUp) ∧
      FileDead file (initial.after (startUp ++ [.unmountAll])) ∧
      FileServed file osMount (.openOnly ⟨5⟩ ⟨7⟩ ⟨9⟩)
        (initial.after (startUp ++ ([.unmountAll] ++ churn ++ [.mount "/os" ⟨.user, 2⟩ .ext4]))) := by
  intro initial churn file
  have hgone : (equipped [osMount] (.ofIndex 1)).after [.unmountAll] = equipped [] (.ofIndex 1) := rfl
  have hbusy : (equipped [osMount] (.ofIndex 1)).after churn = equipped [osMount] .first :=
    after_rounds_equipped (by simp)
  have hidle : (equipped [] (.ofIndex 1)).after churn = equipped [] .first :=
    after_rounds_equipped (by simp)
  simp only [initial, after_append, after_startUp, hgone, hbusy, hidle, after_cons, after_nil,
    state_mount (mount_boot_equipped .first), state_mount mount_os_equipped]
  exact ⟨rfl, rfl, rfl, fileDead rfl rfl, fileServed rfl rfl rfl⟩

end Storage

end StorageStack

import StorageStack.Handset
import StorageStack.Proofs.Storage.MemoryHosts
import StorageStack.Proofs.Storage.Renaming

/-! # Kinds of what exists

In a memory filesystem a path names a file or a directory, and what stat, opendir and open make of
it is decided by that. One operation breaks this: a rename does not ask whether a directory stands
at its target, and leaves a file there beside it.
-/

namespace StorageStack

theorem FileKind.ofMode?_or (kind : FileKind) {permissions : UInt32}
    (hpermissions : permissions &&& modeMask = 0) :
    ofMode? (kind.modeBits ||| permissions) = some kind := by
  have hdistrib : (kind.modeBits ||| permissions) &&& modeMask =
      kind.modeBits &&& modeMask ||| permissions &&& modeMask :=
    UInt32.toBitVec_inj.mp BitVec.and_or_distrib_right
  rw [hpermissions, UInt32.or_zero] at hdistrib
  rw [← ofMode?_modeBits kind, ofMode?, ofMode?, hdistrib]

namespace Volume

variable {volume after : Volume} {path other : String}

theorem Consistent.permissions (hvolume : volume.Consistent) {default : UInt32}
    (hdefault : default &&& FileKind.modeMask = 0) :
    volume.modes.getD path default &&& FileKind.modeMask = 0 := by
  rw [Std.TreeMap.getD_eq_getD_getElem?]
  cases hmode : volume.modes[path]? with
  | none => exact hdefault
  | some mode => exact hvolume.modes path mode hmode

theorem stat?_of_file {contents : Bytes} (hfile : volume.files[path]? = some contents) :
    volume.stat? path = some (.regular, contents.length, volume.modes.getD path 0o644) := by
  rw [stat?, hfile]

theorem stat?_of_dir (hfile : volume.files[path]? = none)
    (hdir : volume.dirs.contains path = true) :
    volume.stat? path = some (.directory, 0, volume.modes.getD path 0o755) := by
  rw [stat?, hfile, hdir]
  rfl

theorem stat?_of_vacant (hfile : volume.files[path]? = none)
    (hdir : volume.dirs.contains path = false) : volume.stat? path = none := by
  rw [stat?, hfile, hdir]
  rfl

/-- Nothing but a rename puts a file where a directory is, or a directory where a file is. -/
theorem Edit.clash {request : Request} (hedit : volume.Edit request after)
    (hrequest : ∀ source target, request ≠ .rename source target)
    (hfile : after.files.contains path = true) (hdir : after.dirs.contains path = true) :
    volume.files.contains path = true ∧ volume.dirs.contains path = true := by
  cases hedit with
  | makeDir hfree =>
      rcases contains_insert_set_iff.mp hdir with rfl | hold
      · have hempty := (Bool.or_eq_false_iff.mp hfree).1
        exact absurd (hfile.symm.trans hempty) Bool.noConfusion
      · exact ⟨hfile, hold⟩
  | setMode _ => exact ⟨hfile, hdir⟩
  | unlink =>
      rw [dropFile, Std.TreeMap.contains_erase] at hfile
      exact ⟨(Bool.and_eq_true_iff.mp hfile).2, hdir⟩
  | removeDir =>
      rw [dropDir, Std.TreeSet.contains_erase] at hdir
      exact ⟨hfile, (Bool.and_eq_true_iff.mp hdir).2⟩
  | rename _ => exact absurd rfl (hrequest _ _)

end Volume

namespace MemoryFs

/-- A file and a directory stand at one path. -/
def Clash (fs : MemoryFs) (volume : Nat) (path : String) : Prop :=
  (fs.volume volume).files.contains path = true ∧ (fs.volume volume).dirs.contains path = true

/-- A volume that is put in place brings a file and a directory together only within itself. -/
theorem clash_of_putVolume {fs : MemoryFs} {id : Nat} {changed : Volume} {volume : Nat}
    {path : String} (hchanged : changed.files.contains path = true →
      changed.dirs.contains path = true → fs.Clash id path)
    (hclash : (fs.putVolume id changed).Clash volume path) : fs.Clash volume path := by
  obtain ⟨hfile, hdir⟩ := hclash
  rw [volume_putVolume] at hfile hdir
  by_cases hid : id = volume
  · subst hid
    rw [if_pos rfl] at hfile hdir
    exact hchanged hfile hdir
  · rw [if_neg hid] at hfile hdir
    exact ⟨hfile, hdir⟩

theorem Effect.clash {mount : MountPoint} {request : Request} {fs after : MemoryFs}
    (heffect : Effect mount request fs after)
    (hrequest : ∀ source target, request ≠ .rename source target) (hfs : fs.Consistent)
    {volume : Nat} {path : String} (hclash : after.Clash volume path) : fs.Clash volume path := by
  cases heffect with
  | noted | opened | moved | closed | listed | advanced | dropped => exact hclash
  | rooted _ =>
      refine clash_of_putVolume (fun hfile _ => ?_) hclash
      -- The new volume has no files.
      rw [hfs.unused _ (Nat.lt_succ_self _)] at hfile
      simp [Volume.withRoot] at hfile
  | edited hedit => exact clash_of_putVolume (hedit.clash hrequest) hclash
  | emptied _ hfree =>
      refine clash_of_putVolume (fun hfile hdir => ?_) hclash
      rcases contains_insert_iff.mp hfile with rfl | hold
      · exact absurd (hdir.symm.trans hfree) Bool.noConfusion
      · exact ⟨hold, hdir⟩
  | @written _ _ stream _ contents _ hstream =>
      refine clash_of_putVolume (fun hfile hdir => ?_) hclash
      rcases contains_insert_iff.mp hfile with rfl | hold
      · refine ⟨?_, hdir⟩
        rw [contains_files, (stream_eq_ok_iff.mp hstream).2, Option.isSome_some]
      · exact ⟨hold, hdir⟩

/-- Proper requests other than renames bring no file and directory together. -/
theorem Traffic.clash {asked : MountPoint → Request → Prop} {fs after : MemoryFs}
    (htraffic : Traffic asked fs after)
    (hrequest : ∀ mount request, asked mount request →
      request.Proper mount fs.lastId ∧ ∀ source target, request ≠ .rename source target)
    (hfs : fs.Consistent) {volume : Nat} {path : String} (hclash : after.Clash volume path) :
    fs.Clash volume path := by
  have hkept := htraffic.keeps
    (motive := fun later => fs.lastId ≤ later.lastId ∧ later.Consistent ∧
      (later.Clash volume path → fs.Clash volume path))
    (fun hasked heffect ⟨hle, hconsistent, hclean⟩ => by
      obtain ⟨hproper, hother⟩ := hrequest _ _ hasked
      exact ⟨Nat.le_trans hle heffect.lastId_le, heffect.consistent (hproper.mono hle) hconsistent,
        fun hlater => hclean (heffect.clash hother hconsistent hlater)⟩)
    (fun _ _ _ _ ⟨hle, hconsistent, hclean⟩ =>
      ⟨hle, ⟨hconsistent.volumes, hconsistent.unused, hconsistent.streams, hconsistent.listings⟩,
        hclean⟩)
    ⟨Nat.le_refl _, hfs, id⟩
  exact hkept.2.2 hclash

/-- A rename moves a file that exists, whatever stands at the target. -/
theorem outcome_rename (fs : MemoryFs) (id : Nat) (source target : String) :
    (rename id source target).outcome fs =
      match fs.contents? id source with
      | none => (.error .notFound, fs.note s!"rename {source} {target}")
      | some contents =>
          (.ok (), (fs.note s!"rename {source} {target}").putVolume id
            (((fs.volume id).dropFile source).putFile target contents)) := by
  have hvolume : (fs.note s!"rename {source} {target}").volume id = fs.volume id := rfl
  unfold Action.outcome contents?
  dsimp only [rename]
  rw [hvolume]
  cases (fs.volume id).files[source]? <;> rfl

theorem clash_outcome_rename {fs : MemoryFs} {id : Nat} {source target : String} {volume : Nat}
    {path : String} (hclash : ((rename id source target).outcome fs).2.Clash volume path) :
    fs.Clash volume path ∨ id = volume ∧ target = path ∧
      (fs.volume id).files.contains source = true ∧ (fs.volume id).dirs.contains target = true := by
  rw [outcome_rename] at hclash
  cases hsource : fs.contents? id source with
  | none =>
      rw [hsource] at hclash
      exact Or.inl hclash
  | some contents =>
      rw [hsource] at hclash
      obtain ⟨hfile, hdir⟩ := hclash
      rw [volume_putVolume] at hfile hdir
      by_cases hid : id = volume
      · subst hid
        rw [if_pos rfl] at hfile hdir
        rcases contains_insert_iff.mp hfile with rfl | hold
        · exact Or.inr ⟨rfl, rfl, by rw [contains_files, hsource, Option.isSome_some], hdir⟩
        · rw [Volume.dropFile, Std.TreeMap.contains_erase] at hold
          exact Or.inl ⟨(Bool.and_eq_true_iff.mp hold).2, hdir⟩
      · rw [if_neg hid] at hfile hdir
        exact Or.inl ⟨hfile, hdir⟩

/-! ## Answers -/

section Answers

variable (fs : MemoryFs) (id : Nat) (path : String)

theorem answer_openDir :
    ((openDir id path).outcome fs).1 =
      if (fs.volume id).dirs.contains path then .ok ⟨fs.lastId + 1⟩ else .error .notFound := by
  rw [outcome_openDir]
  split_ifs <;> rfl

theorem answer_openFile (options : OpenOptions) :
    ((openFile id path options).outcome fs).1 =
      match fs.openRefusal? id path options with
      | some cause => .error cause
      | none => .ok ⟨fs.lastId + 1⟩ := by
  rw [Action.outcome, openFile_eq]
  cases fs.openRefusal? id path options <;> rfl

/-- A status carries the kind of what stands at the path, and a file hides a directory. -/
theorem answer_stat (hfs : fs.Consistent) (device : DeviceHandle) {kind : FileKind} {size : Nat}
    {permissions : UInt32} (hfound : (fs.volume id).stat? path = some (kind, size, permissions)) :
    ∃ stat, ((MemoryFs.stat id device path).outcome fs).1 = .ok stat ∧ stat.kind? = some kind := by
  have hpermissions : permissions &&& FileKind.modeMask = 0 := by
    unfold Volume.stat? at hfound
    split at hfound
    · cases hfound
      exact (hfs.volumes id).permissions rfl
    · split at hfound
      · cases hfound
        exact (hfs.volumes id).permissions rfl
      · cases hfound
  obtain ⟨stat, hstat, hmode⟩ : ∃ stat, ((MemoryFs.stat id device path).outcome fs).1 = .ok stat ∧
      stat.mode = kind.modeBits ||| permissions := by
    unfold Action.outcome
    dsimp only [MemoryFs.stat]
    rw [hfound]
    exact ⟨_, rfl, rfl⟩
  refine ⟨stat, hstat, ?_⟩
  rw [Stat.kind?, hmode]
  exact kind.ofMode?_or hpermissions

theorem answer_stat_of_missing (device : DeviceHandle)
    (hmissing : (fs.volume id).stat? path = none) :
    ((stat id device path).outcome fs).1 = .error .notFound := by
  unfold Action.outcome
  dsimp only [stat]
  rw [hmissing]

end Answers

end MemoryFs

namespace Storage

variable {δ ω : Type}

section Agreement

variable (storage : Storage δ ω) (path : String)

/-- For stat, opendir and open nothing is at the path. -/
structure Missing : Prop where
  stat_eq : ((onPath .stat path).outcome storage).1 = .error .notFound
  openDir_eq : ((openDir path).outcome storage).1 = .error .notFound
  openFile_eq : ∀ options : OpenOptions, options.create = false → options.createNew = false →
    ((openFile path options).outcome storage).1 = .error .notFound

/-- For stat, opendir and open a file is at the path. -/
structure ActsAsFile : Prop where
  stat_eq : ∃ stat, ((onPath .stat path).outcome storage).1 = .ok stat ∧ stat.kind? = some .regular
  openDir_eq : ((openDir path).outcome storage).1 = .error .notFound
  openFile_eq : ∀ options : OpenOptions, options.createNew = false →
    ∃ file, ((openFile path options).outcome storage).1 = .ok file
  openNew_eq : ∀ options : OpenOptions, options.createNew = true →
    ((openFile path options).outcome storage).1 = .error .alreadyExists

/-- For stat, opendir and open a directory is at the path. -/
structure ActsAsDir : Prop where
  stat_eq : ∃ stat, ((onPath .stat path).outcome storage).1 = .ok stat ∧
    stat.kind? = some .directory
  openDir_eq : ∃ dir, ((openDir path).outcome storage).1 = .ok dir
  openFile_eq : ∀ options, ((openFile path options).outcome storage).1 = .error .invalidArgument

/-- Stat, opendir and open say the same of the path. -/
def KindsAgree : Prop :=
  storage.Missing path ∨ storage.ActsAsFile path ∨ storage.ActsAsDir path

end Agreement

variable [DiskDriver δ]

/-- The operation renames a file onto a directory, within a mount of the memory filesystem. -/
inductive Lands (part : Part ω MemoryFs) (storage : Storage δ ω) (volume : Nat) (path : String) :
    Operation δ ω → Prop
  | onto {source target : String} {mount : MountPoint}
      (hsource : storage.resolve source = .ok mount) (htarget : storage.resolve target = .ok mount)
      (hanswers : storage.Answers part mount) (hvolume : mount.data.value = volume)
      (hpath : mount.path.relative target = path)
      (hfile : ((storage.memory part).volume volume).files.contains
        (mount.path.relative source) = true)
      (hdir : ((storage.memory part).volume volume).dirs.contains path = true) :
      Lands part storage volume path (.rename source target)

section Kinds

variable {part : Part ω MemoryFs} {storage : Storage δ ω} {path : String} {mount : MountPoint}

section Path

variable (hpath : storage.resolve path = .ok mount) (hanswers : storage.Answers part mount)

include hpath hanswers

theorem answer_stat :
    ((onPath .stat path).outcome storage).1 =
      ((MemoryFs.stat mount.data.value mount.device (mount.path.relative path)).outcome
        (storage.memory part)).1 :=
  congrArg Prod.fst (hanswers.outcome_onPath hpath .stat)

theorem answer_openDir :
    ((openDir path).outcome storage).1 =
      if ((storage.memory part).volume mount.data.value).dirs.contains (mount.path.relative path) then
        .ok (.backend ⟨(storage.memory part).lastId + 1⟩ mount.id)
      else .error .notFound := by
  have hasked := MemoryFs.answer_openDir (storage.memory part) mount.data.value
    (mount.path.relative path)
  rw [hanswers.outcome_openDir hpath]
  dsimp only [memoryOutcome, MemoryFs.serve]
  rw [hasked]
  split_ifs <;> rfl

theorem answer_openFile (options : OpenOptions) :
    ((openFile path options).outcome storage).1 =
      match (storage.memory part).openRefusal? mount.data.value (mount.path.relative path) options with
      | some cause => .error cause
      | none => .ok ⟨⟨(storage.memory part).lastId + 1⟩, some mount.id⟩ := by
  have hasked := MemoryFs.answer_openFile (storage.memory part) mount.data.value
    (mount.path.relative path) options
  rw [hanswers.outcome_openFile hpath]
  dsimp only [memoryOutcome, MemoryFs.serve]
  rw [hasked]
  cases (storage.memory part).openRefusal? mount.data.value (mount.path.relative path) options <;> rfl

variable {contents : Bytes}

theorem missing_of_vacant
    (hfile : (storage.memory part).contents? mount.data.value (mount.path.relative path) = none)
    (hdir : ((storage.memory part).volume mount.data.value).dirs.contains
      (mount.path.relative path) = false) : storage.Missing path where
  stat_eq := by
    have hnone : ((storage.memory part).volume mount.data.value).files[mount.path.relative path]? =
        none := hfile
    rw [answer_stat hpath hanswers]
    exact MemoryFs.answer_stat_of_missing _ _ _ _ (Volume.stat?_of_vacant hnone hdir)
  openDir_eq := by
    rw [answer_openDir hpath hanswers, hdir]
    rfl
  openFile_eq options hcreate hnew := by
    rw [answer_openFile hpath hanswers, MemoryFs.openRefusal?, hfile, hdir, hcreate, hnew]
    rfl

theorem stat_of_file (hhosts : Hosts part storage)
    (hfile : (storage.memory part).contents? mount.data.value (mount.path.relative path) =
      some contents) :
    ∃ stat, ((onPath .stat path).outcome storage).1 = .ok stat ∧ stat.kind? = some .regular := by
  have hfound : ((storage.memory part).volume mount.data.value).files[mount.path.relative path]? =
      some contents := hfile
  rw [answer_stat hpath hanswers]
  exact MemoryFs.answer_stat _ _ _ hhosts.consistent _ (Volume.stat?_of_file hfound)

theorem actsAsFile_of_file (hhosts : Hosts part storage)
    (hfile : (storage.memory part).contents? mount.data.value (mount.path.relative path) =
      some contents)
    (hdir : ((storage.memory part).volume mount.data.value).dirs.contains
      (mount.path.relative path) = false) : storage.ActsAsFile path where
  stat_eq := stat_of_file hpath hanswers hhosts hfile
  openDir_eq := by
    rw [answer_openDir hpath hanswers, hdir]
    rfl
  openFile_eq options hnew := by
    rw [answer_openFile hpath hanswers, MemoryFs.openRefusal?, hfile, hdir, hnew]
    exact ⟨_, rfl⟩
  openNew_eq options hnew := by
    rw [answer_openFile hpath hanswers, MemoryFs.openRefusal?, hfile, hdir, hnew]
    rfl

theorem openDir_of_dir
    (hdir : ((storage.memory part).volume mount.data.value).dirs.contains
      (mount.path.relative path) = true) : ∃ dir, ((openDir path).outcome storage).1 = .ok dir := by
  rw [answer_openDir hpath hanswers, hdir]
  exact ⟨_, rfl⟩

theorem actsAsDir_of_dir (hhosts : Hosts part storage)
    (hfile : (storage.memory part).contents? mount.data.value (mount.path.relative path) = none)
    (hdir : ((storage.memory part).volume mount.data.value).dirs.contains
      (mount.path.relative path) = true) : storage.ActsAsDir path where
  stat_eq := by
    have hnone : ((storage.memory part).volume mount.data.value).files[mount.path.relative path]? =
        none := hfile
    rw [answer_stat hpath hanswers]
    exact MemoryFs.answer_stat _ _ _ hhosts.consistent _ (Volume.stat?_of_dir hnone hdir)
  openDir_eq := openDir_of_dir hpath hanswers hdir
  openFile_eq options := by
    rw [answer_openFile hpath hanswers, MemoryFs.openRefusal?, hdir]
    rfl

/-- What stat, opendir and open say of a path of the memory filesystem is the same exactly if no
file and directory clash there. -/
theorem not_clash_iff_kindsAgree (hhosts : Hosts part storage) :
    ¬(storage.memory part).Clash mount.data.value (mount.path.relative path) ↔
      storage.KindsAgree path := by
  rw [MemoryFs.Clash, MemoryFs.contains_files]
  cases hfile : (storage.memory part).contents? mount.data.value (mount.path.relative path) with
  | none =>
      refine iff_of_true (fun hclash => Bool.noConfusion hclash.1) ?_
      cases hdir : ((storage.memory part).volume mount.data.value).dirs.contains
          (mount.path.relative path) with
      | false => exact Or.inl (missing_of_vacant hpath hanswers hfile hdir)
      | true => exact Or.inr (Or.inr (actsAsDir_of_dir hpath hanswers hhosts hfile hdir))
  | some contents =>
      cases hdir : ((storage.memory part).volume mount.data.value).dirs.contains
          (mount.path.relative path) with
      | false =>
          refine iff_of_true (fun hclash => Bool.noConfusion hclash.2) ?_
          exact Or.inr (Or.inl (actsAsFile_of_file hpath hanswers hhosts hfile hdir))
      | true =>
          -- Stat says that it is a file, and opendir opens it.
          obtain ⟨stat, hstat, hregular⟩ := stat_of_file hpath hanswers hhosts hfile
          obtain ⟨dir, hopened⟩ := openDir_of_dir hpath hanswers hdir
          refine iff_of_false (fun hclean => hclean ⟨rfl, rfl⟩) ?_
          rintro (hmissing | hacts | hacts)
          · cases hstat.symm.trans hmissing.stat_eq
          · cases hopened.symm.trans hacts.openDir_eq
          · obtain ⟨other, hother, hdirectory⟩ := hacts.stat_eq
            obtain rfl := Except.ok.inj (hstat.symm.trans hother)
            cases hregular.symm.trans hdirectory

end Path

/-- A rename onto a directory is answered as a success, and a file stands beside the directory. -/
theorem Lands.clash {source target : String} {volume : Nat}
    (hlands : storage.Lands part volume path (.rename source target)) :
    ∃ after, (rename source target).outcome storage = (.ok (), after) ∧
      (after.memory part).Clash volume path := by
  cases hlands with
  | @onto _ _ mount hsource htarget hanswers hvolume hpath hfile hdir =>
      subst hvolume hpath
      rw [MemoryFs.contains_files] at hfile
      obtain ⟨contents, hcontents⟩ := Option.isSome_iff_exists.mp hfile
      have hrenamed := MemoryFs.outcome_rename (storage.memory part) mount.data.value
        (mount.path.relative source) (mount.path.relative target)
      rw [hcontents] at hrenamed
      rw [outcome_rename_of_shared hsource htarget, hanswers.outcome_serve]
      dsimp only [memoryOutcome, MemoryFs.serve]
      rw [hrenamed]
      refine ⟨_, rfl, ?_⟩
      rw [memory_mapHost, MemoryFs.Clash, MemoryFs.volume_putVolume, if_pos rfl]
      exact ⟨contains_insert_iff.mpr (Or.inl rfl), hdir⟩

/-- A file and a directory that did not clash before were brought together by a rename of the one
onto the other. -/
theorem lands_of_clash (hhosts : Hosts part storage) {operation : Operation δ ω}
    (hoperation : operation.Regular part) {volume : Nat}
    (hclash : ((operation.state storage).memory part).Clash volume path)
    (hclean : ¬(storage.memory part).Clash volume path) :
    storage.Lands part volume path operation := by
  by_cases hrename : ∃ source target, operation = .rename source target
  · obtain ⟨source, target, rfl⟩ := hrename
    have hdistinct := hhosts.sound.nodup_paths
    rcases shared_or_refused hdistinct source target with
      ⟨mount, hsource, htarget⟩ | ⟨cause, hrefused⟩
    · rw [Operation.state, outcome_rename_of_shared hsource htarget] at hclash
      by_cases hanswers : storage.Answers part mount
      · rw [hanswers.outcome_serve] at hclash
        dsimp only at hclash
        rw [memory_mapHost] at hclash
        rcases MemoryFs.clash_outcome_rename hclash with hold | ⟨rfl, rfl, hfile, hdir⟩
        · exact absurd hold hclean
        · exact .onto hsource htarget hanswers rfl rfl hfile hdir
      · rw [memory_serve_of_unanswered hhosts.regular hanswers] at hclash
        exact absurd hclash hclean
    · rw [Operation.state, outcome_rename_of_refused hdistinct hrefused] at hclash
      exact absurd hclash hclean
  · refine absurd (MemoryFs.Traffic.clash
      (traffic_state hhosts.sound hhosts.regular hoperation) (fun mount request hasked => ?_)
      hhosts.consistent hclash) hclean
    refine ⟨hhosts.proper hasked.1 hasked.2, fun source target hrequest => hrename ?_⟩
    subst hrequest
    obtain ⟨-, hasked⟩ := hasked
    cases hasked
    exact ⟨_, _, rfl⟩

theorem lands_of_clash_after_run (hhosts : Hosts part storage) {run : List (Operation δ ω)}
    (hrun : ∀ operation ∈ run, operation.Regular part) {volume : Nat}
    (hclash : ((storage.after run).memory part).Clash volume path) :
    (storage.memory part).Clash volume path ∨ ∃ earlier operation later,
      run = earlier ++ operation :: later ∧
        (storage.after earlier).Lands part volume path operation := by
  induction run generalizing storage with
  | nil => exact Or.inl hclash
  | cons operation rest ih =>
      obtain ⟨hfirst, hrest⟩ := List.forall_mem_cons.mp hrun
      rcases ih (hhosts.state hfirst) hrest hclash with
        hbefore | ⟨earlier, lander, later, hsplit, hlands⟩
      · by_cases hclean : (storage.memory part).Clash volume path
        · exact Or.inl hclean
        · exact Or.inr ⟨[], operation, rest, rfl, lands_of_clash hhosts hfirst hbefore hclean⟩
      · exact Or.inr ⟨operation :: earlier, lander, later, congrArg _ hsplit, hlands⟩

end Kinds

/-- After every run over a memory filesystem that was empty, a file and a directory stand at one
path only if a rename within the run has brought the file there, and every such rename succeeds and
does so. Stat, opendir and open agree on what is at a path exactly if that is not the case. No more
numbers are given out than calls come in, so 32 bits are enough for them up to 2 ^ 32 calls. -/
theorem kinds_after (blocks : BlockDevices δ) {host : ω} {part : Part ω MemoryFs}
    (hfresh : part.get host = {}) (run : List (Operation δ ω))
    (hrun : ∀ operation ∈ run, operation.Regular part) :
    let start := ofBlocks blocks host
    let storage := start.after run
    (storage.memory part).lastId ≤ (storage.memory part).calls.length ∧
    (∀ volume path, (storage.memory part).Clash volume path → ∃ earlier operation later,
      run = earlier ++ operation :: later ∧
        (start.after earlier).Lands part volume path operation) ∧
    (∀ volume path source target, storage.Lands part volume path (.rename source target) →
      ∃ after, (rename source target).outcome storage = (.ok (), after) ∧
        (after.memory part).Clash volume path) ∧
    ∀ path mount, storage.resolve path = .ok mount → storage.Answers part mount →
      (¬(storage.memory part).Clash mount.data.value (mount.path.relative path) ↔
        storage.KindsAgree path) := by
  intro start storage
  have hstart : Hosts part start := hosts_ofBlocks blocks hfresh
  have hhosts : Hosts part storage := hstart.after_run hrun
  refine ⟨hhosts.accounted, fun volume path hclash => ?_, fun _ _ _ _ hlands => hlands.clash,
    fun path mount hpath hanswers => not_clash_iff_kindsAgree hpath hanswers hhosts⟩
  refine (lands_of_clash_after_run hstart hrun hclash).resolve_left fun hbefore => ?_
  have hempty : start.memory part = {} := hfresh
  rw [hempty, MemoryFs.Clash, MemoryFs.volume, Std.TreeMap.getD_emptyc] at hbefore
  exact absurd hbefore.1 (by simp)

/-- A file is renamed onto a directory, beside a file and a directory that are left in peace. -/
theorem kinds_after_rename :
    let part := Part.whole MemoryFs
    let run : List (Operation RamDisk MemoryFs) :=
      [.register .ext4 (MemoryFs.backend none part), .mount "/os" ⟨.user, 2⟩ .ext4,
        .onPath (.makeDir 0o755) "/os/d", .onPath (.makeDir 0o755) "/os/e",
        .openFile "/os/a" .writeOnly, .openFile "/os/b" .writeOnly, .rename "/os/a" "/os/d"]
    let storage := (ofBlocks (Handset.blocks id) {}).after run
    storage.KindsAgree "/os/a" ∧ storage.KindsAgree "/os/b" ∧ storage.KindsAgree "/os/e" ∧
      ¬storage.KindsAgree "/os/d" ∧
      ∃ earlier operation later, run = earlier ++ operation :: later ∧
        ((ofBlocks (Handset.blocks id) {}).after earlier).Lands part 1 "/d" operation := by
  intro part run storage
  let point : MountPoint := ⟨.first, ⟨"/os", by decide⟩, ⟨.user, 2⟩, .ext4, ⟨1⟩⟩
  have hrun : ∀ operation ∈ run, operation.Regular part := by
    simp only [run, List.forall_mem_cons]
    exact ⟨.inl ⟨none, rfl⟩, trivial, trivial, trivial, trivial, trivial, trivial, by simp⟩
  have hanswers : storage.Answers part point := by
    refine ⟨none, ?_⟩
    dsimp only [storage, run]
    rw [after_cons]
    exact backend?_after rfl _
  have hpaths : ∀ path ∈ ["/os/a", "/os/b", "/os/e", "/os/d"],
      storage.resolve path = .ok point ∧
        ((storage.memory part).Clash point.data.value (point.path.relative path) ↔
          path = "/os/d") := by
    unfold MemoryFs.Clash
    decide +kernel
  obtain ⟨-, hlanded, -, hagree⟩ := kinds_after (Handset.blocks id) rfl run hrun
  have hkinds : ∀ path ∈ ["/os/a", "/os/b", "/os/e", "/os/d"],
      (storage.KindsAgree path ↔ path ≠ "/os/d") := by
    intro path hpath
    obtain ⟨hresolve, hclash⟩ := hpaths path hpath
    rw [← hagree path point hresolve hanswers]
    exact not_congr hclash
  have hname : point.path.relative "/os/d" = "/d" := by decide +kernel
  have hlands := hlanded _ _ ((hpaths "/os/d" (by simp)).2.mpr rfl)
  rw [hname] at hlands
  exact ⟨(hkinds _ (by simp)).mpr (by decide), (hkinds _ (by simp)).mpr (by decide),
    (hkinds _ (by simp)).mpr (by decide), fun hd => (hkinds _ (by simp)).mp hd rfl, hlands⟩

/-- A file and a directory of the same name: stat finds the file, opendir opens the directory, and
open refuses the path as a directory. -/
theorem clash_by_rename :
    let part := Part.whole MemoryFs
    let storage : Storage RamDisk MemoryFs := (ofBlocks (Handset.blocks id) {}).after
      [.register .ext4 (MemoryFs.backend none part), .mount "/os" ⟨.user, 2⟩ .ext4,
        .onPath (.makeDir 0o755) "/os/d", .openFile "/os/a" .writeOnly, .rename "/os/a" "/os/d"]
    ((storage.memory part).volume 1).files.contains "/d" = true ∧
      ((storage.memory part).volume 1).dirs.contains "/d" = true ∧
      ((onPath .stat "/os/d").outcome storage).1.map Stat.kind? = .ok (some .regular) ∧
      ((openDir "/os/d").outcome storage).1 = .ok (.backend ⟨3⟩ .first) ∧
      ((openFile "/os/d" .readOnly).outcome storage).1 = .error .invalidArgument := by
  decide +kernel

end Storage

end StorageStack

import StorageStack.Proofs.Storage.Atomicity

/-! # Mounting a table

The entries of a table are mounted one by one. An entry that fails is counted and passed over, and
an entry that succeeds puts one record behind those that are there, so what was mounted before stays
as it was. A path that is live is refused before any backend is asked, and a table that is mounted
once more disturbs nothing.
-/

namespace StorageStack

variable {δ ω : Type}

theorem isOk_iff {answer : Except StorageError Unit} : answer.isOk = true ↔ answer = .ok () := by
  cases answer <;> simp [Except.isOk, Except.toBool]

/-- What a list of answers comes to: the successes, the failures and the cause of the first failure. -/
theorem MountSummary.foldl_count (answers : List (Except StorageError Unit)) (summary : MountSummary) :
    answers.foldl count summary =
      { mounted := summary.mounted + answers.countP (·.isOk)
        failed := summary.failed + answers.countP (!·.isOk)
        firstError := summary.firstError.or (answers.findSome? causeOf?) } := by
  induction answers generalizing summary with
  | nil => simp
  | cons answer rest ih =>
      rw [List.foldl_cons, ih, List.countP_cons, List.countP_cons, List.findSome?_cons]
      cases answer with
      | ok value =>
          have hok : (Except.ok value : Except StorageError Unit).isOk = true := rfl
          simp [count, causeOf?, hok, Nat.add_assoc, Nat.add_comm 1]
      | error cause =>
          have hfailed : (Except.error cause : Except StorageError Unit).isOk = false := rfl
          simp [count, causeOf?, hfailed, Nat.add_assoc, Nat.add_comm 1]

/-- The mounting of one entry: the calls that the backends receive, and the answer. -/
structure MountAttempt where
  entry : MountEntry
  calls : List Call
  answer : Except StorageError Unit

/-- The record that an attempt has put into the mount table. Its backend has accepted it. -/
structure MountAttempt.Enters (attempt : MountAttempt) (point : MountPoint) : Prop where
  path : point.path.text = attempt.entry.path
  device : point.device = attempt.entry.device
  fsType : attempt.entry.fsType ≠ .auto → point.fsType = attempt.entry.fsType
  accepted :
    Call.serve point.fsType { point with data := {} } .mount (.ok point.data) ∈ attempt.calls

/-- A mount of one entry. -/
def Operation.ofEntry (entry : MountEntry) : Operation δ ω :=
  .mount entry.path entry.device entry.fsType

namespace Storage

/-- A mount is live at the path. -/
def Live (storage : Storage δ ω) (path : String) : Prop :=
  ∃ mount ∈ storage.mounts, mount.path.text = path

/-- The attempt is what mounting its entry comes to, and leads to the other state. -/
def Attempted (storage : Storage δ ω) (attempt : MountAttempt) (after : Storage δ ω) : Prop :=
  Performs (fun _ => mount attempt.entry.path attempt.entry.device attempt.entry.fsType) storage
    attempt.calls (attempt.answer, after)

/-- Attempts that follow each other, each in the state that the one before it has left. -/
inductive OneByOne : Storage δ ω → List MountAttempt → Storage δ ω → Prop
  | nil (storage : Storage δ ω) : OneByOne storage [] storage
  | cons {storage middle last : Storage δ ω} {attempt : MountAttempt} {rest : List MountAttempt}
      (hattempt : Attempted storage attempt middle) (hrest : OneByOne middle rest last) :
      OneByOne storage (attempt :: rest) last

/-- What the mounting of a table comes to: the attempts, one for each entry in order, the summary,
and the state that is left. -/
structure Batch (storage : Storage δ ω) (entries : List MountEntry) (attempts : List MountAttempt)
    (summary : MountSummary) (last : Storage δ ω) : Prop where
  entries_eq : attempts.map (·.entry) = entries
  oneByOne : OneByOne storage attempts last
  /-- The table leaves the state that its entries leave one by one. -/
  result : (mountTable entries).run storage = (summary, last)
  /-- The backends receive the calls of the entries, in order, and no others. -/
  calls : ∀ earlier, (mountTable entries).run (storage.logged earlier) =
    (summary, last.logged (earlier ++ attempts.flatMap (·.calls)))
  /-- What was mounted stays, with one record behind it for each success, in the order of the
  entries. -/
  appended : ∃ made, last.mounts = storage.mounts ++ made ∧ summary.mounted = made.length ∧
    List.Forall₂ MountAttempt.Enters (attempts.filter (·.answer.isOk)) made
  counted : summary.mounted + summary.failed = entries.length
  firstError_eq_some_iff : ∀ cause, summary.firstError = some cause ↔ ∃ earlier attempt later,
    attempts = earlier ++ attempt :: later ∧ attempt.answer = .error cause ∧
      ∀ prior ∈ earlier, prior.answer = .ok ()
  firstError_eq_none_iff : summary.firstError = none ↔ summary.failed = 0
  /-- An entry is refused as busy without a call exactly if its path was live before, or one of the
  entries before it has been mounted there. -/
  busy_iff : ∀ earlier attempt later, attempts = earlier ++ attempt :: later →
    (attempt.answer = .error .busy ∧ attempt.calls = [] ↔
      storage.Live attempt.entry.path ∨
        ∃ prior ∈ earlier, prior.answer = .ok () ∧ prior.entry.path = attempt.entry.path)

/-! ## One attempt -/

/-- A mount is refused as busy exactly if its path is live. -/
theorem firstFailure?_eq_busy_iff {storage : Storage δ ω} {path : String} {device : DeviceHandle}
    {fsType : FsType} :
    firstFailure? (storage.mountChecks path device fsType) = some .busy ↔ storage.Live path := by
  constructor
  · intro hfirst
    have hcheck := mem_of_firstFailure? hfirst
    simpa [mountChecks, Live] using hcheck
  · rintro ⟨mount, hmount, rfl⟩
    have hlive : (storage.mounts.all fun other => other.path.text ≠ mount.path.text) = false :=
      List.all_eq_false.mpr ⟨mount, hmount, by simp⟩
    rw [mountChecks, firstFailure?_cons, firstFailure?_cons, hlive]
    simp [mount.path.valid]

section Attempted

variable {storage after : Storage δ ω} {attempt : MountAttempt}

theorem exists_attempted (storage : Storage δ ω) (entry : MountEntry) :
    ∃ attempt after, attempt.entry = entry ∧ Attempted storage attempt after := by
  obtain ⟨probes, mounts, ⟨answer, after⟩, hmounting⟩ :=
    exists_mounting storage entry.path entry.device entry.fsType
  exact ⟨⟨entry, probes ++ mounts, answer⟩, after, rfl, hmounting.performs⟩

theorem Attempted.exists_mounting (hattempt : Attempted storage attempt after) :
    ∃ probes mounts, attempt.calls = probes ++ mounts ∧
      Mounting storage attempt.entry.path attempt.entry.device attempt.entry.fsType probes mounts
        (attempt.answer, after) := by
  obtain ⟨probes, mounts, result, hmounting⟩ :=
    Storage.exists_mounting storage attempt.entry.path attempt.entry.device attempt.entry.fsType
  obtain rfl : (attempt.answer, after) = result := hattempt.1.symm.trans hmounting.performs.1
  exact ⟨probes, mounts, hattempt.callsOf_eq.symm.trans hmounting.performs.callsOf_eq, hmounting⟩

/-- An attempt fails and leaves the tables alone, or puts its record behind those that are there. -/
theorem Attempted.cases (hattempt : Attempted storage attempt after) :
    (∃ cause, attempt.answer = .error cause ∧ SameTables storage after) ∨
      attempt.answer = .ok () ∧ ∃ point, attempt.Enters point ∧
        after.mounts = storage.mounts ++ [point] := by
  obtain ⟨probes, mounts, hcalls, hmounting⟩ := hattempt.exists_mounting
  cases hanswer : attempt.answer with
  | error cause => exact Or.inl ⟨cause, rfl, hmounting.failed cause hanswer⟩
  | ok _ =>
      obtain ⟨_, _, data, hserve⟩ := hmounting.ok_iff.mp hanswer
      obtain ⟨registration, -, mountPath, env, _, htype, -, hpath, hcall, hresult⟩ :=
        hmounting.answered _ hserve
      cases hcall
      obtain rfl : after = _ := congrArg Prod.snd hresult
      refine Or.inr ⟨rfl, _, ⟨hpath, rfl, htype, ?_⟩, rfl⟩
      rw [hcalls]
      exact List.mem_append_right _ hserve

/-- An attempt is refused as busy, without a call, exactly if its path is live. -/
theorem Attempted.busy_iff (hattempt : Attempted storage attempt after) :
    attempt.answer = .error .busy ∧ attempt.calls = [] ↔ storage.Live attempt.entry.path := by
  obtain ⟨probes, mounts, hcalls, hmounting⟩ := hattempt.exists_mounting
  rw [hcalls, List.append_eq_nil_iff, ← firstFailure?_eq_busy_iff]
  constructor
  · rintro ⟨hanswer, -, hmounts⟩
    cases hfirst : firstFailure? (storage.mountChecks attempt.entry.path attempt.entry.device
        attempt.entry.fsType) with
    | some cause =>
        obtain ⟨-, -, hresult⟩ := hmounting.refused cause hfirst
        cases hanswer.symm.trans (congrArg Prod.fst hresult)
        rfl
    | none => cases hanswer.symm.trans (hmounting.unclaimed hfirst hmounts).1
  · intro hbusy
    obtain ⟨hprobes, hmounts, hresult⟩ := hmounting.refused .busy hbusy
    exact ⟨congrArg Prod.fst hresult, hprobes, hmounts⟩

end Attempted

/-! ## One after the other -/

section OneByOne

variable {storage last : Storage δ ω}

theorem exists_oneByOne (entries : List MountEntry) (storage : Storage δ ω) :
    ∃ attempts last, attempts.map MountAttempt.entry = entries ∧ OneByOne storage attempts last := by
  induction entries generalizing storage with
  | nil => exact ⟨[], storage, rfl, .nil storage⟩
  | cons entry rest ih =>
      obtain ⟨attempt, middle, rfl, hattempt⟩ := exists_attempted storage entry
      obtain ⟨attempts, last, rfl, hrest⟩ := ih middle
      exact ⟨attempt :: attempts, last, rfl, .cons hattempt hrest⟩

theorem OneByOne.of_append {earlier later : List MountAttempt}
    (hattempts : OneByOne storage (earlier ++ later) last) :
    ∃ middle, OneByOne storage earlier middle ∧ OneByOne middle later last := by
  induction earlier generalizing storage with
  | nil => exact ⟨storage, .nil storage, hattempts⟩
  | cons attempt rest ih =>
      cases hattempts with
      | cons hattempt hrest =>
          obtain ⟨middle, hearlier, hlater⟩ := ih hrest
          exact ⟨middle, .cons hattempt hearlier, hlater⟩

variable {attempts : List MountAttempt}

/-- Each success puts one record behind those that are there, and a failure puts none. -/
theorem OneByOne.appended (hattempts : OneByOne storage attempts last) :
    ∃ made, last.mounts = storage.mounts ++ made ∧
      List.Forall₂ MountAttempt.Enters (attempts.filter (·.answer.isOk)) made := by
  induction hattempts with
  | nil storage => exact ⟨[], (List.append_nil _).symm, .nil⟩
  | cons hattempt _ ih =>
      obtain ⟨made, hmounts, hmade⟩ := ih
      rcases hattempt.cases with ⟨cause, hanswer, env, rfl⟩ | ⟨hanswer, point, hpoint, hentered⟩
      · refine ⟨made, hmounts, ?_⟩
        rwa [List.filter_cons_of_neg (by simp [isOk_iff, hanswer])]
      · refine ⟨point :: made, by rw [hmounts, hentered, List.append_assoc, List.singleton_append], ?_⟩
        rw [List.filter_cons_of_pos (by simp [isOk_iff, hanswer])]
        exact .cons hpoint hmade

/-- The live paths are those that were live before, and those of the successes. -/
theorem OneByOne.live_iff (hattempts : OneByOne storage attempts last) {path : String} :
    last.Live path ↔ storage.Live path ∨
      ∃ attempt ∈ attempts, attempt.answer = .ok () ∧ attempt.entry.path = path := by
  induction hattempts with
  | nil storage => simp
  | cons hattempt _ ih =>
      rw [ih]
      rcases hattempt.cases with ⟨cause, hanswer, env, rfl⟩ | ⟨hanswer, point, hpoint, hentered⟩
      · simp [hanswer, Live]
      · simp [hanswer, Live, hentered, hpoint.path, or_and_right, exists_or, or_assoc]

/-- The table as a whole does what its entries do one by one. -/
theorem OneByOne.mountAll_eq (hattempts : OneByOne storage attempts last) (summary : MountSummary) :
    mountAll (attempts.map (·.entry)) summary storage =
        ((attempts.map (·.answer)).foldl MountSummary.count summary, last) ∧
      ∀ earlier, mountAll (attempts.map (·.entry)) summary (storage.logged earlier) =
        ((attempts.map (·.answer)).foldl MountSummary.count summary,
          last.logged (earlier ++ attempts.flatMap (·.calls))) := by
  induction hattempts generalizing summary with
  | nil storage => exact ⟨rfl, fun earlier => by rw [List.flatMap_nil, List.append_nil]; rfl⟩
  | cons hattempt _ ih =>
      obtain ⟨hplain, hlogged⟩ := ih (summary.count _)
      refine ⟨(mountAll_cons hattempt.1).trans hplain, fun earlier => ?_⟩
      rw [List.flatMap_cons, ← List.append_assoc]
      exact (mountAll_cons (hattempt.2 earlier)).trans (hlogged _)

theorem OneByOne.after_eq [DiskDriver δ] (hattempts : OneByOne storage attempts last) :
    storage.after (attempts.map fun attempt => .ofEntry attempt.entry) = last := by
  induction hattempts with
  | nil storage => rfl
  | cons hattempt _ ih =>
      rw [List.map_cons, after_cons, ← ih]
      congr 1
      exact congrArg Prod.snd hattempt.1

theorem OneByOne.batch (hattempts : OneByOne storage attempts last) :
    ∃ summary, Batch storage (attempts.map (·.entry)) attempts summary last := by
  obtain ⟨hplain, hlogged⟩ := hattempts.mountAll_eq {}
  obtain ⟨made, hmounts, hmade⟩ := hattempts.appended
  rw [MountSummary.foldl_count] at hplain hlogged
  refine ⟨_, rfl, hattempts, hplain, hlogged, ⟨made, hmounts, ?_, hmade⟩, ?_, ?_, ?_, ?_⟩
  · dsimp only
    rw [Nat.zero_add, List.countP_map, ← hmade.length_eq, ← List.countP_eq_length_filter]
    rfl
  · dsimp only
    rw [Nat.zero_add, Nat.zero_add, List.length_map, ← List.length_map (f := (·.answer)),
      List.length_eq_countP_add_countP (·.isOk)]
    simp
  · intro cause
    simp only [Option.none_or, List.findSome?_map, List.findSome?_eq_some_iff, Function.comp_apply,
      causeOf?_eq_some_iff, causeOf?_eq_none_iff]
  · simp only [Option.none_or, List.findSome?_eq_none_iff, causeOf?_eq_none_iff, Nat.zero_add,
      List.countP_eq_zero, Bool.not_eq_true, Bool.not_eq_false', isOk_iff]
  · rintro earlier attempt later rfl
    obtain ⟨middle, hearlier, hlater⟩ := hattempts.of_append
    cases hlater with
    | cons hattempt _ => rw [hattempt.busy_iff, hearlier.live_iff]

end OneByOne

variable [DiskDriver δ]

/-- In every state and for every table, whatever the backends answer, the entries are mounted one by
one, and a failure keeps no other from being mounted. What was mounted before stays in front, and
each success puts one record behind it; successes and failures are counted, and the first cause is
kept. Mounting the table again leaves every mount in place, and refuses each entry whose path is
live without a call. -/
theorem mountTable_bestEffort (storage : Storage δ ω) (entries : List MountEntry) :
    ∃ attempts summary last, Batch storage entries attempts summary last ∧
      storage.after (entries.map .ofEntry) = last ∧
      ∃ repeated again final, Batch last entries repeated again final ∧
        last.mounts <+: final.mounts ∧
        ∀ attempt ∈ repeated, last.Live attempt.entry.path →
          attempt.answer = .error .busy ∧ attempt.calls = [] := by
  obtain ⟨attempts, last, rfl, hattempts⟩ := exists_oneByOne entries storage
  obtain ⟨summary, hbatch⟩ := hattempts.batch
  obtain ⟨repeated, final, hentries, hrepeated⟩ := exists_oneByOne (attempts.map (·.entry)) last
  obtain ⟨again, hagain⟩ := hrepeated.batch
  rw [hentries] at hagain
  obtain ⟨made, hmounts, -⟩ := hagain.appended
  refine ⟨attempts, summary, last, hbatch, ?_, repeated, again, final, hagain, ?_, ?_⟩
  · rw [List.map_map]
    exact hattempts.after_eq
  · rw [hmounts]
    exact List.prefix_append _ _
  · intro attempt hattempt hlive
    obtain ⟨earlier, later, hsplit⟩ := List.append_of_mem hattempt
    exact (hagain.busy_iff earlier attempt later hsplit).mpr (Or.inl hlive)

/-- A table with an invalid path, a live one, a new one that it lists twice, and an unknown device. -/
theorem mountTable_bestEffort_handset :
    let storage := (ofBlocks (Handset.blocks id) ()).after
      [.register .fat (.mountOnly : Backend RamDisk Unit), .mount "/boot" ⟨.user, 1⟩ .fat]
    let entries : List MountEntry :=
      [⟨.user, 2, .auto, "/os/"⟩, ⟨.user, 1, .fat, "/boot"⟩, ⟨.user, 2, .fat, "/os"⟩,
        ⟨.user, 3, .fat, "/os"⟩, ⟨.user, 9, .fat, "/user"⟩]
    ∃ attempts last, Batch storage entries attempts ⟨1, 4, some .invalidArgument⟩ last ∧
      last.mounts.map (·.path.text) = ["/boot", "/os"] ∧
      ∃ repeated final, Batch last entries repeated ⟨0, 5, some .invalidArgument⟩ final ∧
        last.mounts <+: final.mounts ∧
        ∀ attempt ∈ repeated, last.Live attempt.entry.path →
          attempt.answer = .error .busy ∧ attempt.calls = [] := by
  intro storage entries
  have hanswers :
      ((mountTable entries).run storage).1 = ⟨1, 4, some .invalidArgument⟩ ∧
      ((mountTable entries).run storage).2.mounts.map (·.path.text) = ["/boot", "/os"] ∧
      ((mountTable entries).run ((mountTable entries).run storage).2).1 =
        ⟨0, 5, some .invalidArgument⟩ := by
    decide +kernel
  obtain ⟨attempts, summary, last, hbatch, -, repeated, again, final, hagain, hkept, hbusy⟩ :=
    mountTable_bestEffort storage entries
  rw [hbatch.result] at hanswers
  dsimp only at hanswers
  rw [hagain.result] at hanswers
  obtain ⟨rfl, hpaths, rfl⟩ := hanswers
  exact ⟨attempts, last, hbatch, hpaths, repeated, final, hagain, hkept, hbusy⟩

end Storage

end StorageStack

import Mathlib.Data.List.Infix
import Mathlib.Data.List.Nodup
import StorageStack.Handset
import StorageStack.Proofs.Storage.HandleCalls
import StorageStack.Proofs.Storage.Handles

/-! # Listing the mounts

The root directory is an index into the mount table. Records that are mounted go behind the others,
and a record that is unmounted moves those behind it one place forward. So a record that has been
returned stays in front of the index, and one that has not been returned stays behind it, unless it
is the next one at the moment when a record in front of it is unmounted: then it is passed over.
-/

namespace StorageStack

variable {δ ω : Type}

/-- What an operation does to the mount table. -/
inductive TableStep (mounts : List MountPoint) : List MountPoint → Prop
  | extend (made : List MountPoint) : TableStep mounts (mounts ++ made)
  | erase (mount : MountPoint) : TableStep mounts (mounts.erase mount)
  | clear : TableStep mounts []

theorem TableStep.refl (mounts : List MountPoint) : TableStep mounts mounts := by
  simpa using @TableStep.extend mounts []

/-- A record that stays live keeps its place, or moves one place forward because a record in front
of it is gone. -/
theorem TableStep.idxOf_cases {mounts after : List MountPoint} (hstep : TableStep mounts after)
    (hnodup : mounts.Nodup) {mount : MountPoint} (hbefore : mount ∈ mounts) (hafter : mount ∈ after) :
    (after.idxOf mount = mounts.idxOf mount ∧
        ∀ other ∈ mounts.take (mounts.idxOf mount), other ∈ after) ∨
      after.idxOf mount + 1 = mounts.idxOf mount ∧
        ∃ other ∈ mounts.take (mounts.idxOf mount), other ∉ after := by
  cases hstep with
  | extend made =>
      exact .inl ⟨List.idxOf_append_of_mem hbefore,
        fun other hother => List.mem_append_left _ (List.mem_of_mem_take hother)⟩
  | clear => cases hafter
  | erase gone =>
      by_cases hgone : gone ∈ mounts
      · obtain ⟨front, back, hfront, rfl, herase⟩ := List.exists_erase_eq hgone
        rw [herase] at hafter ⊢
        by_cases hmount : mount ∈ front
        · left
          have hindex : (front ++ gone :: back).idxOf mount = front.idxOf mount :=
            List.idxOf_append_of_mem hmount
          refine ⟨(List.idxOf_append_of_mem hmount).trans hindex.symm, fun other hother => ?_⟩
          rw [hindex, List.take_append_of_le_length (List.idxOf_le_length)] at hother
          exact List.mem_append_left _ (List.mem_of_mem_take hother)
        · right
          have hback : gone ∉ back := (List.nodup_cons.mp (List.nodup_append.mp hnodup).2.1).1
          have hne : gone ≠ mount := by
            rintro rfl
            exact (List.mem_append.mp hafter).elim hmount hback
          have hindex : (front ++ gone :: back).idxOf mount = front.length + (back.idxOf mount + 1) := by
            rw [List.idxOf_append_of_notMem hmount, List.idxOf_cons_ne _ hne]
          refine ⟨?_, gone, ?_, fun hkept => (List.mem_append.mp hkept).elim hfront hback⟩
          · rw [hindex, List.idxOf_append_of_notMem hmount, Nat.add_assoc]
          · rw [hindex, List.take_length_add_append, List.take_succ_cons]
            exact List.mem_append_right _ List.mem_cons_self
      · left
        rw [List.erase_of_not_mem hgone]
        exact ⟨rfl, fun other => List.mem_of_mem_take⟩

/-- What the reading of the root directory makes of the record at the index. -/
def DirReading.ofMount : Option MountPoint → DirReading
  | none => .finished
  | some mount => .entry mount.toDirEntry

namespace Storage

theorem Change.tableStep {storage after : Storage δ ω} {made : List MountPoint}
    (hchange : Change storage made after) : TableStep storage.mounts after.mounts := by
  cases hchange with
  | environment | register => exact .refl storage.mounts
  | mount point => exact .extend [point]
  | unmount mount => exact .erase mount
  | unmountAll => exact .clear

/-- With distinct records, a record stands at the cursor if the cursor is its place. -/
theorem Sound.getElem?_eq_some_iff {storage : Storage δ ω} (hsound : storage.Sound) {mount : MountPoint}
    (hmount : mount ∈ storage.mounts) (cursor : Nat) :
    storage.mounts[cursor]? = some mount ↔ storage.mounts.idxOf mount = cursor := by
  constructor
  · intro hfound
    obtain ⟨hcursor, rfl⟩ := List.getElem?_eq_some_iff.mp hfound
    exact List.get_idxOf hsound.nodup_mounts ⟨cursor, hcursor⟩
  · rintro rfl
    exact List.getElem?_idxOf hmount

variable [DiskDriver δ]

theorem tableStep_state (operation : Operation δ ω) (storage : Storage δ ω) :
    TableStep storage.mounts (operation.state storage).mounts := by
  rcases change_state_or_mountTable operation storage with ⟨_, -, hchange⟩ | ⟨entries, rfl⟩
  · exact hchange.tableStep
  · obtain ⟨made, -, hmounts, -⟩ := evolves_mountAll entries {} storage
    have hstate : ((Operation.mountTable entries).state storage).mounts = storage.mounts ++ made :=
      hmounts
    rw [hstate]
    exact .extend made

/-- The mount is live all through the run. -/
def Stays (storage : Storage δ ω) (run : List (Operation δ ω)) (mount : MountPoint) : Prop :=
  ∀ front, front <+: run → mount ∈ (storage.after front).mounts

/-- The records that are found at the cursor of a root directory which is read once behind each of
the runs. -/
def listing : List (List (Operation δ ω)) → Nat → Storage δ ω → List (Option MountPoint)
  | [], _, _ => []
  | run :: rest, cursor, storage =>
      let record := (storage.after run).mounts[cursor]?
      record :: listing rest (if record.isSome then cursor + 1 else cursor) (storage.after run)

/-- At some point of the run the mount is the next to be listed, and an operation takes a record in
front of it out of the table. -/
def Skips (storage : Storage δ ω) (cursor : Nat) (run : List (Operation δ ω)) (mount : MountPoint) :
    Prop :=
  ∃ front operation back, run = front ++ operation :: back ∧
    let before := storage.after front
    before.mounts[cursor]? = some mount ∧
      ∃ other ∈ before.mounts.take cursor, other ∉ (operation.state before).mounts

/-- The mount is skipped before one of the readings, each of which moves the cursor on. -/
def PassedOver (storage : Storage δ ω) (cursor : Nat) (rounds : List (List (Operation δ ω)))
    (mount : MountPoint) : Prop :=
  ∃ earlier run later, rounds = earlier ++ run :: later ∧
    Skips (storage.after earlier.flatten) (cursor + earlier.length) run mount

section Stays

variable {storage : Storage δ ω} {first second : List (Operation δ ω)} {mount : MountPoint}

theorem Stays.left (hstays : Stays storage (first ++ second) mount) : Stays storage first mount :=
  fun front hfront => hstays front (hfront.trans (List.prefix_append first second))

theorem Stays.right (hstays : Stays storage (first ++ second) mount) :
    Stays (storage.after first) second mount := by
  intro front hfront
  rw [← after_append]
  exact hstays (first ++ front) ((List.prefix_append_right_inj first).mpr hfront)

theorem Stays.tail {operation : Operation δ ω} (hstays : Stays storage (operation :: first) mount) :
    Stays (operation.state storage) first mount :=
  fun front hfront => hstays (operation :: front) ((List.prefix_cons_inj operation).mpr hfront)

theorem Stays.mem (hstays : Stays storage first mount) : mount ∈ storage.mounts :=
  hstays [] List.nil_prefix

theorem Stays.mem_after (hstays : Stays storage first mount) : mount ∈ (storage.after first).mounts :=
  hstays first List.prefix_rfl

end Stays

section Skips

variable {storage : Storage δ ω} {cursor : Nat} {mount : MountPoint}

theorem not_skips_nil : ¬Skips storage cursor [] mount := by
  rintro ⟨front, operation, back, hnil, -⟩
  simp at hnil

theorem skips_cons_iff {operation : Operation δ ω} {rest : List (Operation δ ω)} :
    Skips storage cursor (operation :: rest) mount ↔
      (storage.mounts[cursor]? = some mount ∧
        ∃ other ∈ storage.mounts.take cursor, other ∉ (operation.state storage).mounts) ∨
      Skips (operation.state storage) cursor rest mount := by
  constructor
  · rintro ⟨_ | ⟨_, front⟩, later, back, hrun, hnext, hgone⟩
    · obtain ⟨rfl, rfl⟩ := List.cons.inj hrun
      exact .inl ⟨hnext, hgone⟩
    · obtain ⟨rfl, rfl⟩ := List.cons.inj hrun
      exact .inr ⟨front, later, back, rfl, hnext, hgone⟩
  · rintro (⟨hnext, hgone⟩ | ⟨front, later, back, rfl, hnext, hgone⟩)
    · exact ⟨[], operation, rest, rfl, hnext, hgone⟩
    · exact ⟨operation :: front, later, back, rfl, hnext, hgone⟩

/-- A record that stays live only moves forward, and it moves in front of the cursor exactly if it is
skipped. -/
theorem Stays.skips_iff {run : List (Operation δ ω)} (hstays : Stays storage run mount)
    (hsound : storage.Sound) (cursor : Nat) :
    (storage.after run).mounts.idxOf mount ≤ storage.mounts.idxOf mount ∧
      (Skips storage cursor run mount ↔
        (storage.after run).mounts.idxOf mount < cursor ∧
          cursor ≤ storage.mounts.idxOf mount) := by
  induction run generalizing storage with
  | nil => exact ⟨Nat.le_refl _, iff_of_false not_skips_nil fun h => Nat.not_le.mpr h.1 h.2⟩
  | cons operation rest ih =>
      have hrest : Stays (operation.state storage) rest mount := hstays.tail
      obtain ⟨hmoves, hskips⟩ := ih hrest (hsound.after [operation])
      rw [skips_cons_iff, hskips, hsound.getElem?_eq_some_iff hstays.mem, after_cons]
      rcases (tableStep_state operation storage).idxOf_cases hsound.nodup_mounts hstays.mem hrest.mem
        with ⟨hplace, hkept⟩ | ⟨hplace, other, hother, hgone⟩
      · have hnone : ¬(storage.mounts.idxOf mount = cursor ∧
            ∃ other ∈ storage.mounts.take cursor, other ∉ (operation.state storage).mounts) := by
          rintro ⟨rfl, other, hother, hgone⟩
          exact hgone (hkept other hother)
        rw [hplace] at hmoves hskips ⊢
        simp only [hnone, false_or, hmoves, true_and]
      · have hnext : (storage.mounts.idxOf mount = cursor ∧
            ∃ other ∈ storage.mounts.take cursor, other ∉ (operation.state storage).mounts) ↔
            storage.mounts.idxOf mount = cursor := by
          refine ⟨And.left, ?_⟩
          rintro rfl
          exact ⟨rfl, other, hother, hgone⟩
        rw [hnext]
        omega

theorem passedOver_cons_iff {run : List (Operation δ ω)} {rest : List (List (Operation δ ω))} :
    PassedOver storage cursor (run :: rest) mount ↔
      Skips storage cursor run mount ∨ PassedOver (storage.after run) (cursor + 1) rest mount := by
  constructor
  · rintro ⟨_ | ⟨_, earlier⟩, last, later, hrounds, hskips⟩
    · obtain ⟨rfl, rfl⟩ := List.cons.inj hrounds
      exact .inl hskips
    · obtain ⟨rfl, rfl⟩ := List.cons.inj hrounds
      refine .inr ⟨earlier, last, later, rfl, ?_⟩
      rwa [List.flatten_cons, after_append, List.length_cons, Nat.add_comm earlier.length,
        ← Nat.add_assoc] at hskips
  · rintro (hskips | ⟨earlier, last, later, rfl, hskips⟩)
    · exact ⟨[], run, rest, rfl, hskips⟩
    · refine ⟨run :: earlier, last, later, rfl, ?_⟩
      rwa [List.flatten_cons, after_append, List.length_cons, Nat.add_comm earlier.length,
        ← Nat.add_assoc]

theorem not_passedOver_nil : ¬PassedOver storage cursor [] mount := by
  rintro ⟨earlier, run, later, hnil, -⟩
  simp at hnil

end Skips

section Listing

variable {storage : Storage δ ω} {cursor : Nat} {mount : MountPoint}
  {rounds : List (List (Operation δ ω))}

/-- Reading a root directory never fails, and leaves the storage layer alone. -/
theorem readings_root (attempts : Nat) (rounds : List (List (Operation δ ω))) (cursor : Nat)
    (storage : Storage δ ω) :
    ∃ last, readings attempts rounds (.root cursor, storage) =
      ((listing rounds cursor storage).map fun record => .ok (DirReading.ofMount record), .root last,
        storage.after rounds.flatten) := by
  induction rounds generalizing cursor storage with
  | nil => exact ⟨cursor, rfl⟩
  | cons run rest ih =>
      rw [readings, outcome_readDir_root, listing, List.flatten_cons, after_append]
      cases (storage.after run).mounts[cursor]? with
      | none =>
          obtain ⟨last, hrest⟩ := ih cursor (storage.after run)
          exact ⟨last, by simp only [hrest, Option.isSome_none, List.map_cons]; rfl⟩
      | some mount =>
          obtain ⟨last, hrest⟩ := ih (cursor + 1) (storage.after run)
          exact ⟨last, by simp only [hrest, Option.isSome_some, if_true, List.map_cons]; rfl⟩

/-- What is returned is live at that moment. -/
theorem mem_of_listing {index : Nat}
    (hrecord : (listing rounds cursor storage)[index]? = some (some mount)) :
    mount ∈ (storage.after (rounds.take (index + 1)).flatten).mounts := by
  induction rounds generalizing cursor storage index with
  | nil => simp [listing] at hrecord
  | cons run rest ih =>
      rw [List.take_succ_cons, List.flatten_cons, after_append]
      cases index with
      | zero =>
          rw [listing, List.getElem?_cons_zero, Option.some.injEq] at hrecord
          rw [List.take_zero]
          exact List.mem_of_getElem? hrecord
      | succ index =>
          rw [listing, List.getElem?_cons_succ] at hrecord
          exact ih hrecord

/-- A record in front of the cursor is not returned while it stays live. -/
theorem listing_ne_of_lt {index : Nat} (hsound : storage.Sound)
    (hstays : Stays storage (rounds.take (index + 1)).flatten mount)
    (hplace : storage.mounts.idxOf mount < cursor) :
    (listing rounds cursor storage)[index]? ≠ some (some mount) := by
  induction rounds generalizing cursor storage index with
  | nil => simp [listing]
  | cons run rest ih =>
      rw [List.take_succ_cons, List.flatten_cons] at hstays
      have hafter : ((storage.after run).mounts.idxOf mount) < cursor :=
        Nat.lt_of_le_of_lt (hstays.left.skips_iff hsound cursor).1 hplace
      rw [listing]
      cases index with
      | zero =>
          rw [List.getElem?_cons_zero, Ne, Option.some.injEq,
            (hsound.after run).getElem?_eq_some_iff hstays.left.mem_after]
          exact Nat.ne_of_lt hafter
      | succ index =>
          rw [List.getElem?_cons_succ]
          apply ih (hsound.after run) hstays.right
          split <;> omega

/-- A record that is returned twice has been gone in between. -/
theorem not_stays_of_listing {first second : Nat} (hsound : storage.Sound) (horder : first < second)
    (hfirst : (listing rounds cursor storage)[first]? = some (some mount))
    (hsecond : (listing rounds cursor storage)[second]? = some (some mount)) :
    ¬Stays (storage.after (rounds.take (first + 1)).flatten)
      ((rounds.take (second + 1)).drop (first + 1)).flatten mount := by
  induction rounds generalizing cursor storage first second with
  | nil => simp [listing] at hfirst
  | cons run rest ih =>
      obtain ⟨second, rfl⟩ := Nat.exists_eq_add_one_of_ne_zero (Nat.ne_zero_of_lt horder)
      rw [listing, List.getElem?_cons_succ] at hsecond
      rw [List.take_succ_cons, List.take_succ_cons, List.drop_succ_cons, List.flatten_cons,
        after_append]
      cases first with
      | zero =>
          rw [listing, List.getElem?_cons_zero, Option.some.injEq] at hfirst
          rw [hfirst, Option.isSome_some, if_pos rfl] at hsecond
          rw [List.take_zero, List.drop_zero]
          intro hstays
          have hplace : (storage.after run).mounts.idxOf mount = cursor :=
            ((hsound.after run).getElem?_eq_some_iff hstays.mem cursor).mp hfirst
          exact listing_ne_of_lt (hsound.after run) hstays (by omega) hsecond
      | succ first =>
          rw [listing, List.getElem?_cons_succ] at hfirst
          exact ih (hsound.after run) (Nat.lt_of_succ_lt_succ horder) hfirst hsecond

/-- A record that stays live until the end is returned once if it is not in front of the cursor and
is not passed over, and otherwise it is not returned. -/
theorem Stays.listing_cases (hstays : Stays storage rounds.flatten mount) (hsound : storage.Sound)
    {seen : List MountPoint} (hlisting : listing rounds cursor storage = seen.map some ++ [none]) :
    (seen.count mount = 1 ∧ cursor ≤ storage.mounts.idxOf mount ∧
        ¬PassedOver storage cursor rounds mount) ∨
      (mount ∉ seen ∧
        (PassedOver storage cursor rounds mount ↔ cursor ≤ storage.mounts.idxOf mount)) := by
  induction rounds generalizing cursor storage seen with
  | nil => simp [listing] at hlisting
  | cons run rest ih =>
      rw [List.flatten_cons] at hstays
      obtain ⟨hmoves, hskips⟩ := hstays.left.skips_iff hsound cursor
      have hmember := hstays.left.mem_after
      have hplace := List.idxOf_lt_length_iff.mpr hmember
      rw [passedOver_cons_iff, hskips]
      rw [listing] at hlisting
      cases hrecord : (storage.after run).mounts[cursor]? with
      | none =>
          have hend := List.getElem?_eq_none_iff.mp hrecord
          rw [hrecord] at hlisting
          cases seen with
          | cons _ _ => simp at hlisting
          | nil =>
              cases rest with
              | cons _ _ => simp [listing] at hlisting
              | nil =>
                  refine .inr ⟨List.not_mem_nil, ?_⟩
                  simp only [not_passedOver_nil, or_false]
                  omega
      | some record =>
          have hfound := (hsound.after run).getElem?_eq_some_iff hmember cursor
          rw [hrecord, Option.some.injEq] at hfound
          rw [hrecord] at hlisting
          cases seen with
          | nil => simp at hlisting
          | cons _ seen =>
              obtain ⟨rfl, hrest⟩ : record = _ ∧ listing rest (cursor + 1) (storage.after run) =
                  seen.map some ++ [none] := by simpa using hlisting
              have hlater := ih hstays.right (hsound.after run) hrest
              by_cases hsame : record = mount
              · -- The record is returned here, and stands in front of the cursor from now on.
                have hhere := hfound.mp hsame
                subst hsame
                rcases hlater with ⟨-, hahead, -⟩ | ⟨hnot, hpassed⟩
                · omega
                · refine .inl ⟨?_, by omega, by rw [hpassed]; omega⟩
                  rw [List.count_cons_self, List.count_eq_zero_of_not_mem hnot]
              · have helsewhere := mt hfound.mpr hsame
                rw [List.count_cons_of_ne hsame, List.mem_cons, or_iff_right (Ne.symm hsame)]
                rcases hlater with ⟨honce, hahead, hpassed⟩ | ⟨hnot, hpassed⟩
                · exact .inl ⟨honce, by omega, not_or.mpr ⟨by omega, hpassed⟩⟩
                · exact .inr ⟨hnot, by rw [hpassed]; omega⟩

end Listing

/-- A mount is listed as a directory, under its path without the leading slash. -/
theorem toDirEntry_spec (mount : MountPoint) :
    mount.toDirEntry.kind = .directory ∧ mount.path.text = "/" ++ mount.toDirEntry.name.text :=
  ⟨rfl, mount.path.text_eq⟩

/-- Between two readings of a run with at most `UInt32.size` mounts, a record that is live at both
stays live. -/
theorem stays_between (blocks : BlockDevices δ) (host : ω) (before : List (Operation δ ω))
    {rounds : List (List (Operation δ ω))} {first second : Nat} (horder : first ≤ second)
    {mount : MountPoint}
    (hcount : (ofBlocks blocks host).mountCount (before ++ rounds.flatten) ≤ UInt32.size)
    (hfirst : mount ∈ ((ofBlocks blocks host).after (before ++ (rounds.take first).flatten)).mounts)
    (hsecond : mount ∈ ((ofBlocks blocks host).after (before ++ (rounds.take second).flatten)).mounts) :
    Stays ((ofBlocks blocks host).after (before ++ (rounds.take first).flatten))
      ((rounds.take second).drop first).flatten mount := by
  have hsplit : before ++ (rounds.take second).flatten =
      (before ++ (rounds.take first).flatten) ++ ((rounds.take second).drop first).flatten := by
    have htake := List.take_append_drop first (rounds.take second)
    rw [List.take_take, Nat.min_eq_left horder] at htake
    rw [List.append_assoc, ← List.flatten_append, htake]
  have hrounds : before ++ rounds.flatten =
      before ++ (rounds.take second).flatten ++ (rounds.drop second).flatten := by
    rw [List.append_assoc, ← List.flatten_append, List.take_append_drop]
  rw [hrounds, hsplit, mountCount_append, mountCount_append] at hcount
  rw [hsplit, after_append] at hsecond
  exact ((record_after blocks host _ _ (.refl _) hfirst (Nat.le_of_add_right_le hcount)).1 hsecond).1

/-- After every run the root directory can be read, with anything done in between, and no reading
fails. It returns the mounts that are live at the moment, and none of them again while it stays
live. Up to the first end every mount that has been live all the time is returned exactly once,
unless it was passed over: a record in front of it was taken out of the table when it was the next
one. Then it is not returned. -/
theorem root_listing_after (blocks : BlockDevices δ) (host : ω) (before : List (Operation δ ω))
    (attempts : Nat) (rounds : List (List (Operation δ ω))) :
    let initial := ofBlocks blocks host
    let start := initial.after before
    let moment := fun index => start.after (rounds.take (index + 1)).flatten
    let records := listing rounds 0 start
    (openDir "/").outcome start = (.ok (.root 0), start) ∧
      (∃ last, readings attempts rounds (.root 0, start) =
        (records.map fun record => .ok (.ofMount record), .root last, start.after rounds.flatten)) ∧
      (∀ index mount, records[index]? = some (some mount) →
        mount ∈ (moment index).mounts ∧ mount.toDirEntry.kind = .directory ∧
          mount.path.text = "/" ++ mount.toDirEntry.name.text) ∧
      (∀ first second mount, first < second → records[first]? = some (some mount) →
        records[second]? = some (some mount) →
        ¬Stays (moment first) ((rounds.take (second + 1)).drop (first + 1)).flatten mount ∧
          UInt32.size < initial.mountCount (before ++ rounds.flatten)) ∧
      ∀ seen : List MountPoint, records = seen.map some ++ [none] →
        ∀ mount, Stays start rounds.flatten mount →
          (¬PassedOver start 0 rounds mount → seen.count mount = 1) ∧
            (PassedOver start 0 rounds mount → mount ∉ seen) := by
  intro initial start moment records
  have hsound : start.Sound := sound_after blocks host before
  refine ⟨outcome_openDir_root, readings_root attempts rounds 0 start, ?_, ?_, ?_⟩
  · exact fun index mount hrecord => ⟨mem_of_listing hrecord, toDirEntry_spec mount⟩
  · intro first second mount horder hfirst hsecond
    have hgone := not_stays_of_listing hsound horder hfirst hsecond
    have hmoment : ∀ index, moment index =
        initial.after (before ++ (rounds.take (index + 1)).flatten) :=
      fun index => (after_append initial before _).symm
    refine ⟨hgone, Nat.lt_of_not_le fun hcount => hgone ?_⟩
    rw [show start.after (rounds.take (first + 1)).flatten = _ from hmoment first]
    exact stays_between blocks host before (Nat.succ_le_succ horder.le) hcount
      (hmoment first ▸ mem_of_listing hfirst) (hmoment second ▸ mem_of_listing hsecond)
  · intro seen hlisting mount hstays
    rcases hstays.listing_cases hsound hlisting with ⟨honce, -, hpassed⟩ | ⟨hnot, hpassed⟩
    · exact ⟨fun _ => honce, fun hskipped => absurd hskipped hpassed⟩
    · exact ⟨fun hkept => absurd (hpassed.mpr (Nat.zero_le _)) hkept, fun _ => hnot⟩

/-- Once the first mount has been returned, unmounting it hides the second one, which is live all the
time. -/
theorem root_listing_passes_over :
    let start := (ofBlocks (Handset.blocks id) ()).after
      [.register .ext4 (.mountOnly : Backend RamDisk Unit), .mount "/boot" ⟨.user, 1⟩ .ext4,
        .mount "/os" ⟨.user, 2⟩ .ext4]
    let rounds : List (List (Operation RamDisk Unit)) := [[], [.unmount "/boot"]]
    let boot : MountPoint :=
      { id := .ofIndex 0, path := ⟨"/boot", by decide⟩, device := ⟨.user, 1⟩, fsType := .ext4 }
    let os : MountPoint :=
      { id := .ofIndex 1, path := ⟨"/os", by decide⟩, device := ⟨.user, 2⟩, fsType := .ext4 }
    (openDir "/").outcome start = (.ok (.root 0), start) ∧
      (readings 1 rounds (.root 0, start)).1 = [.ok (.entry boot.toDirEntry), .ok .finished] ∧
      Stays start rounds.flatten os ∧ os.toDirEntry ≠ boot.toDirEntry := by
  intro start rounds boot os
  have hanswers : (readings 1 rounds (.root 0, start)).1 =
        [.ok (.entry boot.toDirEntry), .ok .finished] ∧
      (∀ front ∈ rounds.flatten.inits, os ∈ (start.after front).mounts) ∧
      os.toDirEntry ≠ boot.toDirEntry := by
    decide +kernel
  obtain ⟨hreadings, hlive, hdistinct⟩ := hanswers
  exact ⟨outcome_openDir_root, hreadings,
    fun front hfront => hlive front ((List.mem_inits front _).mpr hfront), hdistinct⟩

/-- Of three mounts the first is returned and unmounted. The second, which was the next one, is passed
over, and the third is returned. -/
theorem root_listing_after_unmount :
    let start := (ofBlocks (Handset.blocks id) ()).after
      [.register .ext4 (.mountOnly : Backend RamDisk Unit), .mount "/boot" ⟨.user, 1⟩ .ext4,
        .mount "/os" ⟨.user, 2⟩ .ext4, .mount "/user" ⟨.user, 3⟩ .ext4]
    let rounds : List (List (Operation RamDisk Unit)) := [[], [.unmount "/boot"], []]
    ∃ boot os user : MountPoint, start.mounts = [boot, os, user] ∧
      listing rounds 0 start = [some boot, some user, none] ∧
      Stays start rounds.flatten os ∧ PassedOver start 0 rounds os ∧ os ∉ [boot, user] ∧
      Stays start rounds.flatten user ∧ ¬PassedOver start 0 rounds user ∧
      [boot, user].count user = 1 := by
  intro start rounds
  let boot : MountPoint :=
    { id := .ofIndex 0, path := ⟨"/boot", by decide⟩, device := ⟨.user, 1⟩, fsType := .ext4 }
  let os : MountPoint :=
    { id := .ofIndex 1, path := ⟨"/os", by decide⟩, device := ⟨.user, 2⟩, fsType := .ext4 }
  let user : MountPoint :=
    { id := .ofIndex 2, path := ⟨"/user", by decide⟩, device := ⟨.user, 3⟩, fsType := .ext4 }
  have hanswers : start.mounts = [boot, os, user] ∧
      listing rounds 0 start = [some boot, some user, none] ∧
      (∀ front ∈ rounds.flatten.inits, ∀ mount ∈ [os, user], mount ∈ (start.after front).mounts) ∧
      start.mounts[1]? = some os ∧ boot ∈ start.mounts.take 1 ∧
      boot ∉ ((Operation.unmount "/boot").state start).mounts := by
    decide +kernel
  obtain ⟨hmounts, hlisting, hlive, hnext, hfront, hgone⟩ := hanswers
  have hstays : ∀ mount ∈ [os, user], Stays start rounds.flatten mount :=
    fun mount hmount front hprefix => hlive front ((List.mem_inits front _).mpr hprefix) mount hmount
  obtain ⟨-, -, -, -, hcomplete⟩ := root_listing_after (Handset.blocks id) ()
    [.register .ext4 (.mountOnly : Backend RamDisk Unit), .mount "/boot" ⟨.user, 1⟩ .ext4,
      .mount "/os" ⟨.user, 2⟩ .ext4, .mount "/user" ⟨.user, 3⟩ .ext4] 1 rounds
  have hpassed : ∀ storage : Storage RamDisk Unit, storage.mounts[1]? = some os →
      (∃ other ∈ storage.mounts.take 1, other ∉ ((Operation.unmount "/boot").state storage).mounts) →
      PassedOver storage 0 rounds os := fun storage hnext hgone =>
    ⟨[[]], [.unmount "/boot"], [[]], rfl, [], .unmount "/boot", [], rfl, hnext, hgone⟩
  have hos := hpassed start hnext ⟨boot, hfront, hgone⟩
  have huser : ¬PassedOver start 0 rounds user := fun hpassed =>
    (hcomplete [boot, user] hlisting user (hstays user (by simp))).2 hpassed (by simp)
  refine ⟨boot, os, user, hmounts, hlisting, hstays os (by simp), hos, ?_, hstays user (by simp),
    huser, ?_⟩
  · exact (hcomplete [boot, user] hlisting os (hstays os (by simp))).2 hos
  · exact (hcomplete [boot, user] hlisting user (hstays user (by simp))).1 huser

end Storage

end StorageStack

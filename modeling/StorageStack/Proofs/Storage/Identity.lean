import Mathlib.Data.List.Nodup
import StorageStack.Proofs.Storage.Changes

/-! # Identities of mounts

Records take their identities from a counter of 32 bits in the order in which they are made.
As long as the counter has not come round, an identity leads to the record that took it or
to none.
-/

namespace StorageStack

namespace MountId

/-- The identity that the record with this many records before it takes. -/
def ofIndex (index : Nat) : MountId := ⟨UInt32.ofNat (index + 1)⟩

theorem next_ofIndex (index : Nat) : (ofIndex index).next = ofIndex (index + 1) := by
  simp only [next, ofIndex, UInt32.ofNat_add (index + 1) 1]
  rfl

/-- Identities repeat with the period of the counter. -/
theorem ofIndex_eq_ofIndex_iff {first second : Nat} :
    ofIndex first = ofIndex second ↔ first % UInt32.size = second % UInt32.size := by
  have hsize : UInt32.size = 4294967296 := rfl
  simp only [ofIndex, MountId.mk.injEq, ← UInt32.toNat_inj, UInt32.toNat_ofNat', hsize]
  omega

theorem ofIndex_inj {first second : Nat} (hfirst : first < UInt32.size) (hsecond : second < UInt32.size)
    (hsame : ofIndex first = ofIndex second) : first = second := by
  rwa [ofIndex_eq_ofIndex_iff, Nat.mod_eq_of_lt hfirst, Nat.mod_eq_of_lt hsecond] at hsame

end MountId

namespace Storage

variable {δ ω : Type}

/-- The records made so far are numbered in order, and the live ones are among them. -/
structure Numbered (made : List MountPoint) (storage : Storage δ ω) : Prop where
  live : storage.mounts.Sublist made
  ids : made.map (·.id) = (List.range made.length).map MountId.ofIndex
  next : storage.nextId = .ofIndex made.length

theorem numbered_ofBlocks (blocks : BlockDevices δ) (host : ω) :
    Numbered [] (ofBlocks blocks host) :=
  ⟨List.Sublist.refl _, rfl, rfl⟩

theorem Change.numbered {storage after : Storage δ ω} {made new : List MountPoint}
    (hchange : Change storage new after) (hmade : Numbered made storage) :
    Numbered (made ++ new) after := by
  obtain ⟨hlive, hids, hnext⟩ := hmade
  cases hchange with
  | environment | register =>
      rw [List.append_nil]
      exact ⟨hlive, hids, hnext⟩
  | unmount mount env =>
      rw [List.append_nil]
      exact ⟨List.erase_sublist.trans hlive, hids, hnext⟩
  | unmountAll env =>
      rw [List.append_nil]
      exact ⟨List.nil_sublist _, hids, hnext⟩
  | mount point env hid _ _ _ =>
      refine ⟨hlive.append (List.Sublist.refl _), ?_, ?_⟩
      · rw [List.map_append, hids, List.length_append, List.length_singleton, List.range_succ,
          List.map_append, List.map_singleton, List.map_singleton, hid, hnext]
      · dsimp only [entered]
        rw [hnext, MountId.next_ofIndex, List.length_append, List.length_singleton]

theorem Evolves.numbered {start after : Storage δ ω} {before made : List MountPoint}
    (hevolves : Evolves start made after) (hstart : Numbered before start) :
    Numbered (before ++ made) after := by
  induction hevolves with
  | refl => rwa [List.append_nil]
  | tail _ hchange ih =>
      rw [← List.append_assoc]
      exact hchange.numbered ih

/-- The live records of a run stand in the order of mounting. -/
theorem numbered_after [DiskDriver δ] (blocks : BlockDevices δ) (host : ω)
    (run : List (Operation δ ω)) :
    Numbered ((ofBlocks blocks host).mountLog run) ((ofBlocks blocks host).after run) :=
  (evolves_mountLog (ofBlocks blocks host) run).2.numbered (numbered_ofBlocks blocks host)

/-- A record that is live was live before, or has been made since. -/
theorem Evolves.mem_or_mem {start after : Storage δ ω} {made : List MountPoint}
    (hevolves : Evolves start made after) {mount : MountPoint} (hmount : mount ∈ after.mounts) :
    mount ∈ start.mounts ∨ mount ∈ made := by
  induction hevolves with
  | refl => exact Or.inl hmount
  | @tail _ _ _ _ _ hchange ih =>
      cases hchange with
      | environment | register => simpa using ih hmount
      | unmount other env => simpa using ih (List.erase_subset hmount)
      | unmountAll env => cases hmount
      | mount point env _ _ _ _ =>
          rcases List.mem_append.mp hmount with hold | hnew
          · exact (ih hold).imp_right (List.mem_append_left _)
          · exact Or.inr (List.mem_append_right _ hnew)

section Numbered

variable {made : List MountPoint} {storage : Storage δ ω}

/-- The counter gives each record an identity of its own until it comes round. -/
theorem Numbered.nodup_ids (hmade : Numbered made storage) (hcount : made.length ≤ UInt32.size) :
    (made.map (·.id)).Nodup := by
  rw [hmade.ids]
  refine List.Nodup.map_on ?_ List.nodup_range
  intro first hfirst second hsecond
  have hfirst := List.mem_range.mp hfirst
  have hsecond := List.mem_range.mp hsecond
  exact MountId.ofIndex_inj (by omega) (by omega)

/-- The identity of a record leads to that record while it is live, and to none afterwards. -/
theorem Numbered.mountOf?_eq (hmade : Numbered made storage) (hcount : made.length ≤ UInt32.size)
    {mount : MountPoint} (hmount : mount ∈ made) :
    storage.mountOf? mount.id = if mount ∈ storage.mounts then some mount else none := by
  have hsame : ∀ other ∈ storage.mounts, other.id = mount.id → other = mount := fun other hother =>
    List.inj_on_of_nodup_map (hmade.nodup_ids hcount) (hmade.live.subset hother) hmount
  unfold mountOf?
  cases hfound : storage.mounts.find? fun other => other.id = mount.id with
  | none =>
      have hdead : mount ∉ storage.mounts := fun hlive => by
        simpa using List.find?_eq_none.mp hfound mount hlive
      rw [if_neg hdead]
  | some other =>
      have hother := List.mem_of_find?_eq_some hfound
      obtain rfl := hsame other hother (by simpa using List.find?_some hfound)
      rw [if_pos hother]

end Numbered

/-- After a run that does not run out of identities, each live record is found by its own. -/
theorem mountOf?_after [DiskDriver δ] {blocks : BlockDevices δ} {host : ω}
    {run : List (Operation δ ω)} (hcount : (ofBlocks blocks host).mountCount run ≤ UInt32.size)
    {mount : MountPoint} (hmount : mount ∈ ((ofBlocks blocks host).after run).mounts) :
    ((ofBlocks blocks host).after run).mountOf? mount.id = some mount := by
  have hnumbered := numbered_after blocks host run
  rw [← (evolves_mountLog (ofBlocks blocks host) run).1] at hcount
  rw [hnumbered.mountOf?_eq hcount (hnumbered.live.subset hmount), if_pos hmount]

/-- A record that is live at two times was live at every time in between. -/
theorem Evolves.mem_between {start between after : Storage δ ω} {made first second : List MountPoint}
    (hstart : Numbered made start) (hfirst : Evolves start first between)
    (hsecond : Evolves between second after)
    (hcount : (made ++ first ++ second).length ≤ UInt32.size) {mount : MountPoint}
    (hbefore : mount ∈ start.mounts) (hafter : mount ∈ after.mounts) :
    mount ∈ between.mounts := by
  rcases hsecond.mem_or_mem hafter with hlive | hremade
  · exact hlive
  · -- To be made once more, the record would have to take its identity once more.
    have hdistinct := (hsecond.numbered (hfirst.numbered hstart)).nodup_ids hcount
    rw [List.map_append] at hdistinct
    have hmade : mount ∈ made ++ first := List.mem_append_left _ (hstart.live.subset hbefore)
    exact absurd rfl ((List.nodup_append.mp hdistinct).2.2 _ (List.mem_map_of_mem hmade) _
      (List.mem_map_of_mem hremade))

end Storage

end StorageStack

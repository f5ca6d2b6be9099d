import Mathlib.Data.Fintype.Basic
import Mathlib.Data.List.FinRange
import Mathlib.Tactic.FinCases
import StorageStack.Proofs.Partition.Decoding

/-! # Planned sectors

A plan says what one signed boot sector is to hold. An image that is patched after plans for
different sectors decodes, sector by sector, to what was planned.
-/

namespace StorageStack

/-- What a signed boot sector is to hold. -/
structure SectorPlan where
  lba : Nat
  cell : Fin entrySlots → Option Entry
  erase? : Option (Fin entrySlots → UInt32)

namespace SectorPlan

/-- The erase-block size of a slot; zero stands for none. -/
def eraseBlock? (plan : SectorPlan) (slot : Fin entrySlots) : Option UInt32 :=
  (plan.erase?.map fun sizes => sizes slot).filter (· ≠ 0)

/-- The patches that write the plan. -/
def patches (plan : SectorPlan) : List Patch :=
  .sign plan.lba ::
    ((List.finRange entrySlots).filterMap fun slot => (plan.cell slot).map (.entry plan.lba slot)) ++
    (plan.erase?.map fun sizes => Patch.eraseTable plan.lba (List.ofFn sizes)).toList

variable {plan : SectorPlan} {patches : List Patch} {plans : List SectorPlan}

theorem structured_of_mem_patches {patch : Patch} (hpatch : patch ∈ plan.patches) :
    patch.Structured := by
  simp only [SectorPlan.patches, List.mem_append, List.mem_cons, List.mem_filterMap,
    Option.map_eq_some_iff, Option.mem_toList] at hpatch
  rcases hpatch with (rfl | ⟨slot, -, value, -, rfl⟩) | ⟨sizes, -, rfl⟩
  · trivial
  · exact slot.isLt
  · exact List.length_ofFn

theorem sign_mem_patches_iff {lba : Nat} : .sign lba ∈ plan.patches ↔ lba = plan.lba := by
  simp [SectorPlan.patches]

theorem entry_mem_patches_iff {lba : Nat} {slot : Fin entrySlots} {value : Entry} :
    .entry lba slot value ∈ plan.patches ↔ lba = plan.lba ∧ plan.cell slot = some value := by
  simp only [SectorPlan.patches, List.mem_append, List.mem_cons, List.mem_filterMap,
    Option.map_eq_some_iff, Option.mem_toList, List.mem_finRange, true_and, reduceCtorEq,
    false_or, and_false, exists_false, or_false, Patch.entry.injEq]
  constructor
  · rintro ⟨found, other, hcell, rfl, hslot, rfl⟩
    exact ⟨rfl, Fin.ext hslot ▸ hcell⟩
  · rintro ⟨rfl, hcell⟩
    exact ⟨slot, value, hcell, rfl, rfl, rfl⟩

theorem eraseTable_mem_patches_iff {lba : Nat} {sizes : List UInt32} :
    .eraseTable lba sizes ∈ plan.patches ↔
      lba = plan.lba ∧ ∃ planned, plan.erase? = some planned ∧ List.ofFn planned = sizes := by
  simp [SectorPlan.patches, eq_comm, and_left_comm]

/-- A boot sector that holds what was planned. -/
structure Decoded (plan : SectorPlan) (sector : BootSector) : Prop where
  signed : sector.signed = true
  entry? : ∀ slot : Fin entrySlots, sector.entry? slot = some ((plan.cell slot).getD Entry.blank)
  eraseBlock? : ∀ slot : Fin entrySlots, sector.eraseBlock? slot = plan.eraseBlock? slot

/-- What one kind of patches finds, if at most one value is written. -/
theorem findSome?_eq_of_iff {α β : Type} {find : α → Option β} {xs : List α} {found : Option β}
    (hfound : ∀ value, (∃ x ∈ xs, find x = some value) ↔ found = some value) :
    xs.findSome? find = found := by
  cases hresult : xs.findSome? find with
  | some value =>
      exact ((hfound value).mp (List.exists_of_findSome?_eq_some hresult)).symm
  | none =>
      rw [List.findSome?_eq_none_iff] at hresult
      cases hvalue : found with
      | none => rfl
      | some value =>
          obtain ⟨x, hx, hfind⟩ := (hfound value).mpr hvalue
          rw [hresult x hx] at hfind
          cases hfind

/-- The image decodes to each of the plans that it was patched after, in whatever order, if
these are plans for different sectors. -/
theorem decoded_ofPatches (hdistinct : (plans.map (·.lba)).Nodup)
    (hpatches : ∀ patch, patch ∈ patches ↔ ∃ plan ∈ plans, patch ∈ plan.patches)
    (hplan : plan ∈ plans) :
    plan.Decoded ((Medium.ofPatches Limits.sectorSize patches).bootSector plan.lba) := by
  have hstructured : ∀ patch ∈ patches, patch.Structured := by
    intro patch hpatch
    obtain ⟨other, -, hmem⟩ := (hpatches patch).mp hpatch
    exact structured_of_mem_patches hmem
  have hsame : ∀ other ∈ plans, plan.lba = other.lba → other = plan := by
    intro other hother hlba
    exact List.inj_on_of_nodup_map hdistinct hother hplan hlba.symm
  constructor
  · rw [Medium.signed_ofPatches hstructured, hpatches]
    exact ⟨plan, hplan, sign_mem_patches_iff.mpr rfl⟩
  · intro slot
    rw [Medium.entry?_ofPatches hstructured _ slot.isLt]
    congr 2
    apply findSome?_eq_of_iff
    intro value
    simp only [List.mem_reverse, Patch.entryAt?_eq_some_iff, exists_eq_right, hpatches,
      entry_mem_patches_iff]
    constructor
    · rintro ⟨other, hother, hlba, hcell⟩
      rwa [hsame other hother hlba] at hcell
    · intro hcell
      exact ⟨plan, hplan, rfl, hcell⟩
  · intro slot
    rw [Medium.eraseBlock?_ofPatches hstructured _ slot.isLt, SectorPlan.eraseBlock?]
    congr 1
    apply findSome?_eq_of_iff
    intro size
    simp only [List.mem_reverse, Patch.eraseAt?_eq_some_iff, hpatches]
    constructor
    · rintro ⟨patch, ⟨other, hother, hmem⟩, sizes, rfl, hsize⟩
      obtain ⟨hlba, planned, hplanned, rfl⟩ := eraseTable_mem_patches_iff.mp hmem
      rw [hsame other hother hlba] at hplanned
      simpa [hplanned] using hsize
    · intro hsize
      obtain ⟨planned, hplanned, rfl⟩ := Option.map_eq_some_iff.mp hsize
      refine ⟨.eraseTable plan.lba (List.ofFn planned), ⟨plan, hplan, ?_⟩, _, rfl, by simp⟩
      exact eraseTable_mem_patches_iff.mpr ⟨rfl, planned, hplanned, rfl⟩

section Entries

variable {sector : BootSector}

theorem Decoded.entries (hdecoded : plan.Decoded sector)
    (hused : ∀ slot value, plan.cell slot = some value → value.isEmpty = false) :
    sector.entries = (List.finRange entrySlots).filterMap fun slot =>
      (plan.cell slot).map fun value => (slot.val, value) := by
  rw [BootSector.entries, ← List.map_coe_finRange_eq_range, List.filterMap_map]
  apply List.filterMap_congr
  intro slot _
  rw [Function.comp_apply, hdecoded.entry? slot]
  cases hcell : plan.cell slot with
  | none => rfl
  | some value => simp [hused slot value hcell]

theorem Decoded.dataEntries (hdecoded : plan.Decoded sector)
    (hused : ∀ slot value, plan.cell slot = some value → value.isEmpty = false) :
    sector.dataEntries = (List.finRange entrySlots).filterMap fun slot =>
      ((plan.cell slot).filter fun value => !value.isExtended).map fun value => (slot.val, value) := by
  rw [BootSector.dataEntries, hdecoded.entries hused, List.filter_filterMap]
  apply List.filterMap_congr
  intro slot _
  cases plan.cell slot with
  | none => rfl
  | some value => cases hextended : value.isExtended <;> simp [Option.filter, hextended]

theorem Decoded.extendedEntries (hdecoded : plan.Decoded sector)
    (hused : ∀ slot value, plan.cell slot = some value → value.isEmpty = false) :
    sector.extendedEntries = (List.finRange entrySlots).filterMap fun slot =>
      (plan.cell slot).filter fun value => value.isExtended := by
  rw [BootSector.extendedEntries, hdecoded.entries hused, List.filter_filterMap,
    List.map_filterMap]
  apply List.filterMap_congr
  intro slot _
  cases plan.cell slot with
  | none => rfl
  | some value => cases hextended : value.isExtended <;> simp [Option.filter, hextended]

/-- A value planned for one slot is found once. -/
theorem filterMap_finRange_single {α : Type} (slot : Fin entrySlots) (value : Option α) :
    ((List.finRange entrySlots).filterMap fun other => if other = slot then value else none) =
      value.toList := by
  change Fin 4 at slot
  cases value <;> fin_cases slot <;> rfl

theorem Decoded.dataEntries_single (hdecoded : plan.Decoded sector)
    (hused : ∀ slot value, plan.cell slot = some value → value.isEmpty = false)
    {place : Fin entrySlots} {value : Entry}
    (hdata : ∀ slot, (plan.cell slot).filter (fun value => !value.isExtended) =
      if slot = place then some value else none) :
    sector.dataEntries = [(place.val, value)] := by
  rw [hdecoded.dataEntries hused]
  refine Eq.trans (List.filterMap_congr ?_) (filterMap_finRange_single place (some (place.val, value)))
  intro slot _
  rw [hdata slot]
  by_cases hslot : slot = place
  · rw [if_pos hslot, if_pos hslot, hslot, Option.map_some]
  · rw [if_neg hslot, if_neg hslot, Option.map_none]

theorem Decoded.extendedEntries_single (hdecoded : plan.Decoded sector)
    (hused : ∀ slot value, plan.cell slot = some value → value.isEmpty = false)
    {place : Fin entrySlots} {value : Option Entry}
    (hextended : ∀ slot, (plan.cell slot).filter (fun value => value.isExtended) =
      if slot = place then value else none) :
    sector.extendedEntries = value.toList := by
  rw [hdecoded.extendedEntries hused]
  simp only [hextended]
  exact filterMap_finRange_single place value

end Entries

end SectorPlan

end StorageStack

import StorageStack.Device.Handle
import StorageStack.FsType
import StorageStack.Mount.Path

/-! # Mount points

The record of a live mount, and which of several mounts a path belongs to.
-/

namespace StorageStack

/-- The identity of a mount, from a 32-bit counter. -/
structure MountId where
  number : UInt32
deriving DecidableEq, Repr

namespace MountId

/-- The identity of the first mount. -/
def first : MountId := ⟨1⟩

/-- The identity handed out next. The counter wraps around. -/
def next (id : MountId) : MountId := ⟨id.number + 1⟩

theorem toNat_next (id : MountId) :
    id.next.number.toNat = (id.number.toNat + 1) % UInt32.size :=
  UInt32.toNat_add id.number 1

end MountId

/-- What a backend keeps in the record of its mount. -/
structure MountData where
  value : Nat := 0
deriving DecidableEq, Repr

/-- A live mount. -/
structure MountPoint where
  id : MountId
  path : MountPath
  device : DeviceHandle
  fsType : FsType
  data : MountData := {}
deriving DecidableEq

namespace MountPoint

/-- The longer of two mount paths wins; of equally long ones the later. -/
def closer (best : Option MountPoint) (mount : MountPoint) : MountPoint :=
  match best with
  | none => mount
  | some best =>
      if best.path.text.utf8ByteSize ≤ mount.path.text.utf8ByteSize then mount else best

/-- The mount that is responsible for a path: the longest one that covers it. -/
def longestCover? (mounts : List MountPoint) (path : String) : Option MountPoint :=
  (mounts.filter fun mount => mount.path.covers path).foldl
    (fun best mount => some (closer best mount)) none

/-- Folding keeps a candidate that was there, or one that came later, and the result is
no shorter than any of them. -/
private theorem foldl_closer (mounts : List MountPoint) (best : Option MountPoint) :
    mounts.foldl (fun best mount => some (closer best mount)) best = none ∧
        best = none ∧ mounts = [] ∨
      ∃ found, mounts.foldl (fun best mount => some (closer best mount)) best = some found ∧
        (best = some found ∨ found ∈ mounts) ∧
        (∀ other, best = some other →
          other.path.text.utf8ByteSize ≤ found.path.text.utf8ByteSize) ∧
        ∀ other ∈ mounts, other.path.text.utf8ByteSize ≤ found.path.text.utf8ByteSize := by
  induction mounts generalizing best with
  | nil =>
      cases best with
      | none => exact Or.inl ⟨rfl, rfl, rfl⟩
      | some found => exact Or.inr ⟨found, rfl, Or.inl rfl, by simp, by simp⟩
  | cons mount rest ih =>
      rw [List.foldl_cons]
      rcases ih (some (closer best mount)) with ⟨_, hnone, _⟩ | ⟨found, hfold, hfrom, hbest, hrest⟩
      · cases hnone
      · have hcloser := hbest _ rfl
        have hmount : mount.path.text.utf8ByteSize ≤ (closer best mount).path.text.utf8ByteSize := by
          unfold closer
          split
          · exact Nat.le_refl _
          · split <;> omega
        refine Or.inr ⟨found, hfold, ?_, ?_, ?_⟩
        · rcases hfrom with hclosest | hlater
          · cases hclosest
            unfold closer
            split
            · exact Or.inr List.mem_cons_self
            · split
              · exact Or.inr List.mem_cons_self
              · exact Or.inl rfl
          · exact Or.inr (List.mem_cons_of_mem _ hlater)
        · intro other hother
          subst hother
          have hkept : other.path.text.utf8ByteSize ≤
              (closer (some other) mount).path.text.utf8ByteSize := by
            unfold closer
            dsimp only
            split <;> omega
          omega
        · intro other hother
          cases hother with
          | head => omega
          | tail _ hlater => exact hrest other hlater

theorem longestCover?_eq_none_iff (mounts : List MountPoint) (path : String) :
    longestCover? mounts path = none ↔ ∀ mount ∈ mounts, mount.path.covers path = false := by
  unfold longestCover?
  rcases foldl_closer (mounts.filter fun mount => mount.path.covers path) none with
    ⟨hnone, _, hempty⟩ | ⟨found, hfound, hfrom, _, _⟩
  · refine iff_of_true hnone fun mount hmount => ?_
    simpa using List.filter_eq_nil_iff.mp hempty mount hmount
  · have hmem : found ∈ mounts.filter fun mount => mount.path.covers path := by
      rcases hfrom with hnone | hmem
      · cases hnone
      · exact hmem
    obtain ⟨hin, hcovers⟩ := List.mem_filter.mp hmem
    refine iff_of_false (by simp [hfound]) fun hall => ?_
    rw [hall found hin] at hcovers
    cases hcovers

/-- The mount found is one of those that cover the path, and none of them is longer. -/
theorem of_longestCover?_eq_some {mounts : List MountPoint} {path : String} {found : MountPoint}
    (hfound : longestCover? mounts path = some found) :
    found ∈ mounts ∧ found.path.covers path = true ∧
      ∀ mount ∈ mounts, mount.path.covers path = true →
        mount.path.text.utf8ByteSize ≤ found.path.text.utf8ByteSize := by
  unfold longestCover? at hfound
  rcases foldl_closer (mounts.filter fun mount => mount.path.covers path) none with
    ⟨hnone, _, _⟩ | ⟨other, hother, hfrom, _, hlongest⟩
  · rw [hnone] at hfound
    cases hfound
  · obtain rfl : other = found := Option.some.inj (hother.symm.trans hfound)
    have hmem : other ∈ mounts.filter fun mount => mount.path.covers path := by
      rcases hfrom with hnone | hmem
      · cases hnone
      · exact hmem
    obtain ⟨hin, hcovers⟩ := List.mem_filter.mp hmem
    exact ⟨hin, hcovers, fun mount hmount hcover =>
      hlongest mount (List.mem_filter.mpr ⟨hmount, hcover⟩)⟩

end MountPoint

end StorageStack

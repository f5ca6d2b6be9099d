import Mathlib.Data.List.Sort
import StorageStack.Block.Region

/-! # The sectors of a range

A range of bytes is cut into one piece for each sector that it meets, in ascending order. A piece
is a whole sector exactly if the range covers that sector.
-/

namespace StorageStack

/-- The range and the sector have a byte in common. -/
def Meets (sectorSize offset length lba : Nat) : Prop :=
  max offset (lba * sectorSize) < min (offset + length) ((lba + 1) * sectorSize)

/-- The sector lies in the range as a whole. -/
def Covers (sectorSize offset length lba : Nat) : Prop :=
  offset ≤ lba * sectorSize ∧ (lba + 1) * sectorSize ≤ offset + length

instance (sectorSize offset length lba : Nat) : Decidable (Meets sectorSize offset length lba) :=
  inferInstanceAs (Decidable (_ < _))

instance (sectorSize offset length lba : Nat) : Decidable (Covers sectorSize offset length lba) :=
  inferInstanceAs (Decidable (_ ∧ _))

/-- The sectors below a bound that a range meets, in ascending order. -/
def sectorsMet (bound sectorSize offset length : Nat) : List Nat :=
  (List.range bound).filter fun lba => Meets sectorSize offset length lba

theorem mem_sectorsMet {bound sectorSize offset length lba : Nat} :
    lba ∈ sectorsMet bound sectorSize offset length ↔
      lba < bound ∧ Meets sectorSize offset length lba := by
  simp [sectorsMet]

theorem sectorsMet_zero (bound sectorSize offset : Nat) : sectorsMet bound sectorSize offset 0 = [] := by
  refine List.filter_eq_nil_iff.mpr fun lba _ => ?_
  rw [decide_eq_true_iff, Meets]
  omega

/-- A range that is not empty begins with a piece in the sector of its first byte. -/
theorem pieces_eq_cons {sectorSize offset length : Nat} (hsize : 0 < sectorSize)
    (hlength : 0 < length) :
    pieces sectorSize offset length =
      ⟨offset / sectorSize, offset % sectorSize, min (sectorSize - offset % sectorSize) length⟩ ::
        pieces sectorSize (offset + min (sectorSize - offset % sectorSize) length)
          (length - min (sectorSize - offset % sectorSize) length) := by
  rw [pieces, dif_neg (by omega)]

/-- What holds of the empty range, and of each range if it holds of the rest behind the first
piece, holds of every range. -/
theorem pieces_induct {sectorSize : Nat} (hsize : 0 < sectorSize) {motive : Nat → Nat → Prop}
    (empty : ∀ offset, motive offset 0)
    (cons : ∀ offset length size, 0 < length →
      size = min (sectorSize - offset % sectorSize) length →
      pieces sectorSize offset length =
        ⟨offset / sectorSize, offset % sectorSize, size⟩ ::
          pieces sectorSize (offset + size) (length - size) →
      motive (offset + size) (length - size) → motive offset length) (offset length : Nat) :
    motive offset length := by
  induction length using Nat.strongRecOn generalizing offset with
  | ind length ih =>
      rcases Nat.eq_zero_or_pos length with rfl | hlength
      · exact empty offset
      · have hwithin := Nat.mod_lt offset hsize
        exact cons offset length _ hlength rfl (pieces_eq_cons hsize hlength) (ih _ (by omega) _)

/-- A range within so many sectors begins in one of them. -/
theorem div_lt_of_range {sectorSize count offset length : Nat} (hlength : 0 < length)
    (hrange : offset + length ≤ count * sectorSize) : offset / sectorSize < count := by
  apply Nat.div_lt_of_lt_mul
  rw [Nat.mul_comm]
  omega

section Pieces

variable {sectorSize offset length : Nat} (hsize : 0 < sectorSize)

include hsize

/-- If anything is left behind the first piece, it begins at the next sector. -/
theorem boundary_of_pos {size : Nat} (hmin : size = min (sectorSize - offset % sectorSize) length)
    (hrest : 0 < length - size) : offset + size = (offset / sectorSize + 1) * sectorSize := by
  have hsplit := Nat.div_add_mod' offset sectorSize
  have hwithin := Nat.mod_lt offset hsize
  rw [Nat.add_mul, Nat.one_mul]
  omega

theorem le_lba_of_mem_pieces {piece : Piece} (hpiece : piece ∈ pieces sectorSize offset length) :
    offset / sectorSize ≤ piece.lba := by
  induction offset, length using pieces_induct hsize with
  | empty offset => simp at hpiece
  | cons offset length size _ _ hpieces ih =>
      rw [hpieces] at hpiece
      rcases List.mem_cons.mp hpiece with rfl | hrest
      · exact Nat.le_refl _
      · exact (Nat.div_le_div_right (Nat.le_add_right offset size)).trans (ih hrest)

/-- The pieces behind the first one lie behind its sector. -/
theorem lt_lba_of_mem_rest {size : Nat} {piece : Piece}
    (hmin : size = min (sectorSize - offset % sectorSize) length)
    (hpiece : piece ∈ pieces sectorSize (offset + size) (length - size)) :
    offset / sectorSize < piece.lba := by
  have hrest : 0 < length - size := by
    refine Nat.pos_of_ne_zero fun hzero => ?_
    rw [hzero, pieces_zero] at hpiece
    cases hpiece
  have hle := le_lba_of_mem_pieces hsize hpiece
  rw [boundary_of_pos hsize hmin hrest, Nat.mul_div_cancel _ hsize] at hle
  exact hle

theorem pairwise_pieces :
    ((pieces sectorSize offset length).map Piece.lba).Pairwise (· < ·) := by
  induction offset, length using pieces_induct hsize with
  | empty offset => simp
  | cons offset length size _ hmin hpieces ih =>
      rw [hpieces, List.map_cons, List.pairwise_cons]
      refine ⟨fun lba hlba => ?_, ih⟩
      obtain ⟨piece, hpiece, rfl⟩ := List.mem_map.mp hlba
      exact lt_lba_of_mem_rest hsize hmin hpiece

/-- A piece is what its sector has in common with the range. -/
theorem span_of_mem_pieces {piece : Piece} (hpiece : piece ∈ pieces sectorSize offset length) :
    piece.lba * sectorSize + piece.within = max offset (piece.lba * sectorSize) ∧
      piece.lba * sectorSize + piece.within + piece.size =
        min (offset + length) ((piece.lba + 1) * sectorSize) := by
  induction offset, length using pieces_induct hsize with
  | empty offset => simp at hpiece
  | cons offset length size hlength hmin hpieces ih =>
      have hsplit := Nat.div_add_mod' offset sectorSize
      have hwithin := Nat.mod_lt offset hsize
      rw [hpieces] at hpiece
      rcases List.mem_cons.mp hpiece with rfl | hrest
      · dsimp only
        rw [Nat.add_mul, Nat.one_mul]
        omega
      · obtain ⟨hfirst, hlast⟩ := ih hrest
        -- Behind the first piece the range and its rest have the same bytes.
        have hbehind := Nat.mul_le_mul_right sectorSize (lt_lba_of_mem_rest hsize hmin hrest)
        rw [Nat.succ_mul] at hbehind
        omega

/-- A sector behind the first one that meets the range meets its rest. -/
theorem meets_rest {size lba : Nat} (hmin : size = min (sectorSize - offset % sectorSize) length)
    (hbehind : offset / sectorSize < lba) (hmeets : Meets sectorSize offset length lba) :
    Meets sectorSize (offset + size) (length - size) lba := by
  have hsplit := Nat.div_add_mod' offset sectorSize
  have hwithin := Nat.mod_lt offset hsize
  have hnext := Nat.mul_le_mul_right sectorSize hbehind
  rw [Nat.succ_mul] at hnext
  unfold Meets at hmeets ⊢
  omega

/-- Each sector that meets the range has its piece. -/
theorem exists_mem_pieces {lba : Nat} (hmeets : Meets sectorSize offset length lba) :
    ∃ piece ∈ pieces sectorSize offset length, piece.lba = lba := by
  induction offset, length using pieces_induct hsize with
  | empty offset =>
      unfold Meets at hmeets
      omega
  | cons offset length size _ hmin hpieces ih =>
      have hlast : offset < (lba + 1) * sectorSize := by
        unfold Meets at hmeets
        omega
      have hle := Nat.lt_add_one_iff.mp ((Nat.div_lt_iff_lt_mul hsize).mpr hlast)
      rw [hpieces]
      rcases Nat.eq_or_lt_of_le hle with heq | hlt
      · exact ⟨_, List.mem_cons_self, heq⟩
      · obtain ⟨piece, hpiece, hlba⟩ := ih (meets_rest hsize hmin hlt hmeets)
        exact ⟨piece, List.mem_cons_of_mem _ hpiece, hlba⟩

theorem meets_of_mem_pieces {piece : Piece} (hpiece : piece ∈ pieces sectorSize offset length) :
    Meets sectorSize offset length piece.lba := by
  obtain ⟨hfirst, hlast⟩ := span_of_mem_pieces hsize hpiece
  have hpositive := (bounds_of_mem_pieces hpiece).1
  unfold Meets
  omega

/-- A piece is a whole sector where the range covers its sector, and only there. -/
theorem size_eq_iff_covers {piece : Piece} (hpiece : piece ∈ pieces sectorSize offset length) :
    piece.size = sectorSize ↔ Covers sectorSize offset length piece.lba := by
  obtain ⟨hfirst, hlast⟩ := span_of_mem_pieces hsize hpiece
  have hbounds := bounds_of_mem_pieces hpiece
  unfold Covers
  rw [Nat.add_mul, Nat.one_mul] at hlast ⊢
  omega

/-- In a region of whole sectors, the sectors of the pieces are those that the range meets. -/
theorem map_lba_pieces {bound : Nat} (hrange : offset + length ≤ bound * sectorSize) :
    (pieces sectorSize offset length).map Piece.lba = sectorsMet bound sectorSize offset length := by
  refine (pairwise_pieces hsize).eq_of_mem_iff (List.pairwise_lt_range.filter _) fun lba => ?_
  rw [mem_sectorsMet, List.mem_map]
  constructor
  · rintro ⟨piece, hpiece, rfl⟩
    have hmeets := meets_of_mem_pieces hsize hpiece
    refine ⟨Nat.lt_of_mul_lt_mul_right (a := sectorSize) ?_, hmeets⟩
    unfold Meets at hmeets
    omega
  · rintro ⟨-, hmeets⟩
    exact exists_mem_pieces hsize hmeets

end Pieces

end StorageStack

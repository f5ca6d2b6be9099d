import StorageStack.Disk.Medium

/-! # Disks as rows of bytes

A disk holds a byte at each position. A transfer is described by what it takes out of that
row, or by the row with a payload laid over it.
-/

namespace StorageStack

/-- The bytes at the positions of a disk. -/
abbrev Row := Nat → UInt8

namespace Row

/-- The bytes from a position on. -/
def slice (row : Row) (position length : Nat) : Bytes := (List.range' position length).map row

/-- The row with a payload laid over it from a position on. -/
def overlay (row : Row) (position : Nat) (payload : Bytes) : Row := fun target =>
  if position ≤ target then payload[target - position]?.getD (row target) else row target

variable (row : Row)

@[simp] theorem length_slice (position length : Nat) :
    (row.slice position length).length = length := by
  simp [slice]

@[simp] theorem slice_zero (position : Nat) : row.slice position 0 = [] := rfl

theorem slice_add (position first second : Nat) :
    row.slice position (first + second) =
      row.slice position first ++ row.slice (position + first) second := by
  rw [slice, slice, slice, ← List.map_append, ← List.range'_append_1]

theorem getElem?_slice (position length index : Nat) :
    (row.slice position length)[index]? =
      if index < length then some (row (position + index)) else none := by
  by_cases hindex : index < length
  · simp [slice, hindex]
  · simp [slice, hindex]

/-- Sectors one after the other are one slice. -/
theorem flatMap_slice (start count sectorSize : Nat) :
    ((List.range' start count).flatMap fun lba => row.slice (lba * sectorSize) sectorSize) =
      row.slice (start * sectorSize) (count * sectorSize) := by
  induction count generalizing start with
  | zero => simp
  | succ count ih =>
      rw [List.range'_succ, List.flatMap_cons, ih, Nat.succ_mul, Nat.succ_mul,
        Nat.add_comm (count * sectorSize), slice_add]

/-- A part of a slice is a slice. -/
theorem take_drop_slice (position : Nat) {within size length : Nat}
    (hsize : within + size ≤ length) :
    ((row.slice position length).drop within).take size = row.slice (position + within) size := by
  apply List.ext_getElem?
  intro index
  rw [List.getElem?_take, getElem?_slice]
  by_cases hindex : index < size
  · rw [if_pos hindex, if_pos hindex, List.getElem?_drop, getElem?_slice, if_pos (by omega),
      Nat.add_assoc]
  · rw [if_neg hindex, if_neg hindex]

variable {row}

theorem slice_congr {other : Row} {position length : Nat}
    (hsame : ∀ target, position ≤ target → target < position + length → row target = other target) :
    row.slice position length = other.slice position length := by
  refine List.map_congr_left fun target htarget => ?_
  obtain ⟨hlower, hupper⟩ := List.mem_range'_1.mp htarget
  exact hsame target hlower hupper

variable (row)

@[simp] theorem overlay_nil (position : Nat) : row.overlay position [] = row := by
  funext target
  simp [overlay]

theorem overlay_of_outside {position target : Nat} {payload : Bytes}
    (houtside : target < position ∨ position + payload.length ≤ target) :
    row.overlay position payload target = row target := by
  unfold overlay
  split
  · rw [List.getElem?_eq_none (by omega), Option.getD_none]
  · rfl

theorem overlay_of_inside {position index : Nat} {payload : Bytes} {byte : UInt8}
    (hbyte : payload[index]? = some byte) :
    row.overlay position payload (position + index) = byte := by
  unfold overlay
  rw [if_pos (Nat.le_add_right _ _), Nat.add_sub_cancel_left, hbyte, Option.getD_some]

/-- Two payloads laid end to end are one. -/
theorem overlay_append (position : Nat) (first second : Bytes) :
    (row.overlay position first).overlay (position + first.length) second =
      row.overlay position (first ++ second) := by
  funext target
  rcases Nat.lt_or_ge target (position + first.length) with hbefore | hbehind
  · rw [overlay_of_outside _ (Or.inl hbefore)]
    unfold overlay
    split
    · rw [List.getElem?_append_left (by omega)]
    · rfl
  · unfold overlay
    rw [if_pos hbehind, if_pos (by omega), if_pos (by omega),
      List.getElem?_append_right (by omega), List.getElem?_eq_none (by omega : first.length ≤ _),
      Option.getD_none, Nat.sub_add_eq]

@[simp] theorem overlay_slice_self (position length : Nat) :
    row.overlay position (row.slice position length) = row := by
  funext target
  unfold overlay
  split
  · next hbehind =>
    rw [getElem?_slice]
    split
    · rw [Option.getD_some, Nat.add_sub_of_le hbehind]
    · rfl
  · rfl

@[simp] theorem slice_overlay_self (position : Nat) (payload : Bytes) :
    (row.overlay position payload).slice position payload.length = payload := by
  apply List.ext_getElem?
  intro index
  rw [getElem?_slice]
  split
  · next hindex =>
    rw [overlay_of_inside row (List.getElem?_eq_getElem hindex), List.getElem?_eq_getElem hindex]
  · next hindex => rw [List.getElem?_eq_none (Nat.le_of_not_lt hindex)]

/-- Splicing into a slice keeps the bytes on both sides of the payload. -/
theorem splice_slice (position : Nat) {within length : Nat} {payload : Bytes}
    (hwithin : within + payload.length ≤ length) :
    (row.slice position length).splice within payload =
      row.slice position within ++ payload ++
        row.slice (position + within + payload.length) (length - (within + payload.length)) := by
  have hsplit := row.slice_add position (within + payload.length) (length - (within + payload.length))
  rw [Nat.add_sub_of_le hwithin] at hsplit
  have hbefore : (row.slice position length).take within = row.slice position within :=
    take_drop_slice row position (show 0 + within ≤ length by omega)
  have hbehind : (row.slice position length).drop (within + payload.length) =
      row.slice (position + within + payload.length) (length - (within + payload.length)) := by
    rw [hsplit, List.drop_left' (length_slice row _ _), Nat.add_assoc]
  rw [Bytes.splice, Bytes.resize, hbefore, hbehind, length_slice,
    Nat.sub_eq_zero_of_le (by omega : within ≤ length), List.replicate_zero, List.append_nil]

/-- Laying over a changed slice is laying over the change. -/
theorem overlay_splice_slice (position : Nat) {within length : Nat} {payload : Bytes}
    (hwithin : within + payload.length ≤ length) :
    row.overlay position ((row.slice position length).splice within payload) =
      row.overlay (position + within) payload := by
  have hbehind : row.slice (position + within + payload.length) (length - (within + payload.length)) =
      (row.overlay (position + within) payload).slice (position + within + payload.length)
        (length - (within + payload.length)) :=
    slice_congr fun target htarget _ => (row.overlay_of_outside (Or.inr htarget)).symm
  rw [splice_slice row position hwithin, hbehind, ← overlay_append, ← overlay_append,
    overlay_slice_self, length_slice, List.length_append, length_slice, ← Nat.add_assoc,
    overlay_slice_self]

/-- A slice of a changed row is the slice with the change spliced in. -/
theorem slice_overlay (position : Nat) {within length : Nat} {payload : Bytes}
    (hwithin : within + payload.length ≤ length) :
    (row.overlay (position + within) payload).slice position length =
      (row.slice position length).splice within payload := by
  have hsplit := (row.overlay (position + within) payload).slice_add position
    (within + payload.length) (length - (within + payload.length))
  rw [Nat.add_sub_of_le hwithin] at hsplit
  have hbefore : (row.overlay (position + within) payload).slice position within =
      row.slice position within :=
    slice_congr fun target _ htarget => row.overlay_of_outside (Or.inl htarget)
  have hbehind : (row.overlay (position + within) payload).slice
      (position + within + payload.length) (length - (within + payload.length)) =
      row.slice (position + within + payload.length) (length - (within + payload.length)) :=
    slice_congr fun target htarget _ => row.overlay_of_outside (Or.inr htarget)
  rw [splice_slice row position hwithin, hsplit, slice_add, slice_overlay_self, ← Nat.add_assoc,
    hbefore, hbehind]

end Row

namespace Medium

theorem read_eq_slice (medium : Medium) (offset length : Nat) :
    medium.read offset length = Row.slice medium.get offset length := rfl

theorem get_write_eq_overlay (medium : Medium) (offset : Nat) (bytes : Bytes) :
    (medium.write offset bytes).get = Row.overlay medium.get offset bytes :=
  funext (medium.get_write offset bytes)

end Medium

end StorageStack

import Std.Data.TreeMap
import StorageStack.Bytes

/-! # Storage media

A medium is an unbounded row of bytes that are zero until written. The view is
`Medium.get`; every operation is described by what it does to that view.
-/

namespace StorageStack

/-- Bytes by position. A position that was never written reads as zero. -/
structure Medium where
  cells : Std.TreeMap Nat UInt8

namespace Medium

/-- The medium that was never written. -/
def blank : Medium := ⟨∅⟩

/-- The byte at a position. -/
def get (medium : Medium) (position : Nat) : UInt8 := medium.cells.getD position 0

/-- Write one byte. -/
def put (medium : Medium) (position : Nat) (byte : UInt8) : Medium :=
  ⟨medium.cells.insert position byte⟩

/-- The bytes from `offset` on. -/
def read (medium : Medium) (offset length : Nat) : Bytes :=
  (List.range' offset length).map medium.get

/-- Write a payload from `offset` on. -/
def write (medium : Medium) (offset : Nat) : Bytes → Medium
  | [] => medium
  | byte :: rest => (medium.put offset byte).write (offset + 1) rest

@[simp] theorem get_blank (position : Nat) : blank.get position = 0 := by
  simp [blank, get]

@[simp] theorem get_put (medium : Medium) (position : Nat) (byte : UInt8) (target : Nat) :
    (medium.put position byte).get target = if position = target then byte else medium.get target := by
  simp [put, get, Std.TreeMap.getD_insert]

@[simp] theorem length_read (medium : Medium) (offset length : Nat) :
    (medium.read offset length).length = length := by
  simp [read]

theorem getElem?_read (medium : Medium) (offset length index : Nat) :
    (medium.read offset length)[index]? =
      if index < length then some (medium.get (offset + index)) else none := by
  by_cases hindex : index < length
  · simp [read, hindex]
  · simp [read, hindex]

/-- A written range holds the payload; every other position is as before. -/
theorem get_write (medium : Medium) (offset : Nat) (bytes : Bytes) (position : Nat) :
    (medium.write offset bytes).get position =
      if offset ≤ position then bytes[position - offset]?.getD (medium.get position)
      else medium.get position := by
  induction bytes generalizing medium offset with
  | nil => simp [write]
  | cons byte rest ih =>
      rw [write, ih, get_put]
      by_cases hfirst : offset = position
      · subst hfirst
        simp [show ¬ offset + 1 ≤ offset by omega]
      · rw [if_neg hfirst]
        by_cases hbefore : offset ≤ position
        · have hnext : position - offset = position - (offset + 1) + 1 := by omega
          rw [if_pos (by omega), if_pos hbefore, hnext, List.getElem?_cons_succ]
        · rw [if_neg (by omega), if_neg hbefore]

end Medium

end StorageStack

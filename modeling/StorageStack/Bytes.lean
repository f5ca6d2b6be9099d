/-! # Bytes and little-endian words

Payloads are lists of bytes. `LittleEndian.encode` and `LittleEndian.decode` are the
two directions of the number format that boot sectors use, the least byte first.
-/

namespace StorageStack

/-- A payload: the contents of sectors, files and buffers. -/
abbrev Bytes := List UInt8

namespace Bytes

/-- The first `size` bytes, with zeros where the payload is too short. -/
def resize (bytes : Bytes) (size : Nat) : Bytes :=
  bytes.take size ++ List.replicate (size - bytes.length) 0

/-- Replace the bytes from `position` on by `data`. A gap before `position` is filled
with zeros, and what lies behind the written range stays. -/
def splice (bytes : Bytes) (position : Nat) (data : Bytes) : Bytes :=
  bytes.resize position ++ data ++ bytes.drop (position + data.length)

@[simp] theorem length_resize (bytes : Bytes) (size : Nat) :
    (bytes.resize size).length = size := by
  simp only [resize, List.length_append, List.length_take, List.length_replicate]
  omega

theorem length_splice (bytes : Bytes) (position : Nat) (data : Bytes) :
    (bytes.splice position data).length = max bytes.length (position + data.length) := by
  simp only [splice, List.length_append, length_resize, List.length_drop]
  omega

end Bytes

namespace LittleEndian

/-- The number spelled by the bytes, the first byte counting least. -/
def decode : Bytes → Nat
  | [] => 0
  | byte :: rest => byte.toNat + 256 * decode rest

/-- The lowest `width` bytes of a number, the least byte first. -/
def encode : Nat → Nat → Bytes
  | 0, _ => []
  | width + 1, number => UInt8.ofNat number :: encode width (number / 256)

@[simp] theorem length_encode (width number : Nat) : (encode width number).length = width := by
  induction width generalizing number with
  | zero => rfl
  | succ width ih => simp [encode, ih]

theorem decode_encode (width number : Nat) :
    decode (encode width number) = number % (1 <<< (8 * width)) := by
  rw [Nat.one_shiftLeft, Nat.pow_mul]
  change decode (encode width number) = number % 256 ^ width
  induction width generalizing number with
  | zero => simp [encode, decode, Nat.mod_one]
  | succ width ih =>
      have hbyte : (UInt8.ofNat number).toNat = number % 256 := UInt8.toNat_ofNat'
      rw [encode, decode, ih, hbyte, Nat.pow_succ, Nat.mul_comm (256 ^ width) 256, Nat.mod_mul]

end LittleEndian

end StorageStack

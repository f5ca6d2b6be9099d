import StorageStack.Bytes

/-! # Payload digests

A payload that is too long to be shown is known by its length and a 64-bit digest,
the FNV-1a hash.
-/

namespace StorageStack.Text

/-- The FNV-1a hash: for each byte, exclusive or and then a wrapping product. -/
def digest (bytes : Bytes) : UInt64 :=
  bytes.foldl (fun hash byte => (hash ^^^ byte.toUInt64) * 0x100000001b3) 0xcbf29ce484222325

/-- A word as sixteen hexadecimal digits. -/
def hexOfWord (word : UInt64) : String :=
  let digits := Nat.toDigits 16 word.toNat
  String.ofList (List.replicate (16 - digits.length) '0' ++ digits)

end StorageStack.Text

/-! # Number text

Decimal text of a byte, read with an optional plus sign and any leading zeros, and
the digits in which bytes and modes are shown.
-/

namespace StorageStack.Text

/-- The number that decimal digits spell. -/
def decimalValue (digits : List Char) : Nat :=
  digits.foldl (fun value digit => 10 * value + (digit.toNat - '0'.toNat)) 0

/-- A number up to 255 in decimal: digits only, at least one, after at most one plus sign. -/
def byteOfDecimal? (text : List Char) : Option UInt8 :=
  let digits := match text with
    | '+' :: rest => rest
    | _ => text
  if digits.isEmpty || !digits.all Char.isDigit then none
  else if decimalValue digits ≤ 255 then some (UInt8.ofNat (decimalValue digits))
  else none

/-- The two lower-case hexadecimal digits of a byte. -/
def hexOfByte (byte : UInt8) : List Char :=
  [Nat.digitChar (byte.toNat / 16), Nat.digitChar (byte.toNat % 16)]

/-- The lower-case hexadecimal digits of a payload, two for each byte. -/
def hexOfBytes (bytes : List UInt8) : String :=
  String.ofList (bytes.flatMap hexOfByte)

/-- The octal digits of a number, without leading zeros. -/
def octalOfNat (number : Nat) : String :=
  String.ofList (Nat.toDigits 8 number)

end StorageStack.Text

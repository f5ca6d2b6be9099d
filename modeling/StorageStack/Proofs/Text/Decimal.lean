import Mathlib.Data.List.Induction
import StorageStack.Text.Blank
import StorageStack.Text.Number

/-! # Decimal text

The ways to write a byte in decimal. Each of them is read as the byte that it was written for, and
no other text is read as a byte.
-/

namespace StorageStack.Text

/-- A number up to 255 in decimal. Zeros and one plus sign may stand in front of its digits. -/
inductive IsDecimal (number : UInt8) : List Char → Prop
  | plain (zeros : Nat) :
      IsDecimal number (List.replicate zeros '0' ++ Nat.toDigits 10 number.toNat)
  | signed (zeros : Nat) :
      IsDecimal number ('+' :: (List.replicate zeros '0' ++ Nat.toDigits 10 number.toNat))

theorem isDigit_of_mem_zeros_append {zeros number : Nat} {c : Char}
    (hc : c ∈ List.replicate zeros '0' ++ Nat.toDigits 10 number) : c.isDigit = true := by
  rcases List.mem_append.mp hc with hzero | hdigit
  · rw [List.eq_of_mem_replicate hzero]
    rfl
  · exact Nat.isDigit_of_mem_toDigits (by decide) (by decide) hdigit

theorem bounds_of_isDigit {c : Char} (hc : c.isDigit = true) : 48 ≤ c.toNat ∧ c.toNat ≤ 57 := by
  simpa [Char.isDigit, UInt32.le_iff_toNat_le] using hc

theorem isBlank_of_isDigit {c : Char} (hc : c.isDigit = true) : isBlank c = false := by
  have hbounds := bounds_of_isDigit hc
  simp only [isBlank, blankRanges, List.any_cons, List.any_nil, Bool.or_false, Bool.or_eq_false_iff,
    Bool.and_eq_false_iff, decide_eq_false_iff_not]
  omega

theorem decimalValue_zeros_append (zeros number : Nat) :
    decimalValue (List.replicate zeros '0' ++ Nat.toDigits 10 number) = number := by
  change Nat.ofDigitChars 10 _ 0 = number
  rw [Nat.ofDigitChars_append, Nat.ofDigitChars_replicate_zero, Nat.mul_zero,
    Nat.ofDigitChars_ten_toDigits]

/-- Digits spell the same number with a plus sign and without. -/
theorem byteOfDecimal?_of_digits {digits : List Char} {number : UInt8} (hne : digits ≠ [])
    (hdigits : ∀ c ∈ digits, c.isDigit = true) (hvalue : decimalValue digits = number.toNat) :
    byteOfDecimal? digits = some number ∧ byteOfDecimal? ('+' :: digits) = some number := by
  have hempty : digits.isEmpty = false := by simpa using hne
  have hall : digits.all Char.isDigit = true := List.all_eq_true.mpr hdigits
  have hbound : number.toNat ≤ 255 := Nat.le_of_lt_succ number.toNat_lt
  have hsigned : byteOfDecimal? ('+' :: digits) = some number := by
    simp only [byteOfDecimal?, hempty, hall, hvalue, if_pos hbound, UInt8.ofNat_toNat]
    rfl
  refine ⟨?_, hsigned⟩
  rw [← hsigned]
  unfold byteOfDecimal?
  split
  · next rest => exact absurd (hdigits '+' List.mem_cons_self) (by decide)
  · rfl

theorem byteOfDecimal?_of_isDecimal {number : UInt8} {text : List Char}
    (htext : IsDecimal number text) : byteOfDecimal? text = some number := by
  have hread : ∀ zeros : Nat,
      let digits := List.replicate zeros '0' ++ Nat.toDigits 10 number.toNat
      byteOfDecimal? digits = some number ∧ byteOfDecimal? ('+' :: digits) = some number :=
    fun zeros => byteOfDecimal?_of_digits
      (List.append_ne_nil_of_right_ne_nil _ Nat.toDigits_ne_nil)
      (fun _ => isDigit_of_mem_zeros_append) (decimalValue_zeros_append zeros number.toNat)
  cases htext with
  | plain zeros => exact (hread zeros).1
  | signed zeros => exact (hread zeros).2

/-! ## What is read -/

/-- A digit is the only digit of its value. -/
theorem toDigits_of_isDigit {c : Char} (hc : c.isDigit = true) :
    c.toNat - '0'.toNat < 10 ∧ Nat.toDigits 10 (c.toNat - '0'.toNat) = [c] := by
  obtain ⟨hlow, hhigh⟩ := bounds_of_isDigit hc
  have hchars : ∀ value < 10, Nat.digitChar value = Char.ofNat (48 + value) := by decide
  have hvalue : c.toNat - '0'.toNat < 10 := by
    change c.toNat - 48 < 10
    omega
  refine ⟨hvalue, ?_⟩
  rw [Nat.toDigits_of_lt_base hvalue, hchars _ hvalue]
  change [Char.ofNat (48 + (c.toNat - 48))] = [c]
  rw [Nat.add_sub_cancel' hlow, Char.ofNat_toNat]

theorem decimalValue_append_singleton (digits : List Char) (c : Char) :
    decimalValue (digits ++ [c]) = 10 * decimalValue digits + (c.toNat - '0'.toNat) := by
  rw [decimalValue, List.foldl_append]
  rfl

/-- Digits are zeros and the digits of their value. -/
theorem exists_zeros_append {digits : List Char} (hne : digits ≠ [])
    (hdigits : ∀ c ∈ digits, c.isDigit = true) :
    ∃ zeros, digits = List.replicate zeros '0' ++ Nat.toDigits 10 (decimalValue digits) := by
  induction digits using List.reverseRecOn with
  | nil => exact absurd rfl hne
  | append_singleton front c ih =>
      obtain ⟨hfront, hlast⟩ := List.forall_mem_append.mp hdigits
      obtain ⟨hbound, hc⟩ := toDigits_of_isDigit (hlast c (List.mem_singleton.mpr rfl))
      rw [decimalValue_append_singleton]
      by_cases hempty : front = []
      · subst hempty
        have hvalue : 10 * decimalValue [] + (c.toNat - '0'.toNat) = c.toNat - '0'.toNat :=
          Nat.zero_add _
        exact ⟨0, by rw [hvalue, hc]; rfl⟩
      · obtain ⟨zeros, hzeros⟩ := ih hempty hfront
        by_cases hvalue : decimalValue front = 0
        · -- The digit of the value zero is one more zero in front of the last digit.
          refine ⟨zeros + 1, ?_⟩
          rw [hvalue, Nat.toDigits_zero] at hzeros
          rw [hvalue, Nat.mul_zero, Nat.zero_add, hc, List.replicate_succ', ← hzeros]
        · refine ⟨zeros, ?_⟩
          rw [← Nat.toDigits_append_toDigits (by decide) (Nat.pos_of_ne_zero hvalue) hbound, hc,
            ← List.append_assoc, ← hzeros]

/-- The texts that are read as a byte are those that it may be written as. -/
theorem byteOfDecimal?_eq_some_iff {text : List Char} {number : UInt8} :
    byteOfDecimal? text = some number ↔ IsDecimal number text := by
  refine ⟨fun hread => ?_, byteOfDecimal?_of_isDecimal⟩
  have hnumber : ∀ digits : List Char,
      (if digits.isEmpty || !digits.all Char.isDigit then none
        else if decimalValue digits ≤ 255 then some (UInt8.ofNat (decimalValue digits)) else none) =
          some number →
      ∃ zeros, digits = List.replicate zeros '0' ++ Nat.toDigits 10 number.toNat := by
    intro digits hdigits
    split at hdigits
    · cases hdigits
    · next hall =>
      split at hdigits
      · next hvalue =>
        have hparts : digits ≠ [] ∧ ∀ c ∈ digits, c.isDigit = true := by simpa using hall
        obtain ⟨zeros, hzeros⟩ := exists_zeros_append hparts.1 hparts.2
        rw [← Option.some.inj hdigits, UInt8.toNat_ofNat_of_lt' (Nat.lt_succ_of_le hvalue)]
        exact ⟨zeros, hzeros⟩
      · cases hdigits
  obtain ⟨zeros, hzeros⟩ := hnumber _ hread
  split at hzeros
  · rw [hzeros]
    exact .signed zeros
  · rw [hzeros]
    exact .plain zeros

end StorageStack.Text

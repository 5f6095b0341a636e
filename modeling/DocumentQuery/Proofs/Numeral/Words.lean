import DocumentQuery.Numeral.Word
import Mathlib.Data.Nat.Digits.Defs

/-!
# Which digits make a word

Reading digits into a word gives the number that they stand for, and fails exactly if this
number does not fit: a product or a sum that does not fit on the way only becomes greater by
the digits that follow, and zeros in front leave nothing to overflow. The number itself is a
sum of powers of ten.
-/

namespace DocumentQuery.Numeral

theorem word?_eq_some_iff {n : Nat} {word : UInt64} : word? n = some word ↔ word.toNat = n := by
  unfold word?
  split
  · next fits =>
    rw [Option.some.injEq]
    constructor
    · rintro rfl
      exact UInt64.toNat_ofNatLT
    · rintro rfl
      exact UInt64.ofNatLT_toNat word
  · next fits =>
    constructor
    · intro h
      contradiction
    · rintro rfl
      exact absurd word.toNat_lt_size fits

theorem word?_eq_none_iff {n : Nat} : word? n = none ↔ UInt64.size ≤ n := by
  simp [word?]

theorem le_ofDigitChars (digits : List Char) (n : Nat) : n ≤ Nat.ofDigitChars 10 digits n := by
  induction digits generalizing n with
  | nil => exact Nat.le_refl n
  | cons d digits ih =>
    rw [Nat.ofDigitChars_cons]
    have hrest := ih (10 * n + (d.toNat - '0'.toNat))
    omega

/-- The two checks of a step come to one: the product is no greater than the sum. -/
theorem pushDigit?_eq (word : UInt64) (digit : Char) :
    pushDigit? word digit = word? (10 * word.toNat + digitValue digit) := by
  unfold pushDigit?
  rw [Nat.mul_comm]
  cases hshifted : word? (10 * word.toNat) with
  | none =>
    have hsize := word?_eq_none_iff.mp hshifted
    exact (word?_eq_none_iff.mpr (by omega)).symm
  | some shifted =>
    rw [Option.bind_eq_bind, Option.bind_some, word?_eq_some_iff.mp hshifted]

theorem foldlM_pushDigit?_eq (digits : List Char) (word : UInt64) :
    digits.foldlM pushDigit? word = word? (Nat.ofDigitChars 10 digits word.toNat) := by
  induction digits generalizing word with
  | nil => exact (word?_eq_some_iff.mpr rfl).symm
  | cons d digits ih =>
    rw [List.foldlM_cons, pushDigit?_eq, Nat.ofDigitChars_cons]
    change _ = word? (Nat.ofDigitChars 10 digits (10 * word.toNat + digitValue d))
    cases hnext : word? (10 * word.toNat + digitValue d) with
    | none =>
      have hsize := word?_eq_none_iff.mp hnext
      have hle := le_ofDigitChars digits (10 * word.toNat + digitValue d)
      exact (word?_eq_none_iff.mpr (by omega)).symm
    | some next =>
      rw [Option.bind_eq_bind, Option.bind_some, ih, word?_eq_some_iff.mp hnext]

/-- Digits are read as the number they stand for, as far as a word can hold it. -/
theorem wordOfDigits?_eq (digits : List Char) :
    wordOfDigits? digits = word? (Nat.ofDigitChars 10 digits 0) :=
  foldlM_pushDigit?_eq digits 0

theorem wordOfDigits?_eq_some_iff {digits : List Char} {word : UInt64} :
    wordOfDigits? digits = some word ↔ word.toNat = Nat.ofDigitChars 10 digits 0 := by
  rw [wordOfDigits?_eq, word?_eq_some_iff]

theorem wordOfDigits?_eq_none_iff {digits : List Char} :
    wordOfDigits? digits = none ↔ UInt64.size ≤ Nat.ofDigitChars 10 digits 0 := by
  rw [wordOfDigits?_eq, word?_eq_none_iff]

/-- The number that digits stand for, as the sum of each digit times its power of ten. -/
theorem ofDigitChars_eq_ofDigits (digits : List Char) :
    Nat.ofDigitChars 10 digits 0 = Nat.ofDigits 10 (digits.reverse.map digitValue) := by
  induction digits with
  | nil => rfl
  | cons d digits ih =>
    rw [Nat.ofDigitChars_cons, Nat.ofDigitChars_eq_ofDigitChars_zero, ih, List.reverse_cons,
      List.map_append, Nat.ofDigits_append, List.length_map, List.length_reverse, List.map_singleton,
      Nat.ofDigits_singleton, Nat.mul_zero, Nat.zero_add, Nat.add_comm]
    rfl

end DocumentQuery.Numeral

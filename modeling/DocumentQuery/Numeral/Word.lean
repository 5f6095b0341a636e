/-!
# Words from decimal digits

Decimal digits are read into a machine word of 64 bits one by one, first to last. The word is
checked after each product and each sum, so a number that is too large is never cut to fit.
-/

namespace DocumentQuery
namespace Numeral

def word? (n : Nat) : Option UInt64 :=
  if fits : n < UInt64.size then some (UInt64.ofNatLT n fits) else none

def digitValue (digit : Char) : Nat := digit.toNat - '0'.toNat

def pushDigit? (word : UInt64) (digit : Char) : Option UInt64 := do
  let shifted ← word? (word.toNat * 10)
  word? (shifted.toNat + digitValue digit)

def wordOfDigits? (digits : List Char) : Option UInt64 := digits.foldlM pushDigit? 0

end Numeral
end DocumentQuery

/-!
# Numbers of a document

A number is an integer as long as a machine word can hold it, and otherwise a binary
floating-point number of 64 bits.
-/

namespace DocumentQuery

/-- An integer that fits a word of 64 bits, read as signed or as unsigned. -/
structure WordInt where
  val : Int
  fits : -9223372036854775808 ≤ val ∧ val < 18446744073709551616
deriving DecidableEq

def WordInt.ofInt? (n : Int) : Option WordInt :=
  if fits : -9223372036854775808 ≤ n ∧ n < 18446744073709551616 then some ⟨n, fits⟩ else none

inductive Number where
  | integer (n : WordInt)
  | float (x : Float)

def Number.isFinite : Number → Bool
  | .integer _ => true
  | .float x => x.isFinite

end DocumentQuery

/-!
# Floats from decimal text

A decimal numeral has digits, perhaps a point among or next to them, and perhaps an
exponent. It stands for the float nearest to it, a tie going to the even one.
-/

namespace DocumentQuery
namespace Numeral

structure Spelling where
  whole : List Char
  fraction : List Char
  exponent : Int

def exponent? (text : List Char) : Option Int :=
  let (negative, digits) := match text with
    | '+' :: digits => (false, digits)
    | '-' :: digits => (true, digits)
    | _ => (false, text)
  if digits.isEmpty || !digits.all Char.isDigit then none
  else
    let n : Int := Nat.ofDigitChars 10 digits 0
    some (if negative then -n else n)

/-- Reads a numeral without a sign. At least one digit stands before or after the point. -/
def Spelling.ofText? (text : List Char) : Option Spelling :=
  let whole := text.takeWhile Char.isDigit
  let behind := text.dropWhile Char.isDigit
  let fraction := match behind with
    | '.' :: rest => rest.takeWhile Char.isDigit
    | _ => []
  let behind := match behind with
    | '.' :: rest => rest.dropWhile Char.isDigit
    | _ => behind
  if whole.isEmpty && fraction.isEmpty then none
  else
    match behind with
    | [] => some ⟨whole, fraction, 0⟩
    | 'e' :: rest => (exponent? rest).map fun e => ⟨whole, fraction, e⟩
    | 'E' :: rest => (exponent? rest).map fun e => ⟨whole, fraction, e⟩
    | _ => none

/-- The nearest float, or nothing if that is infinite. Numerals of a magnitude beyond
all floats are told apart before any power of ten is formed. -/
def Spelling.nearest? (spelling : Spelling) : Option Float :=
  let digits := (spelling.whole ++ spelling.fraction).dropWhile (· = '0')
  let scale := spelling.exponent - spelling.fraction.length
  let magnitude := scale + digits.length
  if digits.isEmpty || magnitude < -400 then some 0.0
  else if 400 < magnitude then none
  else
    let x := Float.ofScientific (Nat.ofDigitChars 10 digits 0) (decide (scale < 0)) scale.natAbs
    if x.isInf then none else some x

end Numeral
end DocumentQuery

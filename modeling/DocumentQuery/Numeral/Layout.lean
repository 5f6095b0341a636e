import DocumentQuery.Numeral.Shortest

/-!
# Layout of floats

A format that writes floats chooses which magnitudes are written positionally, how a
positive exponent is signed, and how the values that are no real numbers are spelled.
-/

namespace DocumentQuery
namespace Numeral

/-- How a format writes floats. A decimal is positional if its point lies between
`leastPoint` and `greatestPoint`; it then always has digits on both sides. -/
structure Layout where
  leastPoint : Int
  greatestPoint : Int
  exponentPlus : String
  infinite : String
  notANumber : String

namespace Layout

def positional (d : Decimal) : List Char :=
  if d.point ≤ 0 then
    '0' :: '.' :: (List.replicate (-d.point).toNat '0' ++ d.digits)
  else
    let whole := d.digits.take d.point.toNat
    let zeros := List.replicate (d.point.toNat - d.digits.length) '0'
    let fraction := d.digits.drop d.point.toNat
    whole ++ zeros ++ '.' :: (if fraction.isEmpty then ['0'] else fraction)

def scientific (layout : Layout) (d : Decimal) : List Char :=
  let exponent := d.point - 1
  let fraction := d.digits.drop 1
  let sign := if exponent < 0 then "-" else layout.exponentPlus
  d.digits.take 1 ++ (if fraction.isEmpty then [] else '.' :: fraction) ++
    'e' :: (sign.toList ++ Nat.toDigits 10 exponent.natAbs)

def magnitudeText (layout : Layout) (x : Float) : List Char :=
  if x == 0.0 then ['0', '.', '0']
  else
    let d := shortest x
    if layout.leastPoint ≤ d.point ∧ d.point ≤ layout.greatestPoint then positional d
    else layout.scientific d

def text (layout : Layout) (x : Float) : String :=
  if x.isNaN then layout.notANumber
  else
    let negative := x.toBits.toNat / Nat.pow 2 63 = 1
    let sign := if negative then "-" else ""
    if x.isInf then sign ++ layout.infinite
    else sign ++ String.ofList (layout.magnitudeText x.abs)

end Layout
end Numeral
end DocumentQuery

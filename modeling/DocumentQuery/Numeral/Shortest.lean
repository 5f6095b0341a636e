/-!
# Shortest decimal digits of a float

A positive finite float stands for a whole interval of reals that round to it. Its
digits are the fewest that name a point of this interval, and of several such points
the one nearest to the float; an exact tie goes to the even digit. Everything is
computed on natural numbers from the bits of the float.
-/

namespace DocumentQuery
namespace Numeral

/-- A decimal `0.d₁d₂…dₙ · 10 ^ point`, its digits most significant first. -/
structure Decimal where
  digits : List Char
  point : Int
deriving DecidableEq

structure Fraction where
  num : Nat
  den : Nat

/-- A positive float with the interval that rounds to it, over one denominator. The
ends belong to the interval if `closed`. -/
structure Rounding where
  low : Nat
  value : Nat
  high : Nat
  den : Nat
  closed : Bool

namespace Rounding

/-- The interval of `mantissa * 2 ^ exponent`. Just above a power of two the floats
below lie half as far apart as those above. -/
def ofBinary (mantissa : Nat) (exponent : Int) (narrowBelow : Bool) : Rounding :=
  let unit := exponent - 2
  let scale := Nat.pow 2 unit.toNat
  { low := (4 * mantissa - if narrowBelow then 1 else 2) * scale
    value := 4 * mantissa * scale
    high := (4 * mantissa + 2) * scale
    den := Nat.pow 2 (-unit).toNat
    closed := mantissa % 2 = 0 }

def ofBits (bits : Nat) : Rounding :=
  let fraction : Nat := bits % Nat.pow 2 52
  let biased : Nat := bits / Nat.pow 2 52 % Nat.pow 2 11
  if biased = 0 then ofBinary fraction (-1074) false
  else ofBinary (Nat.pow 2 52 + fraction) (biased - 1075) (fraction = 0 && 1 < biased)

/-- Whether `n * unit` rounds to the float. -/
def covers (r : Rounding) (n : Nat) (unit : Fraction) : Bool :=
  let point := n * unit.num * r.den
  let low := r.low * unit.den
  let high := r.high * unit.den
  if r.closed then low ≤ point && point ≤ high else low < point && point < high

def tenPow (e : Int) : Fraction := ⟨Nat.pow 10 e.toNat, Nat.pow 10 (-e).toNat⟩

def belowTenPow (r : Rounding) (e : Int) : Bool :=
  let power := tenPow e
  r.value * power.den < power.num * r.den

/-- The least power of ten above the float, looked for next to an estimate from the
lengths of numerator and denominator. -/
def magnitude (r : Rounding) : Int :=
  let estimate := ((r.value.log2 : Int) - (r.den.log2 : Int)) * 30103 / 100000
  ([estimate - 1, estimate, estimate + 1].find? r.belowTenPow).getD (estimate + 2)

/-- The multiple of `unit` that rounds to the float and is nearest to it, if any does. -/
def nearestMultiple (r : Rounding) (unit : Fraction) : Option Nat :=
  let scaled := r.value * unit.den
  let step := unit.num * r.den
  let below := scaled / step
  match r.covers below unit, r.covers (below + 1) unit with
  | false, false => none
  | true, false => some below
  | false, true => some (below + 1)
  | true, true =>
    let rest := scaled - below * step
    if 2 * rest < step then some below
    else if step < 2 * rest then some (below + 1)
    else if below % 2 = 0 then some below
    else some (below + 1)

/-- Tries grids of more and more digits; the first one with a hit gives the digits.
Seventeen digits always suffice. -/
def shortestFrom (r : Rounding) (magnitude : Int) (count : Nat) : Nat → Option (Nat × Int)
  | 0 => none
  | fuel + 1 =>
    let exponent := magnitude - count
    match r.nearestMultiple (tenPow exponent) with
    | some n => some (n, exponent)
    | none => shortestFrom r magnitude (count + 1) fuel

end Rounding

def Decimal.ofScaled (n : Nat) (exponent : Int) : Decimal :=
  let digits := Nat.toDigits 10 n
  { digits := (digits.reverse.dropWhile (· = '0')).reverse
    point := exponent + digits.length }

def shortest (x : Float) : Decimal :=
  let r := Rounding.ofBits x.toBits.toNat
  match r.shortestFrom r.magnitude 1 17 with
  | some (n, exponent) => .ofScaled n exponent
  | none => ⟨['0'], 1⟩

end Numeral
end DocumentQuery

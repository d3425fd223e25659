import Tickle.Decimal.Shortest

/-!
Text of a double: the shortest digits that read back, a point in every positional numeral, and an
exponent only for very large and very small numbers.
-/

namespace Tickle.Number

/-- How the digits of a decimal are laid out. -/
structure Layout where
  /-- Least power of the leading digit that is written without an exponent. -/
  lowest : Int
  /-- First power of the leading digit that is again written with an exponent. -/
  limit : Int
  /-- What ends a positional numeral without places. -/
  wholeEnd : String
  /-- Least number of digits of an exponent. -/
  exponentWidth : Nat

def exponentText (mark : Char) (width : Nat) (power : Int) : String :=
  String.ofList [mark, if power < 0 then '-' else '+'] ++ Decimal.padded width power.natAbs

namespace Layout

def write (layout : Layout) (digits : Nat) (exponent : Int) : String :=
  let ds := Nat.toDigits 10 digits
  let point : Int := ds.length + exponent
  let zeros (n : Int) := List.replicate n.toNat '0'
  if point - 1 < layout.lowest ∨ layout.limit ≤ point - 1 then
    let places := if ds.length = 1 then [] else '.' :: ds.drop 1
    String.ofList (ds.take 1 ++ places) ++ exponentText 'e' layout.exponentWidth (point - 1)
  else if point ≤ 0 then String.ofList ('0' :: '.' :: zeros (-point) ++ ds)
  else if (ds.length : Int) ≤ point then
    String.ofList (ds ++ zeros (point - ds.length)) ++ layout.wholeEnd
  else String.ofList (ds.take point.toNat ++ '.' :: ds.drop point.toNat)

end Layout

/-- Doubles are positional from `0.0001` up to sixteen digits before the point. -/
def doubleLayout : Layout where
  lowest := -4
  limit := 16
  wholeEnd := ".0"
  exponentWidth := 2

def doubleText (x : Float) : String :=
  match Binary64.decode x with
  | .nan => "NaN"
  | .infinite negative => if negative then "-Inf" else "Inf"
  | .finite negative mantissa power =>
    let (digits, exponent) := Decimal.shortest mantissa power
    (if negative then "-" else "") ++ doubleLayout.write digits exponent

end Tickle.Number

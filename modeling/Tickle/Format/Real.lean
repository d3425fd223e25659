import Tickle.Decimal.Rounding
import Tickle.Number.DoubleText

/-!
Doubles with a given number of places or digits, rounded from the exact value, a half to the even
digit. Signs are left to the caller.
-/

namespace Tickle.Format

inductive RealStyle where
  | fixed | exponent | general
  deriving Repr, DecidableEq

/-- A whole part and places, with a point if there are places or it is asked for. -/
def withPoint (alternate : Bool) (whole places : List Char) : List Char :=
  if places.isEmpty && !alternate then whole else whole ++ '.' :: places

/-- A positive quotient with a number of places. -/
def fixed (alternate : Bool) (places num den : Nat) : List Char :=
  let digits :=
    (Decimal.padded (places + 1) (Decimal.roundDiv (num * Nat.pow 10 places) den)).toList
  withPoint alternate (digits.take (digits.length - places)) (digits.drop (digits.length - places))

/-- The `count` leading digits of a quotient as a number, and the power of the first of them. -/
def leadingDigits (count num den : Nat) : Nat × Int :=
  if num = 0 then (0, 0)
  else
    let power := Decimal.leadingPower num den
    let (n, d) := Decimal.scale 1 10 ((count : Int) - 1 - power)
    let digits := Decimal.roundDiv (num * n) (den * d)
    if digits = Nat.pow 10 count then (Nat.pow 10 (count - 1), power + 1) else (digits, power)

def dropZeros (ds : List Char) : List Char := (ds.reverse.dropWhile (· = '0')).reverse

/-- A quotient with one digit in front of the point and an exponent. -/
def scientific (alternate : Bool) (places num den : Nat) : List Char :=
  let (digits, power) := leadingDigits (places + 1) num den
  let ds := (Decimal.padded (places + 1) digits).toList
  withPoint alternate (ds.take 1) (ds.drop 1) ++ (Number.exponentText 'e' 2 power).toList

/-- A quotient with a number of digits, positional unless its power is below -4 or too large for
the digits; zeros at the end are dropped unless the alternate form is asked for. -/
def general (alternate : Bool) (precision num den : Nat) : List Char :=
  let count := max precision 1
  let (digits, power) := leadingDigits count num den
  let ds := (Decimal.padded count digits).toList
  let trim (places : List Char) := if alternate then places else dropZeros places
  if power < -4 ∨ (count : Int) ≤ power then
    withPoint alternate (ds.take 1) (trim (ds.drop 1))
      ++ (Number.exponentText 'e' 2 power).toList
  else if power < 0 then
    withPoint alternate ['0'] (trim (List.replicate (-power - 1).toNat '0' ++ ds))
  else
    let point := power.toNat + 1
    withPoint alternate (ds.take point) (trim (ds.drop point))

def realText (style : RealStyle) (alternate : Bool) (precision : Nat) (x : Float) : List Char :=
  let sign (negative : Bool) := if negative then ['-'] else []
  match Number.Binary64.decode x with
  | .nan => "nan".toList
  | .infinite negative => sign negative ++ "inf".toList
  | .finite negative mantissa power =>
    let (n, d) := Decimal.scale mantissa 2 power
    sign negative ++ match style with
      | .fixed => fixed alternate precision n d
      | .exponent => scientific alternate precision n d
      | .general => general alternate precision n d

end Tickle.Format

import Tickle.Decimal.Rounding

/-!
Double precision numbers as sign, mantissa and power of two. `nearest` rounds an exact quotient to
a double; `decode` takes a double apart. Everything between the two is arithmetic on naturals.
-/

namespace Tickle.Number

/-- A double taken apart: a finite one is `mantissa * 2 ^ power`, negated if `negative`. -/
inductive Binary64 where
  | finite (negative : Bool) (mantissa : Nat) (power : Int)
  | infinite (negative : Bool)
  | nan
  deriving Repr, BEq, DecidableEq

namespace Binary64

def infinityBits : Nat := 0x7FF0000000000000

def nanBits : Nat := 0x7FF8000000000000

/-- Least mantissa of a normal double, `2 ^ 52`; mantissas below it fill the fraction field. -/
def unit : Nat := 0x10000000000000

def signBit : Nat := 0x8000000000000000

/-- The integer `e` with `2 ^ e ≤ num / den < 2 ^ (e + 1)`, for a positive quotient. -/
def leadingBit (num den : Nat) : Int :=
  let e : Int := (Nat.log2 num : Int) - Nat.log2 den
  let (n, d) := Decimal.scale num 2 (-e)
  if den * d ≤ n then e else e - 1

/-- Bit pattern of the double nearest to the quotient, a half to the even mantissa. A mantissa
that rounds up to the next power of two carries into the exponent field. -/
def nearest (num den : Nat) : Nat :=
  if num = 0 then 0
  else
    let power := max (leadingBit num den - 52) (-1074)
    let (n, d) := Decimal.scale num 2 (-power)
    let mantissa := Decimal.roundDiv n (den * d)
    if mantissa < unit then mantissa
    else min infinityBits ((power + 1075).toNat * unit + (mantissa - unit))

def ofMagnitude (negative : Bool) (bits : Nat) : Float :=
  Float.ofBits (if negative then bits + signBit else bits).toUInt64

def decode (x : Float) : Binary64 :=
  let bits : Nat := x.toBits.toNat
  let negative := decide (signBit ≤ bits)
  let field : Nat := bits / unit % 2048
  let fraction : Nat := bits % unit
  if field = 2047 then (if fraction = 0 then .infinite negative else .nan)
  else if field = 0 then .finite negative fraction (-1074)
  else .finite negative (fraction + unit) ((field : Int) - 1075)

def truncate (negative : Bool) (mantissa : Nat) (power : Int) : Int :=
  let (n, d) := Decimal.scale mantissa 2 power
  if negative then -(n / d : Nat) else (n / d : Nat)

def floor (negative : Bool) (mantissa : Nat) (power : Int) : Int :=
  let (n, d) := Decimal.scale mantissa 2 power
  if negative then -((n + d - 1) / d : Nat) else (n / d : Nat)

def ceil (negative : Bool) (mantissa : Nat) (power : Int) : Int :=
  -floor (!negative) mantissa power

/-- Order of an integer and a finite double, without rounding either. -/
def compareInt (k : Int) (negative : Bool) (mantissa : Nat) (power : Int) : Ordering :=
  let (n, d) := Decimal.scale mantissa 2 power
  compare (k * d) (if negative then -(n : Int) else n)

end Binary64

end Tickle.Number

import Tickle.Text.Blank
import Tickle.Text.Digit
import Tickle.Text.Trim
import Tickle.Number.Binary64

/-!
Numbers written in text. Blanks may stand around a numeral, decimal digits of any script count, and
a single underscore may stand between two digits. A numeral is an exact decimal, an infinity or not
a number; its double is the nearest one.
-/

namespace Tickle.Number

/-- Longest decimal numeral that is read or written as an integer, in digits. -/
def maxDigits : Nat := 4300

/-- Blank that may stand around a numeral; the information separators may not. -/
def isNumeralBlank (c : Char) : Bool :=
  Text.isBlank c && !(0x1C ≤ c.toNat && c.toNat ≤ 0x1F)

def plainDigit (c : Char) : Char :=
  match Text.decimalValue? c with
  | some value => Char.ofNat ('0'.toNat + value)
  | none => c

/-- Drops the underscores between digits; there is no result if one stands elsewhere. -/
def ungroup (afterDigit : Bool) : List Char → Option (List Char)
  | [] => some []
  | '_' :: c :: rest =>
    if afterDigit && c.isDigit then (ungroup true rest).map (c :: ·) else none
  | c :: rest => if c = '_' then none else (ungroup c.isDigit rest).map (c :: ·)

/-- A numeral without blanks around it and underscores in it, in plain digits. -/
def plain? (text : String) : Option (List Char) :=
  ungroup false ((Text.trim isNumeralBlank text.toList).map plainDigit)

/-- Whether the text starts with a minus, and what follows its sign. -/
def splitSign : List Char → Bool × List Char
  | '-' :: rest => (true, rest)
  | '+' :: rest => (false, rest)
  | rest => (false, rest)

def ofDigits (digits : List Char) : Nat := Nat.ofDigitChars 10 digits 0

/-- An integer with or without a sign, from at least one digit. -/
def signed? (cs : List Char) : Option Int :=
  let (negative, digits) := splitSign cs
  if digits.isEmpty || !digits.all Char.isDigit then none
  else some (if negative then -(ofDigits digits : Int) else ofDigits digits)

/-- Reads an integer of at most `maxDigits` digits, leading zeros included. -/
def readInt? (text : String) : Option Int := do
  let cs ← plain? text
  if maxDigits < (splitSign cs).2.length then none else signed? cs

inductive Numeral where
  | finite (negative : Bool) (digits : Nat) (exponent : Int)
  | infinite (negative : Bool)
  | nan
  deriving Repr, BEq, DecidableEq

namespace Numeral

/-- Reads the part of a numeral after its sign. -/
def ofUnsigned? (negative : Bool) (cs : List Char) : Option Numeral :=
  let word := String.ofList (cs.map Char.toLower)
  if word = "inf" ∨ word = "infinity" then some (.infinite negative)
  else if word = "nan" then some .nan
  else
    let whole := cs.takeWhile Char.isDigit
    let rest := cs.dropWhile Char.isDigit
    let (places, rest) := match rest with
      | '.' :: rest => (rest.takeWhile Char.isDigit, rest.dropWhile Char.isDigit)
      | rest => ([], rest)
    let digits := whole ++ places
    if digits.isEmpty then none
    else
      match rest with
      | [] => some (.finite negative (ofDigits digits) (-places.length))
      | mark :: power =>
        if mark = 'e' ∨ mark = 'E' then
          (signed? power).map fun e => .finite negative (ofDigits digits) (e - places.length)
        else none

/-- Reads a decimal with an optional point and exponent, an infinity or `nan`. -/
def read? (text : String) : Option Numeral := do
  let cs ← plain? text
  let (negative, rest) := splitSign cs
  ofUnsigned? negative rest

/-- Bit pattern, without the sign, of the nearest double. Decimals far out of range are settled by
their first digit. -/
def magnitude : Numeral → Nat
  | .finite _ digits exponent =>
    let top : Int := Decimal.digitCount digits + exponent
    if digits = 0 ∨ top < -330 then 0
    else if 310 < top then Binary64.infinityBits
    else
      let (n, d) := Decimal.scale digits 10 exponent
      Binary64.nearest n d
  | .infinite _ => Binary64.infinityBits
  | .nan => Binary64.nanBits

def isNegative : Numeral → Bool
  | .finite negative _ _ => negative
  | .infinite negative => negative
  | .nan => false

def toDouble (n : Numeral) : Float := Binary64.ofMagnitude n.isNegative n.magnitude

end Numeral

end Tickle.Number

import Tickle.Number.DoubleText
import Tickle.Number.Numeral
import Tickle.Text.Case

/-!
Values of expressions: 64-bit integers, doubles and strings. Text is read as an integer if it is
one (and wrapped to 64 bits), else as a double, else kept.
-/

namespace Tickle

inductive Value where
  | int (n : Int64)
  | double (x : Float)
  | string (s : String)
  deriving Repr

namespace Value

/-- Reads text as an integer, else as a double, else keeps it. -/
def ofText (text : String) : Value :=
  match Number.readInt? text with
  | some n => .int (Int64.ofInt n)
  | none =>
    match Number.Numeral.read? text with
    | some numeral => .double numeral.toDouble
    | none => .string text

def text : Value → String
  | int n => toString n.toInt
  | double x => Number.doubleText x
  | string s => s

/-- The truth values of an operator's result. -/
def ofBool (b : Bool) : Value := .int (if b then 1 else 0)

/-- Everything but a number equal to zero is true; so is every string. -/
def truth : Value → Bool
  | int n => n ≠ 0
  | double x => x != 0
  | string _ => true

def isNumeric : Value → Bool
  | string _ => false
  | _ => true

/-- The double nearest to an integer. -/
def doubleOfInt (k : Int) : Float :=
  Number.Binary64.ofMagnitude (k < 0) (Number.Binary64.nearest k.natAbs 1)

/-- Order of an integer and a double by their exact values. -/
def compareIntDouble (k : Int) (x : Float) : Option Ordering :=
  match Number.Binary64.decode x with
  | .nan => none
  | .infinite negative => some (if negative then .gt else .lt)
  | .finite negative mantissa power =>
    some (Number.Binary64.compareInt k negative mantissa power)

/-- Order of two numbers by their exact values; there is none with a string or a NaN. -/
def order? : Value → Value → Option Ordering
  | int a, int b => some (compare a.toInt b.toInt)
  | int a, double y => compareIntDouble a.toInt y
  | double x, int b => (compareIntDouble b.toInt x).map Ordering.swap
  | double x, double y =>
    if x < y then some .lt else if x == y then some .eq else if y < x then some .gt else none
  | _, _ => none

/-- Numbers are equal by value; anything else is equal if its text is. -/
def equals (a b : Value) : Bool :=
  if a.isNumeric && b.isNumeric then order? a b = some .eq else a.text = b.text

def trueWords : List String := ["true", "yes", "on"]

def falseWords : List String := ["false", "no", "off"]

/-- Reads a condition: a number, which is true unless it rounds to zero, or one of the words in
any case. -/
def readBool? (text : String) : Option Bool :=
  match Number.Numeral.read? text with
  | some numeral => some (numeral.magnitude ≠ 0)
  | none =>
    let word := String.ofList (Text.toLower (Text.trim Text.isBlank text.toList))
    if word ∈ trueWords then some true
    else if word ∈ falseWords then some false
    else none

end Value

end Tickle

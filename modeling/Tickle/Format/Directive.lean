import Tickle.Error
import Tickle.Number.Numeral

/-!
Directives of format strings: a percent sign, flags, a width, a precision and a conversion. Two
readers look at them. `conversions` lists which conversions a format asks for; `Directive.read?`
takes one directive apart when the format is filled in.
-/

namespace Tickle.Format

open Tickle.Text

def isFlag (c : Char) : Bool := c = '-' || c = '+' || c = '#' || c = ' ' || c = '0'

/-- What follows the flags, the width and the precision of a directive. -/
def skipOptions (cs : List Char) : List Char :=
  match (cs.dropWhile isFlag).dropWhile isDecimal with
  | '.' :: rest => rest.dropWhile isDecimal
  | rest => rest

theorem length_skipOptions_le (cs : List Char) : (skipOptions cs).length ≤ cs.length := by
  have h1 := (List.dropWhile_suffix isFlag : cs.dropWhile isFlag <:+ cs).length_le
  have h2 := (List.dropWhile_suffix isDecimal :
    (cs.dropWhile isFlag).dropWhile isDecimal <:+ cs.dropWhile isFlag).length_le
  unfold skipOptions
  split
  · rename_i rest heq
    have h3 := (List.dropWhile_suffix isDecimal : rest.dropWhile isDecimal <:+ rest).length_le
    rw [heq] at h2
    simp only [List.length_cons] at h2
    omega
  · omega

/-- The conversion characters of a format in order. One that is missing at the end of a line or of
the text is replaced by the last option, if there is one. -/
def conversions (cs : List Char) : List Char :=
  match cs with
  | [] => []
  | '%' :: '%' :: rest => conversions rest
  | '%' :: rest =>
    match _h : skipOptions rest with
    | [] => rest.getLast?.toList
    | c :: after =>
      if c = '\n' then
        (rest.take (rest.length - (after.length + 1))).getLast?.toList ++ conversions after
      else c :: conversions after
  | _ :: rest => conversions rest
termination_by cs.length
decreasing_by
  · simp only [List.length_cons]
    omega
  · have hl := length_skipOptions_le rest
    rw [_h] at hl
    simp only [List.length_cons] at *
    omega
  · have hl := length_skipOptions_le rest
    rw [_h] at hl
    simp only [List.length_cons] at *
    omega
  · simp

/-- What a conversion makes of its argument. -/
inductive Family where
  | text | integer | real | character
  deriving Repr, DecidableEq

def family? (conversion : Char) : Option Family :=
  if conversion = 's' then some .text
  else if "diuoxX".toList.contains conversion then some .integer
  else if "eEfgG".toList.contains conversion then some .real
  else if conversion = 'c' then some .character
  else none

structure Directive where
  left : Bool
  plus : Bool
  space : Bool
  alternate : Bool
  zero : Bool
  width : Option Nat
  precision : Option Nat
  conversion : Char
  deriving Repr, DecidableEq

def maxWidth : Nat := 0x7FFFFFFFFFFFFFFF

def maxPrecision : Nat := 0x7FFFFFFF

/-- Greatest precision for an integer, which is the least number of its digits. -/
def maxDigits : Nat := 0x7FFFFFFC

/-- The precision asks for more digits than an integer may have. -/
def Directive.asksTooMuch (d : Directive) : Bool :=
  family? d.conversion = some .integer && maxDigits < d.precision.getD 0

def readCount (cs : List Char) : Option Nat × List Char :=
  let digits := cs.takeWhile Char.isDigit
  (if digits.isEmpty then none else some (Number.ofDigits digits), cs.dropWhile Char.isDigit)

/-- The number after a point; a point alone means zero. -/
def readPrecision : List Char → Option Nat × List Char
  | '.' :: rest => (some ((readCount rest).1.getD 0), (readCount rest).2)
  | cs => (none, cs)

/-- Reads what follows a percent sign. -/
def Directive.read (cs : List Char) : Except FormatFault (Directive × List Char) :=
  let flags := cs.takeWhile isFlag
  let (width, rest) := readCount (cs.dropWhile isFlag)
  if maxWidth < width.getD 0 then .error .widthTooBig
  else
    let (precision, rest) := readPrecision rest
    if maxPrecision < precision.getD 0 then .error .precisionTooBig
    else
      match rest with
      | [] => .error .incomplete
      | c :: rest =>
        .ok (⟨flags.contains '-', flags.contains '+', flags.contains ' ', flags.contains '#',
          flags.contains '0', width, precision, c⟩, rest)

theorem length_readCount_le (cs : List Char) : (readCount cs).2.length ≤ cs.length :=
  (List.dropWhile_suffix Char.isDigit : cs.dropWhile Char.isDigit <:+ cs).length_le

theorem length_readPrecision_le (cs : List Char) : (readPrecision cs).2.length ≤ cs.length := by
  unfold readPrecision
  split
  · exact Nat.le_succ_of_le (length_readCount_le _)
  · exact Nat.le_refl _

theorem Directive.length_read_lt {cs rest : List Char} {d : Directive}
    (h : Directive.read cs = .ok (d, rest)) : rest.length < cs.length := by
  have h1 := (List.dropWhile_suffix isFlag : cs.dropWhile isFlag <:+ cs).length_le
  have h2 := length_readCount_le (cs.dropWhile isFlag)
  have h3 := length_readPrecision_le (readCount (cs.dropWhile isFlag)).2
  unfold Directive.read at h
  dsimp only at h
  split at h
  · contradiction
  · split at h
    · contradiction
    · split at h
      · contradiction
      · rename_i heq
        rw [heq] at h3
        cases h
        simp only [List.length_cons] at h3
        omega

end Tickle.Format

import Tickle.Error
import Tickle.Number.Numeral
import Tickle.Text.Blank
import Tickle.Text.Case
import Tickle.Text.Glob
import Tickle.Text.Trim
import Tickle.Text.WordBounds

/-!
Subcommands of `string`. Offsets count characters from zero; a range ends before its last offset.
-/

namespace Tickle.Strings

open Tickle.Text

def firstIndex? (needle : List Char) : List Char → Option Nat
  | [] => if needle.isEmpty then some 0 else none
  | c :: rest =>
    if needle.isPrefixOf (c :: rest) then some 0 else (firstIndex? needle rest).map (· + 1)

def lastIndex? (needle : List Char) : List Char → Option Nat
  | [] => if needle.isEmpty then some 0 else none
  | c :: rest =>
    match lastIndex? needle rest with
    | some i => some (i + 1)
    | none => if needle.isPrefixOf (c :: rest) then some 0 else none

/-- An offset, or minus one. -/
def offsetText (offset : Option Nat) : String := (offset.map toString).getD "-1"

/-- -1, 0 or 1 by the order of code points. -/
def compareText (a b : String) : String :=
  if b < a then "1" else if a < b then "-1" else "0"

def operand (operands : List String) (i : Nat) : Except Error String :=
  match operands[i]? with
  | some s => .ok s
  | none => .error (.command (.index .operand) (some "string"))

def offset (node : Node) (operands : List String) (i : Nat) : Except Error Int := do
  match Number.readInt? (← operand operands i) with
  | some n => return n
  | none => throw (.execution .stringIndexNotInteger node.site)

/-- An offset at which a character stands. -/
def inside (cs : List Char) (i : Int) : Except Error Nat :=
  if 0 ≤ i ∧ i < cs.length then .ok i.toNat
  else .error (.command (.index (.character i)) (some "string"))

/-- Characters to cut off: those of the operand, or blanks. -/
def trimmed (operands : List String) : Char → Bool :=
  match operands with
  | [] => isBlank
  | chars :: _ => chars.toList.contains

/-- Carries out a subcommand on a text; `operands` are those after the text. -/
def perform (node : Node) (subcommand text : String) (operands : List String) :
    Except Error String := do
  let cs := text.toList
  match subcommand with
  | "length" => return toString cs.length
  | "index" =>
    let i ← inside cs (← offset node operands 0)
    return String.ofList ((cs.drop i).take 1)
  | "range" =>
    let first ← offset node operands 0
    let last ← offset node operands 1
    if 0 ≤ first ∧ first ≤ last ∧ last ≤ cs.length then
      return String.ofList ((cs.take last.toNat).drop first.toNat)
    else throw (.command (.index (.characters first last)) (some "string"))
  | "compare" => return compareText text (← operand operands 0)
  | "match" => return if Glob.isMatch text (← operand operands 0) then "1" else "0"
  | "first" => return offsetText (firstIndex? cs (← operand operands 0).toList)
  | "last" => return offsetText (lastIndex? cs (← operand operands 0).toList)
  | "wordstart" => return toString (wordStart cs (← inside cs (← offset node operands 0)))
  | "wordend" => return toString (wordEnd cs (← inside cs (← offset node operands 0)))
  | "tolower" => return String.ofList (toLower cs)
  | "toupper" => return String.ofList (toUpper cs)
  | "trim" => return String.ofList (trim (trimmed operands) cs)
  | "trimleft" => return String.ofList (trimStart (trimmed operands) cs)
  | "trimright" => return String.ofList (trimEnd (trimmed operands) cs)
  | _ => throw (.execution (.unknownSubcommand subcommand) node.site)

end Tickle.Strings

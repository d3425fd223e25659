import Tickle.Text.Alnum
import Tickle.Text.Digit
import Tickle.Tree.Node

/-!
Text of operator trees: one space between tokens, literals in double quotes, and parentheses only
around a child that binds too loosely for the place where it stands. A right operand has to bind
tighter than its operator, since every level groups to the left; a condition has to be no
conditional, since these group to the right.
-/

namespace Tickle.Tree

open Tickle.Text

def operatorLevels : List (String × Nat) :=
  [("**", 0), ("*", 1), ("/", 1), ("%", 1), ("+", 2), ("-", 2), ("<<", 3), (">>", 3),
   ("<", 4), (">", 4), ("<=", 4), (">=", 4), ("eq", 5), ("ne", 5), ("in", 5), ("ni", 5),
   ("==", 5), ("!=", 5), ("&", 6), ("^", 7), ("|", 8), ("&&", 9), ("||", 10)]

def unarySigns : List String := ["+", "-", "!", "~"]

def operatorLevel (op : String) : Nat := (operatorLevels.lookup op).getD 0

/-- How loosely a tree binds: operands not at all, chains of operators of level `k` as `k + 1`, and
conditionals loosest. -/
def looseness (node : Node) : Nat :=
  match node.kind with
  | .binary => operatorLevel node.value + 1
  | .ternary => 12
  | _ => 0

def parenthesized (text : String) : String := "(" ++ " " ++ text ++ " " ++ ")"

/-- The text of a tree where nothing looser than `loosest` may stand. -/
def placed (loosest : Nat) (node : Node) (text : String) : String :=
  if looseness node ≤ loosest then text else parenthesized text

def expressionText : Node → String
  | ⟨.quoted, text, _⟩ => "\"" ++ text.getD "" ++ "\""
  | ⟨.unary, sign, [operand]⟩ => sign.getD "" ++ " " ++ placed 0 operand (expressionText operand)
  | ⟨.binary, op, [left, right]⟩ =>
    let level := operatorLevel (op.getD "")
    placed (level + 1) left (expressionText left) ++ " " ++ op.getD "" ++ " " ++
      placed level right (expressionText right)
  | ⟨.ternary, _, [condition, yes, no]⟩ =>
    placed 11 condition (expressionText condition) ++ " " ++ "?" ++ " " ++ expressionText yes ++
      " " ++ ":" ++ " " ++ expressionText no
  | ⟨.call, name, [argument]⟩ => name.getD "" ++ " " ++ parenthesized (expressionText argument)
  | ⟨_, text, _⟩ => text.getD ""

def wordOperators : List String := ["eq", "ne", "in", "ni"]

/-- Whether a text is read as a name: name characters, the first of which is no digit, that are no
operator. -/
def isName (text : String) : Bool :=
  match text.toList with
  | [] => false
  | c :: cs => (c :: cs).all isNameChar && !isDigit c && !wordOperators.contains text

/-- Trees that can be written: numbers are naturals in decimal, names are names, and no literal
holds a quote. -/
inductive Writable : Node → Prop
  | number {text : String} (n : Nat) : text = toString n → Writable ⟨.number, some text, []⟩
  | name {text : String} : isName text = true → Writable ⟨.string, some text, []⟩
  | quoted {text : String} : '"' ∉ text.toList → Writable ⟨.quoted, some text, []⟩
  | unary {sign : String} {operand : Node} : sign ∈ unarySigns → Writable operand →
      Writable ⟨.unary, some sign, [operand]⟩
  | binary {op : String} {left right : Node} : op ∈ operatorLevels.map Prod.fst →
      Writable left → Writable right → Writable ⟨.binary, some op, [left, right]⟩
  | ternary {condition yes no : Node} : Writable condition → Writable yes → Writable no →
      Writable ⟨.ternary, some "?", [condition, yes, no]⟩
  | call {text : String} {argument : Node} : isName text = true → Writable argument →
      Writable ⟨.call, some text, [argument]⟩

end Tickle.Tree

/-!
Syntax trees. A program holds commands, a command operands, an operand fragments; an expression is
a tree of operators over literals. A node has a kind, an optional text and its children in order.
-/

namespace Tickle

inductive Node.Kind where
  | program | command | list | operand | word | name | string | substring
  | quoted | number | unary | binary | ternary | call
  deriving Repr, DecidableEq

namespace Node.Kind

/-- The name under which error messages mention a kind. -/
def label : Kind → String
  | program => "PROGRAM" | command => "COMMAND" | list => "LIST" | operand => "OPERAND"
  | word => "WORD" | name => "NAME" | string => "STRING" | substring => "SUBSTRING"
  | quoted => "QSTRING" | number => "NUMBER" | unary => "UNARYOP" | binary => "BINARYOP"
  | ternary => "TERNARYOP" | call => "FUNC"

end Node.Kind

structure Node where
  kind : Node.Kind
  text : Option String := none
  children : List Node := []
  deriving Repr

namespace Node

mutual

def decEq : (a b : Node) → Decidable (a = b)
  | ⟨k, t, cs⟩, ⟨k', t', cs'⟩ =>
    if hk : k = k' then
      if ht : t = t' then
        match decEqList cs cs' with
        | isTrue hc => isTrue (by rw [hk, ht, hc])
        | isFalse hc => isFalse fun h => hc (congrArg Node.children h)
      else isFalse fun h => ht (congrArg Node.text h)
    else isFalse fun h => hk (congrArg Node.kind h)

def decEqList : (as bs : List Node) → Decidable (as = bs)
  | [], [] => isTrue rfl
  | [], _ :: _ => isFalse nofun
  | _ :: _, [] => isFalse nofun
  | a :: as, b :: bs =>
    match decEq a b with
    | isTrue h =>
      match decEqList as bs with
      | isTrue hs => isTrue (by rw [h, hs])
      | isFalse hs => isFalse fun e => hs (List.cons.inj e).2
    | isFalse h => isFalse fun e => h (List.cons.inj e).1

end

instance : DecidableEq Node := decEq

/-- What an error message says about the node at which it arose. -/
structure Site where
  kind : Kind
  text : Option String
  deriving Repr, DecidableEq

def Site.message (site : Site) : String :=
  match site.text with
  | none => site.kind.label
  | some text => site.kind.label ++ "(" ++ text ++ ")"

def site (node : Node) : Site := ⟨node.kind, node.text⟩

/-- Text of a node that may lack one. -/
def value (node : Node) : String := node.text.getD ""

end Node

end Tickle

import Tickle.Token.Script
import Tickle.Tree.Substitution

/-!
Scripts as programs of commands. A command is a word followed by operands up to the end of its line
or a semicolon; an operand is a run of fragments without a blank between them.
-/

namespace Tickle.Tree

open Token (After)

/-- Nodes of a quoted word, which has at least one fragment. -/
def quotedNodes : List Node → List Node
  | [] => [⟨.substring, some "", []⟩]
  | nodes => nodes

def fragment (t : Token) (rest : List Token) : Except Error (List Node × After (t :: rest)) :=
  match t.kind with
  | .word => .ok ([⟨.word, t.text, []⟩], .tail t rest)
  | .dollar => do
    let (name, rest') ← expect .name rest
    return ([⟨.name, name.text, []⟩], rest'.weaken t)
  | .leftBrace => do
    let (text, rest') ← enclosed .rightBrace rest
    return ([⟨.string, some text, []⟩], rest'.weaken t)
  | .leftBracket => do
    let (script, rest') ← enclosed .rightBracket rest
    return ([⟨.program, some script, []⟩], rest'.weaken t)
  | .leftQuote => do
    let (text, rest') ← enclosed .rightQuote rest
    let nodes ← fragments (Token.untilEnd (Token.Substitution.tokens text))
    return (quotedNodes nodes, rest'.weaken t)
  | kind => .error (.parse .unexpectedInCommand (some kind) (some .word))

/-- The operand made of the fragments read so far, if there are any. -/
def operandOf : List Node → List Node
  | [] => []
  | nodes => [⟨.operand, none, nodes⟩]

def endsCommand (kind : Token.Kind) : Bool := kind = .lineEnd || kind = .semicolon

/-- Reads operands up to the end of the command; `current` holds the fragments of the operand that
is being read. -/
def operands (current : List Node) (tokens : List Token) :
    Except Error (List Node × { rest : List Token // rest.length ≤ tokens.length }) :=
  match tokens with
  | [] => .ok (operandOf current, ⟨[], Nat.le_refl _⟩)
  | t :: rest =>
    if endsCommand t.kind then .ok (operandOf current, ⟨t :: rest, Nat.le_refl _⟩)
    else if t.kind = .blank then do
      let (more, rest') ← operands [] rest
      return (operandOf current ++ more, ⟨rest'.1, Nat.le_succ_of_le rest'.2⟩)
    else do
      let (nodes, rest') ← fragment t rest
      let (more, rest'') ← operands (current ++ nodes) rest'.1
      return (more, ⟨rest''.1, Nat.le_of_lt (Nat.lt_of_le_of_lt rest''.2 rest'.2)⟩)
termination_by tokens.length
decreasing_by
  · simp
  · exact rest'.2

def separatesCommands (kind : Token.Kind) : Bool :=
  kind = .blank || kind = .lineEnd || kind = .semicolon || kind = .comment

def endsCommandName (kind : Token.Kind) : Bool :=
  kind = .blank || kind = .lineEnd || kind = .semicolon || kind = .endOfText

def commands (tokens : List Token) : Except Error (List Node) :=
  match tokens with
  | [] => .ok []
  | t :: rest =>
    if separatesCommands t.kind then commands rest
    else if t.kind ≠ .word then
      .error (.parse .commandNameExpected (some t.kind) (some .word))
    else if !endsCommandName (Token.kindAt rest) then
      .error (.parse .commandNameNotSingle (some (Token.kindAt rest)) (some .blank))
    else do
      let (operands, rest') ← operands [] rest
      let more ← commands rest'.1
      return ⟨.command, t.text, operands⟩ :: more
termination_by tokens.length
decreasing_by
  · simp
  · exact Nat.lt_succ_of_le rest'.2

/-- Program of the tokens in front of the first end of text. -/
def scriptOfTokens (name : String) (tokens : List Token) : Except Error Node :=
  (commands (Token.untilEnd tokens)).map fun nodes => ⟨.program, some name, nodes⟩

def parseScript (name text : String) : Except Error Node :=
  scriptOfTokens name (Token.Script.tokens text)

end Tickle.Tree

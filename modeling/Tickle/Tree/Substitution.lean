import Tickle.Error
import Tickle.Token.Substitution

/-!
Substitution text as a flat list of fragments: literal text, variable references and scripts.
-/

namespace Tickle.Tree

open Token (After)

def expect (kind : Token.Kind) : (tokens : List Token) → Except Error (Token × After tokens)
  | [] => .error (.parse .unexpected (some .endOfText) (some kind))
  | t :: rest =>
    if t.kind = kind then .ok (t, .tail t rest)
    else .error (.parse .unexpected (some t.kind) (some kind))

def enclosed (close : Token.Kind) (tokens : List Token) :
    Except Error (String × After tokens) := do
  let (text, rest) ← expect .string tokens
  let (_, rest') ← expect close rest.1
  return (text.text.getD "", rest.trans rest')

def fragments (tokens : List Token) : Except Error (List Node) :=
  match tokens with
  | [] => .ok []
  | t :: rest =>
    match t.kind with
    | .string => do
      let more ← fragments rest
      return ⟨.substring, t.text, []⟩ :: more
    | .dollar => do
      let (name, rest') ← expect .name rest
      let more ← fragments rest'.1
      return ⟨.name, name.text, []⟩ :: more
    | .leftBracket => do
      let (script, rest') ← enclosed .rightBracket rest
      let more ← fragments rest'.1
      return ⟨.program, some script, []⟩ :: more
    | kind => .error (.parse .unexpectedInSubstitution (some kind) (some .string))
termination_by tokens.length
decreasing_by
  · simp
  · exact Nat.lt_succ_of_lt rest'.2
  · exact Nat.lt_succ_of_lt rest'.2

/-- Tree of the tokens in front of the first end of text. -/
def substitutionOfTokens (tokens : List Token) : Except Error Node :=
  (fragments (Token.untilEnd tokens)).map fun nodes => ⟨.list, none, nodes⟩

def parseSubstitution (text : String) : Except Error Node :=
  substitutionOfTokens (Token.Substitution.tokens text)

end Tickle.Tree

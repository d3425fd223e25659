import Tickle.Run.Basic
import Tickle.Tree.Script
import Tickle.Value.Evaluate

/-!
Substitution: variables, bracketed scripts, operands and expressions. Scripts inside are evaluated
by `Env.nested`, which the caller supplies.
-/

namespace Tickle

/-- Where a script runs: its setup, its scope, and how scripts one level deeper are run, given
their scope, name and text. -/
structure Env where
  setup : Setup
  scope : ScopeId
  nested : ScopeId → String → String → RunM (Option String)

def hasSubstitution (text : String) : Bool := text.toList.any fun c => c = '$' || c = '['

namespace Env

/-- Evaluates a nested script in the scope of the running one. An error is noted and leaves no
value, unless it is of a kind that nested scripts let pass. -/
def evaluateScript (env : Env) (script : String) : RunM (Option String) :=
  tryCatch (RunM.traced (env.nested env.scope "nested script" script)) fun e =>
    if e.escapesNesting then throw e
    else do
      RunM.note e
      return none

def valueAt (node : Node) (value : Option String) : RunM String :=
  match value with
  | some value => return value
  | none => throw (.execution (.noSuchVariable node.value) (some node.site))

def readScalar (env : Env) (node : Node) : RunM String := do
  valueAt node (← RunM.getScopes (·.scalar? env.scope node.value))

mutual

/-- Text of a fragment, in which names are read by `readName`. -/
def readFragment (env : Env) (readName : Node → RunM String) : Node → RunM String
  | ⟨.name, text, children⟩ => readName ⟨.name, text, children⟩
  | ⟨.program, text, _⟩ => do return (← env.evaluateScript (text.getD "")).getD ""
  | ⟨.list, _, children⟩ => readFragments env readName children
  | ⟨_, text, _⟩ => return text.getD ""

def readFragments (env : Env) (readName : Node → RunM String) : List Node → RunM String
  | [] => return ""
  | node :: rest => do
    let first ← readFragment env readName node
    let others ← readFragments env readName rest
    return first ++ others

end

def substitute (env : Env) (readName : Node → RunM String) (text : String) : RunM String := do
  env.readFragments readName (← RunM.ofExcept (Tree.parseSubstitution text)).children

/-- The variable that a node names. Substitutions in an index are made first; an index holds no
opening parenthesis, so the names in it are scalars. -/
def readVariable (env : Env) (node : Node) : RunM String := do
  match VarName.read node.value with
  | .scalar _ => env.readScalar node
  | .element array index =>
    let index ← if hasSubstitution index then env.substitute env.readScalar index else pure index
    valueAt node (← RunM.getScopes (·.element? env.scope array index))

def readOperand (env : Env) (node : Node) : RunM String :=
  env.readFragments env.readVariable node.children

def readOperands (env : Env) : List Node → RunM (List String)
  | [] => return []
  | node :: rest => do
    let value ← env.readOperand node
    let values ← env.readOperands rest
    return value :: values

def evaluateExpression (env : Env) (text : String) : RunM String := do
  let text ← env.substitute env.readVariable text
  return (← RunM.ofExcept (Value.ofExpression text)).text

def evaluateCondition (env : Env) (node : Node) (text : String) : RunM Bool := do
  let value ← env.evaluateExpression text
  match Value.readBool? value with
  | some truth => return truth
  | none => throw (.execution (.notBoolean value) (some node.site))

end Env

end Tickle

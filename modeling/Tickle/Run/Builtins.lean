import Tickle.Format.Fill
import Tickle.Run.Clauses
import Tickle.Run.Lists
import Tickle.Run.Strings
import Tickle.Run.Substitute

/-!
The builtin commands. Each takes its operands and gives its value, if it has one, and the entry it
leaves in the trace, if it has one of its own.
-/

namespace Tickle

/-- What a command leaves: its value and its own entry in the trace. -/
structure Outcome where
  value : Option String
  entry : Option Trace.Entry := none
  deriving Repr

namespace Env

/-- Runs the body whose condition is the first that is true. `condition` is the one in front of the
clauses. -/
def runClauses (env : Env) (node : Node) (condition : Bool) : Clauses → RunM (Option String)
  | .missing => return none
  | .last body => if condition then env.evaluateScript body else return none
  | .orElse body otherwise => env.evaluateScript (if condition then body else otherwise)
  | .elseIf body next clauses => do
    if condition then env.evaluateScript body
    else
      let condition ← env.evaluateCondition node next
      env.runClauses node condition clauses

/-- Runs a body as long as a condition holds, at most `remaining` times more; `result` is that of
the last time. -/
def runLoop (env : Env) (node : Node) (loop : Loop) (condition : String)
    (body : RunM (Option String)) (remaining : Nat) (result : Option String) :
    RunM (Option String) := do
  if ← env.evaluateCondition node condition then
    match remaining with
    | 0 => throw (.limit (.iterations loop env.setup.limits.iterations) (some node.site))
    | remaining + 1 => env.runLoop node loop condition body remaining (← body)
  else return result

def startLoop (env : Env) (node : Node) (loop : Loop) (condition : String)
    (body : RunM (Option String)) : RunM Outcome := do
  let iterations := env.setup.limits.iterations.toNat
  let result ← env.runLoop node loop condition body iterations none
  return ⟨result, some (.looped loop result)⟩

def assign (env : Env) (name value : String) : RunM Outcome := do
  RunM.modifyScopes (·.set env.scope (.read name) value)
  return ⟨some value, some (.assigned name value)⟩

def lookup (env : Env) (name : String) : RunM (Option String) :=
  RunM.getScopes (·.get? env.scope (.read name))

def put (env : Env) (value lineEnd : String) : RunM Outcome := do
  RunM.write (env.setup.prompt ++ value ++ lineEnd)
  return ⟨some value, some (.wrote value)⟩

/-- Carries out a builtin. Operands are as many as its arity asks for at least. -/
def perform (env : Env) (builtin : Builtin) (node : Node) (operands : List String) :
    RunM Outcome := do
  match builtin, operands with
  | .set, [name] =>
    match ← env.lookup name with
    | some value => return ⟨some value, some (.assigned name value)⟩
    | none => throw (.execution (.noSuchVariable name) (some node.site))
  | .set, name :: value :: _ => env.assign name value
  | .append, name :: values =>
    env.assign name ((← env.lookup name).getD "" ++ String.join values)
  | .lappend, name :: values =>
    env.assign name (Lists.append ((← env.lookup name).getD "") values)
  | .unset, name :: _ =>
    let value ← env.lookup name
    RunM.modifyScopes (·.erase env.scope (.read name))
    return ⟨value, some (.removed name)⟩
  | .puts, [value] => env.put value "\n"
  | .puts, option :: value :: _ =>
    if option = "-nonewline" then env.put value "" else env.put option "\n"
  | .expr, operands =>
    let value ← env.evaluateExpression (" ".intercalate operands)
    return ⟨some value, some (.computed value)⟩
  | .ifThen, condition :: clauses =>
    let condition ← env.evaluateCondition node condition
    let result ← env.runClauses node condition (.read clauses)
    return ⟨result, some (.chose result)⟩
  | .forLoop, init :: condition :: step :: body :: _ =>
    let _ ← env.evaluateScript init
    env.startLoop node .forLoop condition do
      let result ← env.evaluateScript body
      let _ ← env.evaluateScript step
      return result
  | .whileLoop, condition :: body :: _ =>
    env.startLoop node .whileLoop condition (env.evaluateScript body)
  | .string, subcommand :: text :: operands =>
    return ⟨some (← RunM.ofExcept (Strings.perform node subcommand text operands)), none⟩
  | .format, text :: arguments =>
    let value ← RunM.ofExcept ((Format.format text arguments).mapError (·.error node.site))
    return ⟨some value, none⟩
  | .list, elements => return ⟨some (ListText.format elements), none⟩
  | .lindex, list :: indices =>
    return ⟨some (← RunM.ofExcept (Lists.index node list indices)), none⟩
  | .llength, list :: _ => return ⟨some (toString (ListText.parse list).length), none⟩
  | .split, text :: operands => return ⟨some (Lists.split text operands.head?), none⟩
  | builtin, _ =>
    throw (.command (.tooFewOperands node.value builtin.minArity) (some builtin.name))

end Env

end Tickle

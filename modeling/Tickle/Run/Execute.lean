import Tickle.Run.Builtins

/-!
Execution of scripts. A command is counted, looked up, given its operands and carried out; a script
is parsed and its commands are executed in order. How deep scripts may nest is a natural number
that every level lowers, so a run always ends.
-/

namespace Tickle

namespace Env

def count (env : Env) (node : Node) : RunM Unit := do
  modify fun run => { run with count := run.count + 1 }
  if env.setup.limits.commands < (← get).count then
    throw (.limit (.commands env.setup.limits.commands) (some node.site))

/-- Calls a command whose body is a script. Operands beyond its parameters are ignored. -/
def invoke (env : Env) (command : ScriptCommand) (operands : List String) :
    RunM (Option String) :=
  RunM.inFreshScope command.context (command.params.zip operands) command.sink fun scope =>
    RunM.traced (env.nested scope command.name command.body)

def call (env : Env) (command : Command) (node : Node) (operands : List String) :
    RunM Outcome := do
  match command with
  | .builtin builtin => env.perform builtin node operands
  | .script command => return ⟨← env.invoke command operands, none⟩

def executeCommand (env : Env) (node : Node) : RunM (Option String) := do
  env.count node
  match env.setup.commands[node.value]? with
  | none => throw (.execution (.undefinedCommand node.value) (some node.site))
  | some command =>
    let operands ← env.readOperands node.children
    if operands.length < command.minArity then
      throw (.command (.tooFewOperands node.value command.minArity) (some command.name))
    let outcome ← env.call command node operands
    RunM.record (outcome.entry.getD (.called node.value operands outcome.value))
    return outcome.value

/-- A command that is in the table, after it has been counted. -/
theorem executeCommand_eq {env : Env} {node : Node} {command : Command}
    (h : env.setup.commands[node.value]? = some command) :
    env.executeCommand node = do
      env.count node
      let operands ← env.readOperands node.children
      if operands.length < command.minArity then
        throw (.command (.tooFewOperands node.value command.minArity) (some command.name))
      else do
        let outcome ← env.call command node operands
        RunM.record (outcome.entry.getD (.called node.value operands outcome.value))
        return outcome.value := by
  rw [executeCommand, h]
  rfl

/-- Executes commands in order; the result is that of the last one that has a value, or `result`. -/
def executeCommands (env : Env) (result : Option String) : List Node → RunM (Option String)
  | [] => return result
  | node :: rest => do
    let value ← env.executeCommand node
    env.executeCommands (value.or result) rest

def executeProgram (env : Env) (program : Node) : RunM (Option String) :=
  env.executeCommands none program.children

end Env

namespace Setup

/-- Levels of scripts that may still be entered at a depth. -/
def room (setup : Setup) (depth : Int) : Nat := (setup.limits.nesting - depth + 1).toNat

/-- Runs a script where `room` levels may still be entered, its own included. -/
def runWithin (setup : Setup) (room : Nat) (scope : ScopeId) (name script : String) :
    RunM (Option String) :=
  match room with
  | 0 => throw (.limit (.nesting setup.limits.nesting) none)
  | room + 1 => do
    let program ← RunM.ofExcept (Tree.parseScript name script)
    RunM.record (.started name)
    Env.executeProgram ⟨setup, scope, setup.runWithin room⟩ program

def run (setup : Setup) (depth : Int) (scope : ScopeId) (name script : String) :
    RunM (Option String) :=
  setup.runWithin (setup.room depth) scope name script

def env (setup : Setup) (depth : Int) (scope : ScopeId) : Env :=
  ⟨setup, scope, setup.runWithin (setup.room (depth + 1))⟩

/-- A script that is not nested too deeply. -/
theorem run_of_depth_le {setup : Setup} {depth : Int} (h : depth ≤ setup.limits.nesting)
    (scope : ScopeId) (name text : String) :
    setup.run depth scope name text = (do
      let program ← RunM.ofExcept (Tree.parseScript name text)
      RunM.record (.started name)
      (setup.env depth scope).executeCommands none program.children) := by
  have hroom : setup.room depth = setup.room (depth + 1) + 1 := by
    unfold room
    omega
  rw [run, hroom]
  rfl

end Setup

end Tickle

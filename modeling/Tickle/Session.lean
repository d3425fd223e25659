import Tickle.Run.Execute

/-!
Sessions: a global scope that outlives the runs, a table of commands to which commands with script
bodies can be added, and everything written so far.
-/

namespace Tickle

structure Session where
  setup : Setup
  /-- Variables that the global scope starts with. -/
  initial : List (String × String)
  scopes : Store
  global : ScopeId
  /-- Everything written by all runs. -/
  output : Array Output := #[]

/-- What one run of a session leaves, beside the variables. -/
structure Report where
  outcome : Except Error (Option String)
  output : Array Output
  log : Array Error
  trace : List Trace.Entry

namespace Report

/-- Value of the last command that had one. -/
def result (report : Report) : Option String := report.outcome.toOption.join

def stdout (report : Report) : String := Output.joined report.output

/-- Message of the error that ended the run. -/
def stderr (report : Report) : String :=
  match report.outcome with
  | .ok _ => ""
  | .error e => "tcl: " ++ e.message ++ "\n"

def exitCode (report : Report) : Nat :=
  match report.outcome with
  | .ok _ => 0
  | .error _ => 1

end Report

namespace Session

def scriptName : String := "Tcl script"

def reset (session : Session) : Session :=
  let scopes := session.scopes.clear session.global
  { session with scopes := scopes.setAll session.global session.initial }

def start (setup : Setup) (initial : List (String × String)) : Session :=
  let (global, scopes) := ({} : Store).create none
  reset { setup, initial, scopes, global }

def run (session : Session) (script : String) : Report × Session :=
  let action := session.setup.run 0 session.global scriptName script
  let (outcome, after) := (action.run { scopes := session.scopes } : Id _)
  ({ outcome, output := after.output, log := after.log, trace := after.trace.toList },
    { session with scopes := after.scopes, output := session.output ++ after.output })

/-- Adds a command with a script body, which runs inside the global scope. -/
def define (session : Session) (name : String) (params : List String) (body : String)
    (sink : Option Sink) : ScriptCommand × Session :=
  let command : ScriptCommand := { name, params, body, context := session.global, sink }
  let commands := session.setup.commands.insert name (.script command)
  (command, { session with setup := { session.setup with commands } })

def get? (session : Session) (name : String) : Option String :=
  session.scopes.get? session.global (.read name)

def set (session : Session) (name value : String) : Session :=
  { session with scopes := session.scopes.set session.global (.read name) value }

def erase (session : Session) (name : String) : Session :=
  { session with scopes := session.scopes.erase session.global (.read name) }

def globalScope (session : Session) : Scope := session.scopes.scopes.getD session.global {}

end Session

end Tickle

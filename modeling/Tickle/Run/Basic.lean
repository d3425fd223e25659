import Tickle.Run.Command
import Tickle.Run.Trace

/-!
State and effects of a run. What a run has done stays done when it fails: an action gives back the
state in every case, beside its result or its error.
-/

namespace Tickle

/-- Limits that stop runaway scripts. -/
structure Limits where
  /-- Commands executed by one run. -/
  commands : Int := 100000
  /-- Iterations of one loop. -/
  iterations : Int := 10000
  /-- Depth of nested scripts. -/
  nesting : Int := 64
  deriving Repr, DecidableEq

/-- What does not change during a run: its limits, the text in front of everything that `puts`
writes, and the commands. -/
structure Setup where
  limits : Limits := {}
  prompt : String := "Tcl> "
  commands : CommandTable := CommandTable.builtins

structure Output where
  sink : Sink
  text : String
  deriving Repr, DecidableEq

namespace Output

def joined (output : Array Output) : String := String.join (output.toList.map Output.text)

def joinedTo (sink : Sink) (output : Array Output) : String :=
  joined (output.filter (·.sink = sink))

end Output

structure Run where
  scopes : Store
  /-- Where `puts` writes now. -/
  sink : Sink := .main
  /-- Commands executed so far, one that exceeded the limit included. -/
  count : Nat := 0
  /-- Everything written, to whatever sink, in order. -/
  output : Array Output := #[]
  /-- Errors that nested scripts swallowed. -/
  log : Array Error := #[]
  /-- Trace of the script that is running. -/
  trace : Array Trace.Entry := #[]

/-- The line that the log shows for an error that a nested script swallowed. -/
def Error.logLine (e : Error) : String := "Error in nested script: " ++ e.message

abbrev RunM := ExceptT Error (StateM Run)

namespace RunM

def ofExcept {α : Type} (e : Except Error α) : RunM α := ExceptT.mk (pure e)

def record (entry : Trace.Entry) : RunM Unit :=
  modify fun run => { run with trace := run.trace.push entry }

def write (text : String) : RunM Unit :=
  modify fun run => { run with output := run.output.push ⟨run.sink, text⟩ }

/-- Notes an error that is swallowed. -/
def note (e : Error) : RunM Unit := modify fun run => { run with log := run.log.push e }

def modifyScopes (f : Store → Store) : RunM Unit :=
  modify fun run => { run with scopes := f run.scopes }

def getScopes {α : Type} (f : Store → α) : RunM α := do return f (← get).scopes

/-- Runs an action with a trace of its own, which is then entered into the present trace, whether
the action failed or not. -/
def traced {α : Type} (action : RunM α) : RunM α := ExceptT.mk fun run =>
  let (result, inner) := action.run { run with trace := #[] }
  (result, { inner with trace := run.trace.push (.nested inner.trace.toList) })

/-- Runs an action in a fresh scope inside `parent` with the given scalars, writing to `sink`;
afterwards the scope is gone and the sink is what it was, whether the action failed or not. -/
def inFreshScope {α : Type} (parent : ScopeId) (scalars : List (String × String))
    (sink : Option Sink) (action : ScopeId → RunM α) : RunM α := ExceptT.mk fun run =>
  let (id, scopes) := run.scopes.create (some parent)
  let scopes := scalars.foldl (fun scopes v => scopes.set id (.scalar v.1) v.2) scopes
  let (result, after) := (action id).run { run with scopes, sink := sink.getD run.sink }
  (result, { after with scopes := after.scopes.drop id, sink := run.sink })

end RunM

end Tickle

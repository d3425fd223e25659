import Tickle.Scope.Store

/-!
Commands: the builtin ones, and those whose body is a script. A table gives the command of each
word; the same builtin may stand under several words.
-/

namespace Tickle

inductive Builtin where
  | set | append | unset | lappend | puts | expr | ifThen | forLoop | whileLoop
  | string | format | list | lindex | llength | split
  deriving Repr, DecidableEq

namespace Builtin

def name : Builtin → String
  | set => "set" | append => "append" | unset => "unset" | lappend => "lappend"
  | puts => "puts" | expr => "expr" | ifThen => "if" | forLoop => "for" | whileLoop => "while"
  | string => "string" | format => "format" | list => "list" | lindex => "lindex"
  | llength => "llength" | split => "split"

def minArity : Builtin → Nat
  | list => 0
  | set | append | unset | lappend | puts | expr | format | lindex | llength | split => 1
  | ifThen | whileLoop | string => 2
  | forLoop => 4

def all : List Builtin :=
  [set, append, unset, lappend, puts, expr, ifThen, forLoop, whileLoop,
   string, format, list, lindex, llength, split]

end Builtin

structure Sink where
  id : Nat
  deriving Repr, DecidableEq

def Sink.main : Sink := ⟨0⟩

/-- A command whose body is a script. It runs in a fresh scope inside the captured one, with its
parameters bound to the operands, and may have a sink of its own. -/
structure ScriptCommand where
  name : String
  params : List String
  body : String
  context : ScopeId
  sink : Option Sink := none
  deriving Repr, DecidableEq

inductive Command where
  | builtin (b : Builtin)
  | script (c : ScriptCommand)
  deriving Repr, DecidableEq

namespace Command

def name : Command → String
  | builtin b => b.name
  | script c => c.name

def minArity : Command → Nat
  | builtin b => b.minArity
  | script c => c.params.length

end Command

/-- Commands by the word that calls them. -/
abbrev CommandTable := Table Command

def CommandTable.builtins : CommandTable :=
  Builtin.all.foldl (fun table b => table.insert b.name (.builtin b)) ∅

end Tickle

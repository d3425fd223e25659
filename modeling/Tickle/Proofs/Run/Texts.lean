import Tickle.Proofs.Failure
import Tickle.Proofs.Run.Procedures

/-! # What the texts of procedures are made of

All actions in the texts of procedures are built from a few basic ones. What holds of these and of
their sequences holds of every action of the interpreter, and whether a text writes, records or
checks anything can be read off its `Manner`: `consists` goes through the texts once for all. -/

namespace Tickle

/-- What may stand in a text besides what any text may hold. -/
structure Manner where
  /-- Output of `puts`. -/
  writes : Bool := false
  /-- Entries in the trace. -/
  records : Bool := false
  /-- Checks of limits. -/
  checks : Bool := false
  /-- Calls for commands. -/
  commands : Bool := false

/-- Actions that are built from basic ones and write in one scope. -/
inductive Act (setup : Setup) (m : Manner) (scope : ScopeId) : {α : Type} → RunM α → Prop
  | pure {α : Type} (a : α) : Act setup m scope (pure a)
  | bind {α β : Type} {x : RunM α} {f : α → RunM β} : Act setup m scope x →
    (∀ a, Act setup m scope (f a)) → Act setup m scope (x >>= f)
  | raise {α : Type} {e : Error} : e.family ≠ .limit → Act setup m scope (throw e : RunM α)
  | read {α : Type} (f : Store → α) : Act setup m scope (RunM.getScopes f)
  | assign (name : VarName) (value : String) :
    Act setup m scope (RunM.modifyScopes (·.set scope name value))
  | erase (name : VarName) : Act setup m scope (RunM.modifyScopes (·.erase scope name))
  | write (text : String) : m.writes = true → Act setup m scope (RunM.write text)
  | record (entry : Trace.Entry) : m.records = true → Act setup m scope (RunM.record entry)
  | count (node : Node) : m.checks = true → Act setup m scope ((setup.still scope).count node)
  | exceed {α : Type} (fault : LimitFault) (site : Option Node.Site) : m.checks = true →
    Act setup m scope (throw (.limit fault site) : RunM α)

namespace Act

variable {setup : Setup} {m : Manner} {scope : ScopeId} {α : Type}

theorem ofExcept {families : List Error.Family} {r : Except Error α} (hr : FailsIn families r)
    (hl : .limit ∉ families) : Act setup m scope (RunM.ofExcept r) := by
  cases r with
  | ok a => exact .pure a
  | error e => exact .raise (hr.family_ne rfl hl)

theorem valueAt (node : Node) (value : Option String) :
    Act setup m scope (Env.valueAt node value) := by
  cases value with
  | none => exact .raise (by simp [Error.family])
  | some value => exact .pure value

theorem put (hw : m.writes = true) (value lineEnd : String) :
    Act setup m scope ((setup.still scope).put value lineEnd) :=
  .bind (.write _ hw) fun _ => .pure _

end Act

/-- Builtins that run no script and write no text. -/
def Builtin.quiet : List Builtin :=
  [set, append, unset, lappend, string, format, list, lindex, llength, split]

theorem Act.perform {setup : Setup} {m : Manner} {scope : ScopeId} {function : Builtin}
    (h : function ∈ Builtin.quiet) (node : Node) (values : List String) :
    Act setup m scope ((setup.still scope).perform function node values) := by
  have hassign (name value : String) : Act setup m scope ((setup.still scope).assign name value) :=
    .bind (.assign _ _) fun _ => .pure _
  have htooFew : Act setup m scope (throw (.command (.tooFewOperands node.value function.minArity)
      (some function.name)) : RunM Outcome) := .raise (by simp [Error.family])
  cases function
  case set =>
    rcases values with _ | ⟨name, _ | ⟨value, values⟩⟩
    · exact htooFew
    · refine .bind (.read _) fun value => ?_
      cases value with
      | none => exact .raise (by simp [Error.family])
      | some value => exact .pure _
    · exact hassign name value
  case append | lappend =>
    cases values with
    | nil => exact htooFew
    | cons name values => exact .bind (.read _) fun _ => hassign name _
  case unset =>
    cases values with
    | nil => exact htooFew
    | cons name values => exact .bind (.read _) fun _ => .bind (.erase _) fun _ => .pure _
  case string =>
    rcases values with _ | ⟨subcommand, _ | ⟨text, values⟩⟩
    · exact htooFew
    · exact htooFew
    · exact .bind (.ofExcept (Strings.perform_failsIn _ _ _ _) (by simp)) fun _ => .pure _
  case format =>
    cases values with
    | nil => exact htooFew
    | cons text values =>
      exact .bind (.ofExcept (Format.format_failsIn _ _ _) (by simp)) fun _ => .pure _
  case list => exact .pure _
  case lindex =>
    cases values with
    | nil => exact htooFew
    | cons list values =>
      exact .bind (.ofExcept (Lists.index_failsIn _ _ _) (by simp)) fun _ => .pure _
  case llength | split =>
    cases values with
    | nil => exact htooFew
    | cons text values => exact .pure _
  all_goals simp [Builtin.quiet] at h

namespace Call

variable {α : Type}

/-- Where a call is made. -/
def here : Call α → Level
  | .script here .. | .commands here .. | .command here .. | .operands here ..
  | .fragments here .. | .fragment here .. | .reference here .. | .substitution here ..
  | .nested here .. | .expression here .. | .condition here .. | .clauses here .. | .loop here ..
  | .builtin here .. | .invocation here .. => here

/-- Calls that a command makes, at whatever remove, before it comes to scripts. -/
def isInner : Call α → Bool
  | .script .. | .commands .. | .command .. => false
  | _ => true

/-- The manner of the text of a procedure. -/
def manner : Call α → Manner
  | .script .. => { records := true, checks := true, commands := true }
  | .commands .. => { commands := true }
  | .command .. => { records := true, checks := true }
  | .loop .. => { checks := true }
  | .builtin _ .puts .. => { writes := true }
  | _ => {}

theorem manner_of_isInner {c : Call α} (h : c.isInner = true) :
    c.manner.records = false ∧ c.manner.commands = false := by
  cases c with
  | script | commands | command => cases h
  | builtin here function node values => cases function <;> exact ⟨rfl, rfl⟩
  | _ => exact ⟨rfl, rfl⟩

end Call

namespace Procedure

variable {α : Type}

/-- The text does nothing but call a script in the given scope. -/
def RunsScript (scope : ScopeId) (p : Procedure (Option String)) : Prop :=
  ∃ here name text, p = .call (.script here name text) ∧ here.scope = scope

/-- A text in the given manner: it writes in one scope, in which it also makes its calls. Scripts
are called only where they have a trace of their own, and maybe a scope. -/
def Consists (setup : Setup) (m : Manner) : {α : Type} → ScopeId → Procedure α → Prop
  | _, scope, .act x => Act setup m scope x
  | _, scope, .seq p f => p.Consists setup m scope ∧ ∀ a, (f a).Consists setup m scope
  | _, scope, .call c => c.here.scope = scope ∧ (c.isInner = true ∨ m.commands = true)
  | _, scope, .shielded p => p.RunsScript scope
  | _, _, .inFreshScope _ _ _ p => ∀ id, (p id).RunsScript id

theorem RunsScript.consists {setup : Setup} {scope : ScopeId} {p : Procedure (Option String)}
    (h : p.RunsScript scope) : p.Consists setup { commands := true } scope := by
  obtain ⟨here, name, text, rfl, hscope⟩ := h
  exact ⟨hscope, .inr rfl⟩

theorem consists_fail {setup : Setup} {m : Manner} {scope : ScopeId} {e : Error}
    (he : e.family ≠ .limit) : (fail e : Procedure α).Consists setup m scope :=
  Act.raise he

end Procedure

namespace Call

open Procedure (fail consists_fail)

variable {setup : Setup} (here : Level)

theorem consists_script_of_le {m : Manner} (hrecords : m.records = true)
    (hcommands : m.commands = true) (h : here.depth ≤ setup.limits.nesting) (name text : String) :
    ((script here name text).body setup).Consists setup m here.scope := by
  simp only [body, if_neg (Int.not_lt.2 h)]
  cases hp : Tree.parseScript name text with
  | error e => exact consists_fail ((Tree.parseScript_failsIn name text).family_ne hp (by simp))
  | ok program => exact ⟨.record _ hrecords, fun _ => ⟨rfl, .inr hcommands⟩⟩

theorem consists_script (name text : String) : ((script here name text).body setup).Consists setup
    (script here name text).manner here.scope := by
  by_cases h : setup.limits.nesting < here.depth
  · simp only [body, if_pos h]
    exact Act.exceed _ _ rfl
  · exact consists_script_of_le here rfl rfl (Int.not_lt.1 h) name text

/-- A command is counted, and then no limit is checked any more. -/
theorem exists_carriedOut_eq (setup : Setup) (node : Node) :
    ∃ f, carriedOut setup here node = .seq (.act ((setup.still here.scope).count node)) f ∧
      ∀ m u, (f u).Consists setup m here.scope := by
  refine ⟨_, rfl, fun m _ => ?_⟩
  cases setup.commands[node.value]? with
  | none => exact consists_fail (by simp [Error.family])
  | some callee =>
    refine ⟨⟨rfl, .inl rfl⟩, fun values => ?_⟩
    dsimp only
    split
    · exact consists_fail (by simp [Error.family])
    · refine ⟨?_, fun _ => .pure _⟩
      cases callee with
      | builtin function => exact ⟨rfl, .inl rfl⟩
      | script callee => exact ⟨⟨rfl, .inl rfl⟩, fun _ => .pure _⟩

theorem consists_carriedOut {m : Manner} (hchecks : m.checks = true) (node : Node) :
    (carriedOut setup here node).Consists setup m here.scope := by
  obtain ⟨f, hcarried, hrest⟩ := exists_carriedOut_eq here setup node
  rw [hcarried]
  exact ⟨.count node hchecks, hrest m⟩

theorem consists_reference (m : Manner) (node : Node) :
    ((reference here node).body setup).Consists setup m here.scope := by
  simp only [body]
  cases VarName.read node.value with
  | scalar name => exact Act.bind (.read _) fun value => .valueAt node value
  | element array index =>
    have hvalue (index : String) : Act setup m here.scope
        (RunM.getScopes (·.element? here.scope array index) >>= Env.valueAt node) :=
      .bind (.read _) fun value => .valueAt node value
    dsimp only
    split
    · exact ⟨⟨rfl, .inl rfl⟩, hvalue⟩
    · exact ⟨.pure _, hvalue⟩

theorem consists_substitution (m : Manner) (text : String) :
    ((substitution here text).body setup).Consists setup m here.scope := by
  simp only [body]
  cases hp : Tree.parseSubstitution text with
  | error e => exact consists_fail ((Tree.parseSubstitution_failsIn text).family_ne hp (by simp))
  | ok tree => exact ⟨rfl, .inl rfl⟩

theorem consists_clauses (m : Manner) (node : Node) (holds : Bool) (rest : Clauses) :
    ((clauses here node holds rest).body setup).Consists setup m here.scope := by
  cases rest with
  | missing => exact .pure _
  | last text =>
    cases holds with
    | false => exact .pure _
    | true => exact ⟨rfl, .inl rfl⟩
  | orElse text otherwise => exact ⟨rfl, .inl rfl⟩
  | elseIf text next rest =>
    cases holds with
    | false => exact ⟨⟨rfl, .inl rfl⟩, fun _ => ⟨rfl, .inl rfl⟩⟩
    | true => exact ⟨rfl, .inl rfl⟩

/-- A loop evaluates its condition; if that is true and the loop may begin another iteration, no
limit is checked any more. -/
theorem exists_loop_body (setup : Setup) (node : Node) (kind : Loop) (test text : String)
    (step : Option String) (completed : Nat) (result : Option String) :
    ∃ f more, (loop here node kind test text step completed result).body setup =
        .seq (.call (.condition here node test)) f ∧
      f false = pure result ∧
      f true = (if setup.limits.iterations < completed + 1 then
        fail (.limit (.iterations kind setup.limits.iterations) (some node.site)) else more) ∧
      ∀ m, more.Consists setup m here.scope := by
  refine ⟨_, _, rfl, rfl, if_pos rfl, fun m => ⟨⟨rfl, .inl rfl⟩, fun value => ?_⟩⟩
  cases step with
  | none => exact ⟨rfl, .inl rfl⟩
  | some step => exact ⟨⟨rfl, .inl rfl⟩, fun _ => ⟨rfl, .inl rfl⟩⟩

theorem consists_loop (node : Node) (kind : Loop) (test text : String) (step : Option String)
    (completed : Nat) (result : Option String) :
    ((loop here node kind test text step completed result).body setup).Consists setup
      (loop here node kind test text step completed result).manner here.scope := by
  obtain ⟨f, more, hbody, hfalse, htrue, hmore⟩ :=
    exists_loop_body here setup node kind test text step completed result
  rw [hbody]
  refine ⟨⟨rfl, .inl rfl⟩, fun holds => ?_⟩
  cases holds with
  | false =>
    rw [hfalse]
    exact .pure _
  | true =>
    rw [htrue]
    split
    · exact Act.exceed _ _ rfl
    · exact hmore _

theorem consists_puts (node : Node) (values : List String) :
    ((builtin here .puts node values).body setup).Consists setup
      (builtin here .puts node values).manner here.scope := by
  rcases values with _ | ⟨option, _ | ⟨value, values⟩⟩
  · exact consists_fail (by simp [Error.family])
  · exact Act.put rfl option "\n"
  · change Act setup _ here.scope (if option = "-nonewline" then
      (setup.still here.scope).put value "" else (setup.still here.scope).put option "\n")
    split
    · exact Act.put rfl value ""
    · exact Act.put rfl option "\n"

theorem consists_builtin (function : Builtin) (node : Node) (values : List String) :
    ((builtin here function node values).body setup).Consists setup
      (builtin here function node values).manner here.scope := by
  cases function
  case puts => exact consists_puts here node values
  case expr => exact ⟨⟨rfl, .inl rfl⟩, fun _ => .pure _⟩
  case ifThen =>
    cases values with
    | nil => exact consists_fail (by simp [Error.family])
    | cons test values =>
      exact ⟨⟨rfl, .inl rfl⟩, fun _ => ⟨⟨rfl, .inl rfl⟩, fun _ => .pure _⟩⟩
  case forLoop =>
    rcases values with _ | ⟨init, _ | ⟨test, _ | ⟨step, _ | ⟨text, values⟩⟩⟩⟩
    case cons.cons.cons.cons =>
      exact ⟨⟨rfl, .inl rfl⟩, fun _ => ⟨⟨rfl, .inl rfl⟩, fun _ => .pure _⟩⟩
    all_goals exact consists_fail (by simp [Error.family])
  case whileLoop =>
    rcases values with _ | ⟨test, _ | ⟨text, values⟩⟩
    case cons.cons => exact ⟨⟨rfl, .inl rfl⟩, fun _ => .pure _⟩
    all_goals exact consists_fail (by simp [Error.family])
  all_goals exact Act.perform (by simp [Builtin.quiet]) node values

/-- The text of every procedure is in its manner. -/
theorem consists {α : Type} (c : Call α) :
    (c.body setup).Consists setup c.manner c.here.scope := by
  cases c with
  | script here name text => exact consists_script here name text
  | commands here result nodes =>
    cases nodes with
    | nil => exact .pure _
    | cons node rest => exact ⟨⟨rfl, .inr rfl⟩, fun _ => ⟨rfl, .inr rfl⟩⟩
  | command here node =>
    exact ⟨consists_carriedOut here rfl node, fun ended => ⟨.record _ rfl, fun _ => .pure _⟩⟩
  | operands here nodes =>
    cases nodes with
    | nil => exact .pure _
    | cons node rest => exact ⟨⟨rfl, .inl rfl⟩, fun _ => ⟨⟨rfl, .inl rfl⟩, fun _ => .pure _⟩⟩
  | fragments here nodes =>
    cases nodes with
    | nil => exact .pure _
    | cons node rest => exact ⟨⟨rfl, .inl rfl⟩, fun _ => ⟨⟨rfl, .inl rfl⟩, fun _ => .pure _⟩⟩
  | fragment here node =>
    obtain ⟨kind, text, children⟩ := node
    cases kind
    case name | list => exact ⟨rfl, .inl rfl⟩
    case program => exact ⟨⟨rfl, .inl rfl⟩, fun _ => .pure _⟩
    all_goals exact .pure _
  | reference here node => exact consists_reference here _ node
  | substitution here text => exact consists_substitution here _ text
  | nested here text => exact ⟨_, _, _, rfl, rfl⟩
  | expression here text =>
    refine ⟨⟨rfl, .inl rfl⟩, fun text => ?_⟩
    exact Act.bind (.ofExcept (Value.ofExpression_failsIn text) (by simp)) fun _ => .pure _
  | condition here node text =>
    refine ⟨⟨rfl, .inl rfl⟩, fun value => ?_⟩
    dsimp only
    cases Value.readBool? value with
    | none => exact consists_fail (by simp [Error.family])
    | some truth => exact .pure truth
  | clauses here node holds rest => exact consists_clauses here _ node holds rest
  | loop here node kind test text step completed result =>
    exact consists_loop here node kind test text step completed result
  | builtin here function node values => exact consists_builtin here function node values
  | invocation here callee values => exact fun scope => ⟨_, _, _, rfl, rfl⟩

end Call

end Tickle

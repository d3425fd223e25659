import Tickle.Proofs.Run.IndexNames
import Tickle.Proofs.Run.Outcome

/-! # The interpreter as procedures

The interpreter is a system of procedures that call each other and themselves: scripts, commands,
operands, references, loops. `Call.body` gives the text of each, in which every call is explicit and
nothing counts how often calls are made; in particular a loop goes on and a script nests until a
limit of the setup says otherwise. `Ends` says what it means that such a text ends with a result or
an error: there is a finite derivation. What is computed by the functions of the interpreter solves
the equations of the procedures (`action_body`), so whatever ends, ends with what they compute. -/

namespace Tickle

namespace Env

/-- One iteration of a loop. -/
def loopBody (env : Env) (body : String) (step : Option String) : RunM (Option String) :=
  match step with
  | none => env.evaluateScript body
  | some step => do
    let result ← env.evaluateScript body
    let _ ← env.evaluateScript step
    return result

/-- Iterations that a loop may still begin. -/
def iterationsLeft (env : Env) (completed : Nat) : Nat :=
  (env.setup.limits.iterations - completed).toNat

variable {env : Env}

/-- One iteration of a loop, with the check in the words of the limit. -/
theorem runLoop_iterationsLeft (node : Node) (loop : Loop) (condition : String)
    (body : RunM (Option String)) (completed : Nat) (result : Option String) :
    env.runLoop node loop condition body (env.iterationsLeft completed) result = do
      if ← env.evaluateCondition node condition then
        if env.setup.limits.iterations < completed + 1 then
          throw (.limit (.iterations loop env.setup.limits.iterations) (some node.site))
        else do
          let value ← body
          env.runLoop node loop condition body (env.iterationsLeft (completed + 1)) value
      else return result := by
  by_cases h : env.setup.limits.iterations < completed + 1
  · have hleft : env.iterationsLeft completed = 0 := by
      unfold iterationsLeft
      omega
    rw [hleft, runLoop]
    simp only [if_pos h]
  · have hleft : env.iterationsLeft completed = env.iterationsLeft (completed + 1) + 1 := by
      unfold iterationsLeft
      omega
    rw [hleft, runLoop]
    simp only [if_neg h]

theorem iterationsLeft_zero : env.iterationsLeft 0 = env.setup.limits.iterations.toNat := by
  simp [iterationsLeft]

end Env

/-- Where a script runs: how deep, and in which scope. -/
structure Level where
  depth : Int
  scope : ScopeId

/-- The environment of a script that runs there. -/
def Level.env (setup : Setup) (here : Level) : Env := setup.env here.depth here.scope

/-- Calls of the procedures, by the type of what they return. -/
inductive Call : Type → Type
  | script (here : Level) (name text : String) : Call (Option String)
  | commands (here : Level) (result : Option String) (nodes : List Node) : Call (Option String)
  | command (here : Level) (node : Node) : Call (Option String)
  | operands (here : Level) (nodes : List Node) : Call (List String)
  | fragments (here : Level) (nodes : List Node) : Call String
  | fragment (here : Level) (node : Node) : Call String
  | reference (here : Level) (node : Node) : Call String
  | substitution (here : Level) (text : String) : Call String
  | nested (here : Level) (text : String) : Call (Option String)
  | expression (here : Level) (text : String) : Call String
  | condition (here : Level) (node : Node) (text : String) : Call Bool
  | clauses (here : Level) (node : Node) (holds : Bool) (rest : Clauses) : Call (Option String)
  /-- A loop that has completed some iterations; a `while` loop has no step. -/
  | loop (here : Level) (node : Node) (kind : Loop) (test body : String) (step : Option String)
    (completed : Nat) (result : Option String) : Call (Option String)
  | builtin (here : Level) (function : Builtin) (node : Node) (values : List String) : Call Outcome
  | invocation (here : Level) (callee : ScriptCommand) (values : List String) :
    Call (Option String)

/-- Text of a procedure: actions on the state, sequences, and calls. -/
inductive Procedure : Type → Type 1
  | act {α : Type} (x : RunM α) : Procedure α
  | seq {α β : Type} (p : Procedure α) (f : α → Procedure β) : Procedure β
  | call {α : Type} (c : Call α) : Procedure α
  /-- With a trace of its own; most errors are swallowed. -/
  | shielded (p : Procedure (Option String)) : Procedure (Option String)
  /-- In a fresh scope and with a trace of its own. -/
  | inFreshScope (parent : ScopeId) (scalars : List (String × String)) (sink : Option Sink)
    (p : ScopeId → Procedure (Option String)) : Procedure (Option String)

namespace Procedure

instance : Monad Procedure where
  pure a := .act (pure a)
  bind := .seq

/-- Ends with an error. -/
def fail {α : Type} (e : Error) : Procedure α := .act (throw e)

end Procedure

namespace RunM

/-- The action that ends in a given way, whatever the state. -/
def replay {α : Type} (r : Except Error α) (t : Run) : RunM α := ExceptT.mk fun _ => (r, t)

end RunM

/-- The entry that is recorded for a command: its own, or one that says how it was called. -/
def Outcome.recorded (outcome : Outcome) (node : Node) (values : List String) : Trace.Entry :=
  outcome.entry.getD (.called node.value values outcome.value)

/-- The environment of what runs no script. -/
def Setup.still (setup : Setup) (scope : ScopeId) : Env :=
  ⟨setup, scope, fun _ _ _ => throw (.script "no scripts")⟩

namespace Call

open Procedure (fail)

/-- Carries out a command whose operands have been read. -/
def carryOut (here : Level) (callee : Command) (node : Node) (values : List String) :
    Procedure Outcome :=
  match callee with
  | .builtin function => .call (.builtin here function node values)
  | .script callee => do return { value := ← .call (.invocation here callee values) }

/-- Text of the command up to its entry in the trace: what is left then are the values of its
operands and its outcome. -/
def carriedOut (setup : Setup) (here : Level) (node : Node) :
    Procedure (List String × Outcome) := do
  .act ((setup.still here.scope).count node)
  match setup.commands[node.value]? with
  | none => fail (.execution (.undefinedCommand node.value) (some node.site))
  | some callee => do
    let values ← .call (.operands here node.children)
    if values.length < callee.minArity then
      fail (.command (.tooFewOperands node.value callee.minArity) (some callee.name))
    else do
      let outcome ← carryOut here callee node values
      return (values, outcome)

/-- Text of the procedure that is called. -/
def body (setup : Setup) {α : Type} : Call α → Procedure α
  | .script here name text =>
    if setup.limits.nesting < here.depth then fail (.limit (.nesting setup.limits.nesting) none)
    else match Tree.parseScript name text with
      | .error e => fail e
      | .ok program => do
        .act (RunM.record (.started name))
        .call (.commands here none program.children)
  | .commands _ result [] => pure result
  | .commands here result (node :: rest) => do
    let value ← .call (.command here node)
    .call (.commands here (value.or result) rest)
  | .command here node => do
    let ended ← carriedOut setup here node
    .act (RunM.record (ended.2.recorded node ended.1))
    return ended.2.value
  | .operands _ [] => pure []
  | .operands here (node :: rest) => do
    let value ← .call (.fragments here node.children)
    let values ← .call (.operands here rest)
    return value :: values
  | .fragments _ [] => pure ""
  | .fragments here (node :: rest) => do
    let first ← .call (.fragment here node)
    let others ← .call (.fragments here rest)
    return first ++ others
  | .fragment here ⟨.name, text, children⟩ => .call (.reference here ⟨.name, text, children⟩)
  | .fragment here ⟨.program, text, _⟩ => do
    return (← .call (.nested here (text.getD ""))).getD ""
  | .fragment here ⟨.list, _, children⟩ => .call (.fragments here children)
  | .fragment _ ⟨_, text, _⟩ => pure (text.getD "")
  | .reference here node =>
    match VarName.read node.value with
    | .scalar _ => .act ((setup.still here.scope).readScalar node)
    | .element array index => do
      let index ← if hasSubstitution index then .call (.substitution here index) else pure index
      .act (do Env.valueAt node (← RunM.getScopes (·.element? here.scope array index)))
  | .substitution here text =>
    match Tree.parseSubstitution text with
    | .error e => fail e
    | .ok tree => .call (.fragments here tree.children)
  | .nested here text =>
    .shielded (.call (.script ⟨here.depth + 1, here.scope⟩ "nested script" text))
  | .expression here text => do
    let text ← .call (.substitution here text)
    .act (do return (← RunM.ofExcept (Value.ofExpression text)).text)
  | .condition here node text => do
    let value ← .call (.expression here text)
    match Value.readBool? value with
    | some truth => pure truth
    | none => fail (.execution (.notBoolean value) (some node.site))
  | .clauses _ _ _ .missing => pure none
  | .clauses here _ holds (.last text) =>
    if holds then .call (.nested here text) else pure none
  | .clauses here _ holds (.orElse text otherwise) =>
    .call (.nested here (if holds then text else otherwise))
  | .clauses here node holds (.elseIf text next rest) =>
    if holds then .call (.nested here text)
    else do
      let holds ← .call (.condition here node next)
      .call (.clauses here node holds rest)
  | .loop here node kind test text step completed result => do
    if ← .call (.condition here node test) then
      if setup.limits.iterations < completed + 1 then
        fail (.limit (.iterations kind setup.limits.iterations) (some node.site))
      else do
        let value ← .call (.nested here text)
        match step with
        | none => .call (.loop here node kind test text none (completed + 1) value)
        | some step => do
          let _ ← .call (.nested here step)
          .call (.loop here node kind test text (some step) (completed + 1) value)
    else return result
  | .builtin here .expr _ values => do
    let value ← .call (.expression here (" ".intercalate values))
    return ⟨some value, some (.computed value)⟩
  | .builtin here .ifThen node (test :: values) => do
    let holds ← .call (.condition here node test)
    let result ← .call (.clauses here node holds (.read values))
    return ⟨result, some (.chose result)⟩
  | .builtin here .forLoop node (init :: test :: step :: text :: _) => do
    let _ ← .call (.nested here init)
    let result ← .call (.loop here node .forLoop test text (some step) 0 none)
    return ⟨result, some (.looped .forLoop result)⟩
  | .builtin here .whileLoop node (test :: text :: _) => do
    let result ← .call (.loop here node .whileLoop test text none 0 none)
    return ⟨result, some (.looped .whileLoop result)⟩
  | .builtin here function node values =>
    -- the other builtins run no script
    .act ((setup.still here.scope).perform function node values)
  | .invocation here callee values =>
    .inFreshScope callee.context (callee.params.zip values) callee.sink fun scope =>
      .call (.script ⟨here.depth + 1, scope⟩ callee.name callee.body)

/-- What the interpreter does for a call. -/
def action (setup : Setup) {α : Type} : Call α → RunM α
  | .script here name text => setup.run here.depth here.scope name text
  | .commands here result nodes => (here.env setup).executeCommands result nodes
  | .command here node => (here.env setup).executeCommand node
  | .operands here nodes => (here.env setup).readOperands nodes
  | .fragments here nodes => (here.env setup).readFragments (here.env setup).readVariable nodes
  | .fragment here node => (here.env setup).readFragment (here.env setup).readVariable node
  | .reference here node => (here.env setup).readVariable node
  | .substitution here text => (here.env setup).substitute (here.env setup).readVariable text
  | .nested here text => (here.env setup).evaluateScript text
  | .expression here text => (here.env setup).evaluateExpression text
  | .condition here node text => (here.env setup).evaluateCondition node text
  | .clauses here node holds rest => (here.env setup).runClauses node holds rest
  | .loop here node kind test text step completed result =>
    (here.env setup).runLoop node kind test ((here.env setup).loopBody text step)
      ((here.env setup).iterationsLeft completed) result
  | .builtin here function node values => (here.env setup).perform function node values
  | .invocation here callee values => (here.env setup).invoke callee values

end Call

/-- What the interpreter does for a text, given what it does for the calls in it. -/
def Procedure.action (setup : Setup) {α : Type} : Procedure α → RunM α
  | .act x => x
  | .seq p f => p.action setup >>= fun a => (f a).action setup
  | .call c => c.action setup
  | .shielded p => (p.action setup).shielded
  | .inFreshScope parent scalars sink p =>
    RunM.inFreshScope parent scalars sink fun scope => RunM.traced ((p scope).action setup)

/-! ## The interpreter solves the equations -/

namespace Call

variable {setup : Setup} {here : Level}

theorem action_script_body (name text : String) :
    ((script here name text).body setup).action setup = (script here name text).action setup := by
  by_cases h : setup.limits.nesting < here.depth
  · have hroom : setup.room here.depth = 0 := by
      unfold Setup.room
      omega
    simp only [body, action, if_pos h, Setup.run, hroom]
    rfl
  · simp only [body, action, if_neg h, Setup.run_of_depth_le (Int.not_lt.1 h)]
    cases Tree.parseScript name text with
    | error e => rfl
    | ok program => rfl

theorem action_carryOut (callee : Command) (node : Node) (values : List String) :
    (carryOut here callee node values).action setup = (here.env setup).call callee node values := by
  cases callee <;> rfl

/-- A command is carried out, and then its entry is recorded. -/
theorem executeCommand_eq_carriedOut (node : Node) : (here.env setup).executeCommand node =
    (carriedOut setup here node).action setup >>= fun ended =>
      RunM.record (ended.2.recorded node ended.1) >>= fun _ => pure ended.2.value := by
  cases h : setup.commands[node.value]? with
  | none =>
    have h' : (here.env setup).setup.commands[node.value]? = none := h
    rw [Env.executeCommand, h', carriedOut, h]
    refine .trans ?_ (bind_assoc ((here.env setup).count node) _ _).symm
    rfl
  | some callee =>
    have h' : (here.env setup).setup.commands[node.value]? = some callee := h
    rw [Env.executeCommand_eq h', carriedOut, h]
    refine .trans ?_ (bind_assoc ((here.env setup).count node) _ _).symm
    refine congrArg (_ >>= ·) (funext fun _ => ?_)
    refine .trans ?_ (bind_assoc ((here.env setup).readOperands node.children) _ _).symm
    refine congrArg (_ >>= ·) (funext fun values => ?_)
    dsimp only
    split
    · rfl
    · rw [← action_carryOut]
      refine .trans ?_ (bind_assoc ((carryOut here callee node values).action setup) _ _).symm
      rfl

theorem action_command_body (node : Node) :
    ((command here node).body setup).action setup = (command here node).action setup :=
  (executeCommand_eq_carriedOut node).symm

theorem action_reference_body (node : Node) :
    ((reference here node).body setup).action setup = (reference here node).action setup := by
  simp only [body, action, Env.readVariable]
  cases h : VarName.read node.value with
  | scalar name => rfl
  | element array index =>
    dsimp only
    rw [(here.env setup).substitute_index (VarName.not_mem_index_of_read h)]
    split <;> rfl

theorem action_loop_body (node : Node) (kind : Loop) (test text : String) (step : Option String)
    (completed : Nat) (result : Option String) :
    ((loop here node kind test text step completed result).body setup).action setup =
      (loop here node kind test text step completed result).action setup := by
  rw [action, Env.runLoop_iterationsLeft]
  refine congrArg (_ >>= ·) (funext fun holds => ?_)
  cases holds with
  | false => rfl
  | true =>
    have hsetup : (here.env setup).setup = setup := rfl
    simp only [hsetup, if_true]
    split
    · rfl
    · cases step with
      | none => rfl
      | some step =>
        rw [Env.loopBody, bind_assoc]
        refine congrArg (_ >>= ·) (funext fun value => ?_)
        rw [bind_assoc]
        rfl

theorem action_builtin_body (function : Builtin) (node : Node) (values : List String) :
    ((builtin here function node values).body setup).action setup =
      (builtin here function node values).action setup := by
  cases function
  case expr => rfl
  case forLoop =>
    rcases values with _ | ⟨init, _ | ⟨test, _ | ⟨step, _ | ⟨text, values⟩⟩⟩⟩
    case cons.cons.cons.cons =>
      simp only [body, action, Env.perform, Env.startLoop, ← Env.iterationsLeft_zero]
      rfl
    all_goals rfl
  case whileLoop =>
    rcases values with _ | ⟨test, _ | ⟨text, values⟩⟩
    case cons.cons =>
      simp only [body, action, Env.perform, Env.startLoop, ← Env.iterationsLeft_zero]
      rfl
    all_goals rfl
  -- the other builtins depend on how many operands there are, at most two
  all_goals rcases values with _ | ⟨a, _ | ⟨b, values⟩⟩ <;> rfl

theorem action_body {α : Type} (c : Call α) : (c.body setup).action setup = c.action setup := by
  cases c with
  | script here name text => exact action_script_body name text
  | commands here result nodes => cases nodes <;> rfl
  | command here node => exact action_command_body node
  | operands here nodes => cases nodes <;> rfl
  | fragments here nodes => cases nodes <;> rfl
  | fragment here node =>
    obtain ⟨kind, text, children⟩ := node
    cases kind <;> rfl
  | reference here node => exact action_reference_body node
  | substitution here text =>
    simp only [body, action, Env.substitute]
    cases Tree.parseSubstitution text with
    | error e => rfl
    | ok tree => rfl
  | nested here text => rfl
  | expression here text => rfl
  | condition here node text =>
    refine congrArg (_ >>= ·) (funext fun value => ?_)
    dsimp only
    cases Value.readBool? value <;> rfl
  | clauses here node holds rest =>
    cases rest <;> cases holds <;> rfl
  | loop here node kind test text step completed result =>
    exact action_loop_body node kind test text step completed result
  | builtin here function node values => exact action_builtin_body function node values
  | invocation here callee values => rfl

end Call

/-! ## Texts that end -/

/-- The text, started in a state, ends with a result or an error and leaves another state. Every
call in it ends as its own text does. -/
inductive Ends (setup : Setup) : {α : Type} → Procedure α → Run → Except Error α → Run → Prop
  | act {α : Type} (x : RunM α) (s : Run) : Ends setup (.act x) s (x.run s).1 (x.run s).2
  | next {α β : Type} {p : Procedure α} {f : α → Procedure β} {a : α} {r : Except Error β}
    {s s' t : Run} : Ends setup p s (.ok a) s' → Ends setup (f a) s' r t →
    Ends setup (.seq p f) s r t
  | stop {α β : Type} {p : Procedure α} {e : Error} {s t : Run} (f : α → Procedure β) :
    Ends setup p s (.error e) t → Ends setup (.seq p f) s (.error e) t
  | call {α : Type} {c : Call α} {r : Except Error α} {s t : Run} :
    Ends setup (c.body setup) s r t → Ends setup (.call c) s r t
  | shielded {p : Procedure (Option String)} {r : Except Error (Option String)} {s t : Run} :
    Ends setup p { s with trace := #[] } r t →
    Ends setup (.shielded p) s ((RunM.replay r t).shielded.run s).1
      ((RunM.replay r t).shielded.run s).2
  | inFreshScope {parent : ScopeId} {scalars : List (String × String)} {sink : Option Sink}
    {p : ScopeId → Procedure (Option String)} {r : Except Error (Option String)} {s t : Run} :
    Ends setup (p s.scopes.next) { RunM.entered parent scalars sink s with trace := #[] } r t →
    Ends setup (.inFreshScope parent scalars sink p) s
      ((RunM.inFreshScope parent scalars sink fun _ => (RunM.replay r t).traced).run s).1
      ((RunM.inFreshScope parent scalars sink fun _ => (RunM.replay r t).traced).run s).2

/-- A text ends in no other way than the interpreter does. -/
theorem Ends.run_eq {setup : Setup} {α : Type} {p : Procedure α} {r : Except Error α} {s t : Run}
    (h : Ends setup p s r t) : (p.action setup).run s = (r, t) := by
  induction h with
  | act x s => rfl
  | next hp hf ihp ihf => exact (RunM.Returns.run_bind ihp _).trans ihf
  | stop f hp ih => exact RunM.Raises.bind ih _
  | @call α c r s t hbody ih => rwa [Call.action_body] at ih
  | shielded hp ih =>
    rw [Procedure.action, RunM.run_shielded, RunM.run_shielded, RunM.run_traced, RunM.run_traced,
      ih]
    rfl
  | inFreshScope hp ih =>
    rw [Procedure.action, RunM.run_inFreshScope, RunM.run_inFreshScope, RunM.run_traced,
      RunM.run_traced, ih]
    rfl

end Tickle

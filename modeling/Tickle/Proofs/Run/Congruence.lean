import Tickle.Proofs.Failure
import Tickle.Proofs.Run.Outcome

/-! # Relations that the interpreter keeps

Two runs of the same script under different limits go through the same actions until one of them
exceeds a limit. `Congruence` lists what a relation between actions has to satisfy, one law for each
basic action; such a relation holds between the two runs of every script. A property of single runs
is the case in which the second run does not matter. -/

namespace Tickle

/-- Relations between actions, for each scope that the actions may write to. -/
structure Congruence (R : ScopeId → {α : Type} → RunM α → RunM α → Prop) : Prop where
  pure {α : Type} (scope : ScopeId) (a : α) : R scope (pure a) (pure a)
  bind {α β : Type} {scope : ScopeId} {x y : RunM α} {f g : α → RunM β} :
    R scope x y → (∀ a, R scope (f a) (g a)) → R scope (x >>= f) (y >>= g)
  raise {α : Type} (scope : ScopeId) {e : Error} :
    e.family ≠ .limit → R scope (throw e : RunM α) (throw e)
  -- where the first run exceeds a limit, the second may do anything
  exceed {α : Type} (scope : ScopeId) (fault : LimitFault) (site : Option Node.Site) (y : RunM α) :
    R scope (throw (.limit fault site)) y
  read {α : Type} (scope : ScopeId) (f : Store → α) : R scope (RunM.getScopes f) (RunM.getScopes f)
  assign (scope : ScopeId) (name : VarName) (value : String) :
    R scope (RunM.modifyScopes (·.set scope name value))
      (RunM.modifyScopes (·.set scope name value))
  erase (scope : ScopeId) (name : VarName) :
    R scope (RunM.modifyScopes (·.erase scope name)) (RunM.modifyScopes (·.erase scope name))
  write (scope : ScopeId) (text : String) : R scope (RunM.write text) (RunM.write text)
  record (scope : ScopeId) (entry : Trace.Entry) : R scope (RunM.record entry) (RunM.record entry)
  shield {scope : ScopeId} {x y : RunM (Option String)} :
    R scope x y → R scope x.shielded y.shielded
  enter (scope parent : ScopeId) (scalars : List (String × String)) (sink : Option Sink)
    {x y : ScopeId → RunM (Option String)} :
    (∀ id, R id (x id) (y id)) →
      R scope (RunM.inFreshScope parent scalars sink fun id => RunM.traced (x id))
        (RunM.inFreshScope parent scalars sink fun id => RunM.traced (y id))

/-- The setups differ in their limits only; the second allows at least as many iterations and
levels, and counting a command under both is related. -/
structure Setup.Related (R : ScopeId → {α : Type} → RunM α → RunM α → Prop)
    (setup setup' : Setup) : Prop where
  prompt : setup'.prompt = setup.prompt
  commands : setup'.commands = setup.commands
  iterations : setup.limits.iterations ≤ setup'.limits.iterations
  nesting : setup.limits.nesting ≤ setup'.limits.nesting
  count (scope : ScopeId) (env env' : Env) (node : Node) :
    env.setup = setup → env'.setup = setup' → R scope (env.count node) (env'.count node)

/-- Environments in the same scope that run nested scripts in related ways. -/
structure Env.Related (R : ScopeId → {α : Type} → RunM α → RunM α → Prop)
    (env env' : Env) : Prop where
  setup : env.setup.Related R env'.setup
  scope : env'.scope = env.scope
  nested (scope : ScopeId) (name script : String) :
    R scope (env.nested scope name script) (env'.nested scope name script)

theorem Setup.Related.room_le {R : ScopeId → {α : Type} → RunM α → RunM α → Prop}
    {setup setup' : Setup} (h : setup.Related R setup') (depth : Int) :
    setup.room depth ≤ setup'.room depth := by
  have := h.nesting
  unfold Setup.room
  omega

namespace Congruence

variable {R : ScopeId → {α : Type} → RunM α → RunM α → Prop} {env env' : Env}

theorem ofExcept {α : Type} {families : List Error.Family} {r : Except Error α}
    (hR : Congruence R) (scope : ScopeId) (hr : FailsIn families r) (hl : .limit ∉ families) :
    R scope (RunM.ofExcept r) (RunM.ofExcept r) := by
  cases r with
  | ok a => exact hR.pure scope a
  | error e => exact hR.raise scope (hr.family_ne rfl hl)

theorem valueAt (hR : Congruence R) (scope : ScopeId) (node : Node) (value : Option String) :
    R scope (Env.valueAt node value) (Env.valueAt node value) := by
  cases value with
  | some value => exact hR.pure scope value
  | none => exact hR.raise scope (by simp [Error.family])

/-! ## Substitution -/

variable (hR : Congruence R) (h : env.Related R env')
include hR h

theorem evaluateScript (script : String) :
    R env.scope (env.evaluateScript script) (env'.evaluateScript script) := by
  have hs := hR.shield (h.nested env.scope "nested script" script)
  have he : env'.evaluateScript script
      = (env'.nested env.scope "nested script" script).shielded := by
    rw [← h.scope]
    rfl
  rw [he]
  exact hs

theorem readScalar (node : Node) : R env.scope (env.readScalar node) (env'.readScalar node) := by
  unfold Env.readScalar
  rw [h.scope]
  exact hR.bind (hR.read _ _) fun value => hR.valueAt _ node value

omit hR h

mutual

theorem readFragment (hR : Congruence R) (h : env.Related R env')
    {readName readName' : Node → RunM String}
    (hname : ∀ node, R env.scope (readName node) (readName' node)) : ∀ node : Node,
    R env.scope (env.readFragment readName node) (env'.readFragment readName' node)
  | ⟨kind, text, children⟩ => by
    unfold Env.readFragment
    cases kind
    case name => exact hname _
    case program => exact hR.bind (hR.evaluateScript h _) fun _ => hR.pure _ _
    case list => exact readFragments hR h hname children
    all_goals exact hR.pure _ _

theorem readFragments (hR : Congruence R) (h : env.Related R env')
    {readName readName' : Node → RunM String}
    (hname : ∀ node, R env.scope (readName node) (readName' node)) : ∀ nodes : List Node,
    R env.scope (env.readFragments readName nodes) (env'.readFragments readName' nodes)
  | [] => hR.pure _ _
  | node :: rest => by
    unfold Env.readFragments
    exact hR.bind (readFragment hR h hname node) fun _ =>
      hR.bind (readFragments hR h hname rest) fun _ => hR.pure _ _

end

include hR h

theorem substitute {readName readName' : Node → RunM String}
    (hname : ∀ node, R env.scope (readName node) (readName' node)) (text : String) :
    R env.scope (env.substitute readName text) (env'.substitute readName' text) :=
  hR.bind (hR.ofExcept _ (Tree.parseSubstitution_failsIn text) (by simp)) fun _ =>
    readFragments hR h hname _

theorem readVariable (node : Node) :
    R env.scope (env.readVariable node) (env'.readVariable node) := by
  unfold Env.readVariable
  split
  · exact hR.readScalar h node
  · rw [h.scope]
    dsimp only
    split
    · exact hR.bind (hR.substitute h (hR.readScalar h) _) fun index =>
        hR.bind (hR.read _ _) fun value => hR.valueAt _ node value
    · exact hR.bind (hR.pure _ _) fun index =>
        hR.bind (hR.read _ _) fun value => hR.valueAt _ node value

theorem readOperand (node : Node) : R env.scope (env.readOperand node) (env'.readOperand node) :=
  readFragments hR h (hR.readVariable h) _

theorem readOperands (nodes : List Node) :
    R env.scope (env.readOperands nodes) (env'.readOperands nodes) := by
  induction nodes with
  | nil => exact hR.pure _ _
  | cons node rest ih =>
    exact hR.bind (hR.readOperand h node) fun _ => hR.bind ih fun _ => hR.pure _ _

theorem evaluateExpression (text : String) :
    R env.scope (env.evaluateExpression text) (env'.evaluateExpression text) :=
  hR.bind (hR.substitute h (hR.readVariable h) text) fun text =>
    hR.bind (hR.ofExcept _ (Value.ofExpression_failsIn text) (by simp)) fun _ => hR.pure _ _

theorem evaluateCondition (node : Node) (text : String) :
    R env.scope (env.evaluateCondition node text) (env'.evaluateCondition node text) := by
  refine hR.bind (hR.evaluateExpression h text) fun value => ?_
  split
  · exact hR.pure _ _
  · exact hR.raise _ (by simp [Error.family])

/-! ## Builtin commands -/

theorem runClauses (node : Node) (condition : Bool) (clauses : Clauses) :
    R env.scope (env.runClauses node condition clauses)
      (env'.runClauses node condition clauses) := by
  induction clauses generalizing condition with
  | missing => exact hR.pure _ _
  | last body =>
    cases condition with
    | false => exact hR.pure _ _
    | true => exact hR.evaluateScript h body
  | orElse body otherwise => exact hR.evaluateScript h _
  | elseIf body next clauses ih =>
    cases condition with
    | false => exact hR.bind (hR.evaluateCondition h node next) fun condition => ih condition
    | true => exact hR.evaluateScript h body

theorem runLoop (node : Node) (loop : Loop) (condition : String)
    {body body' : RunM (Option String)} (hbody : R env.scope body body')
    {remaining remaining' : Nat} (hle : remaining ≤ remaining') (result : Option String) :
    R env.scope (env.runLoop node loop condition body remaining result)
      (env'.runLoop node loop condition body' remaining' result) := by
  induction remaining generalizing remaining' result with
  | zero =>
    unfold Env.runLoop
    refine hR.bind (hR.evaluateCondition h node condition) fun holds => ?_
    cases holds with
    | false => exact hR.pure _ _
    | true => exact hR.exceed _ _ _ _
  | succ remaining ih =>
    obtain ⟨remaining', rfl⟩ := Nat.exists_eq_succ_of_ne_zero (Nat.ne_of_gt (Nat.lt_of_lt_of_le
      (Nat.succ_pos remaining) hle))
    unfold Env.runLoop
    refine hR.bind (hR.evaluateCondition h node condition) fun holds => ?_
    cases holds with
    | false => exact hR.pure _ _
    | true => exact hR.bind hbody fun result => ih (Nat.le_of_succ_le_succ hle) result

theorem startLoop (node : Node) (loop : Loop) (condition : String)
    {body body' : RunM (Option String)} (hbody : R env.scope body body') :
    R env.scope (env.startLoop node loop condition body)
      (env'.startLoop node loop condition body') :=
  hR.bind (hR.runLoop h node loop condition hbody (Int.toNat_le_toNat h.setup.iterations) none)
    fun _ => hR.pure _ _

theorem assignVariable (name value : String) :
    R env.scope (env.assign name value) (env'.assign name value) := by
  unfold Env.assign
  rw [h.scope]
  exact hR.bind (hR.assign _ _ _) fun _ => hR.pure _ _

theorem lookup (name : String) : R env.scope (env.lookup name) (env'.lookup name) := by
  unfold Env.lookup
  rw [h.scope]
  exact hR.read _ _

theorem put (value lineEnd : String) :
    R env.scope (env.put value lineEnd) (env'.put value lineEnd) := by
  unfold Env.put
  rw [h.setup.prompt]
  exact hR.bind (hR.write _ _) fun _ => hR.pure _ _

theorem perform (builtin : Builtin) (node : Node) (operands : List String) :
    R env.scope (env.perform builtin node operands) (env'.perform builtin node operands) := by
  unfold Env.perform
  split
  · refine hR.bind (hR.lookup h _) fun value => ?_
    cases value with
    | some value => exact hR.pure _ _
    | none => exact hR.raise _ (by simp [Error.family])
  · exact hR.assignVariable h _ _
  · exact hR.bind (hR.lookup h _) fun value => hR.assignVariable h _ _
  · exact hR.bind (hR.lookup h _) fun value => hR.assignVariable h _ _
  · rw [h.scope]
    exact hR.bind (hR.lookup h _) fun value => hR.bind (hR.erase _ _) fun _ => hR.pure _ _
  · exact hR.put h _ _
  · split
    · exact hR.put h _ _
    · exact hR.put h _ _
  · exact hR.bind (hR.evaluateExpression h _) fun _ => hR.pure _ _
  · exact hR.bind (hR.evaluateCondition h node _) fun condition =>
      hR.bind (hR.runClauses h node condition _) fun _ => hR.pure _ _
  · refine hR.bind (hR.evaluateScript h _) fun _ => hR.startLoop h node _ _ ?_
    exact hR.bind (hR.evaluateScript h _) fun _ =>
      hR.bind (hR.evaluateScript h _) fun _ => hR.pure _ _
  · exact hR.startLoop h node _ _ (hR.evaluateScript h _)
  · exact hR.bind (hR.ofExcept _ (Strings.perform_failsIn _ _ _ _) (by simp)) fun _ => hR.pure _ _
  · exact hR.bind (hR.ofExcept _ (Format.format_failsIn _ _ _) (by simp)) fun _ => hR.pure _ _
  · exact hR.pure _ _
  · exact hR.bind (hR.ofExcept _ (Lists.index_failsIn _ _ _) (by simp)) fun _ => hR.pure _ _
  · exact hR.pure _ _
  · exact hR.pure _ _
  · exact hR.raise _ (by simp [Error.family])

/-! ## Commands and scripts -/

theorem invoke (command : ScriptCommand) (operands : List String) :
    R env.scope (env.invoke command operands) (env'.invoke command operands) :=
  hR.enter _ _ _ _ fun id => h.nested id command.name command.body

theorem call (command : Command) (node : Node) (operands : List String) :
    R env.scope (env.call command node operands) (env'.call command node operands) := by
  cases command with
  | builtin builtin => exact hR.perform h builtin node operands
  | script command => exact hR.bind (hR.invoke h command operands) fun _ => hR.pure _ _

theorem executeCommand (node : Node) :
    R env.scope (env.executeCommand node) (env'.executeCommand node) := by
  unfold Env.executeCommand
  refine hR.bind (h.setup.count _ env env' node rfl rfl) fun _ => ?_
  rw [h.setup.commands]
  split
  · exact hR.raise _ (by simp [Error.family])
  · rename_i command _
    refine hR.bind (hR.readOperands h _) fun operands => ?_
    dsimp only
    split
    · exact hR.bind (hR.raise _ (by simp [Error.family])) fun _ =>
        hR.bind (hR.call h command node operands) fun _ =>
          hR.bind (hR.record _ _) fun _ => hR.pure _ _
    · exact hR.bind (hR.call h command node operands) fun _ =>
        hR.bind (hR.record _ _) fun _ => hR.pure _ _

theorem executeCommands (nodes : List Node) (result : Option String) :
    R env.scope (env.executeCommands result nodes) (env'.executeCommands result nodes) := by
  induction nodes generalizing result with
  | nil => exact hR.pure _ _
  | cons node rest ih => exact hR.bind (hR.executeCommand h node) fun value => ih _

omit h

variable {setup setup' : Setup} (hs : setup.Related R setup')
include hs

theorem runWithin {room room' : Nat} (hle : room ≤ room') (scope : ScopeId) (name script : String) :
    R scope (setup.runWithin room scope name script)
      (setup'.runWithin room' scope name script) := by
  induction room generalizing room' scope name script with
  | zero => exact hR.exceed _ _ _ _
  | succ room ih =>
    obtain ⟨room', rfl⟩ := Nat.exists_eq_succ_of_ne_zero (Nat.ne_of_gt (Nat.lt_of_lt_of_le
      (Nat.succ_pos room) hle))
    refine hR.bind (hR.ofExcept _ (Tree.parseScript_failsIn name script) (by simp))
      fun program => hR.bind (hR.record _ _) fun _ => ?_
    have henv : Env.Related R ⟨setup, scope, setup.runWithin room⟩
        ⟨setup', scope, setup'.runWithin room'⟩ :=
      ⟨hs, rfl, fun scope name script => ih (Nat.le_of_succ_le_succ hle) scope name script⟩
    exact hR.executeCommands henv _ _

theorem levelEnv (depth : Int) (scope : ScopeId) :
    (setup.env depth scope).Related R (setup'.env depth scope) :=
  ⟨hs, rfl, fun scope name script => hR.runWithin hs (hs.room_le (depth + 1)) scope name script⟩

theorem run (depth : Int) (scope : ScopeId) (name script : String) :
    R scope (setup.run depth scope name script) (setup'.run depth scope name script) :=
  hR.runWithin hs (hs.room_le depth) scope name script

end Congruence

end Tickle

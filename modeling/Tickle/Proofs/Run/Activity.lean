import Tickle.Proofs.Run.Congruence
import Tickle.Proofs.Run.Termination
import Tickle.Proofs.Run.Texts
import Mathlib.Logic.Relation

/-! # What a run does on its way

A run is a tree of calls: a script calls for its commands, a command for its operands and then for
a builtin or the script of a script command, a builtin for conditions and bodies, and so on. The
calls are those that stand in the texts of the procedures; `Makes` says which of them a text makes
when it is started in a state, and in which state it makes each. -/

namespace Tickle

/-- A call, and the state in which it is made. -/
structure Activity where
  {Answer : Type}
  call : Call Answer
  state : Run

/-- The activity fails with an error and leaves the state `t`. -/
def Activity.Raises (setup : Setup) (a : Activity) (e : Error) (t : Run) : Prop :=
  (a.call.action setup).Raises a.state e t

/-- The text, started in a state, makes a call: what stands before the call has returned. -/
inductive Procedure.Makes (setup : Setup) : {α : Type} → Procedure α → Run → Activity → Prop
  | call {α : Type} (c : Call α) (s : Run) : Makes setup (.call c) s ⟨c, s⟩
  | first {α β : Type} {p : Procedure α} {f : α → Procedure β} {s : Run} {a : Activity} :
    Makes setup p s a → Makes setup (.seq p f) s a
  | next {α β : Type} {p : Procedure α} {f : α → Procedure β} {value : α} {s s' : Run}
    {a : Activity} : (p.action setup).Returns s value s' → Makes setup (f value) s' a →
    Makes setup (.seq p f) s a
  | shielded {p : Procedure (Option String)} {s : Run} {a : Activity} :
    Makes setup p { s with trace := #[] } a → Makes setup (.shielded p) s a
  | inFreshScope {parent : ScopeId} {scalars : List (String × String)} {sink : Option Sink}
    {p : ScopeId → Procedure (Option String)} {s : Run} {a : Activity} :
    Makes setup (p s.scopes.next) { RunM.entered parent scalars sink s with trace := #[] } a →
    Makes setup (.inFreshScope parent scalars sink p) s a

/-- The first activity starts the second one. -/
def Starts (setup : Setup) (a b : Activity) : Prop := (a.call.body setup).Makes setup a.state b

/-- Activities that another one starts, or that those start, and so on. -/
def Reaches (setup : Setup) : Activity → Activity → Prop := Relation.ReflTransGen (Starts setup)

/-! ## Activities end -/

theorem Procedure.Makes.of_allCalls {setup : Setup} {α : Type} {p : Procedure α} {s : Run}
    {a : Activity} {P : {β : Type} → Call β → Prop} (h : p.Makes setup s a)
    (hp : p.AllCalls P) : P a.call := by
  induction h with
  | call c s => exact hp
  | first _ ih => exact ih hp.1
  | next _ _ ih => exact ih (hp.2 _)
  | shielded _ ih => exact ih hp
  | inFreshScope _ ih => exact ih (hp _)

/-- No activity goes on starting others for ever. -/
theorem wellFounded_starts (setup : Setup) :
    WellFounded fun b a : Activity => Starts setup a b := by
  refine Subrelation.wf ?_ (InvImage.wf (fun a : Activity => ⟨a.Answer, a.call⟩)
    (Call.wellFounded_smaller setup))
  intro b a h
  have hsmaller : a.call.Descends setup := a.call.descends
  exact h.of_allCalls hsmaller

/-! ## What all actions of a run keep

Under a congruence every call is related to itself. So is every action in a text, and then the part
of a text that comes before a call. -/

namespace Congruence

variable {R : ScopeId → {α : Type} → RunM α → RunM α → Prop} {setup : Setup} {m : Manner}
  {scope : ScopeId} {α : Type}

theorem act (hR : Congruence R) (hs : setup.Related R setup) {x : RunM α}
    (h : Act setup m scope x) : R scope x x := by
  induction h with
  | pure a => exact hR.pure scope a
  | bind _ _ ihx ihf => exact hR.bind ihx ihf
  | raise he => exact hR.raise scope he
  | read f => exact hR.read scope f
  | assign name value => exact hR.assign scope name value
  | erase name => exact hR.erase scope name
  | write text _ => exact hR.write scope text
  | record entry _ => exact hR.record scope entry
  | count node _ => exact hs.count scope _ _ node rfl rfl
  | exceed fault site _ => exact hR.exceed scope fault site _

theorem loopBody {env : Env} (hR : Congruence R) (h : env.Related R env) (body : String)
    (step : Option String) : R env.scope (env.loopBody body step) (env.loopBody body step) := by
  cases step with
  | none => exact hR.evaluateScript h body
  | some step =>
    exact hR.bind (hR.evaluateScript h body) fun _ =>
      hR.bind (hR.evaluateScript h step) fun _ => hR.pure _ _

theorem callAction (hR : Congruence R) (hs : setup.Related R setup) (c : Call α) :
    R c.here.scope (c.action setup) (c.action setup) := by
  have henv (here : Level) : (here.env setup).Related R (here.env setup) :=
    hR.levelEnv hs here.depth here.scope
  cases c with
  | script here name text => exact hR.run hs here.depth here.scope name text
  | commands here result nodes => exact hR.executeCommands (henv here) nodes result
  | command here node => exact hR.executeCommand (henv here) node
  | operands here nodes => exact hR.readOperands (henv here) nodes
  | fragments here nodes =>
    exact readFragments hR (henv here) (hR.readVariable (henv here)) nodes
  | fragment here node => exact readFragment hR (henv here) (hR.readVariable (henv here)) node
  | reference here node => exact hR.readVariable (henv here) node
  | substitution here text =>
    exact hR.substitute (henv here) (hR.readVariable (henv here)) text
  | nested here text => exact hR.evaluateScript (henv here) text
  | expression here text => exact hR.evaluateExpression (henv here) text
  | condition here node text => exact hR.evaluateCondition (henv here) node text
  | clauses here node holds rest => exact hR.runClauses (henv here) node holds rest
  | loop here node kind test text step completed result =>
    exact hR.runLoop (henv here) node kind test (hR.loopBody (henv here) text step)
      (Nat.le_refl _) result
  | builtin here function node values => exact hR.perform (henv here) function node values
  | invocation here callee values => exact hR.invoke (henv here) callee values

theorem runsScript (hR : Congruence R) (hs : setup.Related R setup)
    {p : Procedure (Option String)} (h : p.RunsScript scope) :
    R scope (p.action setup) (p.action setup) := by
  obtain ⟨here, name, text, rfl, rfl⟩ := h
  exact hR.callAction hs (.script here name text)

/-- What is done for a text is related to itself. -/
theorem procedureAction (hR : Congruence R) (hs : setup.Related R setup) {p : Procedure α}
    (hp : p.Consists setup m scope) : R scope (p.action setup) (p.action setup) := by
  induction p with
  | act x => exact hR.act hs hp
  | seq p f ihp ihf => exact hR.bind (ihp hp.1) fun a => ihf a (hp.2 a)
  | call c =>
    obtain ⟨rfl, -⟩ := hp
    exact hR.callAction hs c
  | shielded p _ => exact hR.shield (hR.runsScript hs hp)
  | inFreshScope parent scalars sink p _ =>
    exact hR.enter _ _ _ _ fun id => hR.runsScript hs (hp id)

end Congruence

end Tickle

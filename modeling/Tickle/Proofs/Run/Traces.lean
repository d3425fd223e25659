import Tickle.Proofs.Run.Termination
import Tickle.Proofs.Run.Texts

/-! # What a trace is made of

The trace of a script tells its commands in order: first the traces of the scripts that a command
evaluates on its way, each in brackets, then the command's own entry, unless it raised an error.
`Visits` follows a command and collects the scripts that it evaluates, whichever part of the
interpreter asks for them and whatever becomes of their errors; the traces have no part in it.
`Executes` follows the commands of a script. What stands in a trace is exactly what is collected,
and since each visited script is itself run, the same holds of its trace. -/

namespace Tickle

/-- The trace of a script that runs in a state, whatever was traced before. -/
def Setup.traceOf (setup : Setup) (here : Level) (name text : String) (start : Run) :
    List Trace.Entry :=
  ((setup.run here.depth here.scope name text).run { start with trace := #[] }).2.trace.toList

/-- A script that is evaluated on the way: where, under which name, and in which state. -/
structure Visit where
  here : Level
  name : String
  text : String
  start : Run

/-- What the script leaves in a trace of its own. -/
def Visit.trace (setup : Setup) (visit : Visit) : List Trace.Entry :=
  setup.traceOf visit.here visit.name visit.text visit.start

/-- The entry for the script in the trace around it. -/
def Visit.entry (setup : Setup) (visit : Visit) : Trace.Entry := .nested (visit.trace setup)

def Call.isScript {α : Type} : Call α → Bool
  | .script .. => true
  | _ => false

/-- The text ends as in `Ends`; on its way it evaluates the given scripts. What these evaluate in
their turn is not among them. -/
inductive Visits (setup : Setup) :
    {α : Type} → Procedure α → Run → Except Error α → Run → List Visit → Prop
  | act {α : Type} (x : RunM α) (s : Run) : Visits setup (.act x) s (x.run s).1 (x.run s).2 []
  | next {α β : Type} {p : Procedure α} {f : α → Procedure β} {a : α} {r : Except Error β}
    {s s' t : Run} {first others : List Visit} : Visits setup p s (.ok a) s' first →
    Visits setup (f a) s' r t others → Visits setup (.seq p f) s r t (first ++ others)
  | stop {α β : Type} {p : Procedure α} {e : Error} {s t : Run} {visits : List Visit}
    (f : α → Procedure β) : Visits setup p s (.error e) t visits →
    Visits setup (.seq p f) s (.error e) t visits
  | script {here : Level} {name text : String} {r : Except Error (Option String)} {s t : Run} :
    Ends setup (.call (.script here name text)) s r t →
    Visits setup (.call (.script here name text)) s r t [⟨here, name, text, s⟩]
  | call {α : Type} {c : Call α} {r : Except Error α} {s t : Run} {visits : List Visit} :
    c.isScript = false → Visits setup (c.body setup) s r t visits →
    Visits setup (.call c) s r t visits
  | shielded {p : Procedure (Option String)} {r : Except Error (Option String)} {s t : Run}
    {visits : List Visit} : Visits setup p { s with trace := #[] } r t visits →
    Visits setup (.shielded p) s ((RunM.replay r t).shielded.run s).1
      ((RunM.replay r t).shielded.run s).2 visits
  | inFreshScope {parent : ScopeId} {scalars : List (String × String)} {sink : Option Sink}
    {p : ScopeId → Procedure (Option String)} {r : Except Error (Option String)} {s t : Run}
    {visits : List Visit} : Visits setup (p s.scopes.next)
      { RunM.entered parent scalars sink s with trace := #[] } r t visits →
    Visits setup (.inFreshScope parent scalars sink p) s
      ((RunM.inFreshScope parent scalars sink fun _ => (RunM.replay r t).traced).run s).1
      ((RunM.inFreshScope parent scalars sink fun _ => (RunM.replay r t).traced).run s).2 visits

section Derivations

variable {setup : Setup} {α : Type} {p : Procedure α} {r : Except Error α} {s t : Run}

theorem Visits.ends {visits : List Visit} (h : Visits setup p s r t visits) :
    Ends setup p s r t := by
  induction h with
  | act x s => exact .act x s
  | next _ _ ihp ihf => exact .next ihp ihf
  | stop f _ ih => exact .stop f ih
  | script h => exact h
  | call _ _ ih => exact .call ih
  | shielded _ ih => exact .shielded ih
  | inFreshScope _ ih => exact .inFreshScope ih

theorem Ends.exists_visits (h : Ends setup p s r t) :
    ∃ visits, Visits setup p s r t visits := by
  induction h with
  | act x s => exact ⟨[], .act x s⟩
  | next _ _ ihp ihf =>
    obtain ⟨first, hp⟩ := ihp
    obtain ⟨others, hf⟩ := ihf
    exact ⟨_, .next hp hf⟩
  | stop f _ ih =>
    obtain ⟨visits, hp⟩ := ih
    exact ⟨visits, .stop f hp⟩
  | @call α c r s t hbody ih =>
    cases hscript : c.isScript with
    | true =>
      cases c with
      | script here name text => exact ⟨_, .script (.call hbody)⟩
      | _ => cases hscript
    | false =>
      obtain ⟨visits, hvisits⟩ := ih
      exact ⟨visits, .call hscript hvisits⟩
  | shielded _ ih =>
    obtain ⟨visits, hp⟩ := ih
    exact ⟨visits, .shielded hp⟩
  | inFreshScope _ ih =>
    obtain ⟨visits, hp⟩ := ih
    exact ⟨visits, .inFreshScope hp⟩

theorem Procedure.allCalls_of_forall {P : {β : Type} → Call β → Prop}
    (h : ∀ {β : Type} (c : Call β), P c) (p : Procedure α) : p.AllCalls P := by
  induction p with
  | act x => trivial
  | seq p f ihp ihf => exact ⟨ihp, ihf⟩
  | call c => exact h c
  | shielded p ih => exact ih
  | inFreshScope parent scalars sink p ih => exact ih

/-- Every text ends, since every call does. -/
theorem Procedure.exists_visits (setup : Setup) (p : Procedure α) (s : Run) :
    ∃ r t visits, Visits setup p s r t visits := by
  have hall : p.AllCalls fun c => ∀ s, ∃ r t, Ends setup (.call c) s r t :=
    p.allCalls_of_forall fun c => c.ends
  obtain ⟨r, t, h⟩ := Procedure.ends_of_allCalls hall s
  obtain ⟨visits, hvisits⟩ := h.exists_visits
  exact ⟨r, t, visits, hvisits⟩

/-- A script is one visit. -/
theorem Visits.eq_of_script {here : Level} {name text : String}
    {r : Except Error (Option String)} {visits : List Visit}
    (h : Visits setup (.call (.script here name text)) s r t visits) :
    visits = [⟨here, name, text, s⟩] ∧
      (setup.run here.depth here.scope name text).run s = (r, t) := by
  have hrun : (setup.run here.depth here.scope name text).run s = (r, t) := h.ends.run_eq
  refine ⟨?_, hrun⟩
  cases h with
  | script => rfl
  | call hscript => cases hscript

end Derivations

/-! ## What else a trace is left alone by -/

namespace RunM

variable {α β : Type}

/-- The action enters nothing into the trace. -/
def KeepsTrace (x : RunM α) : Prop := ∀ s, (x.run s).2.trace = s.trace

theorem KeepsTrace.bind {x : RunM α} {f : α → RunM β} (hx : x.KeepsTrace)
    (hf : ∀ a, (f a).KeepsTrace) : (x >>= f).KeepsTrace := by
  intro s
  have htrace := hx s
  rcases returns_or_raises x s with ⟨a, s', h⟩ | ⟨e, t, h⟩
  · rw [h] at htrace
    rw [h.run_bind f]
    exact (hf a s').trans htrace
  · rw [h] at htrace
    rw [h.bind f]
    exact htrace

/-- What a nested script leaves, whatever becomes of its error. -/
theorem trace_shielded_replay (r : Except Error (Option String)) (t s : Run) :
    ((replay r t).shielded.run s).2.trace = s.trace.push (.nested t.trace.toList) := by
  rw [run_shielded, run_traced]
  cases r with
  | ok value => rfl
  | error e =>
    change (if e.escapesNesting then _ else _ : Except Error (Option String) × Run).2.trace = _
    split <;> rfl

end RunM

theorem Act.keepsTrace {setup : Setup} {m : Manner} {scope : ScopeId} {α : Type} {x : RunM α}
    (h : Act setup m scope x) (hm : m.records = false) : x.KeepsTrace := by
  induction h with
  | bind _ _ ihx ihf => exact ihx.bind ihf
  | record entry hr => exact absurd (hm.symm.trans hr) Bool.false_ne_true
  | count node _ =>
    intro s
    rw [RunM.run_count]
  | pure | raise | read | assign | erase | write | exceed => exact fun _ => rfl

/-- The trace grows by the scripts that are visited, each in brackets. -/
theorem Visits.trace_eq {setup : Setup} {m : Manner} {scope : ScopeId} {α : Type}
    {p : Procedure α} {r : Except Error α} {s t : Run} {visits : List Visit}
    (h : Visits setup p s r t visits) (hp : p.Consists setup m scope) (hrecords : m.records = false)
    (hcommands : m.commands = false) :
    t.trace.toList = s.trace.toList ++ visits.map (Visit.entry setup) := by
  induction h generalizing m scope with
  | act x s => rw [Act.keepsTrace hp hrecords s, List.map_nil, List.append_nil]
  | next _ _ ihp ihf =>
    rw [ihf (hp.2 _) hrecords hcommands, ihp hp.1 hrecords hcommands, List.map_append,
      List.append_assoc]
  | stop f _ ih => exact ih hp.1 hrecords hcommands
  | script =>
    rcases hp.2 with hinner | hallowed
    · cases hinner
    · exact absurd (hcommands.symm.trans hallowed) Bool.false_ne_true
  | @call α c r s t visits _ _ ih =>
    have hinner : c.isInner = true :=
      hp.2.resolve_right fun hallowed => absurd (hcommands.symm.trans hallowed) Bool.false_ne_true
    obtain ⟨hrecords', hcommands'⟩ := Call.manner_of_isInner hinner
    exact ih c.consists hrecords' hcommands'
  | @shielded p r s t visits hvisits _ =>
    obtain ⟨here, name, text, rfl, -⟩ := hp
    obtain ⟨rfl, hrun⟩ := hvisits.eq_of_script
    rw [RunM.trace_shielded_replay, Array.toList_push]
    simp only [List.map_cons, List.map_nil, Visit.entry, Visit.trace, Setup.traceOf, hrun]
  | @inFreshScope parent scalars sink p r s t visits hvisits _ =>
    obtain ⟨here, name, text, hscript, -⟩ := hp s.scopes.next
    rw [hscript] at hvisits
    obtain ⟨rfl, hrun⟩ := hvisits.eq_of_script
    rw [RunM.run_inFreshScope, RunM.run_traced, Array.toList_push]
    simp only [List.map_cons, List.map_nil, Visit.entry, Visit.trace, Setup.traceOf, hrun]
    rfl

/-! ## The entry of a command -/

/-- The entry is one of the command that the node names, and gives the value that it left: the
traces of scripts are none. -/
def Trace.Entry.Reports (node : Node) (value : Option String) : Trace.Entry → Prop
  | .called command _ result => command = node.value ∧ result = value
  | .assigned _ written | .wrote written | .computed written => value = some written
  | .removed _ => True
  | .chose result | .looped _ result => result = value
  | .started _ | .nested _ => False

namespace RunM

variable {α β : Type} {P : α → Prop}

/-- Whenever the action returns something, it has the property. -/
def Gives (P : α → Prop) (x : RunM α) : Prop := ∀ s a t, x.Returns s a t → P a

theorem gives_pure {a : α} (h : P a) : (pure a : RunM α).Gives P := by
  rintro s a' t hx
  cases hx
  exact h

theorem gives_throw (e : Error) : (throw e : RunM α).Gives P := by
  rintro s a t hx
  cases hx

theorem Gives.bind {Q : β → Prop} {x : RunM β} {f : β → RunM α} (hx : x.Gives Q)
    (hf : ∀ b, Q b → (f b).Gives P) : (x >>= f).Gives P := by
  rintro s a t h
  obtain ⟨b, s', hb, ha⟩ := h.of_bind
  exact hf b (hx s b s' hb) s' a t ha

theorem gives_bind {x : RunM β} {f : β → RunM α} (hf : ∀ b, (f b).Gives P) :
    (x >>= f).Gives P :=
  Gives.bind (fun _ _ _ _ => trivial) fun b (_ : True) => hf b

end RunM

namespace Env

open RunM

variable (env : Env)

/-- The outcome has an entry that reports its value. -/
abbrev Reporting (node : Node) (values : List String) (x : RunM Outcome) : Prop :=
  x.Gives fun outcome => (outcome.recorded node values).Reports node outcome.value

theorem reporting_perform (function : Builtin) (node : Node) (values operands : List String) :
    Reporting node values (env.perform function node operands) := by
  have hown {value : Option String} {entry : Trace.Entry} (h : entry.Reports node value) :
      Reporting node values (pure ⟨value, some entry⟩) := gives_pure h
  have hplain (value : Option String) : Reporting node values (pure ⟨value, none⟩) :=
    gives_pure ⟨rfl, rfl⟩
  have hassign (name value : String) : Reporting node values (env.assign name value) :=
    gives_bind fun _ => hown rfl
  have hput (value lineEnd : String) : Reporting node values (env.put value lineEnd) :=
    gives_bind fun _ => hown rfl
  have hloop (kind : Loop) (condition : String) (body : RunM (Option String)) :
      Reporting node values (env.startLoop node kind condition body) :=
    gives_bind fun _ => hown rfl
  unfold perform
  split
  · refine gives_bind fun value => ?_
    cases value with
    | none => exact gives_throw _
    | some value => exact hown rfl
  · exact hassign _ _
  · exact gives_bind fun _ => hassign _ _
  · exact gives_bind fun _ => hassign _ _
  · exact gives_bind fun _ => gives_bind fun _ => hown trivial
  · exact hput _ _
  · split
    · exact hput _ _
    · exact hput _ _
  · exact gives_bind fun _ => hown rfl
  · exact gives_bind fun _ => gives_bind fun _ => hown rfl
  · exact gives_bind fun _ => hloop _ _ _
  · exact hloop _ _ _
  · exact gives_bind fun _ => hplain _
  · exact gives_bind fun _ => hplain _
  · exact hplain _
  · exact gives_bind fun _ => hplain _
  · exact hplain _
  · exact hplain _
  · exact gives_throw _

theorem reporting_call (callee : Command) (node : Node) (values : List String) :
    Reporting node values (env.call callee node values) := by
  cases callee with
  | builtin function => exact env.reporting_perform function node values values
  | script callee => exact gives_bind fun _ => gives_pure ⟨rfl, rfl⟩

end Env

/-! ## Commands in a row -/

namespace Call

variable {setup : Setup} {here : Level} {node : Node}

/-- The entry of a command that was carried out reports its value. -/
theorem gives_carriedOut : ((carriedOut setup here node).action setup).Gives fun ended =>
    (ended.2.recorded node ended.1).Reports node ended.2.value := by
  refine RunM.gives_bind fun _ => ?_
  dsimp only
  cases setup.commands[node.value]? with
  | none => exact RunM.gives_throw _
  | some callee =>
    refine RunM.gives_bind fun values => ?_
    dsimp only
    split
    · exact RunM.gives_throw _
    · have hcall := (here.env setup).reporting_call callee node values
      rw [Env.Reporting, ← action_carryOut] at hcall
      exact hcall.bind fun outcome hreports => RunM.gives_pure hreports

end Call

theorem Visits.trace_eq_of_carriedOut {setup : Setup} {here : Level} {node : Node}
    {r : Except Error (List String × Outcome)} {s t : Run} {visits : List Visit}
    (h : Visits setup (Call.carriedOut setup here node) s r t visits) :
    t.trace.toList = s.trace.toList ++ visits.map (Visit.entry setup) := by
  have hcarried : (Call.carriedOut setup here node).Consists setup { checks := true } here.scope :=
    Call.consists_carriedOut here rfl node
  exact h.trace_eq hcarried rfl rfl

/-- One command that is executed: the scripts that are evaluated on its way and, unless it raised an
error, the values of its operands and its outcome. -/
structure Execution where
  node : Node
  visits : List Visit
  completed : Option (List String × Outcome)

namespace Execution

/-- The command's own entry, if it completed. -/
def own (x : Execution) : Option Trace.Entry :=
  x.completed.map fun (values, outcome) => outcome.recorded x.node values

/-- Everything that the command leaves in the trace. -/
def entries (setup : Setup) (x : Execution) : List Trace.Entry :=
  x.visits.map (Visit.entry setup) ++ x.own.toList

end Execution

/-- The commands are executed in order, the last of them up to its error if one raises any. -/
inductive Executes (setup : Setup) (here : Level) : Option String → List Node → Run →
    Except Error (Option String) → Run → List Execution → Prop
  | done {result : Option String} {s : Run} : Executes setup here result [] s (.ok result) s []
  | completed {result : Option String} {node : Node} {rest : List Node} {s s' t : Run}
    {values : List String} {outcome : Outcome} {visits : List Visit}
    {r : Except Error (Option String)} {xs : List Execution} :
    Visits setup (Call.carriedOut setup here node) s (.ok (values, outcome)) s' visits →
    Executes setup here (outcome.value.or result) rest
      { s' with trace := s'.trace.push (outcome.recorded node values) } r t xs →
    Executes setup here result (node :: rest) s r t
      (⟨node, visits, some (values, outcome)⟩ :: xs)
  | raised {result : Option String} {node : Node} {rest : List Node} {s t : Run} {e : Error}
    {visits : List Visit} : Visits setup (Call.carriedOut setup here node) s (.error e) t visits →
    Executes setup here result (node :: rest) s (.error e) t [⟨node, visits, none⟩]

namespace Executes

variable {setup : Setup} {here : Level} {result : Option String} {nodes : List Node} {s t : Run}
  {r : Except Error (Option String)} {xs : List Execution}

/-- The interpreter executes the commands in this way. -/
theorem run_eq (h : Executes setup here result nodes s r t xs) :
    ((here.env setup).executeCommands result nodes).run s = (r, t) := by
  induction h with
  | done => rfl
  | @completed result node rest s s' t values outcome visits r xs hvisits _ ih =>
    have hended : ((Call.carriedOut setup here node).action setup).Returns s (values, outcome) s' :=
      hvisits.ends.run_eq
    have hcommand : ((here.env setup).executeCommand node).Returns s outcome.value
        { s' with trace := s'.trace.push (outcome.recorded node values) } := by
      rw [Call.executeCommand_eq_carriedOut]
      exact hended.bind rfl
    exact (hcommand.run_bind _).trans ih
  | @raised result node rest s t e visits hvisits =>
    have hended : ((Call.carriedOut setup here node).action setup).Raises s e t :=
      hvisits.ends.run_eq
    have hcommand : ((here.env setup).executeCommand node).Raises s e t := by
      rw [Call.executeCommand_eq_carriedOut]
      exact hended.bind _
    exact hcommand.bind _

theorem exists_executes (setup : Setup) (here : Level) (result : Option String)
    (nodes : List Node) (s : Run) : ∃ r t xs, Executes setup here result nodes s r t xs := by
  induction nodes generalizing result s with
  | nil => exact ⟨_, _, _, .done⟩
  | cons node rest ih =>
    obtain ⟨r, s', visits, hvisits⟩ := (Call.carriedOut setup here node).exists_visits setup s
    cases r with
    | error e => exact ⟨_, _, _, .raised hvisits⟩
    | ok ended =>
      obtain ⟨values, outcome⟩ := ended
      obtain ⟨r, t, xs, hrest⟩ := ih (outcome.value.or result)
        { s' with trace := s'.trace.push (outcome.recorded node values) }
      exact ⟨r, t, _, .completed hvisits hrest⟩

theorem trace_eq (h : Executes setup here result nodes s r t xs) :
    t.trace.toList = s.trace.toList ++ xs.flatMap (Execution.entries setup) := by
  induction h with
  | done => simp
  | completed hvisits _ ih =>
    rw [ih, Array.toList_push, hvisits.trace_eq_of_carriedOut, List.flatMap_cons]
    simp [Execution.entries, Execution.own]
  | raised hvisits =>
    rw [hvisits.trace_eq_of_carriedOut]
    simp [Execution.entries, Execution.own]

/-- The entry of a command that completed reports its value. -/
theorem reports (h : Executes setup here result nodes s r t xs) :
    ∀ x ∈ xs, ∀ ended ∈ x.completed,
      (ended.2.recorded x.node ended.1).Reports x.node ended.2.value := by
  induction h with
  | done => nofun
  | completed hvisits _ ih =>
    refine List.forall_mem_cons.2 ⟨fun ended hended => ?_, ih⟩
    cases hended
    exact Call.gives_carriedOut _ _ _ hvisits.ends.run_eq
  | raised => exact List.forall_mem_singleton.2 nofun

end Executes

/-! ## Texts -/

namespace Trace

theorem renderAll_append (entries others : List Entry) :
    renderAll (entries ++ others) = renderAll entries ++ renderAll others := by
  induction entries with
  | nil => simp [renderAll]
  | cons e entries ih => simp [renderAll, ih, String.append_assoc]

theorem renderAll_eq_join (entries : List Entry) :
    renderAll entries = String.join (entries.map Entry.render) := by
  induction entries with
  | nil => rfl
  | cons e entries ih => rw [renderAll, ih, List.map_cons, String.join_cons]

theorem renderAll_flatMap {α : Type} (f : α → List Entry) (xs : List α) :
    renderAll (xs.flatMap f) = String.join (xs.map fun x => renderAll (f x)) := by
  induction xs with
  | nil => rfl
  | cons x xs ih => rw [List.flatMap_cons, renderAll_append, ih, List.map_cons, String.join_cons]

end Trace

/-- Text of the trace of a script that runs in a state. -/
def Setup.traceText (setup : Setup) (here : Level) (name text : String) (start : Run) : String :=
  Trace.renderAll (setup.traceOf here name text start)

/-- What the script adds to the text of the trace around it. -/
def Visit.bracketed (setup : Setup) (visit : Visit) : String :=
  "[" ++ setup.traceText visit.here visit.name visit.text visit.start ++ "]\n"

/-- What the command adds to the text: the traces of the scripts that it evaluated, and its own
entry if it completed. -/
def Execution.text (setup : Setup) (x : Execution) : String :=
  String.join (x.visits.map (Visit.bracketed setup)) ++ (x.own.map Trace.Entry.render).getD ""

theorem Execution.renderAll_entries (setup : Setup) (x : Execution) :
    Trace.renderAll (x.entries setup) = x.text setup := by
  have hvisits : Trace.renderAll (x.visits.map (Visit.entry setup)) =
      String.join (x.visits.map (Visit.bracketed setup)) := by
    rw [Trace.renderAll_eq_join, List.map_map]
    rfl
  have hown : Trace.renderAll x.own.toList = (x.own.map Trace.Entry.render).getD "" := by
    cases x.own with
    | none => rfl
    | some entry => exact String.append_empty
  rw [entries, Trace.renderAll_append, hvisits, hown, text]

/-- Only a command that fails and has evaluated no script adds nothing. -/
theorem Execution.text_eq_empty_iff (setup : Setup) (x : Execution) :
    x.text setup = "" ↔ x.visits = [] ∧ x.own = none := by
  rw [text, String.append_eq_empty_iff]
  constructor
  · rintro ⟨hvisits, hown⟩
    constructor
    · cases hcons : x.visits with
      | nil => rfl
      | cons visit more =>
        rw [hcons, List.map_cons, String.join_cons, String.append_eq_empty_iff] at hvisits
        exact absurd hvisits.1 (visit.entry setup).render_ne_empty
    · cases hsome : x.own with
      | none => rfl
      | some entry =>
        rw [hsome] at hown
        exact absurd hown entry.render_ne_empty
  · rintro ⟨hvisits, hown⟩
    rw [hvisits, hown]
    exact ⟨rfl, rfl⟩

/-- The trace of a script that is nested too deeply or cannot be parsed is empty. Otherwise,
however the run ends, it says that the script is executed and then, for the commands in order, what
each of them adds: the traces of the scripts that it evaluated on its way, once each and in
brackets, and one entry of its own if it completed. The scripts that it evaluated have traces of
this kind too. -/
theorem Setup.run_traces (setup : Setup) (here : Level) (name text : String) (start : Run) :
    (setup.limits.nesting < here.depth ∨ ∃ e, Tree.parseScript name text = .error e) ∧
      setup.traceText here name text start = "" ∨
    ∃ program r t, here.depth ≤ setup.limits.nesting ∧ Tree.parseScript name text = .ok program ∧
      (setup.run here.depth here.scope name text).run { start with trace := #[] } = (r, t) ∧
      (∃ xs, Executes setup here none program.children { start with trace := #[.started name] }
        r t xs) ∧
      ∀ xs, Executes setup here none program.children { start with trace := #[.started name] }
        r t xs →
          setup.traceText here name text start =
            "Executing " ++ name ++ ":\n" ++ String.join (xs.map (Execution.text setup)) ∧
          ∀ x ∈ xs, ∀ ended ∈ x.completed,
            (ended.2.recorded x.node ended.1).Reports x.node ended.2.value := by
  rcases Int.lt_or_le setup.limits.nesting here.depth with hdeep | hdepth
  · have hfails : ((Call.script here name text).body setup).action setup =
        (Call.script here name text).action setup := Call.action_script_body name text
    simp only [Call.body, Call.action, if_pos hdeep] at hfails
    refine .inl ⟨.inl hdeep, ?_⟩
    rw [traceText, traceOf, ← hfails]
    rfl
  · have hrun := Setup.run_of_depth_le hdepth here.scope name text
    cases hparse : Tree.parseScript name text with
    | error e =>
      refine .inl ⟨.inr ⟨e, rfl⟩, ?_⟩
      rw [traceText, traceOf, hrun, hparse]
      rfl
    | ok program =>
      obtain ⟨r, t, xs, hxs⟩ := Executes.exists_executes setup here none program.children
        { start with trace := #[.started name] }
      have hended : (setup.run here.depth here.scope name text).run { start with trace := #[] } =
          (r, t) := by
        rw [hrun, hparse]
        exact hxs.run_eq
      refine .inr ⟨program, r, t, hdepth, rfl, hended, ⟨xs, hxs⟩, fun xs hxs => ⟨?_, hxs.reports⟩⟩
      have hheader : Trace.renderAll [.started name] = "Executing " ++ name ++ ":\n" :=
        String.append_empty
      have hcommands : Trace.renderAll (xs.flatMap (Execution.entries setup)) =
          String.join (xs.map (Execution.text setup)) := by
        rw [Trace.renderAll_flatMap, funext (Execution.renderAll_entries setup)]
      rw [traceText, traceOf, hended, hxs.trace_eq, Trace.renderAll_append, hheader, hcommands]

/-- The second command fails, after a script that it evaluated did. -/
example : ({} : Setup).traceText ⟨0, 0⟩ "main" "set x [llength \x7ba b\x7d]; set z [set y] $y"
    { scopes := (({} : Store).create none).2 } =
    "Executing main:\n" ++
      "[Executing nested script:\n Command: llength with args: a b producing result: 2\n]\n" ++
      " x=2;\n" ++
      "[Executing nested script:\n]\n" := by
  decide +kernel

end Tickle

import Tickle.Proofs.Run.LargerLimits
import Tickle.Proofs.Tree.JoinedScripts
import Tickle.Session

/-! # Scripts in turn

A session that runs one script and then another ends up where it does after one run of both, joined
by the end of a line: what a run has written, logged and counted before does not matter to the
commands that follow, as long as no limit is exceeded. -/

namespace Tickle

/-- What a run has counted, written and logged before. -/
structure Past where
  count : Nat
  output : Array Output
  log : Array Error

/-- The first run has a past that the second has not; the traces may be any. -/
structure Run.Resumes (past : Past) (s fresh : Run) : Prop where
  scopes : s.scopes = fresh.scopes
  sink : s.sink = fresh.sink
  count : s.count = past.count + fresh.count
  output : s.output = past.output ++ fresh.output
  log : s.log = past.log ++ fresh.log

namespace RunM

variable {α β : Type} {past : Past}

/-- Unless the first action exceeds a limit, the second does the same without the past of the first.
Both write to the sink that they found in the end. -/
def Resumes (past : Past) (_ : ScopeId) {α : Type} (x y : RunM α) : Prop :=
  ∀ s fresh, s.Resumes past fresh → ¬ x.Exceeds s →
    (y.run fresh).1 = (x.run s).1 ∧ (x.run s).2.Resumes past (y.run fresh).2 ∧
      (x.run s).2.sink = s.sink

theorem Resumes.traced {scope : ScopeId} {x y : RunM α} (h : Resumes past scope x y) :
    Resumes past scope (traced x) (traced y) := by
  intro s fresh hs hne
  obtain ⟨hresult, hstate, hsink⟩ := h { s with trace := #[] } { fresh with trace := #[] }
    ⟨hs.scopes, hs.sink, hs.count, hs.output, hs.log⟩ fun hx => hne hx.traced
  exact ⟨hresult, ⟨hstate.scopes, hstate.sink, hstate.count, hstate.output, hstate.log⟩, hsink⟩

theorem Resumes.bind {scope : ScopeId} {x y : RunM α} {f g : α → RunM β}
    (hxy : Resumes past scope x y) (hfg : ∀ a, Resumes past scope (f a) (g a)) :
    Resumes past scope (x >>= f) (y >>= g) := by
  intro s fresh hs hne
  obtain ⟨hresult, hstate, hsink⟩ := hxy s fresh hs fun hx => hne (hx.bind f)
  rcases hy : y.run fresh with ⟨r, fresh'⟩
  rcases returns_or_raises x s with ⟨a, s', hx⟩ | ⟨e, t, hx⟩
  · rw [hx, hy] at hresult hstate
    rw [hx] at hsink
    have hy' : y.Returns fresh a fresh' := hy.trans (congrArg (·, fresh') hresult)
    obtain ⟨hresult', hstate', hsink'⟩ := hfg a s' fresh' hstate fun hf => hne (.of_returns hx hf)
    rw [hx.run_bind f, hy'.run_bind g]
    exact ⟨hresult', hstate', hsink'.trans hsink⟩
  · rw [hx, hy] at hresult hstate
    rw [hx] at hsink
    have hy' : y.Raises fresh e fresh' := hy.trans (congrArg (·, fresh') hresult)
    rw [hx.bind f, hy'.bind g]
    exact ⟨rfl, hstate, hsink⟩

theorem Resumes.shielded {scope : ScopeId} {x y : RunM (Option String)}
    (h : Resumes past scope x y) : Resumes past scope x.shielded y.shielded := by
  intro s fresh hs hne
  have hne' : ¬ x.traced.Exceeds s := by
    rintro ⟨fault, site, t, ht⟩
    obtain ⟨t', hx⟩ := ht.of_traced
    exact hne (Exceeds.shielded ⟨fault, site, t', hx⟩)
  obtain ⟨hresult, hstate, hsink⟩ := h.traced s fresh hs hne'
  rw [run_shielded, run_shielded]
  rcases hx : x.traced.run s with ⟨r, t⟩
  rcases hy : y.traced.run fresh with ⟨r', t'⟩
  rw [hx, hy] at hresult hstate
  rw [hx] at hsink
  cases hresult
  cases r with
  | ok value => exact ⟨rfl, hstate, hsink⟩
  | error e =>
    dsimp only
    split
    · exact ⟨rfl, hstate, hsink⟩
    · have hlog : t.log.push e = past.log ++ t'.log.push e := by
        rw [hstate.log, Array.append_push]
      exact ⟨rfl, ⟨hstate.scopes, hstate.sink, hstate.count, hstate.output, hlog⟩, hsink⟩

theorem Resumes.inFreshScope (scope parent : ScopeId) (scalars : List (String × String))
    (sink : Option Sink) {x y : ScopeId → RunM (Option String)}
    (h : ∀ id, Resumes past id (x id) (y id)) :
    Resumes past scope (inFreshScope parent scalars sink x)
      (inFreshScope parent scalars sink y) := by
  intro s fresh hs hne
  have hentered : (entered parent scalars sink s).Resumes past
      (entered parent scalars sink fresh) := by
    refine ⟨?_, ?_, hs.count, hs.output, hs.log⟩
    · simp only [entered, hs.scopes]
    · simp only [entered, hs.sink]
  obtain ⟨hresult, hstate, -⟩ := h s.scopes.next _ _ hentered fun hx => hne hx.inFreshScope
  have hnext : fresh.scopes.next = s.scopes.next := congrArg Store.next hs.scopes.symm
  rw [run_inFreshScope, run_inFreshScope, hnext]
  refine ⟨hresult, ⟨?_, hs.sink, hstate.count, hstate.output, hstate.log⟩, rfl⟩
  exact congrArg (·.drop s.scopes.next) hstate.scopes

theorem resumes_congruence (past : Past) : Congruence (Resumes past) where
  pure _ _ := fun s fresh hs _ => ⟨rfl, hs, rfl⟩
  bind := Resumes.bind
  raise _ _ _ := fun s fresh hs _ => ⟨rfl, hs, rfl⟩
  exceed _ fault site _ := fun s _ _ hne => absurd ⟨fault, site, s, rfl⟩ hne
  read _ f := fun s fresh hs _ => ⟨congrArg (Except.ok ∘ f) hs.scopes.symm, hs, rfl⟩
  assign scope name value := fun s fresh hs _ =>
    ⟨rfl, ⟨congrArg (·.set scope name value) hs.scopes, hs.sink, hs.count, hs.output, hs.log⟩, rfl⟩
  erase scope name := fun s fresh hs _ =>
    ⟨rfl, ⟨congrArg (·.erase scope name) hs.scopes, hs.sink, hs.count, hs.output, hs.log⟩, rfl⟩
  write _ text := by
    intro s fresh hs _
    have houtput : s.output.push ⟨s.sink, text⟩ =
        past.output ++ fresh.output.push ⟨fresh.sink, text⟩ := by
      rw [hs.sink, hs.output, Array.append_push]
    exact ⟨rfl, ⟨hs.scopes, hs.sink, hs.count, houtput, hs.log⟩, rfl⟩
  record _ _ := fun s fresh hs _ =>
    ⟨rfl, ⟨hs.scopes, hs.sink, hs.count, hs.output, hs.log⟩, rfl⟩
  shield := Resumes.shielded
  enter scope parent scalars sink _ _ h :=
    .inFreshScope scope parent scalars sink fun id => (h id).traced

end RunM

theorem Setup.resumes (setup : Setup) (past : Past) : setup.Related (RunM.Resumes past) setup where
  prompt := rfl
  commands := rfl
  iterations := Int.le_refl _
  nesting := Int.le_refl _
  count := by
    rintro scope env env' node rfl he s fresh hs hne
    have hcount := hs.count
    have hle : ¬ env.setup.limits.commands < s.count + 1 := fun hlt => hne (RunM.exceeds_count hlt)
    have hle' : ¬ env.setup.limits.commands < fresh.count + 1 := by omega
    rw [RunM.run_count, RunM.run_count, he, if_neg hle, if_neg hle']
    refine ⟨rfl, ⟨hs.scopes, hs.sink, ?_, hs.output, hs.log⟩, rfl⟩
    exact (congrArg (· + 1) hcount).trans (Nat.add_assoc _ _ 1)

namespace Env

theorem executeCommands_append (env : Env) (result : Option String) (nodes more : List Node) :
    env.executeCommands result (nodes ++ more) =
      env.executeCommands result nodes >>= fun value => env.executeCommands value more := by
  induction nodes generalizing result with
  | nil => rfl
  | cons node rest ih =>
    simp only [List.cons_append, executeCommands, ih, bind_assoc]

/-- An earlier result is that of the commands if none of them has a value. -/
theorem executeCommands_or (env : Env) (result earlier : Option String) (nodes : List Node) :
    env.executeCommands (result.or earlier) nodes =
      env.executeCommands result nodes >>= fun value => pure (value.or earlier) := by
  induction nodes generalizing result with
  | nil => rfl
  | cons node rest ih =>
    simp only [executeCommands, bind_assoc, ← ih, Option.or_assoc]

end Env

section

variable {setup : Setup} {depth : Int} {scope : ScopeId} {nodes more : List Node}
  {result : Option String} {s t fresh : Run} {past : Past}

/-- Commands that return write to the same sink in the end. -/
theorem Setup.sink_executeCommands
    (h : ((setup.env depth scope).executeCommands none nodes).Returns s result t) :
    t.sink = s.sink := by
  have hs : s.Resumes ⟨0, #[], #[]⟩ s := ⟨rfl, rfl, by simp, by simp, by simp⟩
  have hcongruence := RunM.resumes_congruence ⟨0, #[], #[]⟩
  have hne : ¬ ((setup.env depth scope).executeCommands none nodes).Exceeds s := by
    rintro ⟨fault, site, t', ht⟩
    cases h.symm.trans ht
  obtain ⟨-, -, hsink⟩ := hcongruence.executeCommands
    (hcongruence.levelEnv (setup.resumes _) depth scope) nodes none s s hs hne
  rwa [h] at hsink

/-- Commands behind others do what they do without those. -/
theorem Setup.resumes_executeCommands
    (hfirst : ((setup.env depth scope).executeCommands none nodes).Returns s result t)
    (hfresh : t.Resumes past fresh)
    (hne : ¬ ((setup.env depth scope).executeCommands none (nodes ++ more)).Exceeds s) :
    (((setup.env depth scope).executeCommands none (nodes ++ more)).run s).1 =
        (((setup.env depth scope).executeCommands none more).run fresh).1.map (·.or result) ∧
      (((setup.env depth scope).executeCommands none (nodes ++ more)).run s).2.Resumes past
        (((setup.env depth scope).executeCommands none more).run fresh).2 := by
  have hcongruence := RunM.resumes_congruence past
  have hjoined : ((setup.env depth scope).executeCommands none (nodes ++ more)).run s =
      ((setup.env depth scope).executeCommands none more >>= fun value =>
        pure (value.or result)).run t := by
    rw [Env.executeCommands_append, hfirst.run_bind, ← Env.executeCommands_or, Option.none_or]
  have hne' : ¬ ((setup.env depth scope).executeCommands none more).Exceeds t := by
    intro hx
    obtain ⟨fault, site, t', ht⟩ := hx.bind fun value => pure (value.or result)
    exact hne ⟨fault, site, t', hjoined.trans ht⟩
  obtain ⟨hresult, hstate, -⟩ := hcongruence.executeCommands
    (hcongruence.levelEnv (setup.resumes _) depth scope) more none t fresh hfresh hne'
  rw [hjoined, RunM.run_bind, hresult]
  rcases hx : ((setup.env depth scope).executeCommands none more).run t with ⟨r, t'⟩
  rw [hx] at hstate
  cases r with
  | ok value => exact ⟨rfl, hstate⟩
  | error e => exact ⟨rfl, hstate⟩

end

/-- What two runs leave together. The result is that of the second one, if it has one. -/
def Report.followedBy (report : Report) (result : Option String) (next : Report) : Report where
  outcome := next.outcome.map (·.or result)
  output := report.output ++ next.output
  log := report.log ++ next.log
  trace := report.trace ++ next.trace

namespace Session

/-- What a run leaves, given how it ended. -/
def finish (session : Session) (ending : Except Error (Option String) × Run) : Report × Session :=
  ({ outcome := ending.1, output := ending.2.output, log := ending.2.log,
     trace := ending.2.trace.toList },
    { session with scopes := ending.2.scopes, output := session.output ++ ending.2.output })

/-- The state in which the commands of a script start. -/
def started (session : Session) : Run :=
  { scopes := session.scopes, trace := #[.started scriptName] }

/-- A run of a script that is accepted, at a depth that is allowed. -/
theorem run_eq_finish (session : Session) {script : String} {program : Node}
    (hdepth : 0 ≤ session.setup.limits.nesting)
    (hparse : Tree.parseScript scriptName script = .ok program) :
    session.run script = session.finish
      (((session.setup.env 0 session.global).executeCommands none program.children).run
        session.started) := by
  have hrun := Setup.run_of_depth_le hdepth session.global scriptName script
  rw [hparse] at hrun
  rw [run, hrun]
  rfl

/-- Runs a script and then, unless it failed, another one. -/
def runInTurn (session : Session) (first second : String) : Report × Session :=
  let ran := session.run first
  match ran.1.outcome with
  | .error _ => ran
  | .ok result => (ran.1.followedBy result (ran.2.run second).1, (ran.2.run second).2)

theorem runInTurn_of_error {session : Session} {first : String} {e : Error}
    (h : (session.run first).1.outcome = .error e) (second : String) :
    session.runInTurn first second = session.run first := by
  simp only [runInTurn, h]

theorem runInTurn_of_ok {session : Session} {first : String} {result : Option String}
    (h : (session.run first).1.outcome = .ok result) (second : String) :
    session.runInTurn first second =
      ((session.run first).1.followedBy result ((session.run first).2.run second).1,
        ((session.run first).2.run second).2) := by
  simp only [runInTurn, h]

/-- The session and the report are the same, the trace apart. -/
structure SameButTrace (ran ran' : Report × Session) : Prop where
  outcome : ran.1.outcome = ran'.1.outcome
  output : ran.1.output = ran'.1.output
  log : ran.1.log = ran'.1.log
  session : ran.2 = ran'.2

theorem nesting_nonneg_of_run {session : Session} {script : String}
    (h : ∀ fault site, (session.run script).1.outcome ≠ .error (.limit fault site)) :
    0 ≤ session.setup.limits.nesting := by
  refine Int.not_lt.1 fun hlt => ?_
  have hroom : session.setup.room 0 = 0 := by
    unfold Setup.room
    omega
  refine h (.nesting session.setup.limits.nesting) none ?_
  rw [run, Setup.run, hroom]
  rfl

/-- One run of the commands of two scripts, and runs of the scripts one after the other. -/
theorem sameButTrace_runInTurn {session : Session} {first second joined : String}
    {a b program : Node} (ha : Tree.parseScript scriptName first = .ok a)
    (hb : Tree.parseScript scriptName second = .ok b)
    (hprogram : Tree.parseScript scriptName joined = .ok program)
    (hchildren : program.children = a.children ++ b.children)
    (hlimit : ∀ fault site, (session.run joined).1.outcome ≠ .error (.limit fault site)) :
    SameButTrace (session.run joined) (session.runInTurn first second) := by
  have hdepth := nesting_nonneg_of_run hlimit
  have hfirst := session.run_eq_finish hdepth ha
  rw [session.run_eq_finish hdepth hprogram, hchildren] at hlimit ⊢
  rcases RunM.returns_or_raises
    ((session.setup.env 0 session.global).executeCommands none a.children) session.started with
    ⟨result, t, h⟩ | ⟨e, t, h⟩
  · rw [h] at hfirst
    have hsink : t.sink = session.started.sink := Setup.sink_executeCommands h
    have hfresh : t.Resumes ⟨t.count, t.output, t.log⟩ (session.finish (.ok result, t)).2.started :=
      ⟨rfl, hsink, rfl, Array.append_empty.symm, Array.append_empty.symm⟩
    have hne : ¬ ((session.setup.env 0 session.global).executeCommands none
        (a.children ++ b.children)).Exceeds session.started := by
      rintro ⟨fault, site, t', ht⟩
      exact hlimit fault site (congrArg Prod.fst ht)
    obtain ⟨houtcome, hstate⟩ := Setup.resumes_executeCommands h hfresh hne
    have hsecond := (session.finish (.ok result, t)).2.run_eq_finish hdepth hb
    rw [runInTurn_of_ok (congrArg (·.1.outcome) hfirst), hfirst, hsecond]
    refine ⟨houtcome, hstate.output, hstate.log, ?_⟩
    simp only [finish, hstate.scopes, hstate.output, ← Array.append_assoc]
  · rw [h] at hfirst
    rw [runInTurn_of_error (congrArg (·.1.outcome) hfirst), hfirst, Env.executeCommands_append,
      h.bind]
    exact ⟨rfl, rfl, rfl, rfl⟩

/-- A script that is followed by another one on the next line has the commands of both, and a run of
both that exceeds no limit does what a session does that runs them in turn. The first script may
hold no backslash and no reference that runs on past its end. -/
theorem run_joined {name first second : String} {a b : Node} (hescape : '\\' ∉ first.toList)
    (hclosed : Token.Script.closesReferences first = true)
    (ha : Tree.parseScript name first = .ok a) (hb : Tree.parseScript name second = .ok b) :
    Tree.parseScript name (first ++ "\n" ++ second) =
        .ok ⟨.program, some name, a.children ++ b.children⟩ ∧
      ∀ session : Session,
        (∀ fault site, (session.run (first ++ "\n" ++ second)).1.outcome ≠
          .error (.limit fault site)) →
        SameButTrace (session.run (first ++ "\n" ++ second)) (session.runInTurn first second) := by
  refine ⟨Tree.parseScript_joined hescape hclosed ha hb, fun session hlimit => ?_⟩
  have ha' := Tree.parseScript_rename ha scriptName
  have hb' := Tree.parseScript_rename hb scriptName
  exact sameButTrace_runInTurn ha' hb' (Tree.parseScript_joined hescape hclosed ha' hb') rfl hlimit

/-- Two references that are closed, and blanks on both sides of the line end. -/
theorem run_joined_array_element :
    let first := "set a(x) 1; puts $\x7ba(x)\x7d$a(x) "
    let second := " # again\nappend a(x) 2"
    let session := Session.start {} []
    Token.Script.closesReferences first = true ∧
      (session.run (first ++ "\n" ++ second)).1.outcome.toOption = some (some "12") ∧
      (session.run first).1.outcome.toOption = some (some "11") ∧
      ∃ a b, Tree.parseScript "main" first = .ok a ∧ Tree.parseScript "main" second = .ok b ∧
        Tree.parseScript "main" (first ++ "\n" ++ second) =
          .ok ⟨.program, some "main", a.children ++ b.children⟩ ∧
        SameButTrace (session.run (first ++ "\n" ++ second)) (session.runInTurn first second) := by
  intro first second session
  have hclosed : Token.Script.closesReferences first = true := by decide +kernel
  have hjoined : (session.run (first ++ "\n" ++ second)).1.outcome.toOption = some (some "12") := by
    decide +kernel
  have hfirst : (session.run first).1.outcome.toOption = some (some "11") := by decide +kernel
  have hokFirst : (Tree.parseScript "main" first).isOk = true := by decide +kernel
  have hokSecond : (Tree.parseScript "main" second).isOk = true := by decide +kernel
  refine ⟨hclosed, hjoined, hfirst, ?_⟩
  cases ha : Tree.parseScript "main" first with
  | error e =>
    rw [ha] at hokFirst
    cases hokFirst
  | ok a =>
    cases hb : Tree.parseScript "main" second with
    | error e =>
      rw [hb] at hokSecond
      cases hokSecond
    | ok b =>
      obtain ⟨hparse, hrun⟩ := run_joined (by decide +kernel) hclosed ha hb
      refine ⟨a, b, rfl, rfl, hparse, hrun session fun fault site h => ?_⟩
      rw [h] at hjoined
      cases hjoined

end Session

end Tickle

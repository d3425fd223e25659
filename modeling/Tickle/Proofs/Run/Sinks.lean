import Tickle.Proofs.Run.Termination
import Tickle.Proofs.Run.Texts
import Tickle.Session

/-! # Where text is written

While script commands are running, one inside the other, `puts` writes to the sink of the innermost
of them that has a sink of its own, or to the main sink if none has. `Prints` follows a run with the
stack of these commands and collects what the calls of `puts` write, each with the stack at that
time; the sink that the interpreter saves and restores has no part in it. What a run leaves in its
output is exactly what is collected. -/

namespace Tickle

/-- Script commands that are running, the innermost first: for each its own sink, if it has one. -/
abbrev Frames := List (Option Sink)

/-- The sink of the innermost command that has its own. -/
def Frames.sink (frames : Frames) : Sink := (frames.findSome? id).getD .main

/-- Text that is written, and the commands that are running then. -/
structure Write where
  frames : Frames
  text : String

namespace Write

def sink (write : Write) : Sink := write.frames.sink

/-- The text and where it belongs. -/
def output (write : Write) : Output := ⟨write.sink, write.text⟩

end Write

/-- What a call of `puts` writes; no other call writes anything of its own. -/
def Call.printed (setup : Setup) {α : Type} : Call α → List String
  | .builtin _ .puts _ [value] => [setup.prompt ++ value ++ "\n"]
  | .builtin _ .puts _ (option :: value :: _) =>
    if option = "-nonewline" then [setup.prompt ++ value] else [setup.prompt ++ option ++ "\n"]
  | _ => []

/-- The text ends as in `Ends`; on its way, under commands that are running already, the calls of
`puts` in it write the given texts. -/
inductive Prints (setup : Setup) :
    Frames → {α : Type} → Procedure α → Run → Except Error α → Run → List Write → Prop
  | act {frames : Frames} {α : Type} (x : RunM α) (s : Run) :
    Prints setup frames (.act x) s (x.run s).1 (x.run s).2 []
  | next {frames : Frames} {α β : Type} {p : Procedure α} {f : α → Procedure β} {a : α}
    {r : Except Error β} {s s' t : Run} {first others : List Write} :
    Prints setup frames p s (.ok a) s' first → Prints setup frames (f a) s' r t others →
    Prints setup frames (.seq p f) s r t (first ++ others)
  | stop {frames : Frames} {α β : Type} {p : Procedure α} {e : Error} {s t : Run}
    {writes : List Write} (f : α → Procedure β) :
    Prints setup frames p s (.error e) t writes →
    Prints setup frames (.seq p f) s (.error e) t writes
  | call {frames : Frames} {α : Type} {c : Call α} {r : Except Error α} {s t : Run}
    {writes : List Write} : Prints setup frames (c.body setup) s r t writes →
    Prints setup frames (.call c) s r t ((c.printed setup).map (⟨frames, ·⟩) ++ writes)
  | shielded {frames : Frames} {p : Procedure (Option String)}
    {r : Except Error (Option String)} {s t : Run} {writes : List Write} :
    Prints setup frames p { s with trace := #[] } r t writes →
    Prints setup frames (.shielded p) s ((RunM.replay r t).shielded.run s).1
      ((RunM.replay r t).shielded.run s).2 writes
  | inFreshScope {frames : Frames} {parent : ScopeId} {scalars : List (String × String)}
    {sink : Option Sink} {p : ScopeId → Procedure (Option String)}
    {r : Except Error (Option String)} {s t : Run} {writes : List Write} :
    Prints setup (sink :: frames) (p s.scopes.next)
      { RunM.entered parent scalars sink s with trace := #[] } r t writes →
    Prints setup frames (.inFreshScope parent scalars sink p) s
      ((RunM.inFreshScope parent scalars sink fun _ => (RunM.replay r t).traced).run s).1
      ((RunM.inFreshScope parent scalars sink fun _ => (RunM.replay r t).traced).run s).2 writes

section Derivations

variable {setup : Setup} {frames : Frames} {α : Type} {p : Procedure α} {r : Except Error α}
  {s t : Run}

theorem Prints.ends {writes : List Write} (h : Prints setup frames p s r t writes) :
    Ends setup p s r t := by
  induction h with
  | act x s => exact .act x s
  | next _ _ ihp ihf => exact .next ihp ihf
  | stop f _ ih => exact .stop f ih
  | call _ ih => exact .call ih
  | shielded _ ih => exact .shielded ih
  | inFreshScope _ ih => exact .inFreshScope ih

theorem Ends.exists_prints (h : Ends setup p s r t) (frames : Frames) :
    ∃ writes, Prints setup frames p s r t writes := by
  induction h generalizing frames with
  | act x s => exact ⟨[], .act x s⟩
  | next _ _ ihp ihf =>
    obtain ⟨first, hp⟩ := ihp frames
    obtain ⟨others, hf⟩ := ihf frames
    exact ⟨_, .next hp hf⟩
  | stop f _ ih =>
    obtain ⟨writes, hp⟩ := ih frames
    exact ⟨writes, .stop f hp⟩
  | call _ ih =>
    obtain ⟨writes, hbody⟩ := ih frames
    exact ⟨_, .call hbody⟩
  | shielded _ ih =>
    obtain ⟨writes, hp⟩ := ih frames
    exact ⟨writes, .shielded hp⟩
  | inFreshScope _ ih =>
    obtain ⟨writes, hp⟩ := ih (_ :: frames)
    exact ⟨writes, .inFreshScope hp⟩

/-- Every call ends, and prints something or nothing on its way. -/
theorem Call.exists_prints (c : Call α) (frames : Frames) (s : Run) :
    ∃ r t writes, Prints setup frames (.call c) s r t writes := by
  have hends : ∃ r t, Ends setup (.call c) s r t := c.ends s
  obtain ⟨r, t, hends⟩ := hends
  exact ⟨r, t, hends.exists_prints frames⟩

end Derivations

/-! ## Actions that write nothing -/

/-- The action leaves the sink and the output as they are. -/
def RunM.Silent {α : Type} (x : RunM α) : Prop :=
  ∀ s, (x.run s).2.sink = s.sink ∧ (x.run s).2.output = s.output

theorem RunM.Silent.bind {α β : Type} {x : RunM α} {f : α → RunM β} (hx : x.Silent)
    (hf : ∀ a, (f a).Silent) : (x >>= f).Silent := by
  intro s
  obtain ⟨hsink, houtput⟩ := hx s
  rcases returns_or_raises x s with ⟨a, s', h⟩ | ⟨e, t, h⟩
  · rw [h] at hsink houtput
    obtain ⟨hsink', houtput'⟩ := hf a s'
    rw [h.run_bind f]
    exact ⟨hsink'.trans hsink, houtput'.trans houtput⟩
  · rw [h] at hsink houtput
    rw [h.bind f]
    exact ⟨hsink, houtput⟩

theorem Act.silent {setup : Setup} {m : Manner} {scope : ScopeId} {α : Type} {x : RunM α}
    (h : Act setup m scope x) (hm : m.writes = false) : x.Silent := by
  induction h with
  | bind _ _ ihx ihf => exact ihx.bind ihf
  | write text hw => exact absurd (hm.symm.trans hw) Bool.false_ne_true
  | count node _ =>
    intro s
    rw [RunM.run_count]
    exact ⟨rfl, rfl⟩
  | pure | raise | read | assign | erase | record | exceed => exact fun _ => ⟨rfl, rfl⟩

/-! ## What the texts of procedures write -/

namespace Call

variable {setup : Setup} (here : Level)

/-- The text of the procedure writes what the call prints: nothing, or else it is a single action
that writes one text to the present sink. -/
def PrintsItself (setup : Setup) {α : Type} (c : Call α) : Prop :=
  c.printed setup = [] ∧ (∃ m : Manner, m.writes = false ∧
      (c.body setup).Consists setup m c.here.scope) ∨
    ∃ text x, c.printed setup = [text] ∧ c.body setup = .act x ∧
      ∀ s, (x.run s).2 = { s with output := s.output.push ⟨s.sink, text⟩ }

theorem printsItself_puts (node : Node) (values : List String) :
    (builtin here .puts node values).PrintsItself setup := by
  rcases values with _ | ⟨option, _ | ⟨value, values⟩⟩
  · exact .inl ⟨rfl, {}, rfl, .raise (by simp [Error.family])⟩
  · exact .inr ⟨_, _, rfl, rfl, fun _ => rfl⟩
  · have hbody : (builtin here .puts node (option :: value :: values)).body setup =
        .act (if option = "-nonewline" then (setup.still here.scope).put value ""
          else (setup.still here.scope).put option "\n") := rfl
    by_cases h : option = "-nonewline"
    · rw [if_pos h] at hbody
      refine .inr ⟨setup.prompt ++ value, _, if_pos h, hbody, fun s => ?_⟩
      rw [← String.append_empty (s := setup.prompt ++ value)]
      rfl
    · rw [if_neg h] at hbody
      exact .inr ⟨setup.prompt ++ option ++ "\n", _, if_neg h, hbody, fun _ => rfl⟩

theorem printsItself {α : Type} (c : Call α) : c.PrintsItself setup := by
  have hsilent (hprinted : c.printed setup = []) (hm : c.manner.writes = false) :
      c.PrintsItself setup := .inl ⟨hprinted, c.manner, hm, c.consists⟩
  cases c with
  | builtin here function node values =>
    cases function
    case puts => exact printsItself_puts here node values
    all_goals exact hsilent rfl rfl
  | _ => exact hsilent rfl rfl

end Call

/-! ## Runs -/

@[simp] theorem Frames.sink_cons (own : Option Sink) (frames : Frames) :
    Frames.sink (own :: frames) = own.getD frames.sink := by
  cases own <;> rfl

/-- The output grows by what is printed, each text in the sink of its innermost command that has
one, if that is the present sink at the start; and the sink is left as it was. -/
theorem Prints.output_eq {setup : Setup} {m : Manner} {scope : ScopeId} {frames : Frames}
    {α : Type} {p : Procedure α} {r : Except Error α} {s t : Run} {writes : List Write}
    (h : Prints setup frames p s r t writes) (hp : p.Consists setup m scope)
    (hm : m.writes = false) (hsink : s.sink = frames.sink) :
    t.sink = s.sink ∧ t.output.toList = s.output.toList ++ writes.map Write.output := by
  induction h generalizing m scope with
  | act x s =>
    obtain ⟨hsame, houtput⟩ := Act.silent hp hm s
    exact ⟨hsame, by rw [houtput, List.map_nil, List.append_nil]⟩
  | next _ _ ihp ihf =>
    obtain ⟨hsame, houtput⟩ := ihp hp.1 hm hsink
    obtain ⟨hsame', houtput'⟩ := ihf (hp.2 _) hm (hsame.trans hsink)
    refine ⟨hsame'.trans hsame, ?_⟩
    rw [houtput', houtput, List.map_append, List.append_assoc]
  | stop f _ ih => exact ih hp.1 hm hsink
  | @call frames α c r s t writes hbody ih =>
    rcases c.printsItself with ⟨hnone, m', hm', hsilent⟩ | ⟨text, x, hone, hact, hx⟩
    · rw [hnone]
      exact ih hsilent hm' hsink
    · -- a call of `puts`, whose text is one action
      rw [hact] at hbody
      cases hbody
      rw [hone, hx s, Array.toList_push, hsink]
      exact ⟨rfl, rfl⟩
  | @shielded frames p r s t writes _ ih =>
    obtain ⟨log, trace, hstate⟩ := RunM.exists_run_shielded_eq (RunM.replay r t) s
    rw [hstate]
    exact ih (Procedure.RunsScript.consists hp) rfl hsink
  | @inFreshScope frames parent scalars sink p r s t writes _ ih =>
    -- the command is one more frame while its body runs, and the sink is set back behind it
    have hentered : (RunM.entered parent scalars sink s).sink = Frames.sink (sink :: frames) := by
      rw [Frames.sink_cons, ← hsink]
      rfl
    obtain ⟨-, houtput⟩ := ih (hp s.scopes.next).consists rfl hentered
    exact ⟨rfl, houtput⟩

theorem Prints.output_eq_of_call {setup : Setup} {frames : Frames} {α : Type} {c : Call α}
    {r : Except Error α} {s t : Run} {writes : List Write}
    (h : Prints setup frames (.call c) s r t writes) (hsink : s.sink = frames.sink) :
    t.sink = s.sink ∧ t.output.toList = s.output.toList ++ writes.map Write.output := by
  have hcall : (Procedure.call c).Consists setup { commands := true } c.here.scope :=
    ⟨rfl, .inr rfl⟩
  exact h.output_eq hcall rfl hsink

/-- Every call leaves the sink as it was, however it ends. -/
theorem Call.sink_action (setup : Setup) {α : Type} (c : Call α) (s : Run) :
    ((c.action setup).run s).2.sink = s.sink := by
  have hprints : ∃ r t writes, Prints setup [some s.sink] (.call c) s r t writes :=
    c.exists_prints _ s
  obtain ⟨r, t, writes, h⟩ := hprints
  have hrun : (c.action setup).run s = (r, t) := h.ends.run_eq
  rw [hrun]
  exact (h.output_eq_of_call rfl).1

namespace Output

theorem joinedTo_append (sink : Sink) (first others : Array Output) :
    joinedTo sink (first ++ others) = joinedTo sink first ++ joinedTo sink others := by
  simp [joinedTo, joined]

theorem joined_of_writes {output : Array Output} {writes : List Write}
    (h : output.toList = writes.map Write.output) :
    joined output = String.join (writes.map Write.text) := by
  rw [joined, h, List.map_map]
  rfl

theorem joinedTo_of_writes {output : Array Output} {writes : List Write}
    (h : output.toList = writes.map Write.output) (sink : Sink) :
    joinedTo sink output =
      String.join ((writes.filter (·.sink = sink)).map Write.text) := by
  refine joined_of_writes ?_
  rw [Array.toList_filter, h, List.filter_map]
  rfl

end Output

/-- Whatever a session has defined and run before, and however this run ends: the run writes what
its calls of `puts` print, in order, each text to the sink of the innermost running command that has
its own. The report joins all these texts, and every sink gets those that are written to it. An
invocation of a script command leaves the sink as it found it. -/
theorem Session.run_writes (session : Session) (script : String) :
    let call : Call (Option String) := .script ⟨0, session.global⟩ Session.scriptName script
    let start : Run := { scopes := session.scopes }
    (∃ r t writes, Prints session.setup [] (.call call) start r t writes) ∧
    (∀ r t writes, Prints session.setup [] (.call call) start r t writes →
      (session.run script).1.outcome = r ∧
      (session.run script).1.output.toList = writes.map Write.output ∧
      (session.run script).1.stdout = String.join (writes.map Write.text) ∧
      ∀ sink, Output.joinedTo sink (session.run script).2.output =
        Output.joinedTo sink session.output ++
          String.join ((writes.filter (·.sink = sink)).map Write.text)) ∧
    ∀ (here : Level) (callee : ScriptCommand) (values : List String) (s : Run),
      (((here.env session.setup).invoke callee values).run s).2.sink = s.sink := by
  intro call start
  refine ⟨call.exists_prints [] start, fun r t writes h => ?_, fun here callee values s =>
    (Call.invocation here callee values).sink_action session.setup s⟩
  have hrun : (session.setup.run 0 session.global Session.scriptName script).run start = (r, t) :=
    h.ends.run_eq
  have houtput : t.output.toList = writes.map Write.output := (h.output_eq_of_call rfl).2
  have hreport : session.run script =
      ({ outcome := r, output := t.output, log := t.log, trace := t.trace.toList },
        { session with scopes := t.scopes, output := session.output ++ t.output }) := by
    rw [Session.run, hrun]
  rw [hreport]
  refine ⟨rfl, houtput, Output.joined_of_writes houtput, fun sink => ?_⟩
  rw [Output.joinedTo_append, Output.joinedTo_of_writes houtput]

/-- The error that `side` ends with is swallowed by the brackets in `outer`. -/
example :
    let session := Session.start {} []
    let session := (session.define "inner" [] "puts a" none).2
    let session := (session.define "side" [] "puts b; inner; fail" (some ⟨2⟩)).2
    let session := (session.define "outer" [] "puts c; set x [side]; puts d" (some ⟨1⟩)).2
    (session.run "inner; outer; puts e").1.output.toList =
      [⟨.main, "Tcl> a\n"⟩, ⟨⟨1⟩, "Tcl> c\n"⟩, ⟨⟨2⟩, "Tcl> b\n"⟩, ⟨⟨2⟩, "Tcl> a\n"⟩,
       ⟨⟨1⟩, "Tcl> d\n"⟩, ⟨.main, "Tcl> e\n"⟩] := by
  decide +kernel

end Tickle

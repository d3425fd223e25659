import Tickle.Proofs.Run.Unwinding

/-! # Limit checks

Three checks guard a run: the depth of a script when it starts, the number of commands when one is
executed, and the number of iterations when a loop begins another. A run ends with the error of a
limit exactly if one of them fails, wherever it stands, and then nothing else is done. -/

namespace Tickle

/-- A check fails in an activity, which ends with the error in the last state. -/
inductive CheckFails (setup : Setup) : Activity → Error → Run → Prop
  | nesting {here : Level} {name text : String} {s : Run} : setup.limits.nesting < here.depth →
    CheckFails setup ⟨.script here name text, s⟩ (.limit (.nesting setup.limits.nesting) none) s
  | commands {here : Level} {node : Node} {s : Run} : setup.limits.commands < s.count + 1 →
    CheckFails setup ⟨.command here node, s⟩
      (.limit (.commands setup.limits.commands) (some node.site)) { s with count := s.count + 1 }
  | iterations {here : Level} {node : Node} {kind : Loop} {test body : String}
    {step result : Option String} {completed : Nat} {s s' : Run} :
    ((here.env setup).evaluateCondition node test).Returns s true s' →
    setup.limits.iterations < completed + 1 →
    CheckFails setup ⟨.loop here node kind test body step completed result, s⟩
      (.limit (.iterations kind setup.limits.iterations) (some node.site)) s'

namespace CheckFails

variable {setup : Setup} {a : Activity} {t : Run} {e : Error}

theorem exists_limit (h : CheckFails setup a e t) : ∃ fault site, e = .limit fault site := by
  cases h <;> exact ⟨_, _, rfl⟩

theorem raises (h : CheckFails setup a e t) : a.Raises setup e t := by
  cases h with
  | @nesting here _ _ _ hn =>
    have hroom : setup.room here.depth = 0 := Int.toNat_of_nonpos (by omega)
    rw [Activity.Raises, Call.action, Setup.run, hroom]
    rfl
  | @commands here node s hc =>
    have hcount : ((here.env setup).count node).Raises s _ _ := RunM.raises_count hc
    exact hcount.bind _
  | @iterations here _ _ _ _ _ _ completed _ _ hv hi =>
    have hi' : (here.env setup).setup.limits.iterations < completed + 1 := hi
    rw [Activity.Raises, Call.action, Env.runLoop_iterationsLeft]
    refine hv.raises_bind ?_
    rw [if_pos rfl, if_pos hi']
    rfl

end CheckFails

/-! ## Actions that exceed no limit -/

namespace RunM

variable {α β : Type} {x : RunM α} {f : α → RunM β} {s t : Run} {e : Error}

/-- The action exceeds no limit. -/
def Harmless (x : RunM α) : Prop := ∀ ⦃s e t⦄, x.Raises s e t → e.family ≠ .limit

theorem harmless_of_returns (h : ∀ s, ∃ a t, x.Returns s a t) : x.Harmless := by
  intro s e t hr
  obtain ⟨a, t', ha⟩ := h s
  cases ha.symm.trans hr

theorem harmless_throw (h : e.family ≠ .limit) : (throw e : RunM α).Harmless := by
  intro s e' t hr
  cases hr
  exact h

theorem Harmless.bind (hx : x.Harmless) (hf : ∀ a, (f a).Harmless) : (x >>= f).Harmless := by
  intro s e t h
  rcases h.of_bind with hr | ⟨a, s', -, hr⟩
  · exact hx hr
  · exact hf a hr

end RunM

theorem Act.harmless {setup : Setup} {m : Manner} {scope : ScopeId} {α : Type} {x : RunM α}
    (h : Act setup m scope x) (hm : m.checks = false) : x.Harmless := by
  induction h with
  | bind _ _ ihx ihf => exact ihx.bind ihf
  | raise he => exact RunM.harmless_throw he
  | pure | read | assign | erase | write | record =>
    exact RunM.harmless_of_returns fun _ => ⟨_, _, rfl⟩
  | count node hc | exceed fault site hc => exact absurd (hm.symm.trans hc) Bool.false_ne_true

/-! ## Where an exceeded limit comes from -/

namespace Procedure

variable {setup : Setup} {m : Manner} {scope : ScopeId} {s t : Run} {e : Error}

theorem RunsScript.exists_makes_raises {p : Procedure (Option String)} (hp : p.RunsScript scope)
    (h : (p.action setup).Raises s e t) : ∃ b, p.Makes setup s b ∧ b.Raises setup e t := by
  obtain ⟨here, name, text, rfl, -⟩ := hp
  exact ⟨⟨.script here name text, s⟩, .call _ s, h⟩

/-- Where a text checks no limit, an exceeded one is the error of a call in it. -/
theorem exists_makes_raises {α : Type} {p : Procedure α} (hp : p.Consists setup m scope)
    (hm : m.checks = false) (he : e.family = .limit) (h : (p.action setup).Raises s e t) :
    ∃ b t', p.Makes setup s b ∧ b.Raises setup e t' := by
  induction p generalizing s t with
  | act x => exact absurd he (hp.harmless hm h)
  | seq p f ihp ihf =>
    rcases RunM.Raises.of_bind h with hr | ⟨a, s', hv, hr⟩
    · obtain ⟨b, t', hmakes, hb⟩ := ihp hp.1 hr
      exact ⟨b, t', .first hmakes, hb⟩
    · obtain ⟨b, t', hmakes, hb⟩ := ihf a (hp.2 a) hr
      exact ⟨b, t', .next hv hmakes, hb⟩
  | call c => exact ⟨⟨c, s⟩, t, .call c s, h⟩
  | shielded p _ =>
    obtain ⟨t', hr⟩ := RunM.Raises.of_shielded h
    obtain ⟨b, hmakes, hb⟩ := RunsScript.exists_makes_raises hp hr
    exact ⟨b, t', .shielded hmakes, hb⟩
  | inFreshScope parent scalars sink p _ =>
    obtain ⟨t₁, hr⟩ := RunM.Raises.of_inFreshScope h
    obtain ⟨t₂, hr⟩ := hr.of_traced
    obtain ⟨b, hmakes, hb⟩ := (hp s.scopes.next).exists_makes_raises hr
    exact ⟨b, t₂, .inFreshScope hmakes, hb⟩

end Procedure

namespace Activity

variable {setup : Setup} {s t : Run} {e : Error}

/-- What the error of a limit has to do with one activity: its own check failed, or one that it
started ended with that error. -/
def Blames (setup : Setup) (a : Activity) (e : Error) (t : Run) : Prop :=
  CheckFails setup a e t ∨ ∃ b t', Starts setup a b ∧ b.Raises setup e t'

theorem blames_of_consists {a : Activity} {m : Manner} {scope : ScopeId}
    (hbody : (a.call.body setup).Consists setup m scope) (hm : m.checks = false)
    (he : e.family = .limit) (h : a.Raises setup e t) : a.Blames setup e t := by
  rw [Raises, ← Call.action_body] at h
  exact .inr (Procedure.exists_makes_raises hbody hm he h)

theorem blames_script (he : e.family = .limit) {here : Level} {name text : String}
    (h : Raises setup ⟨.script here name text, s⟩ e t) :
    Blames setup ⟨.script here name text, s⟩ e t := by
  by_cases hn : setup.limits.nesting < here.depth
  · have hfails : CheckFails setup ⟨.script here name text, s⟩ _ s := .nesting hn
    cases hfails.raises.symm.trans h
    exact .inl hfails
  · exact blames_of_consists (m := { records := true, commands := true })
      (Call.consists_script_of_le here rfl rfl (Int.not_lt.1 hn) name text) rfl he h

theorem blames_command (he : e.family = .limit) {here : Level} {node : Node}
    (h : Raises setup ⟨.command here node, s⟩ e t) :
    Blames setup ⟨.command here node, s⟩ e t := by
  by_cases hc : setup.limits.commands < s.count + 1
  · have hfails : CheckFails setup ⟨.command here node, s⟩ _ _ := .commands hc
    cases hfails.raises.symm.trans h
    exact .inl hfails
  · obtain ⟨f, hcarried, hrest⟩ := Call.exists_carriedOut_eq here setup node
    have hcount : ((setup.still here.scope).count node).Returns s () _ :=
      RunM.returns_count (Int.not_lt.1 hc)
    rw [Raises, ← Call.action_body] at h
    -- the entry in the trace comes after all else, and recording it raises no error
    rcases RunM.Raises.of_bind h with hr | ⟨ended, s', -, hr⟩
    · rw [hcarried] at hr
      have hrest' := (hcount.run_bind _).symm.trans hr
      obtain ⟨b, t', hmakes, hb⟩ := Procedure.exists_makes_raises (hrest {} ()) rfl he hrest'
      refine .inr ⟨b, t', .first ?_, hb⟩
      rw [hcarried]
      exact .next hcount hmakes
    · cases hr

theorem blames_loop (he : e.family = .limit) {here : Level} {node : Node} {kind : Loop}
    {test body : String} {step result : Option String} {completed : Nat}
    (h : Raises setup ⟨.loop here node kind test body step completed result, s⟩ e t) :
    Blames setup ⟨.loop here node kind test body step completed result, s⟩ e t := by
  obtain ⟨f, more, hbody, hfalse, htrue, hmore⟩ :=
    Call.exists_loop_body here setup node kind test body step completed result
  have hstarts {b : Activity}
      (hmakes : (Procedure.seq (.call (.condition here node test)) f).Makes setup s b) :
      Starts setup ⟨.loop here node kind test body step completed result, s⟩ b := by
    rw [Starts, hbody]
    exact hmakes
  rw [Raises, ← Call.action_body, hbody] at h
  rcases RunM.Raises.of_bind h with hr | ⟨holds, s', hv, hr⟩
  · exact .inr ⟨_, t, hstarts (.first (.call _ s)), hr⟩
  cases holds with
  | false =>
    rw [hfalse] at hr
    cases hr
  | true =>
    rw [htrue] at hr
    split at hr
    · rename_i hi
      cases hr
      exact .inl (.iterations hv hi)
    · rename_i hi
      obtain ⟨b, t', hmakes, hb⟩ := Procedure.exists_makes_raises (hmore {}) rfl he hr
      refine .inr ⟨b, t', hstarts (.next hv ?_), hb⟩
      rwa [htrue, if_neg hi]

theorem blames (he : e.family = .limit) {a : Activity} (h : a.Raises setup e t) :
    a.Blames setup e t := by
  obtain ⟨c, s⟩ := a
  cases c with
  | script here name text => exact blames_script he h
  | command here node => exact blames_command he h
  | loop here node kind test body step completed result => exact blames_loop he h
  | builtin here function node values =>
    refine blames_of_consists (Call.consists _) ?_ he h
    cases function <;> rfl
  | _ => exact blames_of_consists (Call.consists _) rfl he h

end Activity

/-- An exceeded limit is the failure of a check that was reached. -/
theorem exists_reaches_checkFails {setup : Setup} {a : Activity} {t : Run} {e : Error}
    (he : e.family = .limit) (h : a.Raises setup e t) :
    ∃ b t', Reaches setup a b ∧ CheckFails setup b e t' := by
  induction a using (wellFounded_starts setup).induction generalizing t with
  | _ a ih =>
    rcases Activity.blames he h with hcheck | ⟨b, t₁, hstarts, hb⟩
    · exact ⟨a, t, .refl, hcheck⟩
    · obtain ⟨c, t₂, hreaches, hcheck⟩ := ih b hstarts hb
      exact ⟨c, t₂, .head hstarts hreaches, hcheck⟩

/-! ## The limits of a run -/

/-- While a script runs, a check fails with the error `e` in the state `s`. -/
def Setup.FailsCheck (setup : Setup) (depth : Int) (scope : ScopeId) (name script : String)
    (start : Run) (e : Error) (s : Run) : Prop :=
  ∃ a, Reaches setup ⟨.script ⟨depth, scope⟩ name script, start⟩ a ∧ CheckFails setup a e s

/-- A run that begins with no more commands counted than allowed ends with the error of a limit
exactly if a check fails while it goes on. From the state in which a check fails to the end of the
run nothing is counted, written, logged or assigned; scopes that the run made are given up. The
commands counted are at most as many as allowed, or one more if a check failed. -/
theorem Setup.run_limit_iff_failsCheck (setup : Setup) (depth : Int) (scope : ScopeId)
    (name script : String) (start : Run) (hstart : start.count ≤ setup.limits.commands) :
    let outcome := (setup.run depth scope name script).run start
    let FailsCheck := setup.FailsCheck depth scope name script start
    ((∃ fault site, outcome.1 = .error (.limit fault site)) ↔ ∃ e s, FailsCheck e s) ∧
    (∀ e s, FailsCheck e s → outcome.1 = .error e ∧ Unwinds start s outcome.2) ∧
    outcome.2.count ≤ setup.limits.commands + 1 ∧
    ((¬ ∃ e s, FailsCheck e s) → outcome.2.count ≤ setup.limits.commands) := by
  intro outcome FailsCheck
  have hfails : ∀ e s, FailsCheck e s → outcome.1 = .error e ∧ Unwinds start s outcome.2 := by
    rintro e s ⟨a, hreaches, hcheck⟩
    obtain ⟨fault, site, rfl⟩ := hcheck.exists_limit
    obtain ⟨t, hr, hunwinds⟩ := hreaches.raises rfl hcheck.raises
    have hout : outcome = (.error (.limit fault site), t) := hr
    rw [hout]
    exact ⟨rfl, hunwinds⟩
  have hlimit : (∃ fault site, outcome.1 = .error (.limit fault site)) ↔ ∃ e s, FailsCheck e s := by
    constructor
    · rintro ⟨fault, site, h⟩
      have hr : Activity.Raises setup ⟨.script ⟨depth, scope⟩ name script, start⟩
        (.limit fault site) outcome.2 := Prod.ext h rfl
      obtain ⟨a, s, hreaches, hcheck⟩ := exists_reaches_checkFails rfl hr
      exact ⟨_, s, a, hreaches, hcheck⟩
    · rintro ⟨e, s, h⟩
      have hout := (hfails e s h).1
      obtain ⟨a, -, hcheck⟩ := h
      obtain ⟨fault, site, rfl⟩ := hcheck.exists_limit
      exact ⟨fault, site, hout⟩
  have hcount : outcome.2.count ≤ setup.limits.commands ∨
      (setup.run depth scope name script).Exceeds start ∧
        outcome.2.count ≤ setup.limits.commands + 1 :=
    (RunM.countsWithin_congruence _).run setup.countsWithin depth scope name script start hstart
  refine ⟨hlimit, hfails, ?_, fun hnone => ?_⟩
  · rcases hcount with hle | ⟨-, hle⟩
    · omega
    · exact hle
  · rcases hcount with hle | ⟨⟨fault, site, t, hr⟩, -⟩
    · exact hle
    · have hout : outcome = (.error (.limit fault site), t) := hr
      exact absurd (hlimit.1 ⟨fault, site, by rw [hout]⟩) hnone

/-- The nested command is the second one where only one is allowed. -/
theorem Setup.run_nested_failsCheck :
    let setup : Setup := { limits := ⟨1, 0, 2⟩ }
    let start : Run := { scopes := (({} : Store).create none).2 }
    let outcome := (setup.run 1 0 "main" "set a [set b 1]").run start
    start.count ≤ setup.limits.commands ∧ outcome.2.count = 2 ∧
      ∃ e s, setup.FailsCheck 1 0 "main" "set a [set b 1]" start e s ∧
        outcome.1 = .error e ∧ Unwinds start s outcome.2 := by
  intro setup start outcome
  have hstart : start.count ≤ setup.limits.commands := by decide
  have hcount : outcome.2.count = 2 := by decide +kernel
  obtain ⟨-, hfails, -, hwithin⟩ :=
    setup.run_limit_iff_failsCheck 1 0 "main" "set a [set b 1]" start hstart
  have hcheck : ∃ e s, setup.FailsCheck 1 0 "main" "set a [set b 1]" start e s := by
    refine Classical.byContradiction fun hnone => ?_
    have hle : (outcome.2.count : Int) ≤ 1 := hwithin hnone
    rw [hcount] at hle
    omega
  obtain ⟨e, s, h⟩ := hcheck
  exact ⟨hstart, hcount, e, s, h, hfails e s h⟩

end Tickle

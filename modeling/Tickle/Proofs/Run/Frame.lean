import Tickle.Proofs.Run.Unwinding

/-! # Scopes that a script does not touch

A script writes to its own scope only. The body of a script command has a fresh scope, so a call
leaves every scope that was there before as it was, although reading goes through them and whatever
the body does: nested scripts, further script commands, errors. -/

namespace Tickle

namespace Store

theorem contents?_update_of_ne (store : Store) {id id' : ScopeId} (h : id' ≠ id)
    (f : Scope → Scope) : (store.update id f).contents? id' = store.contents? id' := by
  unfold update
  split
  · rfl
  · unfold contents?
    dsimp only
    rw [Std.ExtTreeMap.getElem?_insert, if_neg fun hc => h (Nat.compare_eq_eq.1 hc).symm]

theorem contents?_create_of_ne (store : Store) (parent : Option ScopeId) {id : ScopeId}
    (h : id ≠ store.next) : (store.create parent).2.contents? id = store.contents? id := by
  unfold create contents?
  dsimp only
  rw [Std.ExtTreeMap.getElem?_insert, if_neg fun hc => h (Nat.compare_eq_eq.1 hc).symm]

/-- From the first store to the second nothing has changed outside of `scope`: the scopes made
before have their variables, and numbers that were not in use are not in use. -/
structure Kept (scope : ScopeId) (store store' : Store) : Prop where
  next_le : store.next ≤ store'.next
  contents (id : ScopeId) : id ≠ scope → id < store.next ∨ store.contents? id = none →
    store'.contents? id = store.contents? id

namespace Kept

variable {scope : ScopeId} {store store₁ store₂ : Store}

theorem refl (scope : ScopeId) (store : Store) : Kept scope store store :=
  ⟨Nat.le_refl _, fun _ _ _ => rfl⟩

theorem trans (h₁ : Kept scope store store₁) (h₂ : Kept scope store₁ store₂) :
    Kept scope store store₂ where
  next_le := Nat.le_trans h₁.next_le h₂.next_le
  contents id hid hold := by
    have hsame := h₁.contents id hid hold
    refine (h₂.contents id hid ?_).trans hsame
    rcases hold with hlt | hnone
    · exact .inl (Nat.lt_of_lt_of_le hlt h₁.next_le)
    · exact .inr (hsame.trans hnone)

theorem update (scope : ScopeId) (store : Store) (f : Scope → Scope) :
    Kept scope store (store.update scope f) where
  next_le := Nat.le_of_eq (next_update store scope f).symm
  contents _ hid _ := contents?_update_of_ne store hid f

/-- Where only a fresh scope has changed and is then given up, nothing has changed. -/
theorem contents?_drop (h : Kept store.next store store₁) {id : ScopeId}
    (hold : id < store.next ∨ store.contents? id = none) :
    (store₁.drop store.next).contents? id = store.contents? id := by
  rw [Store.contents?_drop]
  split
  · rename_i hid
    rcases hold with hlt | hnone
    · exact absurd hid (Nat.ne_of_lt hlt)
    · exact hnone.symm
  · rename_i hid
    exact h.contents id hid hold

end Kept

end Store

namespace RunM

variable {α : Type}

/-- In a scope made by a call, nothing but that scope is different from before. -/
theorem kept_entered (parent : ScopeId) (scalars : List (String × String)) (sink : Option Sink)
    (s : Run) : s.scopes.Kept s.scopes.next (entered parent scalars sink s).scopes := by
  have hset : ∀ store : Store, store.Kept s.scopes.next (scalars.foldl (fun scopes v =>
      scopes.set s.scopes.next (.scalar v.1) v.2) store) := by
    induction scalars with
    | nil => exact fun store => .refl _ store
    | cons v rest ih => exact fun store => (Store.Kept.update _ store _).trans (ih _)
  have hcreate : s.scopes.Kept s.scopes.next (s.scopes.create (some parent)).2 :=
    ⟨Nat.le_succ _, fun id hid _ => Store.contents?_create_of_ne _ _ hid⟩
  exact hcreate.trans (hset _)

/-- The action writes to no other scope. -/
def WritesOnly (scope : ScopeId) {α : Type} (x _ : RunM α) : Prop :=
  ∀ s : Run, s.scopes.Kept scope (x.run s).2.scopes

theorem WritesOnly.of_returns {scope : ScopeId} {x y : RunM α} (h : WritesOnly scope x y)
    {s s' : Run} {a : α} (hx : x.Returns s a s') : s.scopes.Kept scope s'.scopes := by
  have hs := h s
  rw [hx] at hs
  exact hs

/-- The body of a script command writes to its own scope only, which is then given up. -/
theorem kept_inFreshScope {x y : ScopeId → RunM (Option String)}
    (hx : ∀ id, WritesOnly id (x id) (y id)) (parent : ScopeId)
    (scalars : List (String × String)) (sink : Option Sink) (s : Run) :
    ∃ store, s.scopes.Kept s.scopes.next store ∧
      ((inFreshScope parent scalars sink fun id => traced (x id)).run s).2.scopes =
        store.drop s.scopes.next := by
  have hbody := hx s.scopes.next { entered parent scalars sink s with trace := #[] }
  exact ⟨_, (kept_entered parent scalars sink s).trans hbody, rfl⟩

theorem writesOnly_congruence : Congruence WritesOnly where
  pure _ _ := fun s => .refl _ _
  bind := by
    intro α β scope x y f g hx hf s
    rcases returns_or_raises x s with ⟨a, s', h⟩ | ⟨e, t, h⟩
    · rw [h.run_bind f]
      exact (hx.of_returns h).trans (hf a s')
    · have hxs := hx s
      rw [h] at hxs
      rw [h.bind f]
      exact hxs
  raise _ _ _ := fun s => .refl _ _
  exceed _ _ _ _ := fun s => .refl _ _
  read _ _ := fun s => .refl _ _
  assign _ _ _ := fun s => .update _ _ _
  erase _ _ := fun s => .update _ _ _
  write _ _ := fun s => .refl _ _
  record _ _ := fun s => .refl _ _
  shield := by
    intro scope x y hx s
    obtain ⟨log, trace, h⟩ := exists_run_shielded_eq x s
    rw [h]
    exact hx { s with trace := #[] }
  enter := by
    intro scope parent scalars sink x y hx s
    obtain ⟨store, hkept, hstore⟩ := kept_inFreshScope hx parent scalars sink s
    rw [hstore]
    exact ⟨hkept.next_le, fun id _ hold => hkept.contents?_drop hold⟩

end RunM

theorem Setup.writesOnly (setup : Setup) : setup.Related RunM.WritesOnly setup where
  prompt := rfl
  commands := rfl
  iterations := Int.le_refl _
  nesting := Int.le_refl _
  count scope env env' node _ _ := fun s => by
    rw [RunM.run_count]
    exact .refl _ _

/-! ## During a call -/

/-- A text in a scope numbered `n` or higher leaves the scopes numbered below `n` as they are, and
the calls that it makes are in scopes numbered from `n` on. -/
theorem Procedure.Makes.contents_eq {setup : Setup} {m : Manner} {scope : ScopeId} {α : Type}
    {p : Procedure α} {s : Run} {a : Activity} (h : p.Makes setup s a)
    (hp : p.Consists setup m scope) {n : ScopeId} (hscope : n ≤ scope) (hnext : n ≤ s.scopes.next) :
    n ≤ a.call.here.scope ∧
      ∀ id < n, a.state.scopes.contents? id = s.scopes.contents? id := by
  induction h generalizing m scope with
  | call c s =>
    obtain ⟨rfl, -⟩ := hp
    exact ⟨hscope, fun _ _ => rfl⟩
  | first _ ih => exact ih hp.1 hscope hnext
  | @next α β p f value s s' a hv _ ih =>
    have hkept : s.scopes.Kept scope s'.scopes :=
      (RunM.writesOnly_congruence.procedureAction setup.writesOnly hp.1).of_returns hv
    obtain ⟨hcall, hsame⟩ := ih (hp.2 _) hscope (Nat.le_trans hnext hkept.next_le)
    refine ⟨hcall, fun id hid => (hsame id hid).trans ?_⟩
    exact hkept.contents id (Nat.ne_of_lt (Nat.lt_of_lt_of_le hid hscope))
      (.inl (Nat.lt_of_lt_of_le hid hnext))
  | shielded _ ih => exact ih (Procedure.RunsScript.consists hp) hscope hnext
  | @inFreshScope parent scalars sink p s a _ ih =>
    have hentered := RunM.kept_entered parent scalars sink s
    obtain ⟨hcall, hsame⟩ := ih (hp s.scopes.next).consists hnext
      (Nat.le_trans hnext hentered.next_le)
    refine ⟨hcall, fun id hid => (hsame id hid).trans ?_⟩
    have hlt := Nat.lt_of_lt_of_le hid hnext
    exact hentered.contents id (Nat.ne_of_lt hlt) (.inl hlt)

/-- Activities in scopes numbered from `n` on leave the scopes numbered below `n` as they are. -/
theorem Reaches.contents_eq {setup : Setup} {a b : Activity} (h : Reaches setup a b) {n : ScopeId}
    (hscope : n ≤ a.call.here.scope) (hnext : n ≤ a.state.scopes.next) {id : ScopeId}
    (hid : id < n) : b.state.scopes.contents? id = a.state.scopes.contents? id := by
  induction h using Relation.ReflTransGen.head_induction_on with
  | refl => rfl
  | head hstart _ ih =>
    obtain ⟨hcall, hsame⟩ := Procedure.Makes.contents_eq hstart (Call.consists _) hscope hnext
    exact (ih hcall (Nat.le_trans hnext hstart.next_le)).trans (hsame id hid)

/-- What is reached from the call of a script command is the call itself, or it is in the scope made
for the body or in one made later. -/
theorem Reaches.contents_eq_of_invocation {setup : Setup} {here : Level} {command : ScriptCommand}
    {operands : List String} {start : Run} {a : Activity}
    (h : Reaches setup ⟨.invocation here command operands, start⟩ a) {id : ScopeId}
    (hid : id < start.scopes.next) :
    a.state.scopes.contents? id = start.scopes.contents? id := by
  rcases h.cases_head with heq | ⟨b, hstart, hreaches⟩
  · cases heq
    rfl
  cases hstart with
  | inFreshScope hscript =>
    cases hscript
    have hentered := RunM.kept_entered command.context (command.params.zip operands) command.sink
      start
    have hsame := hentered.contents id (Nat.ne_of_lt hid) (.inl hid)
    exact (Reaches.contents_eq hreaches (Nat.le_refl _) hentered.next_le hid).trans hsame

/-- A call of a script command, whether it returns or fails, leaves the variables and arrays of all
scopes made before as they were, and leaves no scope of its own. At no moment of the call, in
whatever nested script or further call, is a scope made before different from what it was. -/
theorem Setup.contents?_invoke (setup : Setup) (depth : Int) (scope : ScopeId)
    (command : ScriptCommand) (operands : List String) (start : Run) :
    let final := (((setup.env depth scope).invoke command operands).run start).2
    (∀ id < start.scopes.next, final.scopes.contents? id = start.scopes.contents? id) ∧
    (∀ id, start.scopes.contents? id = none → final.scopes.contents? id = none) ∧
    ∀ a, Reaches setup ⟨.invocation ⟨depth, scope⟩ command operands, start⟩ a →
      ∀ id < start.scopes.next, a.state.scopes.contents? id = start.scopes.contents? id := by
  have henv := RunM.writesOnly_congruence.levelEnv setup.writesOnly depth scope
  obtain ⟨store, hkept, hstore⟩ := RunM.kept_inFreshScope
    (fun id => henv.nested id command.name command.body) command.context
    (command.params.zip operands) command.sink start
  intro final
  have hfinal : final.scopes = store.drop start.scopes.next := hstore
  rw [hfinal]
  refine ⟨fun id hid => hkept.contents?_drop (.inl hid), fun id hnone => ?_, ?_⟩
  · exact (hkept.contents?_drop (.inr hnone)).trans hnone
  · exact fun a hreaches id hid => hreaches.contents_eq_of_invocation hid

/-- A body that extends, sets and removes variables of the same names as global ones, in nested
scripts and in a further call as well. -/
theorem Setup.contents?_invoke_writing_body :
    let f : ScriptCommand :=
      { name := "f", params := ["p"], context := 0,
        body := "lappend x $p; set a(k) 2; unset y; set x [g [append x 3]]" }
    let g : ScriptCommand := { name := "g", params := ["x"], context := 0, body := "append x 4" }
    let setup : Setup :=
      { commands := (CommandTable.builtins.insert "f" (.script f)).insert "g" (.script g) }
    let start : Run := { scopes :=
      (({} : Store).create none).2.setAll 0 [("x", "0"), ("y", "7"), ("a(k)", "1")] }
    let outcome := ((setup.env 0 0).invoke f ["1"]).run start
    outcome.1.toOption = some (some "0 134") ∧ 0 < start.scopes.next ∧
      (start.scopes.contents? 0).isSome ∧
      outcome.2.scopes.contents? 0 = start.scopes.contents? 0 := by
  intro f g setup start outcome
  have hok : outcome.1.toOption = some (some "0 134") := by decide +kernel
  have hid : 0 < start.scopes.next := by decide
  exact ⟨hok, hid, by decide, (setup.contents?_invoke 0 0 f ["1"] start).1 0 hid⟩

end Tickle

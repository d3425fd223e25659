import Tickle.Run.Execute

/-! # How actions of a run end

An action returns a value or raises an error, and leaves a state in both cases. A sequence is taken
apart at its first action: what follows runs only if that one returned. The other lemmas say what
the basic actions do. -/

namespace Tickle.RunM

variable {α β : Type} {x : RunM α} {f : α → RunM β} {s s' t : Run} {a : α} {b : β} {e : Error}

/-- The action returns `a` and leaves the state `t`. -/
def Returns (x : RunM α) (s : Run) (a : α) (t : Run) : Prop := x.run s = (.ok a, t)

/-- The action fails with `e` and leaves the state `t`. -/
def Raises (x : RunM α) (s : Run) (e : Error) (t : Run) : Prop := x.run s = (.error e, t)

theorem returns_or_raises (x : RunM α) (s : Run) :
    (∃ a t, x.Returns s a t) ∨ ∃ e t, x.Raises s e t := by
  rcases h : x.run s with ⟨r, t⟩
  cases r with
  | ok a => exact .inl ⟨a, t, h⟩
  | error e => exact .inr ⟨e, t, h⟩

theorem run_bind (x : RunM α) (f : α → RunM β) (s : Run) :
    (x >>= f).run s = match x.run s with
      | (.ok a, t) => (f a).run t
      | (.error e, t) => (.error e, t) := by
  rw [ExceptT.run_bind]
  rcases h : x.run s with ⟨r, t⟩
  cases r with
  | ok a =>
    simp only [bind, StateT.bind, h]
  | error e =>
    simp only [bind, StateT.bind, h]
    rfl

/-! ## Basic actions -/

@[simp] theorem run_pure (a : α) (s : Run) : (pure a : RunM α).run s = (.ok a, s) := rfl

@[simp] theorem run_throw (e : Error) (s : Run) : (throw e : RunM α).run s = (.error e, s) := rfl

@[simp] theorem run_ofExcept (r : Except Error α) (s : Run) : (ofExcept r).run s = (r, s) := rfl

@[simp] theorem run_record (entry : Trace.Entry) (s : Run) :
    (record entry).run s = (.ok (), { s with trace := s.trace.push entry }) := rfl

@[simp] theorem run_getScopes (f : Store → α) (s : Run) :
    (getScopes f).run s = (.ok (f s.scopes), s) := rfl

theorem run_traced (x : RunM α) (s : Run) :
    (traced x).run s = ((x.run { s with trace := #[] }).1,
      { (x.run { s with trace := #[] }).2 with
        trace := s.trace.push (.nested (x.run { s with trace := #[] }).2.trace.toList) }) := rfl

theorem run_tryCatch (x : RunM α) (handle : Error → RunM α) (s : Run) :
    (tryCatch x handle).run s = match x.run s with
      | (.ok a, t) => (.ok a, t)
      | (.error e, t) => (handle e).run t := by
  show (ExceptT.tryCatch x handle).run s = _
  rcases h : x.run s with ⟨r, t⟩
  have hx : x s = (r, t) := h
  cases r with
  | ok a =>
    simp only [ExceptT.tryCatch, ExceptT.mk, ExceptT.run, bind, StateT.bind, hx]
    rfl
  | error e =>
    simp only [ExceptT.tryCatch, ExceptT.mk, ExceptT.run, bind, StateT.bind, hx]

theorem run_count (env : Env) (node : Node) (s : Run) :
    (env.count node).run s = (if env.setup.limits.commands < s.count + 1 then
        .error (.limit (.commands env.setup.limits.commands) (some node.site)) else .ok (),
      { s with count := s.count + 1 }) := by
  have h : (env.count node).run s = (if env.setup.limits.commands < s.count + 1 then
      throw (.limit (.commands env.setup.limits.commands) (some node.site))
      else pure () : RunM Unit).run { s with count := s.count + 1 } := rfl
  rw [h]
  split <;> rfl

theorem returns_count {env : Env} {node : Node} (h : s.count + 1 ≤ env.setup.limits.commands) :
    (env.count node).Returns s () { s with count := s.count + 1 } := by
  rw [Returns, run_count, if_neg (Int.not_lt.2 h)]

theorem raises_count {env : Env} {node : Node} (h : env.setup.limits.commands < s.count + 1) :
    (env.count node).Raises s (.limit (.commands env.setup.limits.commands) (some node.site))
      { s with count := s.count + 1 } := by
  rw [Raises, run_count, if_pos h]

/-- Evaluation of a nested script: it has its own trace, and most errors are swallowed. -/
def shielded (x : RunM (Option String)) : RunM (Option String) :=
  tryCatch (traced x) fun e =>
    if e.escapesNesting then throw e
    else do
      note e
      return none

theorem run_shielded (x : RunM (Option String)) (s : Run) :
    x.shielded.run s = match (traced x).run s with
      | (.ok value, t) => (.ok value, t)
      | (.error e, t) =>
        if e.escapesNesting then (.error e, t) else (.ok none, { t with log := t.log.push e }) := by
  rw [shielded, run_tryCatch]
  rcases (traced x).run s with ⟨r, t⟩
  cases r with
  | ok value => rfl
  | error e =>
    dsimp only
    split <;> rfl

/-- A nested script leaves its state, with the log and the trace of the script around it. -/
theorem exists_run_shielded_eq (x : RunM (Option String)) (s : Run) :
    ∃ log trace, (x.shielded.run s).2 =
      { (x.run { s with trace := #[] }).2 with log := log, trace := trace } := by
  rw [run_shielded, run_traced]
  rcases x.run { s with trace := #[] } with ⟨r, t⟩
  cases r with
  | ok value => exact ⟨_, _, rfl⟩
  | error e =>
    dsimp only
    split <;> exact ⟨_, _, rfl⟩

/-- The state in which the body of a script command starts. -/
def entered (parent : ScopeId) (scalars : List (String × String)) (sink : Option Sink) (s : Run) :
    Run :=
  { s with
    scopes := scalars.foldl (fun scopes v => scopes.set s.scopes.next (.scalar v.1) v.2)
      (s.scopes.create (some parent)).2
    sink := sink.getD s.sink }

theorem run_inFreshScope (parent : ScopeId) (scalars : List (String × String))
    (sink : Option Sink) (x : ScopeId → RunM α) (s : Run) :
    (inFreshScope parent scalars sink x).run s =
      (((x s.scopes.next).run (entered parent scalars sink s)).1,
        { ((x s.scopes.next).run (entered parent scalars sink s)).2 with
          scopes := ((x s.scopes.next).run (entered parent scalars sink s)).2.scopes.drop
            s.scopes.next
          sink := s.sink }) := rfl

/-! ## Sequences -/

theorem Returns.run_bind (h : x.Returns s a s') (f : α → RunM β) :
    (x >>= f).run s = (f a).run s' := by
  rw [RunM.run_bind, h]

theorem Raises.bind (h : x.Raises s e t) (f : α → RunM β) : (x >>= f).Raises s e t := by
  rw [Raises, RunM.run_bind, h]

theorem returns_pure (a : α) (s : Run) : (pure a : RunM α).Returns s a s := rfl

theorem Returns.bind {f : α → RunM β} (h : x.Returns s a s') (hf : (f a).Returns s' b t) :
    (x >>= f).Returns s b t :=
  (h.run_bind f).trans hf

theorem Returns.raises_bind {f : α → RunM β} (h : x.Returns s a s') (hf : (f a).Raises s' e t) :
    (x >>= f).Raises s e t :=
  (h.run_bind f).trans hf

theorem Returns.of_bind (h : (x >>= f).Returns s b t) :
    ∃ a s', x.Returns s a s' ∧ (f a).Returns s' b t := by
  rcases returns_or_raises x s with ⟨a, s', hx⟩ | ⟨e, s', hx⟩
  · exact ⟨a, s', hx, (hx.run_bind f).symm.trans h⟩
  · have := (hx.bind f).symm.trans h
    cases this

theorem Raises.of_bind (h : (x >>= f).Raises s e t) :
    x.Raises s e t ∨ ∃ a s', x.Returns s a s' ∧ (f a).Raises s' e t := by
  rcases returns_or_raises x s with ⟨a, s', hx⟩ | ⟨e', s', hx⟩
  · exact .inr ⟨a, s', hx, (hx.run_bind f).symm.trans h⟩
  · have := (hx.bind f).symm.trans h
    cases this
    exact .inl hx

/-! ## Errors on their way out -/

theorem Raises.traced (h : x.Raises { s with trace := #[] } e t) :
    (traced x).Raises s e { t with trace := s.trace.push (.nested t.trace.toList) } := by
  rw [Raises, run_traced, h]

theorem Raises.shielded {x : RunM (Option String)} (h : x.Raises { s with trace := #[] } e t)
    (he : e.escapesNesting) :
    x.shielded.Raises s e { t with trace := s.trace.push (.nested t.trace.toList) } := by
  rw [Raises, run_shielded, h.traced]
  exact if_pos he

theorem Raises.inFreshScope {parent : ScopeId} {scalars : List (String × String)}
    {sink : Option Sink} {x : ScopeId → RunM α}
    (h : (x s.scopes.next).Raises (entered parent scalars sink s) e t) :
    (inFreshScope parent scalars sink x).Raises s e
      { t with scopes := t.scopes.drop s.scopes.next, sink := s.sink } := by
  rw [Raises, run_inFreshScope, h]

theorem Raises.of_traced (h : x.traced.Raises s e t) :
    ∃ t', x.Raises { s with trace := #[] } e t' := by
  rw [Raises, run_traced] at h
  exact ⟨_, Prod.ext (Prod.mk.inj h).1 rfl⟩

theorem Raises.of_shielded {x : RunM (Option String)} (h : x.shielded.Raises s e t) :
    ∃ t', x.Raises { s with trace := #[] } e t' := by
  rw [Raises, run_shielded] at h
  rcases returns_or_raises x.traced s with ⟨a, t', hx⟩ | ⟨e', t', hx⟩
  · rw [hx] at h
    cases h
  · rw [hx] at h
    dsimp only at h
    split at h
    · cases h
      exact hx.of_traced
    · cases h

theorem Raises.of_inFreshScope {parent : ScopeId} {scalars : List (String × String)}
    {sink : Option Sink} {x : ScopeId → RunM α}
    (h : (RunM.inFreshScope parent scalars sink x).Raises s e t) :
    ∃ t', (x s.scopes.next).Raises (entered parent scalars sink s) e t' := by
  rw [Raises, run_inFreshScope] at h
  exact ⟨_, Prod.ext (Prod.mk.inj h).1 rfl⟩

end Tickle.RunM

import Tickle.Proofs.Run.Congruence

/-! # Larger limits

A limit does nothing but end a run. So a run that ends otherwise, with a value or with an error of
the script, is the same under any larger limits: the result, the trace, the output, the log, the
number of commands and the scopes that it leaves. -/

namespace Tickle

instance : LE Limits where
  le limits limits' := limits.commands ≤ limits'.commands ∧
    limits.iterations ≤ limits'.iterations ∧ limits.nesting ≤ limits'.nesting

instance (limits limits' : Limits) : Decidable (limits ≤ limits') :=
  inferInstanceAs (Decidable (_ ∧ _ ∧ _))

namespace RunM

variable {α β : Type}

/-- The action ends because a limit is exceeded. -/
def Exceeds (x : RunM α) (s : Run) : Prop := ∃ fault site t, x.Raises s (.limit fault site) t

theorem Exceeds.bind {x : RunM α} {s : Run} (h : x.Exceeds s) (f : α → RunM β) :
    (x >>= f).Exceeds s := by
  obtain ⟨fault, site, t, hx⟩ := h
  exact ⟨fault, site, t, hx.bind f⟩

theorem Exceeds.of_returns {x : RunM α} {s s' : Run} {a : α} (hx : x.Returns s a s')
    {f : α → RunM β} (hf : (f a).Exceeds s') : (x >>= f).Exceeds s := by
  obtain ⟨fault, site, t, hf⟩ := hf
  exact ⟨fault, site, t, (hx.run_bind f).trans hf⟩

theorem Exceeds.traced {x : RunM α} {s : Run} (h : x.Exceeds { s with trace := #[] }) :
    (traced x).Exceeds s := by
  obtain ⟨fault, site, t, hx⟩ := h
  exact ⟨fault, site, _, hx.traced⟩

theorem Exceeds.shielded {x : RunM (Option String)} {s : Run}
    (h : x.Exceeds { s with trace := #[] }) : x.shielded.Exceeds s := by
  obtain ⟨fault, site, t, hx⟩ := h
  exact ⟨fault, site, _, hx.shielded rfl⟩

theorem Exceeds.inFreshScope {parent : ScopeId} {scalars : List (String × String)}
    {sink : Option Sink} {x : ScopeId → RunM α} {s : Run}
    (h : (x s.scopes.next).Exceeds (entered parent scalars sink s)) :
    (inFreshScope parent scalars sink x).Exceeds s := by
  obtain ⟨fault, site, t, hx⟩ := h
  exact ⟨fault, site, _, hx.inFreshScope⟩

theorem exceeds_count {env : Env} {node : Node} {s : Run}
    (h : env.setup.limits.commands < s.count + 1) : (env.count node).Exceeds s :=
  ⟨_, _, _, raises_count h⟩

/-- Unless the first action exceeds a limit, the second does the same. -/
def Agrees (_ : ScopeId) {α : Type} (x y : RunM α) : Prop :=
  ∀ s, ¬ x.Exceeds s → y.run s = x.run s

theorem agrees_refl (scope : ScopeId) (x : RunM α) : Agrees scope x x := fun _ _ => rfl

theorem Agrees.bind {scope : ScopeId} {x y : RunM α} {f g : α → RunM β}
    (hxy : Agrees scope x y) (hfg : ∀ a, Agrees scope (f a) (g a)) :
    Agrees scope (x >>= f) (y >>= g) := by
  intro s hne
  have hy : y.run s = x.run s := hxy s fun hx => hne (hx.bind f)
  rcases returns_or_raises x s with ⟨a, s', hx⟩ | ⟨e, t, hx⟩
  · have hf : ¬ (f a).Exceeds s' := fun hf => hne (.of_returns hx hf)
    rw [hx.run_bind f, Returns.run_bind (hy.trans hx) g]
    exact hfg a s' hf
  · exact (Raises.bind (hy.trans hx) g).trans (hx.bind f).symm

theorem Agrees.traced {scope : ScopeId} {x y : RunM α} (h : Agrees scope x y) :
    Agrees scope (traced x) (traced y) := by
  intro s hne
  rw [run_traced, run_traced, h _ fun hx => hne hx.traced]

theorem agrees_congruence : Congruence Agrees where
  pure scope a := agrees_refl scope _
  bind := Agrees.bind
  raise scope _ _ := agrees_refl scope _
  exceed scope fault site y := fun s hne => absurd ⟨fault, site, s, rfl⟩ hne
  read scope f := agrees_refl scope _
  assign scope name value := agrees_refl scope _
  erase scope name := agrees_refl scope _
  write scope text := agrees_refl scope _
  record scope entry := agrees_refl scope _
  shield := by
    intro scope x y h s hne
    have hx : ¬ x.Exceeds { s with trace := #[] } := fun hx => hne hx.shielded
    rw [run_shielded, run_shielded, run_traced, run_traced, h _ hx]
  enter := by
    intro scope parent scalars sink x y h s hne
    rw [run_inFreshScope, run_inFreshScope, (h _).traced _ fun hx => hne hx.inFreshScope]

end RunM

theorem Setup.related_of_limits_le (setup : Setup) {limits' : Limits} (h : setup.limits ≤ limits') :
    setup.Related RunM.Agrees { setup with limits := limits' } where
  prompt := rfl
  commands := rfl
  iterations := h.2.1
  nesting := h.2.2
  count := by
    rintro scope env env' node rfl he s hne
    have hc : ¬ env.setup.limits.commands < s.count + 1 := fun hc => hne (RunM.exceeds_count hc)
    have hc' : ¬ env'.setup.limits.commands < s.count + 1 := by
      rw [he]
      exact fun hlt => hc (Int.lt_of_le_of_lt h.1 hlt)
    rw [RunM.run_count, RunM.run_count, if_neg hc, if_neg hc']

/-- A run that exceeds no limit ends in the same way, and leaves the same state, under limits that
are each at least as large. -/
theorem Setup.run_of_limits_le (setup : Setup) {limits' : Limits} (hle : setup.limits ≤ limits')
    (depth : Int) (scope : ScopeId) (name script : String) (start : Run)
    (hends : ∀ fault site final,
      (setup.run depth scope name script).run start ≠ (.error (.limit fault site), final)) :
    ({ setup with limits := limits' }.run depth scope name script).run start
      = (setup.run depth scope name script).run start := by
  have hrelated := setup.related_of_limits_le hle
  refine RunM.agrees_congruence.run hrelated depth scope name script start ?_
  rintro ⟨fault, site, final, h⟩
  exact hends fault site final h

/-- Two commands on two levels stay within limits of two commands and two levels. -/
theorem Setup.run_nested_of_limits_le :
    let setup : Setup := { limits := ⟨2, 0, 2⟩ }
    let start : Run := { scopes := (({} : Store).create none).2 }
    ((setup.run 1 0 "main" "set a [set b 1]").run start).1.toOption = some (some "1") ∧
      ({ setup with limits := ⟨5, 0, 3⟩ }.run 1 0 "main" "set a [set b 1]").run start
        = (setup.run 1 0 "main" "set a [set b 1]").run start := by
  intro setup start
  have hok : ((setup.run 1 0 "main" "set a [set b 1]").run start).1.toOption
      = some (some "1") := by decide +kernel
  refine ⟨hok, setup.run_of_limits_le (by decide) 1 0 "main" "set a [set b 1]" start ?_⟩
  intro fault site final h
  rw [h] at hok
  cases hok

end Tickle

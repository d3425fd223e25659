import Tickle.Proofs.Run.Activity
import Tickle.Proofs.Run.Growth

/-! # Errors leave a run as they are

Where an activity fails, the one that started it fails with the same error, and so on outward; only
a nested script stops errors, and those of limits it lets pass. On the way out nothing is counted,
written or assigned any more; the scopes of script commands are given up. -/

namespace Tickle

/-- Scopes are numbered in order while a text comes to a call. -/
theorem Procedure.Makes.next_le {setup : Setup} {m : Manner} {scope : ScopeId} {α : Type}
    {p : Procedure α} {s : Run} {a : Activity} (h : p.Makes setup s a)
    (hp : p.Consists setup m scope) : s.scopes.next ≤ a.state.scopes.next := by
  induction h generalizing m scope with
  | call c s => exact Nat.le_refl _
  | first _ ih => exact ih hp.1
  | next hv _ ih =>
    have hgrow := RunM.scopesGrow_congruence.procedureAction setup.scopesGrow hp.1
    exact Nat.le_trans (hgrow.le_of_returns hv) (ih (hp.2 _))
  | shielded _ ih => exact ih (Procedure.RunsScript.consists hp)
  | @inFreshScope parent scalars sink p s a _ ih =>
    have hnext : s.scopes.next ≤ (RunM.entered parent scalars sink s).scopes.next := by simp
    exact Nat.le_trans hnext (ih (hp s.scopes.next).consists)

theorem Starts.next_le {setup : Setup} {a b : Activity} (h : Starts setup a b) :
    a.state.scopes.next ≤ b.state.scopes.next :=
  Procedure.Makes.next_le h a.call.consists

/-! ## What is left when an activity has failed -/

/-- The variables and arrays of a scope. -/
def Store.contents? (store : Store) (id : ScopeId) :
    Option (Table String × Table (Table String)) :=
  store.scopes[id]?.map fun scope => (scope.scalars, scope.arrays)

theorem Store.contents?_drop (store : Store) (id id' : ScopeId) :
    (store.drop id).contents? id' = if id' = id then none else store.contents? id' := by
  unfold contents? drop
  rw [Std.ExtTreeMap.getElem?_map, Std.ExtTreeMap.getElem?_erase]
  by_cases h : id' = id
  · rw [if_pos (Nat.compare_eq_eq.2 h.symm), if_pos h]
    rfl
  · rw [if_neg (fun hc => h (Nat.compare_eq_eq.1 hc).symm), if_neg h, Option.map_map]
    refine congrArg (Option.map · _) (funext fun scope => ?_)
    dsimp only [Function.comp]
    split <;> rfl

/-- From the state `s` in which an activity failed to the state `t` in which the one that began in
`start` ends: counts, output and log are the same, and so are the scopes, except that some of those
made since `start` are gone. -/
structure Unwinds (start s t : Run) : Prop where
  count : t.count = s.count
  output : t.output = s.output
  log : t.log = s.log
  kept (id : ScopeId) : t.scopes.contents? id = s.scopes.contents? id ∨
    start.scopes.next ≤ id ∧ t.scopes.contents? id = none

namespace Unwinds

variable {start start' s t u : Run}

theorem refl (start s : Run) : Unwinds start s s := ⟨rfl, rfl, rfl, fun _ => .inl rfl⟩

/-- What was made since a later moment was made since an earlier one. -/
theorem mono (h : Unwinds start' s t) (hle : start.scopes.next ≤ start'.scopes.next) :
    Unwinds start s t :=
  ⟨h.count, h.output, h.log, fun id => (h.kept id).imp_right fun hgone =>
    ⟨Nat.le_trans hle hgone.1, hgone.2⟩⟩

theorem trans (hst : Unwinds start s t) (htu : Unwinds start t u) : Unwinds start s u where
  count := htu.count.trans hst.count
  output := htu.output.trans hst.output
  log := htu.log.trans hst.log
  kept id := by
    rcases htu.kept id with hu | hu
    · rcases hst.kept id with ht | ⟨hid, ht⟩
      · exact .inl (hu.trans ht)
      · exact .inr ⟨hid, hu.trans ht⟩
    · exact .inr hu

end Unwinds

/-- An exceeded limit fails every text in which it is reached. -/
theorem Procedure.Makes.raises {setup : Setup} {m : Manner} {scope : ScopeId} {α : Type}
    {p : Procedure α} {s t : Run} {a : Activity} {e : Error} (h : p.Makes setup s a)
    (hp : p.Consists setup m scope) (he : e.escapesNesting) (ha : a.Raises setup e t) :
    ∃ t', (p.action setup).Raises s e t' ∧ Unwinds s t t' := by
  induction h generalizing m scope with
  | call c s => exact ⟨t, ha, .refl s t⟩
  | first _ ih =>
    obtain ⟨t', hr, hunwinds⟩ := ih hp.1 ha
    exact ⟨t', hr.bind _, hunwinds⟩
  | next hv _ ih =>
    obtain ⟨t', hr, hunwinds⟩ := ih (hp.2 _) ha
    have hgrow := RunM.scopesGrow_congruence.procedureAction setup.scopesGrow hp.1
    exact ⟨t', hv.raises_bind hr, hunwinds.mono (hgrow.le_of_returns hv)⟩
  | shielded _ ih =>
    obtain ⟨t', hr, hunwinds⟩ := ih (Procedure.RunsScript.consists hp) ha
    refine ⟨_, hr.shielded he, ?_⟩
    exact ⟨hunwinds.count, hunwinds.output, hunwinds.log, hunwinds.kept⟩
  | @inFreshScope parent scalars sink p s a _ ih =>
    obtain ⟨t', hr, hunwinds⟩ := ih (hp s.scopes.next).consists ha
    have hbody : ((Procedure.inFreshScope parent scalars sink p).action setup).Raises s e _ :=
      RunM.Raises.inFreshScope (RunM.Raises.traced hr)
    have hnext : s.scopes.next ≤ (RunM.entered parent scalars sink s).scopes.next := by simp
    refine ⟨_, hbody, hunwinds.count, hunwinds.output, hunwinds.log, fun id => ?_⟩
    rw [Store.contents?_drop]
    by_cases hid : id = s.scopes.next
    · exact .inr ⟨Nat.le_of_eq hid.symm, if_pos hid⟩
    · rw [if_neg hid]
      have hmono : Unwinds s t t' := hunwinds.mono hnext
      exact hmono.kept id

theorem Starts.raises {setup : Setup} {a b : Activity} {t : Run} {e : Error}
    (h : Starts setup a b) (he : e.escapesNesting) (hb : b.Raises setup e t) :
    ∃ t', a.Raises setup e t' ∧ Unwinds a.state t t' := by
  have hraises := Procedure.Makes.raises h a.call.consists he hb
  rwa [Call.action_body] at hraises

/-- An exceeded limit, however deep, ends every activity from which it was reached. -/
theorem Reaches.raises {setup : Setup} {a b : Activity} {t : Run} {e : Error}
    (h : Reaches setup a b) (he : e.escapesNesting) (hb : b.Raises setup e t) :
    ∃ t', a.Raises setup e t' ∧ Unwinds a.state t t' := by
  induction h using Relation.ReflTransGen.head_induction_on with
  | refl => exact ⟨t, hb, .refl _ t⟩
  | head hstart _ ih =>
    obtain ⟨t₁, ht₁, hunwinds⟩ := ih
    obtain ⟨t₂, ht₂, hstep⟩ := hstart.raises he ht₁
    exact ⟨t₂, ht₂, (hunwinds.mono hstart.next_le).trans hstep⟩

end Tickle

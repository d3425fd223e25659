import Tickle.Proofs.Run.LargerLimits

/-! # What only grows

Numbers of scopes are never given out again, and commands are counted up to the limit and one
further only if the run ends there. Both are kept by every action, so by every part of a run. -/

namespace Tickle

namespace Store

@[simp] theorem next_update (store : Store) (id : ScopeId) (f : Scope → Scope) :
    (store.update id f).next = store.next := by
  unfold update
  split <;> rfl

@[simp] theorem next_set (store : Store) (id : ScopeId) (name : VarName) (value : String) :
    (store.set id name value).next = store.next := next_update ..

@[simp] theorem next_erase (store : Store) (id : ScopeId) (name : VarName) :
    (store.erase id name).next = store.next := next_update ..

@[simp] theorem next_drop (store : Store) (id : ScopeId) : (store.drop id).next = store.next := rfl

end Store

namespace RunM

variable {α β : Type}

@[simp] theorem next_entered (parent : ScopeId) (scalars : List (String × String))
    (sink : Option Sink) (s : Run) :
    (entered parent scalars sink s).scopes.next = s.scopes.next + 1 := by
  have h : ∀ (store : Store), (scalars.foldl (fun scopes v =>
      scopes.set s.scopes.next (.scalar v.1) v.2) store).next = store.next := by
    induction scalars with
    | nil => exact fun store => rfl
    | cons v rest ih =>
      intro store
      rw [List.foldl_cons, ih, Store.next_set]
  exact h _

/-- Numbers of scopes that are taken stay taken. -/
def ScopesGrow (_ : ScopeId) {α : Type} (x _ : RunM α) : Prop :=
  ∀ s, s.scopes.next ≤ (x.run s).2.scopes.next

theorem ScopesGrow.le_of_returns {α : Type} {scope : ScopeId} {x y : RunM α}
    (h : ScopesGrow scope x y) {s s' : Run} {a : α} (hx : x.Returns s a s') :
    s.scopes.next ≤ s'.scopes.next := by
  have hs := h s
  rw [hx] at hs
  exact hs

theorem scopesGrow_congruence : Congruence ScopesGrow where
  pure _ _ := fun s => Nat.le_refl _
  bind := by
    intro α β scope x y f g hx hf s
    have hxs := hx s
    rcases returns_or_raises x s with ⟨a, s', h⟩ | ⟨e, t, h⟩
    · rw [h] at hxs
      rw [h.run_bind f]
      exact Nat.le_trans hxs (hf a s')
    · rw [h] at hxs
      rw [h.bind f]
      exact hxs
  raise _ _ _ := fun s => Nat.le_refl _
  exceed _ _ _ _ := fun s => Nat.le_refl _
  read _ _ := fun s => Nat.le_refl _
  assign _ _ _ := fun s => Nat.le_of_eq (Store.next_set ..).symm
  erase _ _ := fun s => Nat.le_of_eq (Store.next_erase ..).symm
  write _ _ := fun s => Nat.le_refl _
  record _ _ := fun s => Nat.le_refl _
  shield := by
    intro scope x y hx s
    obtain ⟨log, trace, h⟩ := exists_run_shielded_eq x s
    rw [h]
    exact hx { s with trace := #[] }
  enter := by
    intro scope parent scalars sink x y hx s
    have hxs := hx s.scopes.next { entered parent scalars sink s with trace := #[] }
    rw [run_inFreshScope, run_traced, Store.next_drop]
    refine Nat.le_trans (Nat.le_succ _) (Nat.le_trans (Nat.le_of_eq ?_) hxs)
    exact (next_entered parent scalars sink s).symm

/-- From at most `limit` commands on, at most `limit` are counted, or one more where the action
exceeds a limit. -/
def CountsWithin (limit : Int) (_ : ScopeId) {α : Type} (x _ : RunM α) : Prop :=
  ∀ s, (s.count : Int) ≤ limit →
    (x.run s).2.count ≤ limit ∨ x.Exceeds s ∧ (x.run s).2.count ≤ limit + 1

theorem countsWithin_congruence (limit : Int) : Congruence (CountsWithin limit) where
  pure _ _ := fun s hs => .inl hs
  bind := by
    intro α β scope x y f g hx hf s hs
    rcases returns_or_raises x s with ⟨a, s', h⟩ | ⟨e, t, h⟩
    · have hs' : (s'.count : Int) ≤ limit := by
        rcases hx s hs with hle | ⟨⟨fault, site, t, hex⟩, -⟩
        · rwa [h] at hle
        · cases h.symm.trans hex
      rw [h.run_bind f]
      rcases hf a s' hs' with hle | ⟨hex, hle⟩
      · exact .inl hle
      · exact .inr ⟨.of_returns h hex, hle⟩
    · have hxs := hx s hs
      rw [h] at hxs
      rw [h.bind f]
      exact hxs.imp id fun hex => ⟨hex.1.bind f, hex.2⟩
  raise _ _ _ := fun s hs => .inl hs
  exceed _ _ _ _ := fun s hs => .inl hs
  read _ _ := fun s hs => .inl hs
  assign _ _ _ := fun s hs => .inl hs
  erase _ _ := fun s hs => .inl hs
  write _ _ := fun s hs => .inl hs
  record _ _ := fun s hs => .inl hs
  shield := by
    intro scope x y hx s hs
    obtain ⟨log, trace, h⟩ := exists_run_shielded_eq x s
    rw [h]
    exact (hx { s with trace := #[] } hs).imp id fun hex => ⟨hex.1.shielded, hex.2⟩
  enter := by
    intro scope parent scalars sink x y hx s hs
    have hxs := hx s.scopes.next { entered parent scalars sink s with trace := #[] } hs
    rw [run_inFreshScope, run_traced]
    exact hxs.imp id fun hex => ⟨hex.1.traced.inFreshScope, hex.2⟩

end RunM

namespace Setup

theorem scopesGrow (setup : Setup) : setup.Related RunM.ScopesGrow setup where
  prompt := rfl
  commands := rfl
  iterations := Int.le_refl _
  nesting := Int.le_refl _
  count scope env env' node _ _ := fun s => Nat.le_of_eq (by rw [RunM.run_count])

theorem countsWithin (setup : Setup) :
    setup.Related (RunM.CountsWithin setup.limits.commands) setup where
  prompt := rfl
  commands := rfl
  iterations := Int.le_refl _
  nesting := Int.le_refl _
  count := by
    rintro scope env env' node rfl - s hs
    by_cases h : env.setup.limits.commands < s.count + 1
    · refine .inr ⟨RunM.exceeds_count h, ?_⟩
      rw [RunM.run_count]
      exact Int.add_le_add_right hs 1
    · refine .inl ?_
      rw [RunM.run_count]
      exact Int.not_lt.1 h

end Setup

end Tickle

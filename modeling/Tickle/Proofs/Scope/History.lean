import Tickle.Proofs.Scope.Writes

/-! # The history of a scope

A scope that has none around it is a plain map on written names. What a variable holds is what was
last set under exactly its name, unless it was deleted since or the scope was cleared; scalars,
elements and names with parentheses of any kind never get into each other's way. Arrays come and go
with their elements, so none that is stored is empty. -/

namespace Tickle

/-- What can be done to the variables of a scope, under their written names. -/
inductive Change where
  | set (name value : String)
  | delete (name : String)
  | clear

namespace Change

/-- What a change makes of a scope. -/
def onScope : Change → Scope → Scope
  | set name value => fun s => s.set (.read name) value
  | delete name => fun s => s.erase (.read name)
  | clear => Scope.clear

/-- Carries out a change in a scope of the store. -/
def apply (id : ScopeId) (store : Store) : Change → Store
  | set name value => store.set id (.read name) value
  | delete name => store.erase id (.read name)
  | clear => store.clear id

/-- The change sets or removes what the name stands for. -/
def Touches (name : String) : Change → Prop
  | set name' _ => name' = name
  | delete name' => name' = name
  | clear => True

/-- Among the changes is one that sets the name to this value, and nothing touches the name after
it. -/
def LastSet (name value : String) (changes : List Change) : Prop :=
  ∃ before after, changes = before ++ set name value :: after ∧ ∀ c ∈ after, ¬ c.Touches name

variable {name value : String} {c : Change} {changes : List Change}

theorem not_lastSet_nil : ¬ LastSet name value [] := by
  rintro ⟨before, after, hchanges, -⟩
  cases before <;> cases hchanges

theorem lastSet_cons : LastSet name value (c :: changes) ↔
    LastSet name value changes ∨ c = set name value ∧ ∀ c ∈ changes, ¬ c.Touches name := by
  constructor
  · rintro ⟨before, after, hchanges, hafter⟩
    cases before with
    | nil =>
      obtain ⟨rfl, rfl⟩ := List.cons.inj hchanges
      exact .inr ⟨rfl, hafter⟩
    | cons d before =>
      obtain ⟨rfl, rfl⟩ := List.cons.inj hchanges
      exact .inl ⟨before, after, rfl, hafter⟩
  · rintro (⟨before, after, rfl, hafter⟩ | ⟨rfl, hafter⟩)
    · exact ⟨c :: before, after, rfl, hafter⟩
    · exact ⟨[], changes, rfl, hafter⟩

end Change

namespace Scope

variable {s : Scope} {c : Change} {name value : String}

/-! ## Values -/

/-- A change touches one name, or all of them. -/
theorem get?_onScope_iff : (c.onScope s).get? (.read name) = some value ↔
    c = .set name value ∨ ¬ c.Touches name ∧ s.get? (.read name) = some value := by
  cases c with
  | set name' value' =>
    rw [Change.onScope, get?_set]
    by_cases hname : name' = name
    · simp [hname, Change.Touches]
    · have hread : VarName.read name' ≠ .read name := mt VarName.read_injective hname
      simp [hname, hread, Change.Touches]
  | delete name' =>
    rw [Change.onScope, get?_erase]
    by_cases hname : name' = name
    · simp [hname, Change.Touches]
    · have hread : VarName.read name' ≠ .read name := mt VarName.read_injective hname
      simp [hname, hread, Change.Touches]
  | clear => simp [Change.onScope, get?_clear, Change.Touches]

/-- After some changes a name has the value that was last set, or the one it had if nothing touched
it. -/
theorem get?_changes_iff (changes : List Change) (s : Scope) :
    (changes.foldl (fun s c => c.onScope s) s).get? (.read name) = some value ↔
      Change.LastSet name value changes ∨
        (∀ c ∈ changes, ¬ c.Touches name) ∧ s.get? (.read name) = some value := by
  induction changes generalizing s with
  | nil => simp [Change.not_lastSet_nil]
  | cons c changes ih =>
    rw [List.foldl_cons, ih, get?_onScope_iff, Change.lastSet_cons, List.forall_mem_cons]
    constructor
    · rintro (hlast | ⟨hafter, hc | ⟨hc, hs⟩⟩)
      · exact .inl (.inl hlast)
      · exact .inl (.inr ⟨hc, hafter⟩)
      · exact .inr ⟨⟨hc, hafter⟩, hs⟩
    · rintro ((hlast | ⟨hc, hafter⟩) | ⟨⟨hc, hafter⟩, hs⟩)
      · exact .inl hlast
      · exact .inr ⟨hafter, .inl hc⟩
      · exact .inr ⟨hafter, .inr ⟨hc, hs⟩⟩

/-! ## Arrays -/

/-- No array is stored without elements. -/
def Tidy (s : Scope) : Prop :=
  ∀ (array : String) (elements : Table String), s.arrays[array]? = some elements →
    elements.isEmpty = false

theorem Tidy.set (h : s.Tidy) (name : VarName) (value : String) : (s.set name value).Tidy := by
  cases name with
  | scalar => exact h
  | element array index =>
    intro array' elements helements
    simp only [Scope.set, setElement, Std.ExtTreeMap.getElem?_insert] at helements
    split at helements
    · cases helements
      simp
    · exact h array' elements helements

theorem Tidy.erase (h : s.Tidy) (name : VarName) : (s.erase name).Tidy := by
  cases name with
  | scalar => exact h
  | element array index =>
    intro array' elements helements
    simp only [Scope.erase, eraseElement] at helements
    cases harray : s.arrays[array]? with
    | none =>
      rw [harray] at helements
      exact h array' elements helements
    | some before =>
      rw [harray] at helements
      dsimp only at helements
      split at helements
      · rw [Std.ExtTreeMap.getElem?_erase] at helements
        split at helements
        · cases helements
        · exact h array' elements helements
      · rename_i hleft
        rw [Std.ExtTreeMap.getElem?_insert] at helements
        split at helements
        · cases helements
          exact Bool.eq_false_iff.2 hleft
        · exact h array' elements helements

theorem Tidy.clear (s : Scope) : s.clear.Tidy := by
  intro array elements helements
  simp [Scope.clear] at helements

theorem Tidy.onScope (h : s.Tidy) (c : Change) : (c.onScope s).Tidy := by
  cases c with
  | set name value => exact h.set _ value
  | delete name => exact h.erase _
  | clear => exact .clear s

theorem Tidy.foldl (h : s.Tidy) (changes : List Change) :
    (changes.foldl (fun s c => c.onScope s) s).Tidy := by
  induction changes generalizing s with
  | nil => exact h
  | cons c changes ih => exact ih (h.onScope c)

theorem parent_erase (s : Scope) (name : VarName) : (s.erase name).parent = s.parent := by
  cases name with
  | scalar => rfl
  | element array index =>
    simp only [Scope.erase, eraseElement]
    split
    · rfl
    · split <;> rfl

theorem parent_onScope (c : Change) (s : Scope) : (c.onScope s).parent = s.parent := by
  cases c with
  | set name value => exact s.parent_set _ value
  | delete name => exact s.parent_erase _
  | clear => rfl

theorem parent_foldl (changes : List Change) (s : Scope) :
    (changes.foldl (fun s c => c.onScope s) s).parent = s.parent := by
  induction changes generalizing s with
  | nil => rfl
  | cons c changes ih => exact (ih _).trans (parent_onScope c s)

end Scope

namespace Store

variable {store : Store} {id : ScopeId} {s : Scope}

/-! ## In the store -/

/-- A scope with none around it has what it holds itself. -/
theorem get?_of_parent_none (h : store.scopes[id]? = some s) (hparent : s.parent = none)
    (name : VarName) : store.get? id name = s.get? name := by
  have hfind {α : Type} (f : Scope → Option α) : store.find? id f = f s := by
    rw [find?_of_getElem? h, hparent, Option.bind_none, Option.or_none]
  cases name with
  | scalar name => exact hfind _
  | element array index =>
    rw [get?, element?, array?, hfind]
    rfl

theorem getElem?_apply (h : store.scopes[id]? = some s) (c : Change) :
    (c.apply id store).scopes[id]? = some (c.onScope s) := by
  have hupdate (g : Scope → Scope) : (store.update id g).scopes[id]? = some (g s) := by
    rw [getElem?_update h, if_pos rfl]
  cases c with
  | set name value => exact hupdate _
  | delete name => exact hupdate _
  | clear => exact hupdate _

/-- Changes to a scope of the store are changes to what it holds. -/
theorem getElem?_changes (h : store.scopes[id]? = some s) (changes : List Change) :
    (changes.foldl (Change.apply id) store).scopes[id]? =
      some (changes.foldl (fun s c => c.onScope s) s) := by
  induction changes generalizing store s with
  | nil => exact h
  | cons c changes ih => exact ih (getElem?_apply h c)

/-- The store in which a new scope with none around it went through some changes. -/
def changed (store : Store) (changes : List Change) : Store :=
  changes.foldl (Change.apply (store.create none).1) (store.create none).2

theorem getElem?_create (store : Store) (parent : Option ScopeId) :
    (store.create parent).2.scopes[(store.create parent).1]? = some { parent := parent } := by
  simp [create]

/-- Whatever was set, deleted and cleared, a name has the value that was last set under it and
neither deleted nor cleared since, or none; and no array is left without elements. -/
theorem changed_plain_map (store : Store) (changes : List Change) :
    ∃ s, (store.changed changes).scopes[(store.create none).1]? = some s ∧ s.Tidy ∧
      ∀ name value, (store.changed changes).get? (store.create none).1 (.read name) = some value ↔
        Change.LastSet name value changes := by
  have hafter := getElem?_changes (store.getElem?_create none) changes
  refine ⟨_, hafter, (Scope.Tidy.clear {}).foldl changes, fun name value => ?_⟩
  have hparent := Scope.parent_foldl changes ({} : Scope)
  have hnone : ({} : Scope).get? (.read name) = none := Scope.get?_clear {} _
  rw [changed, get?_of_parent_none hafter hparent, Scope.get?_changes_iff]
  simp [hnone]

/-- A scalar and elements of several arrays with similar names. -/
example :
    let changes := [.set "a(1)" "x", .set "a" "y", .set "a((1)" "z", .delete "a(1)"]
    ["a(1)", "a", "a((1)", "a("].map (fun name => (Store.changed {} changes).get? 0 (.read name)) =
      [none, some "y", some "z", none] := by
  decide +kernel

end Store

end Tickle

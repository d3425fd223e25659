import Tickle.Scope.Store

/-! # Reading after a write

A write changes one living scope. Reading starts at that scope and goes outward, to scopes that are
older, so what the write did is seen at the first step or not at all. Names do not disturb one
another but in one way: an array is looked up as a whole, so the first element that a scope sets
hides the elements of an array of that name further out. -/

namespace Tickle

namespace Scope

theorem parent_set (s : Scope) (name : VarName) (value : String) :
    (s.set name value).parent = s.parent := by
  cases name <;> rfl

/-- A write of the first variable to the scope hides the second one: both are elements of one array,
which the scope itself does not have yet. -/
def hides (s : Scope) : VarName → VarName → Bool
  | .element array _, .element array' _ => array = array' && s.arrays[array]?.isNone
  | _, _ => false

end Scope

namespace Store

variable {α : Type} {store : Store} {id : ScopeId} {s : Scope}

/-- A living scope is asked first, then those around it. -/
theorem find?_of_getElem? (h : store.scopes[id]? = some s) (f : Scope → Option α) :
    store.find? id f =
      (f s).or (s.parent.bind fun parent =>
        if parent < id then store.find? parent f else none) := by
  rw [find?, h]
  dsimp only
  cases f s with
  | some a => rfl
  | none => cases s.parent <;> rfl

theorem find?_of_none (h : store.scopes[id]? = none) (f : Scope → Option α) :
    store.find? id f = none := by
  rw [find?, h]

/-- Only a living scope has variables. -/
theorem exists_of_get? {name : VarName} {value : String} (h : store.get? id name = some value) :
    ∃ s, store.scopes[id]? = some s := by
  cases hs : store.scopes[id]? with
  | some s => exact ⟨s, rfl⟩
  | none =>
    cases name with
    | scalar name => cases (find?_of_none hs _).symm.trans h
    | element array index =>
      rw [get?, element?, array?, find?_of_none hs] at h
      cases h

theorem getElem?_update (h : store.scopes[id]? = some s) (g : Scope → Scope) (id' : ScopeId) :
    (store.update id g).scopes[id']? = if id = id' then some (g s) else store.scopes[id']? := by
  have hupdate : store.update id g = { store with scopes := store.scopes.insert id (g s) } := by
    simp only [update, h]
  rw [hupdate]
  simp [Std.ExtTreeMap.getElem?_insert]

/-- An older scope does not see what happens to a younger one. -/
theorem find?_update_of_lt (h : store.scopes[id]? = some s) (g : Scope → Scope)
    (f : Scope → Option α) {older : ScopeId} (hlt : older < id) :
    (store.update id g).find? older f = store.find? older f := by
  induction older using Nat.strongRecOn with
  | ind older ih =>
    have hsame : (store.update id g).scopes[older]? = store.scopes[older]? := by
      rw [getElem?_update h, if_neg (Nat.ne_of_gt hlt)]
    cases hs : store.scopes[older]? with
    | none => rw [find?_of_none hs, find?_of_none (hsame.trans hs)]
    | some s' =>
      rw [find?_of_getElem? hs, find?_of_getElem? (hsame.trans hs)]
      congr 2
      funext parent
      split
      · rename_i hparent
        exact ih parent hparent (Nat.lt_trans hparent hlt)
      · rfl

/-- A changed scope is asked first, then those around it as before. -/
theorem find?_update_self (h : store.scopes[id]? = some s) {g : Scope → Scope}
    (hp : (g s).parent = s.parent) (f : Scope → Option α) :
    (store.update id g).find? id f = (f (g s)).or
      (s.parent.bind fun parent => if parent < id then store.find? parent f else none) := by
  have hself : (store.update id g).scopes[id]? = some (g s) := by
    rw [getElem?_update h, if_pos rfl]
  rw [find?_of_getElem? hself, hp]
  congr 2
  funext parent
  split
  · rename_i hlt
    exact find?_update_of_lt h g f hlt
  · rfl

/-! ## Variables -/

section Variables

variable (h : store.scopes[id]? = some s)
include h

theorem scalar?_set (name : VarName) (value scalar : String) :
    (store.set id name value).scalar? id scalar = ((s.set name value).scalars[scalar]?).or
      (s.parent.bind fun parent => if parent < id then store.scalar? parent scalar else none) :=
  find?_update_self h (s.parent_set name value) _

theorem array?_set (name : VarName) (value array : String) :
    (store.set id name value).array? id array = ((s.set name value).arrays[array]?).or
      (s.parent.bind fun parent => if parent < id then store.array? parent array else none) :=
  find?_update_self h (s.parent_set name value) _

/-- A variable that was set has its value. -/
theorem get?_set_self (name : VarName) (value : String) :
    (store.set id name value).get? id name = some value := by
  have hself := s.get?_set name name value
  rw [if_pos rfl] at hself
  cases name with
  | scalar name =>
    rw [get?, scalar?_set h, show (s.set (.scalar name) value).scalars[name]? = _ from hself]
    rfl
  | element array index =>
    obtain ⟨elements, helements, hindex⟩ := Option.bind_eq_some_iff.1 hself
    rw [get?, element?, array?_set h, helements]
    exact hindex

/-- Setting an element leaves the scalars alone. -/
theorem scalar?_set_element (array index value scalar : String) :
    (store.set id (.element array index) value).scalar? id scalar = store.scalar? id scalar := by
  rw [scalar?_set h, scalar?, find?_of_getElem? h]
  rfl

/-- Elements of an array that were set belong to the scope; elements that the array of that name had
further out are hidden from then on. -/
theorem element?_set (array index value array' index' : String) :
    (store.set id (.element array index) value).element? id array' index' =
      if array = array' then
        if index = index' then some value else (s.arrays[array]?).bind (·[index']?)
      else store.element? id array' index' := by
  rw [element?, array?_set h]
  by_cases harray : array = array'
  · subst harray
    have hnow : (s.set (.element array index) value).arrays[array]? =
        some ((s.arrays.getD array ∅).insert index value) := by
      simp [Scope.set, Scope.setElement]
    rw [if_pos rfl, hnow, Option.some_or, Option.bind_some, Std.ExtTreeMap.getElem?_insert]
    cases harrays : s.arrays[array]? <;> simp [Std.ExtTreeMap.getD_eq_getD_getElem?, harrays]
  · have hother : (s.set (.element array index) value).arrays[array']? = s.arrays[array']? := by
      simp [Scope.set, Scope.setElement, Std.ExtTreeMap.getElem?_insert, harray]
    rw [if_neg harray, hother, element?, array?, find?_of_getElem? h]
    rfl

/-- An element that is not there is not there after another one was set. -/
theorem element?_set_of_none {array index array' index' : String}
    (hne : VarName.element array index ≠ .element array' index') (value : String)
    (hnone : store.element? id array' index' = none) :
    (store.set id (.element array index) value).element? id array' index' = none := by
  rw [element?_set h]
  split
  · rename_i harray
    subst harray
    rw [if_neg fun hindex => hne (congrArg _ hindex)]
    rw [element?, array?, find?_of_getElem? h] at hnone
    cases harrays : s.arrays[array]? with
    | none => rfl
    | some elements =>
      rw [harrays] at hnone
      exact hnone
  · exact hnone

/-- Setting a scalar leaves the elements alone. -/
theorem element?_set_scalar (scalar value array index : String) :
    (store.set id (.scalar scalar) value).element? id array index =
      store.element? id array index := by
  rw [element?, array?_set h, element?, array?, find?_of_getElem? h]
  rfl

/-- Setting a scalar leaves the other scalars alone. -/
theorem scalar?_set_scalar {scalar other : String} (hne : scalar ≠ other) (value : String) :
    (store.set id (.scalar scalar) value).scalar? id other = store.scalar? id other := by
  have hother : (s.set (.scalar scalar) value).scalars[other]? = s.scalars[other]? := by
    simp [Scope.set, Scope.setScalar, Std.ExtTreeMap.getElem?_insert, hne]
  rw [scalar?_set h, hother, scalar?, find?_of_getElem? h]
  rfl

end Variables

/-! ## Names that are hidden -/

/-- A write to one name leaves every other name as it was, unless both are elements of one array
that the scope itself does not have yet. Then the scope gets an array of its own with only the
written element in it, and the other element is hidden. -/
theorem get?_set_of_ne (h : store.scopes[id]? = some s) {n m : String} (hne : n ≠ m)
    (value : String) :
    (store.set id (.read n) value).get? id (.read m) =
      if s.hides (.read n) (.read m) then none else store.get? id (.read m) := by
  have hread : VarName.read n ≠ .read m := fun heq => hne (VarName.read_injective heq)
  generalize VarName.read n = written at hread ⊢
  generalize VarName.read m = other at hread ⊢
  cases written with
  | scalar scalar =>
    cases other with
    | scalar other => exact scalar?_set_scalar h (fun heq => hread (congrArg _ heq)) value
    | element array index => exact element?_set_scalar h scalar value array index
  | element array index =>
    cases other with
    | scalar other => exact scalar?_set_element h array index value other
    | element array' index' =>
      rw [get?, element?_set h]
      by_cases harray : array = array'
      · subst harray
        have hindex : index ≠ index' := fun heq => hread (congrArg _ heq)
        rw [if_pos rfl, if_neg hindex, get?, element?, array?, find?_of_getElem? h]
        cases harrays : s.arrays[array]? <;> simp [Scope.hides, harrays]
      · simp [Scope.hides, harray, get?]

/-- Three scopes, one in the other. The outermost has an element of the array `a` and a scalar, and
the innermost has an element of its own array `b`. -/
def threeScopes : Store :=
  let store := (((Store.create {} none).2.create (some 0)).2.create (some 1)).2
  ((store.set 0 (.read "a(1)") "one").set 0 (.read "x") "out").set 2 (.read "b(1)") "in"

/-- A scalar two scopes further out stays, and so does an element of an array that the scope has. -/
theorem get?_set_of_ne_threeScopes :
    (threeScopes.set 2 (.read "a(2)") "two").get? 2 (.read "x") = some "out" ∧
      (threeScopes.set 2 (.read "b(2)") "two").get? 2 (.read "b(1)") = some "in" := by
  have hany : (threeScopes.scopes[2]?).any (fun s => !s.hides (.read "a(2)") (.read "x") &&
      !s.hides (.read "b(2)") (.read "b(1)")) = true := by decide +kernel
  obtain ⟨s, hs, hhides⟩ := (Option.any_eq_true _ _).1 hany
  obtain ⟨hx, hb⟩ : s.hides (.read "a(2)") (.read "x") = false ∧
      s.hides (.read "b(2)") (.read "b(1)") = false := by simpa using hhides
  constructor
  · rw [get?_set_of_ne hs (by decide) "two", hx]
    decide +kernel
  · rw [get?_set_of_ne hs (by decide) "two", hb]
    decide +kernel

/-- The first element that the innermost scope gets hides those of the array further out. -/
theorem get?_set_hidden :
    threeScopes.get? 2 (.read "a(1)") = some "one" ∧
      (threeScopes.set 2 (.read "a(2)") "two").get? 2 (.read "a(1)") = none := by
  decide +kernel

end Store

end Tickle

import Tickle.Scope.Basic

/-!
The store of all living scopes. Reading a variable falls back from a scope to the one around it;
writing stays in the scope itself. A scope is younger than the one around it, so reading outward
ends.
-/

namespace Tickle

structure Store where
  next : ScopeId := 0
  scopes : Std.ExtTreeMap ScopeId Scope := ∅

namespace Store

def create (store : Store) (parent : Option ScopeId) : ScopeId × Store :=
  (store.next,
    { next := store.next + 1, scopes := store.scopes.insert store.next { parent := parent } })

/-- Destroys a scope; the scopes inside it have none around them from then on. -/
def drop (store : Store) (id : ScopeId) : Store :=
  { store with
    scopes := (store.scopes.erase id).map fun _ s =>
      if s.parent = some id then { s with parent := none } else s }

/-- Changes a scope; there is nothing to change in one that is gone. -/
def update (store : Store) (id : ScopeId) (f : Scope → Scope) : Store :=
  match store.scopes[id]? with
  | none => store
  | some s => { store with scopes := store.scopes.insert id (f s) }

/-- What the scope, or else the nearest scope around it, has. -/
def find? {α : Type} (store : Store) (id : ScopeId) (f : Scope → Option α) : Option α :=
  match store.scopes[id]? with
  | none => none
  | some s =>
    match f s with
    | some a => some a
    | none =>
      match s.parent with
      | none => none
      | some parent => if parent < id then store.find? parent f else none
termination_by id

def scalar? (store : Store) (id : ScopeId) (name : String) : Option String :=
  store.find? id (·.scalars[name]?)

def array? (store : Store) (id : ScopeId) (name : String) : Option (Table String) :=
  store.find? id (·.arrays[name]?)

def element? (store : Store) (id : ScopeId) (array index : String) : Option String :=
  (store.array? id array).bind (·[index]?)

def get? (store : Store) (id : ScopeId) (name : VarName) : Option String :=
  match name with
  | .scalar name => store.scalar? id name
  | .element array index => store.element? id array index

def set (store : Store) (id : ScopeId) (name : VarName) (value : String) : Store :=
  store.update id (·.set name value)

def erase (store : Store) (id : ScopeId) (name : VarName) : Store :=
  store.update id (·.erase name)

def clear (store : Store) (id : ScopeId) : Store := store.update id Scope.clear

/-- Sets several variables, given by their written names, one after the other. -/
def setAll (store : Store) (id : ScopeId) (values : List (String × String)) : Store :=
  values.foldl (fun store v => store.set id (.read v.1) v.2) store

end Store

end Tickle

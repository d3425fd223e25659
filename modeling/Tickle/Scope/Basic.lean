import Std.Data.ExtTreeMap
import Tickle.Scope.VarName

/-!
A scope of variables: scalars and arrays by name, and possibly a scope around it. Through `get?` a
scope is a plain map on variables: setting and erasing one changes no other, although elements of
one array share a table and an array that loses its last element goes away.
-/

namespace Tickle

/-- Values by name; tables with the same entries are equal. -/
abbrev Table (α : Type) := Std.ExtTreeMap String α

abbrev ScopeId := Nat

/-- Variables of one scope, and the scope around it. -/
structure Scope where
  parent : Option ScopeId := none
  scalars : Table String := ∅
  arrays : Table (Table String) := ∅

namespace Scope

def setScalar (s : Scope) (name value : String) : Scope :=
  { s with scalars := s.scalars.insert name value }

def eraseScalar (s : Scope) (name : String) : Scope :=
  { s with scalars := s.scalars.erase name }

/-- Sets an element, making the array if need be. -/
def setElement (s : Scope) (array index value : String) : Scope :=
  { s with arrays := s.arrays.insert array ((s.arrays.getD array ∅).insert index value) }

/-- Removes an element; an array left empty is removed too. -/
def eraseElement (s : Scope) (array index : String) : Scope :=
  match s.arrays[array]? with
  | none => s
  | some elements =>
    let elements := elements.erase index
    if elements.isEmpty then { s with arrays := s.arrays.erase array }
    else { s with arrays := s.arrays.insert array elements }

def set (s : Scope) (name : VarName) (value : String) : Scope :=
  match name with
  | .scalar name => s.setScalar name value
  | .element array index => s.setElement array index value

def erase (s : Scope) (name : VarName) : Scope :=
  match name with
  | .scalar name => s.eraseScalar name
  | .element array index => s.eraseElement array index

def clear (s : Scope) : Scope := { s with scalars := ∅, arrays := ∅ }

/-- Value of a variable in the scope itself. -/
def get? (s : Scope) : VarName → Option String
  | .scalar name => s.scalars[name]?
  | .element array index => s.arrays[array]?.bind (·[index]?)

theorem get?_set (s : Scope) (n m : VarName) (value : String) :
    (s.set n value).get? m = if n = m then some value else s.get? m := by
  cases n with
  | scalar a =>
    cases m with
    | scalar b => simp [set, setScalar, get?, Std.ExtTreeMap.getElem?_insert]
    | element b j => simp [set, setScalar, get?]
  | element a i =>
    cases m with
    | scalar b => simp [set, setElement, get?]
    | element b j =>
      by_cases hab : a = b
      · subst hab
        cases ha : s.arrays[a]? <;>
          simp [set, setElement, get?, Std.ExtTreeMap.getElem?_insert,
            Std.ExtTreeMap.getD_eq_getD_getElem?, ha]
      · simp [set, setElement, get?, Std.ExtTreeMap.getElem?_insert, hab]

theorem get?_erase (s : Scope) (n m : VarName) :
    (s.erase n).get? m = if n = m then none else s.get? m := by
  cases n with
  | scalar a =>
    cases m with
    | scalar b => simp [erase, eraseScalar, get?, Std.ExtTreeMap.getElem?_erase]
    | element b j => simp [erase, eraseScalar, get?]
  | element a i =>
    simp only [erase, eraseElement]
    cases ha : s.arrays[a]? with
    | none =>
      cases m with
      | scalar b => simp [get?]
      | element b j =>
        by_cases hab : a = b
        · subst hab; simp [get?, ha]
        · simp [get?, hab]
    | some elements =>
      dsimp only
      split
      · rename_i he
        cases m with
        | scalar b => simp [get?]
        | element b j =>
          by_cases hab : a = b
          · subst hab
            simp only [get?, Std.ExtTreeMap.getElem?_erase, ha]
            by_cases hij : i = j
            · simp [hij]
            · have hj : (elements.erase i)[j]? = none := by
                rw [Std.ExtTreeMap.isEmpty_iff.1 he]; simp
              rw [Std.ExtTreeMap.getElem?_erase] at hj
              simp [hij] at hj ⊢
              exact hj
          · simp [get?, Std.ExtTreeMap.getElem?_erase, hab]
      · cases m with
        | scalar b => simp [get?]
        | element b j =>
          by_cases hab : a = b
          · subst hab
            simp [get?, Std.ExtTreeMap.getElem?_erase, ha]
          · simp [get?, Std.ExtTreeMap.getElem?_insert, hab]

theorem get?_clear (s : Scope) (m : VarName) : s.clear.get? m = none := by
  cases m <;> simp [clear, get?]

end Scope

end Tickle

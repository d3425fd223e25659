import Tickle.Error

/-! # Families of errors

Each part of the interpreter fails in few ways. `FailsIn` says in which families the errors of a
computation without effects are. -/

namespace Tickle

/-- Classes of errors. -/
inductive Error.Family where
  | script | parse | parentheses | execution | limit | command | bare
  deriving Repr, DecidableEq

/-- The class of an error; those that are no script errors are bare. -/
def Error.family : Error → Family
  | .script .. => .script
  | .parse .. => .parse
  | .parentheses .. => .parentheses
  | .execution .. => .execution
  | .limit .. => .limit
  | .command .. => .command
  | .numeralTooLong | .precisionTooLarge | .operandMissing => .bare

/-- Every error of the computation is in one of the families. -/
def FailsIn (families : List Error.Family) {α : Type} (r : Except Error α) : Prop :=
  ∀ e, r = .error e → e.family ∈ families

namespace FailsIn

variable {families : List Error.Family} {α β : Type} {x : Except Error α} {f : α → Except Error β}

theorem ok (a : α) : FailsIn families (.ok a : Except Error α) := by
  intro e he
  cases he

theorem error {e : Error} (h : e.family ∈ families) :
    FailsIn families (.error e : Except Error α) := by
  intro e' he
  cases he
  exact h

theorem family_ne (h : FailsIn families x) {e : Error} (hx : x = .error e) {family : Error.Family}
    (hfamily : family ∉ families) : e.family ≠ family :=
  fun he => hfamily (he ▸ h e hx)

theorem execution (fault : ExecutionFault) (site : Option Node.Site) :
    FailsIn [.execution] (.error (.execution fault site) : Except Error α) :=
  error (List.mem_singleton.2 rfl)

theorem ite {c : Prop} [Decidable c] {y : Except Error α} (hx : FailsIn families x)
    (hy : FailsIn families y) : FailsIn families (if c then x else y) := by
  split
  · exact hx
  · exact hy

theorem bind (hx : FailsIn families x) (hf : ∀ a, FailsIn families (f a)) :
    FailsIn families (x >>= f) := by
  intro e he
  cases x with
  | ok a => exact hf a e he
  | error e' => cases he; exact hx e rfl

theorem map (hx : FailsIn families x) (f : α → β) : FailsIn families (x.map f) := by
  intro e he
  cases x with
  | ok a => cases he
  | error e' => cases he; exact hx e rfl

theorem mono {larger : List Error.Family} (hx : FailsIn families x) (h : families ⊆ larger) :
    FailsIn larger x :=
  fun e he => h (hx e he)

end FailsIn

/-- A sequence succeeds only if its first computation does. -/
theorem exists_of_bind_eq_ok {α β : Type} {x : Except Error α} {f : α → Except Error β} {b : β}
    (h : (x >>= f) = .ok b) : ∃ a, x = .ok a ∧ f a = .ok b := by
  cases x with
  | ok a => exact ⟨a, rfl, h⟩
  | error e => cases h

end Tickle

/-!
Operands of `if` after the first condition, as clauses. A word `then` may stand before a body; what
follows a body is `elseif` with another condition and body, `else` with a body, or a bare body.
-/

namespace Tickle

/-- A body and what is tried if its condition is false. -/
inductive Clauses where
  /-- The operands ended before a body. -/
  | missing
  | last (body : String)
  | orElse (body otherwise : String)
  | elseIf (body condition : String) (next : Clauses)
  deriving Repr, DecidableEq

namespace Clauses

def skipThen : List String → List String
  | "then" :: rest => rest
  | operands => operands

theorem length_skipThen_le (operands : List String) :
    (skipThen operands).length ≤ operands.length := by
  unfold skipThen
  split
  · exact Nat.le_succ _
  · exact Nat.le_refl _

/-- Reads clauses; a keyword with nothing after it is ignored. -/
def read (operands : List String) : Clauses :=
  match _h : skipThen operands with
  | [] => .missing
  | [body] => .last body
  | body :: keyword :: rest =>
    if keyword = "elseif" then
      match rest with
      | [] => .last body
      | condition :: rest => .elseIf body condition (read rest)
    else if keyword = "else" then
      match rest with
      | [] => .last body
      | otherwise :: _ => .orElse body otherwise
    else .orElse body keyword
termination_by operands.length
decreasing_by
  have hl := length_skipThen_le operands
  rw [_h] at hl
  simp only [List.length_cons] at hl
  omega

end Clauses

end Tickle

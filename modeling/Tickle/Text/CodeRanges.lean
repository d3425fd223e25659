/-!
Sets of characters given by closed ranges of code points. The tables of the character classes are
written as such lists; a class is then "some range of its table holds the code point".
-/

namespace Tickle.Text

/-- Closed ranges of code points. -/
abbrev CodeRanges := List (Nat × Nat)

namespace CodeRanges

def holds (table : CodeRanges) (code : Nat) : Bool :=
  table.any fun r => r.1 ≤ code && code ≤ r.2

theorem holds_eq_true_iff {table : CodeRanges} {code : Nat} :
    table.holds code = true ↔ ∃ r ∈ table, r.1 ≤ code ∧ code ≤ r.2 := by
  simp [holds]

end CodeRanges

end Tickle.Text

import Tickle.Proofs.Failure
import Tickle.Proofs.Token.LongLiterals

/-! # How expressions fail

A text is read as tokens, the tokens as a tree, and the tree is evaluated. The first can only fail
at a literal that is too long, the second only with errors of syntax and of parentheses. A tree that
has been read has all its operands, so its evaluation only fails with execution errors. -/

namespace Tickle

namespace Tree

/-- Trees of expressions in which no operator lacks an operand. -/
inductive Complete : Node → Prop
  | number {text : Option String} : Complete ⟨.number, text, []⟩
  | quoted {text : Option String} : Complete ⟨.quoted, text, []⟩
  | name {text : Option String} : Complete ⟨.string, text, []⟩
  | unary {text : Option String} {operand : Node} : Complete operand →
      Complete ⟨.unary, text, [operand]⟩
  | binary {text : Option String} {left right : Node} : Complete left → Complete right →
      Complete ⟨.binary, text, [left, right]⟩
  | ternary {text : Option String} {condition yes no : Node} : Complete condition →
      Complete yes → Complete no → Complete ⟨.ternary, text, [condition, yes, no]⟩
  | call {text : Option String} {argument : Node} : Complete argument →
      Complete ⟨.call, text, [argument]⟩

mutual

/-- The grammar gives every operator its operands. -/
theorem Ternary.complete {ts : List Token} {n : Node} : Ternary ts n → Complete n
  | .chain h => h.complete
  | .conditional hc _ hyes _ hno => .ternary hc.complete hyes.complete hno.complete

theorem Binary.complete {k : Nat} {ts : List Token} {n : Node} : Binary k ts n → Complete n
  | .factor h => h.complete
  | .power hl _ hr => .binary hl.complete hr.complete
  | .tighter h => h.complete
  | .operation hl _ _ hr => .binary hl.complete hr.complete

theorem Factor.complete {ts : List Token} {n : Node} : Factor ts n → Complete n
  | .number _ => .number
  | .name _ => .name
  | .call _ _ h _ => .call h.complete
  | .unary _ h => .unary h.complete
  | .parentheses _ h _ => h.complete
  | .empty _ => .quoted
  | .literal _ _ => .quoted

end

theorem complete_of_expressionOfTokens {tokens : List Token} {tree : Node}
    (h : expressionOfTokens tokens = .ok tree) : Complete tree := by
  rcases derives_of_expressionOfTokens h with ⟨-, rfl⟩ | hderived
  · exact .number
  · exact hderived.complete

end Tree

namespace Value

theorem evaluate_failsIn_of_complete {node : Node} (h : Tree.Complete node) :
    FailsIn [.execution] (evaluate node) := by
  induction h with
  | number | quoted | name => exact .ok _
  | unary _ ih =>
    rw [evaluate_unary]
    exact ih.bind fun a => unary_failsIn a
  | binary _ _ ihl ihr =>
    rw [evaluate_binary]
    exact ihl.bind fun a => ihr.bind fun b => binary_failsIn a b
  | ternary _ _ _ ihc ihy ihn =>
    rw [evaluate_ternary]
    exact ihc.bind fun a => choose_failsIn (by simp) _ a ihy ihn
  | call _ ih =>
    rw [evaluate_call]
    exact ih.bind fun a => call_failsIn a

/-- Once a text has been read as tokens, all that is left are errors of scripts. -/
theorem ofExpression_failsIn_of_tokens {text : String} {tokens : List Token}
    (h : Token.Expression.tokens text = .ok tokens) :
    FailsIn [.parse, .parentheses, .execution] (ofExpression text) := by
  intro e he
  have hparse : ofExpression text = Tree.expressionOfTokens tokens >>= evaluate := by
    rw [ofExpression_eq, Tree.parseExpression_eq, h]
    rfl
  rw [hparse] at he
  cases htree : Tree.expressionOfTokens tokens with
  | error e' =>
    rw [htree] at he
    cases he
    have hfamily := Tree.family_of_expressionOfTokens htree
    exact List.mem_append_left [.execution] hfamily
  | ok tree =>
    rw [htree] at he
    have hfamily := evaluate_failsIn_of_complete (Tree.complete_of_expressionOfTokens htree) e he
    exact List.mem_append_right [.parse, .parentheses] hfamily

theorem ofExpression_eq_error_of_tokens {text : String} {e : Error}
    (h : Token.Expression.tokens text = .error e) : ofExpression text = .error e := by
  rw [ofExpression_eq, Tree.parseExpression_eq, h]
  rfl

/-- An expression has a value, whose text is its result, or it fails with an error of syntax, of
parentheses or of execution; only a scan that comes to a literal that is too long fails otherwise,
whatever stands in front of the literal or behind it. -/
theorem ofExpression_outcome (text : String) :
    ((∃ result, (ofExpression text).map Value.text = .ok result) ∨
      (∃ e, ofExpression text = .error e ∧ e.family ∈ [.parse, .parentheses, .execution]) ∨
      ofExpression text = .error .numeralTooLong) ∧
    (ofExpression text = .error .numeralTooLong ↔ Token.Expression.MeetsTooLong text) := by
  cases htokens : Token.Expression.tokens text with
  | error e =>
    obtain ⟨rfl, hmeets⟩ := Token.Expression.tokens_eq_error_iff.1 htokens
    have hfails := ofExpression_eq_error_of_tokens htokens
    exact ⟨.inr (.inr hfails), fun _ => hmeets, fun _ => hfails⟩
  | ok tokens =>
    have hfamilies := ofExpression_failsIn_of_tokens htokens
    constructor
    · cases hvalue : ofExpression text with
      | ok v => exact .inl ⟨v.text, rfl⟩
      | error e => exact .inr (.inl ⟨e, rfl, hfamilies e hvalue⟩)
    · constructor
      · intro hlong
        have hfamily := hfamilies _ hlong
        exact absurd hfamily (by decide)
      · intro hmeets
        have herror := Token.Expression.tokens_eq_error_iff.2 ⟨rfl, hmeets⟩
        cases htokens.symm.trans herror

end Value

end Tickle

import Tickle.Proofs.Tree.StackDepth
import Tickle.Proofs.Value.ExpressionErrors

/-! # How deep an expression goes

A token takes the reader at most fifteen calls down, and the evaluation at most one, since a tree is
no higher than its tokens are many. So a stack can be deep enough for all expressions of a length,
but none is for all expressions: parentheses that are left open go down as far as one likes. -/

namespace Tickle

namespace Tree

open Value

mutual

/-- The tree that some tokens derive is evaluated in no more calls than there are tokens. -/
theorem Ternary.evaluateOn_endsWithin {ts : List Token} {n : Node} :
    Ternary ts n → EndsWithin ts.length (evaluateOn n) (evaluate n)
  | .chain h => h.evaluateOn_endsWithin
  | .conditional hc _ hyes _ hno => by
    simp only [List.length_append, List.length_cons]
    refine .bind (.enter hc.evaluateOn_endsWithin (by omega)) fun v _ => ?_
    refine .ite (fun _ => .lift _) fun _ => .ite (fun _ => ?_) fun _ => ?_
    · exact .enter hyes.evaluateOn_endsWithin (by omega)
    · exact .enter hno.evaluateOn_endsWithin (by omega)

theorem Binary.evaluateOn_endsWithin {k : Nat} {ts : List Token} {n : Node} :
    Binary k ts n → EndsWithin ts.length (evaluateOn n) (evaluate n)
  | .factor h => h.evaluateOn_endsWithin
  | .tighter h => h.evaluateOn_endsWithin
  | .power hl _ hr => by
    simp only [List.length_append, List.length_cons]
    refine .bind (.enter hl.evaluateOn_endsWithin (by omega)) fun a _ => ?_
    exact .bind (.enter hr.evaluateOn_endsWithin (by omega)) fun b _ => .lift _
  | .operation hl _ _ hr => by
    simp only [List.length_append, List.length_cons]
    refine .bind (.enter hl.evaluateOn_endsWithin (by omega)) fun a _ => ?_
    exact .bind (.enter hr.evaluateOn_endsWithin (by omega)) fun b _ => .lift _

theorem Factor.evaluateOn_endsWithin {ts : List Token} {n : Node} :
    Factor ts n → EndsWithin ts.length (evaluateOn n) (evaluate n)
  | .number _ | .name _ | .empty _ | .literal _ _ => .lift _
  | .call _ _ h _ => by
    simp only [List.length_append, List.length_cons]
    exact .bind (.enter h.evaluateOn_endsWithin (by omega)) fun a _ => .lift _
  | .unary _ h => by
    rw [List.length_cons]
    exact .bind (.enter h.evaluateOn_endsWithin (by omega)) fun a _ => .lift _
  | .parentheses _ h _ => by
    simp only [List.length_append, List.length_cons]
    exact h.evaluateOn_endsWithin.mono (by omega)

end

theorem evaluateOn_endsWithin_of_expressionOfTokens {tokens : List Token} {tree : Node}
    (h : expressionOfTokens tokens = .ok tree) :
    EndsWithin (Token.untilEnd tokens).length (evaluateOn tree) (evaluate tree) := by
  rcases derives_of_expressionOfTokens h with ⟨-, rfl⟩ | hderived
  · exact .lift _
  · exact hderived.evaluateOn_endsWithin

theorem expressionOfTokensOn_endsWithin (tokens : List Token) :
    EndsWithin (15 * (Token.untilEnd tokens).length + 15) (expressionOfTokensOn tokens)
      (expressionOfTokens tokens) := by
  rw [expressionOfTokens, expressionOfTokensOn.eq_def, expressionOfTokensOn.eq_def]
  refine .enter ?_ (Nat.le_of_eq (Nat.add_comm 1 _))
  cases Token.untilEnd tokens with
  | nil => exact .lift _
  | cons t rest =>
    refine .bind (ternaryOn_endsWithin (t :: rest)) fun read _ => ?_
    obtain ⟨tree, _ | ⟨t', rest⟩, h⟩ := read
    · exact .lift _
    · exact .ite (fun _ => .lift _) fun _ => .lift _

end Tree

namespace Token.Expression

/-- No mode reads more than two tokens for a character. -/
theorem length_le_of_tokensFrom {s : Scanner Mode} {ts : List Token}
    (h : tokensFrom s = .ok ts) : ts.length ≤ s.measure Mode.weight + 1 := by
  fun_induction tokensFrom s generalizing ts with
  | case1 => cases h
  | case2 s hnext =>
    cases h
    exact Nat.le_add_left 1 _
  | case3 s t s' hnext ih =>
    cases hrest : tokensFrom s' with
    | error e =>
      rw [hrest] at h
      cases h
    | ok rest =>
      rw [hrest] at h
      cases h
      have hlt := measure_next?_lt hnext
      have hle := ih hrest
      rw [List.length_cons]
      omega

theorem length_untilEnd_le {text : String} {ts : List Token} (h : tokens text = .ok ts) :
    (untilEnd ts).length ≤ 2 * text.length + 1 :=
  (List.takeWhile_sublist _).length_le.trans (length_le_of_tokensFrom h)

end Token.Expression

namespace Value

/-- Frames that are enough for an expression of so many characters. -/
def framesOfLength (length : Nat) : Nat := 30 * length + 32

theorem ofExpressionOn_endsWithin (text : String) :
    EndsWithin (framesOfLength text.length) (ofExpressionOn text) (ofExpression text) := by
  rw [ofExpression, ofExpressionOn, ofExpressionOn]
  refine .enter (.bind ?_ fun tree htree => ?_) (Nat.le_of_eq (Nat.add_comm 1 _))
  · rw [Tree.parseExpressionOn, Tree.parseExpressionOn]
    refine .enter (.bind (.lift _) fun tokens htokens => ?_) (Nat.le_of_eq (Nat.add_comm 1 _))
    have hmany := Token.Expression.length_untilEnd_le htokens
    exact (Tree.expressionOfTokensOn_endsWithin tokens).mono (by omega)
  · obtain ⟨tokens, htokens, hexpression⟩ := exists_of_bind_eq_ok htree
    have hmany := Token.Expression.length_untilEnd_le htokens
    exact .enter (Tree.evaluateOn_endsWithin_of_expressionOfTokens hexpression) (by omega)

/-- Nothing comes of an expression for which the stack is too small. On any other stack it has a
value, whose text is its result, or it fails with an error of syntax, of parentheses or of
execution; only a scan that comes to a literal that is too long fails otherwise, whatever stands in
front of the literal or behind it. -/
theorem ofExpressionWithin_outcome (text : String) :
    (∃ depth ≤ framesOfLength text.length, ∀ frames, ofExpressionWithin frames text =
      if frames < depth then none else some (ofExpression text)) ∧
    ((∃ result, (ofExpression text).map Value.text = .ok result) ∨
      (∃ e, ofExpression text = .error e ∧ e.family ∈ [.parse, .parentheses, .execution]) ∨
      ofExpression text = .error .numeralTooLong) ∧
    (ofExpression text = .error .numeralTooLong ↔ Token.Expression.MeetsTooLong text) :=
  ⟨ofExpressionOn_endsWithin text, ofExpression_outcome text⟩

/-! ## Parentheses that are left open -/

/-- So many parentheses, none of which is closed. -/
def opening (n : Nat) : String := String.ofList (List.replicate n '(')

theorem tokensFrom_opening (size n : Nat) :
    ∃ tokens, Token.Expression.tokensFrom ⟨size, List.replicate n '(', .plain⟩ = .ok tokens ∧
      (∀ t ∈ Token.untilEnd tokens, t.kind = .leftParen) ∧ (Token.untilEnd tokens).length = n := by
  induction n with
  | zero => exact ⟨_, Token.Expression.tokensFrom_nil size, nofun, rfl⟩
  | succ n ih =>
    obtain ⟨ts, htokens, hkinds, hlength⟩ := ih
    have hread : Token.Expression.readToken '(' (List.replicate n '(') =
        .ok ⟨.leftParen, "(", List.replicate n '(', .plain⟩ := by
      cases n <;> rfl
    obtain ⟨t, hkind, -, hfrom⟩ :=
      Token.Expression.tokensFrom_of_readToken size (by decide) hread
    have huntil : Token.untilEnd (t :: ts) = t :: Token.untilEnd ts :=
      List.takeWhile_cons_of_pos (by simp [hkind])
    refine ⟨t :: ts, ?_, ?_, ?_⟩
    · rw [List.replicate_succ, hfrom, htokens]
      rfl
    · rw [huntil]
      exact List.forall_mem_cons.2 ⟨hkind, hkinds⟩
    · rw [huntil, List.length_cons, hlength]

/-- Parentheses that are left open are an error only where the stack is deep enough for them. -/
theorem ofExpressionOn_opening (n : Nat) :
    EndsAt (15 * n + 32) (ofExpressionOn (opening (n + 1)))
      (.error (.parse .unexpectedEnd (some .endOfText) (some .number))) := by
  obtain ⟨tokens, htokens, hkinds, hlength⟩ :=
    tokensFrom_opening (List.replicate (n + 1) '(').length (n + 1)
  have hne : Token.untilEnd tokens ≠ [] := by
    intro hnil
    rw [hnil] at hlength
    cases hlength
  have hread := Tree.expressionOfTokensOn_opening hne hkinds
  rw [hlength] at hread
  have htext : Token.Expression.tokens (opening (n + 1)) = .ok tokens := by
    rw [Token.Expression.tokens, opening, String.toList_ofList]
    exact htokens
  have hlift := EndsAt.lift (Except.ok tokens)
  have hdepth : 15 * n + 32 = 1 + (1 + max 0 (1 + (15 * (n + 1) + 14))) := by omega
  rw [hdepth, ofExpressionOn, Tree.parseExpressionOn, htext]
  exact (((hlift.bind hread).enter 1).bind_error _).enter 1

/-- Sixty-seven parentheses that are left open exhaust a stack of a thousand frames; with more
room they are an error of syntax. -/
theorem ofExpressionWithin_opening :
    ofExpressionWithin 1000 (opening 67) = none ∧
      ofExpressionWithin 2000 (opening 67) =
        some (.error (.parse .unexpectedEnd (some .endOfText) (some .number))) :=
  ⟨ofExpressionOn_opening 66 1000, ofExpressionOn_opening 66 2000⟩

end Value

end Tickle

import Tickle.Proofs.Stack
import Tickle.Proofs.Tree.ExpressionGrammar

/-! # How deep reading an expression goes

Between a parenthesis and the expression in it are fifteen calls: one for the parenthesis, one for
the conditional, twelve down the levels of operators and one for the operand. No token takes the
reader further down. -/

namespace Tickle.Tree

theorem level?_lt {kind : Token.Kind} {level : Nat} (h : level? kind = some level) :
    level < levels := by
  cases kind <;> cases h <;> decide

/-- Frames that are enough for the operators below a level, in front of so many tokens. -/
def framesOfLevel (level tokens : Nat) : Nat :=
  15 * tokens + if level = 0 then 1 else level + 2

theorem callsOfLevel_add_framesOfLevel (level tokens : Nat) :
    callsOfLevel level + framesOfLevel level tokens = framesOfLevel (level + 1) tokens := by
  cases level with
  | zero =>
    show 2 + (15 * tokens + 1) = 15 * tokens + 3
    omega
  | succ level =>
    show 1 + (15 * tokens + (level + 1 + 2)) = 15 * tokens + (level + 1 + 1 + 2)
    omega

theorem framesOfLevel_le {level fewer tokens : Nat} (hlevel : level < levels)
    (h : fewer < tokens) : framesOfLevel level fewer ≤ 15 * tokens := by
  rw [framesOfLevel]
  rw [levels] at hlevel
  split <;> omega

theorem closed_endsWithin {most : Nat} {tokens : List Token}
    (h : EndsWithin most (ternaryOn tokens) (ternary tokens)) :
    EndsWithin (1 + most) (enter 1 do closeParenthesis (← ternaryOn tokens))
      (do closeParenthesis (← ternary tokens)) :=
  .enter (.bind h fun _ _ => .lift _) (Nat.le_refl _)

mutual

theorem ternaryOn_endsWithin (tokens : List Token) :
    EndsWithin (15 * tokens.length + 14) (ternaryOn tokens) (ternary tokens) := by
  rw [ternary, ternaryOn, ternaryOn]
  refine .enter ?_ (Nat.le_of_eq (Nat.add_comm 1 _))
  refine .bind (binaryOn_endsWithin levels tokens) fun (condition, rest) _ => ?_
  obtain ⟨_ | ⟨t, rest⟩, h⟩ := rest
  · exact .lift _
  have hrest : rest.length < tokens.length := Nat.lt_of_succ_lt h
  refine .ite (fun _ => ?_) fun _ => .lift _
  refine .bind ((ternaryOn_endsWithin rest).mono (by omega)) fun (yes, rest₁) _ => ?_
  obtain ⟨_ | ⟨t', rest₁⟩, h₁⟩ := rest₁
  · exact .lift _
  have hrest₁ : rest₁.length < rest.length := Nat.lt_of_succ_lt h₁
  refine .ite (fun _ => ?_) fun _ => .lift _
  exact .bind ((ternaryOn_endsWithin rest₁).mono (by omega)) fun _ _ => .lift _
termination_by (tokens.length, levels + 2)

theorem binaryOn_endsWithin (level : Nat) (tokens : List Token) :
    EndsWithin (framesOfLevel level tokens.length) (binaryOn level tokens)
      (binary level tokens) := by
  cases level with
  | zero =>
    rw [binary, binaryOn, binaryOn]
    exact factorOn_endsWithin tokens
  | succ level =>
    rw [binary, binaryOn, binaryOn]
    refine .enter ?_ (Nat.le_of_eq (callsOfLevel_add_framesOfLevel level tokens.length))
    refine .bind (binaryOn_endsWithin level tokens) fun (left, rest) _ => ?_
    have hrest := rest.2
    refine .bind ((chainOn_endsWithin level left rest.1).mono ?_) fun _ _ => .lift _
    rw [framesOfLevel]
    omega
termination_by (tokens.length, level + 1)

theorem chainOn_endsWithin (level : Nat) (left : Node) (tokens : List Token) :
    EndsWithin (15 * tokens.length) (chainOn level left tokens) (chain level left tokens) := by
  rw [chain, chainOn.eq_def, chainOn.eq_def]
  cases tokens with
  | nil => exact .lift _
  | cons op rest =>
    refine .ite (fun hlevel => ?_) fun _ => .lift _
    have hframes := framesOfLevel_le (level?_lt hlevel) (Nat.lt_succ_self rest.length)
    refine .bind ((binaryOn_endsWithin level rest).mono hframes) fun (right, rest₁) _ => ?_
    have hrest₁ := rest₁.2
    refine .bind ((chainOn_endsWithin level _ rest₁.1).mono ?_) fun _ _ => .lift _
    rw [List.length_cons]
    omega
termination_by (tokens.length, 0)

theorem factorOn_endsWithin (tokens : List Token) :
    EndsWithin (15 * tokens.length + 1) (factorOn tokens) (factor tokens) := by
  rw [factor, factorOn.eq_def, factorOn.eq_def]
  refine .enter ?_ (Nat.le_of_eq (Nat.add_comm 1 _))
  cases tokens with
  | nil => exact .lift _
  | cons t rest =>
    rw [List.length_cons]
    refine .ite (fun _ => .lift _) fun _ => ?_
    refine .ite (fun _ => ?_) fun _ => ?_
    · exact .bind ((factorOn_endsWithin rest).mono (by omega)) fun _ _ => .lift _
    have hinner := closed_endsWithin (ternaryOn_endsWithin rest)
    refine .ite (fun _ => .bind (hinner.mono (by omega)) fun _ _ => .lift _) fun _ => ?_
    refine .ite (fun _ => .lift _) fun _ => ?_
    refine .ite (fun _ => .bind (.lift (literal .rightQuote rest)) fun _ _ => .lift _) fun _ => ?_
    refine .ite (fun _ => .bind (.lift (literal .rightBrace rest)) fun _ _ => .lift _) fun _ => ?_
    refine .ite (fun _ => ?_) fun _ => .lift _
    cases rest with
    | nil => exact .lift _
    | cons t' rest =>
      have hargument := closed_endsWithin (ternaryOn_endsWithin rest)
      rw [List.length_cons]
      exact .ite (fun _ => .bind (hargument.mono (by omega)) fun _ _ => .lift _) fun _ => .lift _
termination_by (tokens.length, 0)

end

/-! ## Opening parentheses -/

theorem binaryOn_endsAt {tokens : List Token} {n : Nat} {e : Error}
    (h : EndsAt (framesOfLevel 0 n) (factorOn tokens) (.error e)) (level : Nat) :
    EndsAt (framesOfLevel level n) (binaryOn level tokens) (.error e) := by
  induction level with
  | zero =>
    rw [binaryOn]
    exact h
  | succ level ih =>
    rw [binaryOn, ← callsOfLevel_add_framesOfLevel]
    exact (ih.bind_error _).enter _

theorem ternaryOn_endsAt {tokens : List Token} {n : Nat} {e : Error}
    (h : EndsAt (framesOfLevel 0 n) (factorOn tokens) (.error e)) :
    EndsAt (15 * n + 14) (ternaryOn tokens) (.error e) := by
  have hdepth : 15 * n + 14 = 1 + framesOfLevel levels n := by
    rw [framesOfLevel, levels, if_neg (by decide)]
    omega
  rw [ternaryOn, hdepth]
  exact ((binaryOn_endsAt h levels).bind_error _).enter 1

/-- Fifteen frames for each parenthesis that is left open are not only enough. -/
theorem ternaryOn_opening {tokens : List Token} (h : ∀ t ∈ tokens, t.kind = .leftParen) :
    EndsAt (15 * tokens.length + 14) (ternaryOn tokens)
      (.error (.parse .unexpectedEnd (some .endOfText) (some .number))) := by
  refine ternaryOn_endsAt ?_
  induction tokens with
  | nil =>
    rw [factorOn]
    exact (EndsAt.lift _).enter 1
  | cons t rest ih =>
    obtain ⟨hkind, hrest⟩ := List.forall_mem_cons.1 h
    have hdepth : framesOfLevel 0 (rest.length + 1) = 1 + (1 + (15 * rest.length + 14)) := by
      show 15 * (rest.length + 1) + 1 = _
      omega
    rw [List.length_cons, hdepth, factorOn.eq_def]
    simp only [hkind, isUnary]
    exact (((((ternaryOn_endsAt (ih hrest)).bind_error _).enter 1).bind_error _).enter 1)

theorem expressionOfTokensOn_opening {tokens : List Token}
    (hne : Token.untilEnd tokens ≠ []) (h : ∀ t ∈ Token.untilEnd tokens, t.kind = .leftParen) :
    EndsAt (1 + (15 * (Token.untilEnd tokens).length + 14)) (expressionOfTokensOn tokens)
      (.error (.parse .unexpectedEnd (some .endOfText) (some .number))) := by
  have hread := ternaryOn_opening h
  rw [expressionOfTokensOn.eq_def]
  split
  · contradiction
  · exact (hread.bind_error _).enter 1

end Tickle.Tree

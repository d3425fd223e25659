import Tickle.Proofs.Number.WholeDoubles
import Tickle.Proofs.Run.ClauseSelection

/-! # Conditions that are integers

A conditional operator looks at the value of its condition. `if`, `for` and `while` have only its
text, which they read as a double. For an integer both say that it is not zero: its text is a
decimal integer, and rounding that to a double takes nothing but zero to zero. -/

namespace Tickle

namespace Value

/-- A decimal integer is a condition, which is true unless the integer is zero. -/
theorem readBool?_of_written {text : String} {n : Int} (h : Number.Written text n) :
    readBool? text = some (decide (n ≠ 0)) := by
  obtain ⟨numeral, hread, hzero⟩ := h.exists_read?
  rw [readBool?, hread]
  exact congrArg some (decide_eq_decide.2 (not_congr hzero))

theorem written_text_int (n : Int64) : Number.Written (Value.int n).text n.toInt := by
  have hrange := inRange_toInt n
  refine Number.written_toString_int (digitCount_le ?_)
  unfold InRange at hrange
  omega

/-- The text of an integer is a condition, which is true where the integer is. -/
theorem readBool?_text_int (n : Int64) :
    readBool? (Value.int n).text = some (decide (n ≠ 0)) := by
  have hzero : n.toInt = 0 ↔ n = 0 := Int64.toInt_inj (y := 0)
  rw [readBool?_of_written (written_text_int n), decide_eq_decide.2 (not_congr hzero)]

/-- A conditional with an integer in front has the outcome of one of its branches. -/
theorem evaluate_ternary_of_int {c : Node} {n : Int64} (h : evaluate c = .ok (.int n))
    (text : Option String) (x y : Node) (more : List Node) :
    evaluate ⟨.ternary, text, c :: x :: y :: more⟩ = if n ≠ 0 then evaluate x else evaluate y := by
  rw [evaluate_ternary, h]
  show (if decide (n ≠ 0) = true then evaluate x else evaluate y) = _
  simp only [decide_eq_true_eq]

end Value

namespace Env

open RunM

/-- The substitutions in a text take `s` to `t` and leave an expression with this tree. -/
def SubstitutesTo (env : Env) (text : String) (tree : Node) (s t : Run) : Prop :=
  ∃ expression, (env.substitute env.readVariable text).Returns s expression t ∧
    Tree.parseExpression expression = .ok tree

/-- What `if` does where the condition of a clause is false and these clauses follow. -/
def tryOthers (env : Env) (node : Node) (otherwise : Otherwise) :
    List IfClause → RunM (Option String)
  | [] => env.evaluateBody otherwise.body?
  | next :: more => env.tryClauses node next more otherwise

/-- What a loop does where its condition is true and it may run so many times more. -/
def loopOn (env : Env) (node : Node) (loop : Loop) (condition : String)
    (body : RunM (Option String)) : Nat → RunM (Option String)
  | 0 => throw (.limit (.iterations loop env.setup.limits.iterations) (some node.site))
  | remaining + 1 => do env.runLoop node loop condition body remaining (← body)

variable {env : Env} {node : Node} {s t : Run} {holds : Bool}

/-- `if` goes by what its first condition returns. -/
theorem run_tryClauses_of_returns {first : IfClause} (more : List IfClause) (otherwise : Otherwise)
    (h : (env.evaluateCondition node first.condition).Returns s holds t) :
    (env.tryClauses node first more otherwise).run s =
      (if holds then env.evaluateScript first.body
        else env.tryOthers node otherwise more).run t := by
  cases holds with
  | true => exact run_tryClauses_of_true otherwise more h
  | false =>
    cases more with
    | nil => exact run_tryClauses_last otherwise h
    | cons next more => exact run_tryClauses_of_false otherwise h

/-- A loop goes by what its condition returns. -/
theorem run_runLoop_of_returns {condition : String} (loop : Loop) (body : RunM (Option String))
    (remaining : Nat) (result : Option String)
    (h : (env.evaluateCondition node condition).Returns s holds t) :
    (env.runLoop node loop condition body remaining result).run s =
      (if holds then env.loopOn node loop condition body remaining else pure result).run t := by
  rw [runLoop.eq_def, h.run_bind]
  cases holds with
  | true => cases remaining <;> rfl
  | false => rfl

/-- A condition with an integer as its value is whether that is not zero. -/
theorem SubstitutesTo.returns_evaluateCondition {text : String} {c : Node} {n : Int64}
    (h : env.SubstitutesTo text c s t) (hvalue : Value.evaluate c = .ok (.int n)) :
    (env.evaluateCondition node text).Returns s (decide (n ≠ 0)) t := by
  obtain ⟨expression, hsubst, hparse⟩ := h
  have hexpression : Value.ofExpression expression = .ok (.int n) := by
    rw [Value.ofExpression_eq, hparse]
    exact hvalue
  exact Env.returns_evaluateCondition hsubst hexpression (Value.readBool?_text_int n)

/-- The two notions of truth agree on integers. The text of an integer is read as a condition that
is true unless the integer is zero; a conditional operator has the outcome of the branch that this
reading chooses; and wherever `if`, `for` or `while` come to a condition with this expression, they
go on with the branch of the same side. -/
theorem integer_conditions_agree {c : Node} {n : Int64} (h : Value.evaluate c = .ok (.int n)) :
    Value.readBool? (Value.int n).text = some (decide (n ≠ 0)) ∧
    (∀ text x y more, Value.evaluate ⟨.ternary, text, c :: x :: y :: more⟩ =
      if Value.readBool? (Value.int n).text = some true then Value.evaluate x
      else Value.evaluate y) ∧
    ∀ (env : Env) (node : Node) (text : String) (s t : Run), env.SubstitutesTo text c s t →
      (env.evaluateCondition node text).Returns s (decide (n ≠ 0)) t ∧
      (∀ first more otherwise front clause back s₀, first :: more = front ++ clause :: back →
        env.Rejects node front s₀ s → clause.condition = text →
        (env.perform .ifThen node (ifOperands first more otherwise)).run s₀ =
          (conclude (if n ≠ 0 then env.evaluateScript clause.body
            else env.tryOthers node otherwise back)).run t) ∧
      ∀ loop body remaining result,
        (env.runLoop node loop text body remaining result).run s =
          (if n ≠ 0 then env.loopOn node loop text body remaining else pure result).run t := by
  have hread := Value.readBool?_text_int n
  refine ⟨hread, fun text x y more => ?_, fun env node text s t htext => ?_⟩
  · rw [Value.evaluate_ternary_of_int h, hread]
    simp only [Option.some.injEq, decide_eq_true_eq]
  · have hcondition : (env.evaluateCondition node text).Returns s (decide (n ≠ 0)) t :=
      htext.returns_evaluateCondition h
    refine ⟨hcondition, ?_, fun loop body remaining result => ?_⟩
    · rintro first more otherwise front clause back s₀ hclauses hfront rfl
      have hrun := run_tryClauses_of_returns back otherwise hcondition
      simp only [decide_eq_true_eq] at hrun
      rw [perform_if]
      exact run_conclude_congr ((hfront.run_tryClauses_append otherwise hclauses).trans hrun)
    · have hrun := run_runLoop_of_returns loop body remaining result hcondition
      simpa only [decide_eq_true_eq] using hrun

/-- `~ 9223372036854775807` is the least integer. A branch that fails is not taken, and the body of
the clause runs. -/
theorem integer_conditions_agree_least :
    let env := Setup.env {} 0 0
    let node : Node := ⟨.command, some "if", []⟩
    let c : Node := ⟨.unary, some "~", [⟨.number, some "9223372036854775807", []⟩]⟩
    let least : Int64 := .ofInt (-2 ^ 63)
    let clause : IfClause := ⟨"~ $i", false, "set r $i", by decide⟩
    let s := runWith [("i", "9223372036854775807")]
    Value.evaluate c = .ok (.int least) ∧
    (Value.int least).text = "-9223372036854775808" ∧
    Value.readBool? "-9223372036854775808" = some true ∧
    Value.evaluate ⟨.ternary, none, [c, ⟨.string, some "x", []⟩, ⟨.unary, some "~", []⟩]⟩ =
      .ok (.string "x") ∧
    ∃ t, env.SubstitutesTo clause.condition c s t ∧
      (env.evaluateCondition node clause.condition).Returns s true t ∧
      (env.perform .ifThen node (ifOperands clause [] .absent)).run s =
        (conclude (env.evaluateScript clause.body)).run t := by
  intro env node c least clause s
  have hgreatest : Number.Written "9223372036854775807" 9223372036854775807 :=
    .unsigned (show Number.IsNumeral "9223372036854775807".toList by decide) rfl
  have hnot : Value.exactUnary? "~" = some Int.lnot := rfl
  have hvalue : Value.evaluate c = .ok (.int least) :=
    (Value.Exact.unary hnot (.number hgreatest)).evaluate_eq
  have hne : least ≠ 0 := by decide
  have htext : (Value.int least).text = "-9223372036854775808" := by decide
  obtain ⟨t, ht⟩ : ∃ t, t = ((env.substitute env.readVariable clause.condition).run s).2 := ⟨_, rfl⟩
  have hsubst : ((env.substitute env.readVariable clause.condition).run s).1 =
      .ok "~ 9223372036854775807" := by decide +kernel
  have hwritable : Tree.Writable c :=
    .unary (by decide) (.number 9223372036854775807 (by decide +kernel))
  have hwritten : Tree.expressionText c = "~ 9223372036854775807" := by decide +kernel
  have hparse : Tree.parseExpression "~ 9223372036854775807" = .ok c :=
    hwritten ▸ hwritable.readsBack.parseExpression
  have htree : env.SubstitutesTo clause.condition c s t :=
    ⟨_, Prod.ext hsubst ht.symm, hparse⟩
  obtain ⟨hread, hternary, hcommands⟩ := integer_conditions_agree hvalue
  obtain ⟨hcondition, hif, -⟩ := hcommands env node _ s t htree
  rw [decide_eq_true hne] at hread hcondition
  rw [htext] at hread
  refine ⟨hvalue, htext, hread, ?_, t, htree, hcondition, ?_⟩
  · rw [hternary, htext, hread]
    rfl
  · rw [hif clause [] .absent [] clause [] s rfl rfl rfl, if_pos hne]

end Env

end Tickle

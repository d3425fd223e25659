import Tickle.Format.Fill
import Tickle.Proofs.Tree.ExpressionGrammar
import Tickle.Run.Lists
import Tickle.Run.Strings
import Tickle.Tree.Script
import Tickle.Value.Evaluate

/-! # Where errors come from

Parsing scripts and substitutions fails with parse errors, parsing expressions also with errors of
parentheses, evaluating them with execution errors. Nothing of this exceeds a limit. -/

namespace Tickle

namespace Tree

theorem expect_failsIn (kind : Token.Kind) (tokens : List Token) :
    FailsIn [.parse] (expect kind tokens) := by
  cases tokens with
  | nil => exact .error (by simp [Error.family])
  | cons t rest =>
    rw [expect]
    split
    · exact .ok _
    · exact .error (by simp [Error.family])

theorem enclosed_failsIn (close : Token.Kind) (tokens : List Token) :
    FailsIn [.parse] (enclosed close tokens) :=
  (expect_failsIn .string tokens).bind fun (_, rest) =>
    (expect_failsIn close rest.1).bind fun _ => .ok _

theorem fragments_failsIn (tokens : List Token) : FailsIn [.parse] (fragments tokens) := by
  fun_induction fragments tokens with
  | case1 => exact .ok _
  | case2 t rest hk ih => exact ih.bind fun _ => .ok _
  | case3 t rest hk ih =>
    exact (expect_failsIn .name rest).bind fun (name, rest') => (ih rest').bind fun _ => .ok _
  | case4 t rest hk ih =>
    exact (enclosed_failsIn .rightBracket rest).bind fun (script, rest') =>
      (ih rest').bind fun _ => .ok _
  | case5 => exact .error (by simp [Error.family])

theorem parseSubstitution_failsIn (text : String) : FailsIn [.parse] (parseSubstitution text) :=
  (fragments_failsIn _).map _

theorem fragment_failsIn (t : Token) (rest : List Token) : FailsIn [.parse] (fragment t rest) := by
  unfold fragment
  split
  · exact .ok _
  · exact (expect_failsIn .name rest).bind fun _ => .ok _
  · exact (enclosed_failsIn .rightBrace rest).bind fun _ => .ok _
  · exact (enclosed_failsIn .rightBracket rest).bind fun _ => .ok _
  · exact (enclosed_failsIn .rightQuote rest).bind fun _ =>
      (fragments_failsIn _).bind fun _ => .ok _
  · exact .error (by simp [Error.family])

theorem operands_failsIn (current : List Node) (tokens : List Token) :
    FailsIn [.parse] (operands current tokens) := by
  fun_induction operands current tokens with
  | case1 => exact .ok _
  | case2 => exact .ok _
  | case3 current t rest he hb ih => exact ih.bind fun _ => .ok _
  | case4 current t rest he hb ih =>
    exact (fragment_failsIn t rest).bind fun (nodes, rest') => (ih nodes rest').bind fun _ => .ok _

theorem commands_failsIn (tokens : List Token) : FailsIn [.parse] (commands tokens) := by
  fun_induction commands tokens with
  | case1 => exact .ok _
  | case2 t rest hs ih => exact ih
  | case3 => exact .error (by simp [Error.family])
  | case4 => exact .error (by simp [Error.family])
  | case5 t rest hs hw he ih =>
    exact (operands_failsIn [] rest).bind fun (operands, rest') => (ih rest').bind fun _ => .ok _

theorem parseScript_failsIn (name text : String) : FailsIn [.parse] (parseScript name text) :=
  (commands_failsIn _).map _

end Tree

namespace Token.Expression

theorem readToken_failsIn (c : Char) (rest : List Char) : FailsIn [.bare] (readToken c rest) := by
  unfold readToken
  split
  · dsimp only
    split
    · exact .ok _
    · exact .error (by simp [Error.family])
  · split
    · exact .ok _
    · split
      · exact .ok _
      · split
        · exact .ok _
        · split <;> exact .ok _

theorem next?_failsIn (s : Scanner Mode) : FailsIn [.bare] (next? s) := by
  unfold next?
  split
  · dsimp only
    split
    · exact .ok _
    · exact (readToken_failsIn _ _).map _
  · split <;> exact .ok _
  · split <;> exact .ok _

theorem tokensFrom_failsIn (s : Scanner Mode) : FailsIn [.bare] (tokensFrom s) := by
  fun_induction tokensFrom s with
  | case1 s e h => exact .error (next?_failsIn s e h)
  | case2 => exact .ok _
  | case3 s t s' h ih => exact ih.map _

end Token.Expression

theorem Tree.parseExpression_failsIn (text : String) :
    FailsIn [.bare, .parse, .parentheses] (parseExpression text) := by
  refine FailsIn.bind ?_ fun tokens => ?_
  · exact (Token.Expression.tokensFrom_failsIn _).mono (by simp)
  · intro e he
    exact List.mem_cons_of_mem _ (family_of_expressionOfTokens he)

namespace Value

variable {node : Node}

theorem unary_failsIn (a : Value) : FailsIn [.execution] (unary node a) := by
  unfold unary
  refine .ite ?_ ?_
  · cases a with
    | int n => exact .ok _
    | double x => exact .execution _ _
    | string s => exact .execution _ _
  · cases a with
    | int n => exact .ite (.ok _) (.ite (.ok _) (.ite (.ok _) (.execution _ _)))
    | double x => exact .ite (.ok _) (.ite (.ok _) (.ite (.ok _) (.execution _ _)))
    | string s => exact .execution _ _

theorem integer_failsIn (op : String) (a b : Int64) :
    FailsIn [.execution] (integer node op a b) := by
  unfold integer
  refine .ite (.ite (.execution _ _) (.ok _)) ?_
  exact .ite (.ok _) (.ite (.ok _) (.ite (.ok _) (.ite (.ok _) (.ok _))))

theorem arithmetic_failsIn (op : String) (a b : Value) :
    FailsIn [.execution] (arithmetic node op a b) := by
  unfold arithmetic
  refine .ite ?_ (.ite (.execution _ _) ?_)
  · split
    · exact .ok _
    · exact .execution _ _
  · split <;> exact .ite (.ok _) (.ite (.ok _) (.ite (.ok _) (.ok _)))

theorem binary_failsIn (a b : Value) : FailsIn [.execution] (binary node a b) := by
  unfold binary
  refine .ite (.ok _) (.ite (.ok _) (.ite (.ok _) (.ite (.ok _) ?_)))
  refine .ite (.ite (arithmetic_failsIn _ _ _) (.ok _)) (.ite ?_ ?_)
  · split
    · exact integer_failsIn _ _ _
    · exact .execution _ _
  · refine .ite (.ite (.execution _ _) (.ok _)) (.ite (.ite (.execution _ _) (.ok _)) ?_)
    exact .ite (.ite (.execution _ _) (arithmetic_failsIn _ _ _)) (.execution _ _)

theorem call_failsIn (a : Value) : FailsIn [.execution] (call node a) := by
  unfold call
  refine .ite ?_ ?_
  · split
    · exact .ok _
    · exact .execution _ _
  · split
    · refine .ite (.execution _ _) ?_
      split
      · exact .ok _
      · exact .execution _ _
    · refine .ite (.execution _ _) ?_
      split
      · exact .ok _
      · exact .execution _ _
    · exact .execution _ _

theorem choose_failsIn {families : List Error.Family} (h : .execution ∈ families)
    (text : Option String) (a : Value) {yes no : Except Error Value}
    (hyes : FailsIn families yes) (hno : FailsIn families no) :
    FailsIn families (choose text a yes no) :=
  .ite (.error h) (.ite hyes hno)

theorem evaluate_failsIn (node : Node) : FailsIn [.execution, .bare] (evaluate node) := by
  have missing : FailsIn [.execution, .bare] (.error .operandMissing : Except Error Value) :=
    .error (by simp [Error.family])
  unfold evaluate
  fun_induction evaluateOn (m := Except Error) node with
  | case1 | case2 | case3 => exact .ok _
  | case4 text operand more ih => exact ih.bind fun a => (unary_failsIn a).mono (by simp)
  | case5 text left right more ihl ihr =>
    exact ihl.bind fun a => ihr.bind fun b => (binary_failsIn a b).mono (by simp)
  | case6 text left ih => exact ih.bind fun _ => missing
  | case7 text condition yes no more ih ihy ihn =>
    exact ih.bind fun a => choose_failsIn (by simp) text a ihy ihn
  | case8 text condition yes ih ihy =>
    exact ih.bind fun a => choose_failsIn (by simp) text a ihy missing
  | case9 text condition ih =>
    exact ih.bind fun a => choose_failsIn (by simp) text a missing missing
  | case10 text argument more ih => exact ih.bind fun a => (call_failsIn a).mono (by simp)
  | case11 | case12 | case13 | case14 => exact missing
  | case15 => exact .error (by simp [Error.family])

theorem ofExpression_failsIn (text : String) :
    FailsIn [.bare, .parse, .parentheses, .execution] (ofExpression text) :=
  ((Tree.parseExpression_failsIn text).mono (by simp)).bind fun tree =>
    (evaluate_failsIn tree).mono (by simp)

end Value

namespace Strings

theorem operand_failsIn (operands : List String) (i : Nat) :
    FailsIn [.execution, .command] (operand operands i) := by
  unfold operand
  split
  · exact .ok _
  · exact .error (by simp [Error.family])

theorem offset_failsIn (node : Node) (operands : List String) (i : Nat) :
    FailsIn [.execution, .command] (offset node operands i) := by
  refine (operand_failsIn operands i).bind fun text => ?_
  split
  · exact .ok _
  · exact .error (by simp [Error.family])

theorem inside_failsIn (cs : List Char) (i : Int) :
    FailsIn [.execution, .command] (inside cs i) :=
  .ite (.ok _) (.error (by simp [Error.family]))

theorem perform_failsIn (node : Node) (subcommand text : String) (operands : List String) :
    FailsIn [.execution, .command] (perform node subcommand text operands) := by
  unfold perform
  dsimp only
  split
  case h_2 | h_8 | h_9 =>
    exact (offset_failsIn _ _ _).bind fun i => (inside_failsIn _ i).bind fun _ => .ok _
  case h_3 =>
    refine (offset_failsIn _ _ _).bind fun first => (offset_failsIn _ _ _).bind fun last => ?_
    exact .ite (.ok _) (.error (by simp [Error.family]))
  case h_4 | h_5 | h_6 | h_7 => exact (operand_failsIn _ _).bind fun _ => .ok _
  case h_15 => exact .error (by simp [Error.family])
  all_goals exact .ok _

end Strings

namespace Lists

theorem element_failsIn (node : Node) (list i : String) :
    FailsIn [.execution] (element node list i) := by
  unfold element
  split
  · exact .execution _ _
  · refine .ite ?_ (.execution _ _)
    split
    · exact .ok _
    · exact .execution _ _

theorem index_failsIn (node : Node) (list : String) (operands : List String) :
    FailsIn [.execution] (index node list operands) := by
  unfold index
  induction operands.flatMap ListText.parse generalizing list with
  | nil => exact .ok _
  | cons i rest ih => exact (element_failsIn node list i).bind fun list => ih list

end Lists

theorem Format.format_failsIn (site : Node.Site) (text : String) (arguments : List String) :
    FailsIn [.execution, .bare] ((format text arguments).mapError (·.error site)) := by
  intro e he
  cases hformat : format text arguments with
  | ok filled =>
    rw [hformat] at he
    cases he
  | error refusal =>
    rw [hformat] at he
    cases he
    cases refusal <;> simp [Refusal.error, Error.family]

end Tickle

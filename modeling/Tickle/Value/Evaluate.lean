import Tickle.Tree.Expression
import Tickle.Value.Functions

/-!
Evaluation of expressions. Operands are evaluated from left to right, all of them except the branch
of a conditional that is not taken.
-/

namespace Tickle.Value

section

variable {m : Type → Type} [MonadLiftT (Except Error) m]

/-- The branch of a conditional that its condition chooses; the text is that of its node. -/
@[macro_inline] def choose (text : Option String) (condition : Value) (yes no : m Value) :
    m Value :=
  if !condition.isNumeric then raise (.execution .ternaryCondition (some ⟨.ternary, text⟩))
  else if condition.truth then yes
  else no

variable [Monad m] [CallStack m]

/-- Value of an expression tree. A node that is no expression has none, nor has an operator that
lacks an operand; the operands in front of the missing one are evaluated first. -/
def evaluateOn (node : Node) : m Value :=
  match node with
  | ⟨.number, text, _⟩ => return ofText (text.getD "")
  | ⟨.quoted, text, _⟩ => return .string (text.getD "")
  | ⟨.string, text, _⟩ => return .string (text.getD "")
  | ⟨.unary, text, operand :: more⟩ => do
    unary ⟨.unary, text, operand :: more⟩ (← enter 1 (evaluateOn operand))
  | ⟨.binary, text, left :: right :: more⟩ => do
    let a ← enter 1 (evaluateOn left)
    let b ← enter 1 (evaluateOn right)
    binary ⟨.binary, text, left :: right :: more⟩ a b
  | ⟨.binary, _, [left]⟩ => do
    let _ ← enter 1 (evaluateOn left)
    raise .operandMissing
  | ⟨.ternary, text, condition :: yes :: no :: _⟩ => do
    let value ← enter 1 (evaluateOn condition)
    choose text value (enter 1 (evaluateOn yes)) (enter 1 (evaluateOn no))
  | ⟨.ternary, text, [condition, yes]⟩ => do
    let value ← enter 1 (evaluateOn condition)
    choose text value (enter 1 (evaluateOn yes)) (raise .operandMissing)
  | ⟨.ternary, text, [condition]⟩ => do
    let value ← enter 1 (evaluateOn condition)
    choose text value (raise .operandMissing) (raise .operandMissing)
  | ⟨.call, text, argument :: more⟩ => do
    call ⟨.call, text, argument :: more⟩ (← enter 1 (evaluateOn argument))
  | ⟨.unary, _, []⟩ | ⟨.binary, _, []⟩ | ⟨.ternary, _, []⟩ | ⟨.call, _, []⟩ =>
    raise .operandMissing
  | ⟨kind, text, _⟩ => raise (.execution .unexpectedNode (some ⟨kind, text⟩))

def ofExpressionOn (text : String) : m Value := enter 1 do
  let tree ← Tree.parseExpressionOn text
  enter 1 (evaluateOn tree)

end

def evaluate (node : Node) : Except Error Value := evaluateOn node

section

variable (text : Option String) (condition yes no left right operand : Node) (more : List Node)

theorem evaluate_number :
    evaluate ⟨.number, text, more⟩ = .ok (ofText (text.getD "")) := rfl

theorem evaluate_unary : evaluate ⟨.unary, text, operand :: more⟩ = (do
    unary ⟨.unary, text, operand :: more⟩ (← evaluate operand)) := rfl

theorem evaluate_binary : evaluate ⟨.binary, text, left :: right :: more⟩ = (do
    binary ⟨.binary, text, left :: right :: more⟩ (← evaluate left) (← evaluate right)) := rfl

theorem evaluate_ternary : evaluate ⟨.ternary, text, condition :: yes :: no :: more⟩ = (do
    choose text (← evaluate condition) (evaluate yes) (evaluate no)) := rfl

theorem evaluate_ternary_of_two : evaluate ⟨.ternary, text, [condition, yes]⟩ = (do
    choose text (← evaluate condition) (evaluate yes) (.error .operandMissing)) := rfl

theorem evaluate_call : evaluate ⟨.call, text, operand :: more⟩ = (do
    call ⟨.call, text, operand :: more⟩ (← evaluate operand)) := rfl

end

def ofExpression (text : String) : Except Error Value := ofExpressionOn text

theorem ofExpression_eq (text : String) :
    ofExpression text = Tree.parseExpression text >>= evaluate := rfl

/-- An expression where so many frames of the stack are free. -/
def ofExpressionWithin (frames : Nat) (text : String) : Option (Except Error Value) :=
  Stacked.within (ofExpressionOn text) frames

end Tickle.Value

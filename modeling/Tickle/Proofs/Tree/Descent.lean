import Tickle.Proofs.ErrorFamily
import Tickle.Proofs.Tree.Grammar

/-! # Recursive descent reads the grammar -/

namespace Tickle.Tree

open Token (After)

/-- What a reader gives, without the proof that tokens were read. -/
def plain {p : List Token → Prop} (r : Except Error (Node × { rest : List Token // p rest })) :
    Except Error (Node × List Token) :=
  r.map fun (node, rest) => (node, rest.1)

theorem plain_binary_zero (tokens : List Token) :
    plain (binary 0 tokens) = plain (factor tokens) := by
  rw [binary, binaryOn]
  rfl

theorem plain_binary_succ (k : Nat) (tokens : List Token) :
    plain (binary (k + 1) tokens) =
      (plain (binary k tokens)).bind fun (left, rest) => plain (chain k left rest) := by
  rw [binary, binaryOn]
  show plain (Except.bind (binary k tokens) _) = _
  cases binary k tokens with
  | error e => rfl
  | ok r =>
    obtain ⟨left, rest, h⟩ := r
    show plain (Except.bind (chain k left rest) _) = plain (chain k left rest)
    cases chain k left rest <;> rfl

theorem plain_chain_nil (k : Nat) (left : Node) : plain (chain k left []) = .ok (left, []) := by
  rw [chain, chainOn]
  rfl

theorem plain_chain_cons (k : Nat) (left : Node) (op : Token) (rest : List Token) :
    plain (chain k left (op :: rest)) =
      if level? op.kind = some k then
        (plain (binary k rest)).bind fun (right, rest) =>
          plain (chain k (binaryNode op left right) rest)
      else .ok (left, op :: rest) := by
  rw [chain, chainOn]
  split
  · show plain (Except.bind (binary k rest) _) = _
    cases binary k rest with
    | error e => rfl
    | ok r =>
      obtain ⟨right, rest', h⟩ := r
      show plain (Except.bind (chain k (binaryNode op left right) rest') _) =
        plain (chain k (binaryNode op left right) rest')
      cases chain k (binaryNode op left right) rest' <;> rfl
  · rfl

/-- What follows a condition. -/
def afterCondition (condition : Node) : List Token → Except Error (Node × List Token)
  | [] => .ok (condition, [])
  | t :: rest =>
    if t.kind = .question then
      (plain (ternary rest)).bind fun
        | (_, []) => .error (.parse .missingColon (some .endOfText) (some .colon))
        | (yes, t' :: rest) =>
          if t'.kind = .colon then
            (plain (ternary rest)).map fun (no, rest) =>
              (⟨.ternary, some "?", [condition, yes, no]⟩, rest)
          else .error (.parse .missingColon (some t'.kind) (some .colon))
    else .ok (condition, t :: rest)

theorem plain_ternary (tokens : List Token) :
    plain (ternary tokens) =
      (plain (binary levels tokens)).bind fun (condition, rest) =>
        afterCondition condition rest := by
  rw [ternary, ternaryOn]
  show plain (Except.bind (binary levels tokens) _) = _
  cases binary levels tokens with
  | error e => rfl
  | ok r =>
    obtain ⟨condition, rest, h⟩ := r
    cases rest with
    | nil => rfl
    | cons t rest =>
      show plain (if t.kind = .question then _ else _) = if t.kind = .question then _ else _
      split
      · show plain (Except.bind (ternary rest) _) = _
        cases ternary rest with
        | error e => rfl
        | ok r =>
          obtain ⟨yes, rest₁, h₁⟩ := r
          cases rest₁ with
          | nil => rfl
          | cons t' rest₁ =>
            show plain (if t'.kind = .colon then _ else _) = if t'.kind = .colon then _ else _
            split
            · show plain (Except.bind (ternary rest₁) _) = _
              cases ternary rest₁ <;> rfl
            · rfl
      · rfl

/-- What follows an opening parenthesis and an expression. -/
def afterInner (inner : Node) : List Token → Except Error (Node × List Token)
  | [] => .error (.parentheses .tooManyOpening (some .endOfText) (some .rightParen))
  | t :: rest =>
    if t.kind = .rightParen then .ok (inner, rest)
    else .error (.parse .unexpectedInExpression (some t.kind) (some .rightParen))

theorem plain_closeParenthesis {tokens rest : List Token} (inner : Node)
    (h : rest.length < tokens.length) :
    plain (@closeParenthesis tokens (inner, ⟨rest, h⟩)) = afterInner inner rest := by
  cases rest with
  | nil => rfl
  | cons t rest =>
    show plain (if t.kind = .rightParen then _ else _) = if t.kind = .rightParen then _ else _
    split <;> rfl

/-- What follows a name. -/
def afterName (name : Token) : List Token → Except Error (Node × List Token)
  | [] => .ok (⟨.string, name.text, []⟩, [])
  | t :: rest =>
    if t.kind = .leftParen then
      (plain (ternary rest)).bind fun (argument, rest) =>
        (afterInner argument rest).map fun (argument, rest) =>
          (⟨.call, name.text, [argument]⟩, rest)
    else .ok (⟨.string, name.text, []⟩, t :: rest)

theorem plain_factor_nil :
    plain (factor []) = .error (.parse .unexpectedEnd (some .endOfText) (some .number)) := by
  rw [factor, factorOn]
  rfl

theorem plain_factor_cons (t : Token) (rest : List Token) :
    plain (factor (t :: rest)) =
      if t.kind = .number then .ok (⟨.number, t.text, []⟩, rest)
      else if isUnary t.kind then
        (plain (factor rest)).map fun (operand, rest) => (⟨.unary, t.text, [operand]⟩, rest)
      else if t.kind = .leftParen then
        (plain (ternary rest)).bind fun (inner, rest) => afterInner inner rest
      else if t.kind = .rightParen then
        .error (.parentheses .tooManyClosing (some .rightParen) none)
      else if t.kind = .leftQuote then plain (literal .rightQuote rest)
      else if t.kind = .leftBrace then plain (literal .rightBrace rest)
      else if t.kind = .name then afterName t rest
      else .error (.parse .unexpectedInExpression (some t.kind) (some .number)) := by
  have hpush : ∀ {c : Prop} [Decidable c] (x y : Except Error (Node × After (t :: rest))),
      plain (if c then x else y) = if c then plain x else plain y := by
    intro c _ x y
    split <;> rfl
  rw [factor, factorOn.eq_def]
  show plain (if _ then _ else _) = _
  simp only [hpush]
  apply ite_congr rfl
  · exact fun _ => rfl
  intro _
  apply ite_congr rfl
  · intro _
    show plain (Except.bind (factor rest) _) = _
    cases factor rest <;> rfl
  intro _
  apply ite_congr rfl
  · intro _
    show plain (Except.bind (Except.bind (ternary rest) closeParenthesis) _) = _
    cases ternary rest with
    | error e => rfl
    | ok r =>
      obtain ⟨inner, rest', h⟩ := r
      show plain (Except.bind (closeParenthesis (inner, ⟨rest', h⟩)) _) = afterInner inner rest'
      rw [← plain_closeParenthesis inner h]
      cases closeParenthesis (inner, (⟨rest', h⟩ : After rest)) <;> rfl
  intro _
  apply ite_congr rfl
  · exact fun _ => rfl
  intro _
  apply ite_congr rfl
  · intro _
    show plain (Except.bind (literal .rightQuote rest) _) = _
    cases literal .rightQuote rest <;> rfl
  intro _
  apply ite_congr rfl
  · intro _
    show plain (Except.bind (literal .rightBrace rest) _) = _
    cases literal .rightBrace rest <;> rfl
  intro _
  apply ite_congr rfl
  · intro _
    cases rest with
    | nil => rfl
    | cons t' rest =>
      simp only [afterName]
      split
      · show plain (Except.bind (Except.bind (ternary rest) closeParenthesis) _) = _
        cases ternary rest with
        | error e => rfl
        | ok r =>
          obtain ⟨argument, rest', h⟩ := r
          show plain (Except.bind (closeParenthesis (argument, ⟨rest', h⟩)) _) =
            Except.map _ (afterInner argument rest')
          rw [← plain_closeParenthesis argument h]
          cases closeParenthesis (argument, (⟨rest', h⟩ : After rest)) <;> rfl
      · rfl
  · exact fun _ => rfl

end Tickle.Tree

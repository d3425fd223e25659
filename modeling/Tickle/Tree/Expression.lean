import Tickle.Stack
import Tickle.Token.Expression

/-!
Expressions as operator trees, by recursive descent. Binary operators have eleven levels, the
tightest first; every level groups to the left, powers included. The conditional operator binds
loosest and groups to the right. Each reader returns the tokens that it leaves, which are fewer
than those it was given.
-/

namespace Tickle.Tree

open Token (After)

/-- Level of a binary operator: the lower, the tighter it binds. -/
def level? : Token.Kind → Option Nat
  | .power => some 0
  | .times | .divide | .remainder => some 1
  | .plus | .minus => some 2
  | .shiftLeft | .shiftRight => some 3
  | .less | .more | .atMost | .atLeast => some 4
  | .equal | .notEqual | .isIn | .notIn => some 5
  | .bitAnd => some 6
  | .bitXor => some 7
  | .bitOr => some 8
  | .and => some 9
  | .or => some 10
  | _ => none

def levels : Nat := 11

/-- Calls from a level down to its operands; powers are read by a procedure of their own. -/
def callsOfLevel : Nat → Nat
  | 0 => 2
  | _ => 1

def isUnary (kind : Token.Kind) : Bool :=
  kind = .plus || kind = .minus || kind = .not || kind = .bitNot

/-- Tree of a binary operator. A power is written in one way only. -/
def binaryNode (op : Token) (left right : Node) : Node :=
  ⟨.binary, if op.kind = .power then some "**" else op.text, [left, right]⟩

def closeLiteral (close : Token.Kind) (text : String) :
    (tokens : List Token) → Except Error (Node × After tokens)
  | [] => .error (.parse .unterminatedString (some .endOfText) (some close))
  | t :: rest =>
    if t.kind = close then .ok (⟨.quoted, some text, []⟩, .tail t rest)
    else .error (.parse .unterminatedString (some t.kind) (some close))

/-- Reads a literal after its opening token; its text may be missing. -/
def literal (close : Token.Kind) : (tokens : List Token) → Except Error (Node × After tokens)
  | [] => closeLiteral close "" []
  | t :: rest =>
    if t.kind = .string then do
      let (node, rest') ← closeLiteral close (t.text.getD "") rest
      return (node, rest'.weaken t)
    else closeLiteral close "" (t :: rest)

def closeParenthesis {tokens : List Token} (inner : Node × After tokens) :
    Except Error (Node × After tokens) :=
  match inner with
  | (_, ⟨[], _⟩) =>
    .error (.parentheses .tooManyOpening (some .endOfText) (some .rightParen))
  | (node, ⟨t :: rest, h⟩) =>
    if t.kind = .rightParen then .ok (node, ⟨rest, Nat.lt_of_succ_lt h⟩)
    else .error (.parse .unexpectedInExpression (some t.kind) (some .rightParen))

section

variable {m : Type → Type} [Monad m] [MonadLiftT (Except Error) m] [CallStack m]

mutual

def ternaryOn (tokens : List Token) : m (Node × After tokens) := enter 1 do
  let (condition, rest) ← binaryOn levels tokens
  match rest with
  | ⟨[], h⟩ => return (condition, ⟨[], h⟩)
  | ⟨t :: rest, h⟩ =>
    if t.kind = .question then
      let (yes, rest₁) ← ternaryOn rest
      match rest₁ with
      | ⟨[], _⟩ => raise (.parse .missingColon (some .endOfText) (some .colon))
      | ⟨t' :: rest₁, h₁⟩ =>
        if t'.kind = .colon then
          let (no, rest₂) ← ternaryOn rest₁
          return (⟨.ternary, some "?", [condition, yes, no]⟩,
            ⟨rest₂.1, Nat.lt_trans (Nat.lt_trans rest₂.2 (Nat.lt_of_succ_lt h₁))
              (Nat.lt_of_succ_lt h)⟩)
        else raise (.parse .missingColon (some t'.kind) (some .colon))
    else return (condition, ⟨t :: rest, h⟩)
termination_by (tokens.length, levels + 2)
decreasing_by
  · exact Prod.Lex.right _ (Nat.lt_succ_self _)
  · apply Prod.Lex.left
    simp only [List.length_cons] at h
    omega
  · apply Prod.Lex.left
    simp only [List.length_cons] at h h₁
    omega

/-- Reads operators of the levels below `level` and their operands. -/
def binaryOn (level : Nat) (tokens : List Token) : m (Node × After tokens) :=
  match level with
  | 0 => factorOn tokens
  | level + 1 => enter (callsOfLevel level) do
    let (left, rest) ← binaryOn level tokens
    let (node, rest') ← chainOn level left rest.1
    return (node, ⟨rest'.1, Nat.lt_of_le_of_lt rest'.2 rest.2⟩)
termination_by (tokens.length, level + 1)
decreasing_by
  · exact Prod.Lex.right _ (Nat.lt_succ_self _)
  · exact Prod.Lex.right _ (Nat.lt_succ_self _)
  · exact Prod.Lex.left _ _ rest.2

/-- Reads further operators of one level; `left` is what stands in front of them. -/
def chainOn (level : Nat) (left : Node) (tokens : List Token) :
    m (Node × { rest : List Token // rest.length ≤ tokens.length }) :=
  match tokens with
  | [] => return (left, ⟨[], Nat.le_refl _⟩)
  | op :: rest =>
    if level? op.kind = some level then do
      let (right, rest₁) ← binaryOn level rest
      let (node, rest₂) ← chainOn level (binaryNode op left right) rest₁.1
      return (node, ⟨rest₂.1, Nat.le_succ_of_le (Nat.le_trans rest₂.2 (Nat.le_of_lt rest₁.2))⟩)
    else return (left, ⟨op :: rest, Nat.le_refl _⟩)
termination_by (tokens.length, 0)
decreasing_by
  · exact Prod.Lex.left _ _ (Nat.lt_succ_self _)
  · exact Prod.Lex.left _ _ (Nat.lt_succ_of_lt rest₁.2)

def factorOn (tokens : List Token) : m (Node × After tokens) := enter 1 <|
  match tokens with
  | [] => raise (.parse .unexpectedEnd (some .endOfText) (some .number))
  | t :: rest =>
    if t.kind = .number then return (⟨.number, t.text, []⟩, .tail t rest)
    else if isUnary t.kind then do
      let (operand, rest') ← factorOn rest
      return (⟨.unary, t.text, [operand]⟩, rest'.weaken t)
    else if t.kind = .leftParen then do
      let (node, rest') ← enter 1 do closeParenthesis (← ternaryOn rest)
      return (node, rest'.weaken t)
    else if t.kind = .rightParen then
      raise (.parentheses .tooManyClosing (some .rightParen) none)
    else if t.kind = .leftQuote then do
      let (node, rest') ← literal .rightQuote rest
      return (node, rest'.weaken t)
    else if t.kind = .leftBrace then do
      let (node, rest') ← literal .rightBrace rest
      return (node, rest'.weaken t)
    else if t.kind = .name then
      match rest with
      | [] => return (⟨.string, t.text, []⟩, .tail t [])
      | t' :: rest =>
        if t'.kind = .leftParen then do
          let (argument, rest') ← enter 1 do closeParenthesis (← ternaryOn rest)
          return (⟨.call, t.text, [argument]⟩, (rest'.weaken t').weaken t)
        else return (⟨.string, t.text, []⟩, .tail t (t' :: rest))
    else raise (.parse .unexpectedInExpression (some t.kind) (some .number))
termination_by (tokens.length, 0)
decreasing_by
  · exact Prod.Lex.left _ _ (Nat.lt_succ_self _)
  · exact Prod.Lex.left _ _ (Nat.lt_succ_self _)
  · exact Prod.Lex.left _ _ (Nat.lt_succ_of_lt (Nat.lt_succ_self _))

end

/-- Tree of the tokens in front of the first end of text; nothing at all is zero. -/
def expressionOfTokensOn (tokens : List Token) : m Node := enter 1 <|
  match Token.untilEnd tokens with
  | [] => return ⟨.number, some "0", []⟩
  | tokens => do
    let (node, rest) ← ternaryOn tokens
    match rest.1 with
    | [] => return node
    | t :: _ =>
      if t.kind = .rightParen then raise (.parentheses .tooManyClosing (some .rightParen) none)
      else raise (.parse .unexpectedInExpression (some t.kind) (some .endOfText))

def parseExpressionOn (text : String) : m Node := enter 1 do
  expressionOfTokensOn (← Token.Expression.tokens text)

end

def ternary (tokens : List Token) : Except Error (Node × After tokens) := ternaryOn tokens

def binary (level : Nat) (tokens : List Token) : Except Error (Node × After tokens) :=
  binaryOn level tokens

def chain (level : Nat) (left : Node) (tokens : List Token) :
    Except Error (Node × { rest : List Token // rest.length ≤ tokens.length }) :=
  chainOn level left tokens

def factor (tokens : List Token) : Except Error (Node × After tokens) := factorOn tokens

def expressionOfTokens (tokens : List Token) : Except Error Node := expressionOfTokensOn tokens

theorem expressionOfTokens_of_nothing {tokens : List Token} (h : Token.untilEnd tokens = []) :
    expressionOfTokens tokens = .ok ⟨.number, some "0", []⟩ := by
  rw [expressionOfTokens, expressionOfTokensOn, h]
  rfl

def parseExpression (text : String) : Except Error Node := parseExpressionOn text

theorem parseExpression_eq (text : String) :
    parseExpression text = Token.Expression.tokens text >>= expressionOfTokens := rfl

end Tickle.Tree

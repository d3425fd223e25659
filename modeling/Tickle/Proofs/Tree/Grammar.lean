import Tickle.Tree.Expression

/-! # The grammar of expressions

Derivations of operator trees from tokens. A conditional has chains of binary operators as its
condition; the ten levels of binary operators and, below them, powers are left-recursive, so that
every level groups to the left. The grammar does not say how it is read: `binaryLevels` is a table
of its own, which the lemmas at the end compare with the levels of the reader. -/

namespace Tickle.Tree

/-- Binary operators by level, the tightest first. -/
def binaryLevels : List (List Token.Kind) :=
  [[.times, .divide, .remainder], [.plus, .minus], [.shiftLeft, .shiftRight],
   [.less, .more, .atMost, .atLeast], [.equal, .notEqual, .isIn, .notIn],
   [.bitAnd], [.bitXor], [.bitOr], [.and], [.or]]

/-- Operators in front of a factor. -/
def unaryOperators : List Token.Kind := [.plus, .minus, .not, .bitNot]

/-- Opening and closing tokens of literals. -/
def literalDelimiters : List (Token.Kind × Token.Kind) :=
  [(.leftQuote, .rightQuote), (.leftBrace, .rightBrace)]

mutual

/-- Conditionals, which group to the right, and everything that binds tighter. -/
inductive Ternary : List Token → Node → Prop
  | chain {ts : List Token} {n : Node} : Binary binaryLevels.length ts n → Ternary ts n
  | conditional {ts us vs : List Token} {question colon : Token} {condition yes no : Node} :
      Binary binaryLevels.length ts condition → question.kind = .question →
      Ternary us yes → colon.kind = .colon → Ternary vs no →
      Ternary (ts ++ question :: (us ++ colon :: vs)) ⟨.ternary, some "?", [condition, yes, no]⟩

/-- Chains of operators of the first `k` levels of the table, and of powers. -/
inductive Binary : Nat → List Token → Node → Prop
  | factor {ts : List Token} {n : Node} : Factor ts n → Binary 0 ts n
  | power {ts us : List Token} {op : Token} {left right : Node} :
      Binary 0 ts left → op.kind = .power → Factor us right →
      Binary 0 (ts ++ op :: us) ⟨.binary, some "**", [left, right]⟩
  | tighter {k : Nat} {ts : List Token} {n : Node} : Binary k ts n → Binary (k + 1) ts n
  | operation {k : Nat} {kinds : List Token.Kind} {ts us : List Token} {op : Token}
      {left right : Node} : Binary (k + 1) ts left → binaryLevels[k]? = some kinds →
      op.kind ∈ kinds → Binary k us right →
      Binary (k + 1) (ts ++ op :: us) ⟨.binary, op.text, [left, right]⟩

/-- Operands. -/
inductive Factor : List Token → Node → Prop
  | number {t : Token} : t.kind = .number → Factor [t] ⟨.number, t.text, []⟩
  | name {t : Token} : t.kind = .name → Factor [t] ⟨.string, t.text, []⟩
  | call {t opening closing : Token} {ts : List Token} {argument : Node} : t.kind = .name →
      opening.kind = .leftParen → Ternary ts argument → closing.kind = .rightParen →
      Factor (t :: opening :: (ts ++ [closing])) ⟨.call, t.text, [argument]⟩
  | unary {t : Token} {ts : List Token} {operand : Node} : t.kind ∈ unaryOperators →
      Factor ts operand → Factor (t :: ts) ⟨.unary, t.text, [operand]⟩
  | parentheses {opening closing : Token} {ts : List Token} {n : Node} :
      opening.kind = .leftParen → Ternary ts n → closing.kind = .rightParen →
      Factor (opening :: (ts ++ [closing])) n
  | empty {opening closing : Token} : (opening.kind, closing.kind) ∈ literalDelimiters →
      Factor [opening, closing] ⟨.quoted, some "", []⟩
  | literal {opening t closing : Token} : (opening.kind, closing.kind) ∈ literalDelimiters →
      t.kind = .string → Factor [opening, t, closing] ⟨.quoted, some (t.text.getD ""), []⟩

end

/-! ## Levels of the reader -/

theorem mem_binaryLevels {kind : Token.Kind} {k : Nat} (h : level? kind = some (k + 1)) :
    ∃ kinds, binaryLevels[k]? = some kinds ∧ kind ∈ kinds := by
  cases kind <;> cases h <;> exact ⟨_, rfl, by decide⟩

theorem level?_of_mem {kind : Token.Kind} {kinds : List Token.Kind} {k : Nat}
    (hk : binaryLevels[k]? = some kinds) (h : kind ∈ kinds) : level? kind = some (k + 1) := by
  have hall : ∀ k < binaryLevels.length, ∀ kind ∈ binaryLevels[k]?.getD [],
      level? kind = some (k + 1) := by
    decide
  have hlt := (List.getElem?_eq_some_iff.1 hk).1
  exact hall k hlt kind (by rw [hk]; exact h)

theorem level?_eq_zero {kind : Token.Kind} (h : level? kind = some 0) : kind = .power := by
  cases kind <;> cases h
  rfl

theorem isUnary_iff {kind : Token.Kind} : isUnary kind = true ↔ kind ∈ unaryOperators := by
  simp [isUnary, unaryOperators, or_assoc]

/-- What the reader reads at one of its levels: factors at level zero, then the chains of the
grammar. -/
def AtLevel : Nat → List Token → Node → Prop
  | 0 => Factor
  | k + 1 => Binary k

theorem AtLevel.tighter {k : Nat} {ts : List Token} {n : Node} (h : AtLevel k ts n) :
    AtLevel (k + 1) ts n := by
  cases k with
  | zero => exact Binary.factor h
  | succ k => exact Binary.tighter h

theorem AtLevel.operation {k : Nat} {ts us : List Token} {op : Token} {left right : Node}
    (hl : AtLevel (k + 1) ts left) (hop : level? op.kind = some k) (hr : AtLevel k us right) :
    AtLevel (k + 1) (ts ++ op :: us) (binaryNode op left right) := by
  cases k with
  | zero =>
    have hp := level?_eq_zero hop
    rw [binaryNode, if_pos hp]
    exact Binary.power hl hp hr
  | succ k =>
    obtain ⟨kinds, hk, hm⟩ := mem_binaryLevels hop
    have hp : op.kind ≠ .power := by
      intro hp
      rw [hp] at hop
      cases hop
    rw [binaryNode, if_neg hp]
    exact Binary.operation hl hk hm hr

end Tickle.Tree

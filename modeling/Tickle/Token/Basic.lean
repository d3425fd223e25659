/-!
Tokens: a kind, the text that belongs to it, and the offset at which it starts. The three grammars
(scripts, substitution text and expressions) share the kinds.
-/

namespace Tickle

inductive Token.Kind where
  | number | string | word | name
  | plus | minus | times | divide | power | remainder
  | bitOr | bitAnd | bitXor | bitNot | or | and | not | shiftLeft | shiftRight
  | atMost | atLeast | less | more | notEqual | equal | isIn | notIn
  | question | colon
  | leftParen | rightParen | leftBracket | rightBracket
  | leftQuote | rightQuote | leftBrace | rightBrace
  | semicolon | lineEnd | dollar | blank | comment
  | endOfText | unknown | null
  deriving Repr, DecidableEq

namespace Token.Kind

/-- The name under which error messages mention a kind. -/
def label : Kind → String
  | number => "NUMBER" | string => "STRING" | word => "WORD" | name => "NAME"
  | plus => "PLUS" | minus => "MINUS" | times => "MUL" | divide => "DIV"
  | power => "EXP" | remainder => "REM"
  | bitOr => "BOR" | bitAnd => "BAND" | bitXor => "BXOR" | bitNot => "BNOT"
  | or => "OR" | and => "AND" | not => "NOT" | shiftLeft => "LSHIFT" | shiftRight => "RSHIFT"
  | atMost => "LEQ" | atLeast => "MEQ" | less => "LESS" | more => "MORE"
  | notEqual => "NE" | equal => "EQ" | isIn => "IN" | notIn => "NI"
  | question => "QM" | colon => "COLON"
  | leftParen => "LEFTPAR" | rightParen => "RIGHTPAR"
  | leftBracket => "LEFTBR" | rightBracket => "RIGHTBR"
  | leftQuote => "LEFTQ" | rightQuote => "RIGHTQ"
  | leftBrace => "LEFTCURL" | rightBrace => "RIGHTCURL"
  | semicolon => "SEMI" | lineEnd => "EOL" | dollar => "DOLLAR"
  | blank => "WHITESPACE" | comment => "CMT"
  | endOfText => "EOF" | unknown => "UNKNOWN" | null => "NULL"

end Token.Kind

structure Token where
  kind : Token.Kind
  text : Option String := none
  pos : Nat := 0
  deriving Repr, DecidableEq

namespace Token

/-- The tokens in front of the first end of text. -/
def untilEnd (tokens : List Token) : List Token := tokens.takeWhile (·.kind ≠ .endOfText)

/-- Kind of the first token; an exhausted list stands at the end of the text. -/
def kindAt : List Token → Kind
  | [] => .endOfText
  | t :: _ => t.kind

/-- What is left of some tokens after at least one of them was read. -/
abbrev After (tokens : List Token) := { rest : List Token // rest.length < tokens.length }

def After.tail (t : Token) (rest : List Token) : After (t :: rest) := ⟨rest, Nat.lt_succ_self _⟩

def After.weaken {tokens : List Token} (t : Token) (rest : After tokens) : After (t :: tokens) :=
  ⟨rest.1, Nat.lt_succ_of_lt rest.2⟩

def After.trans {tokens : List Token} (rest : After tokens) (rest' : After rest.1) :
    After tokens :=
  ⟨rest'.1, Nat.lt_trans rest'.2 rest.2⟩

end Token

end Tickle

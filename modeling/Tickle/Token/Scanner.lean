import Tickle.Token.Basic

/-!
Scanners: what is left of a text, and what is expected next. Each grammar has its own modes; a step
reads one token and says what follows it. Tokens carry the offset at which the scanner stood.
-/

namespace Tickle.Token

/-- Characters still to be read out of a text of `size` characters, and what they should be. -/
structure Scanner (Mode : Type) where
  size : Nat
  rest : List Char
  mode : Mode
  deriving Repr, DecidableEq

structure Step (Mode : Type) where
  kind : Kind
  text : String
  rest : List Char
  mode : Mode

namespace Scanner

variable {Mode : Type}

def start (text : List Char) (mode : Mode) : Scanner Mode := ⟨text.length, text, mode⟩

def pos (s : Scanner Mode) : Nat := s.size - s.rest.length

def take (s : Scanner Mode) (step : Step Mode) : Token × Scanner Mode :=
  (⟨step.kind, some step.text, s.pos⟩, ⟨s.size, step.rest, step.mode⟩)

def endToken (s : Scanner Mode) : Token := ⟨.endOfText, none, s.size⟩

/-- Twice the characters left, and what the mode adds: a bound on the tokens to come, if a mode in
which a token may be empty weighs one. -/
def measure (weight : Mode → Nat) (s : Scanner Mode) : Nat := 2 * s.rest.length + weight s.mode

end Scanner

end Tickle.Token

import Tickle.Token.Reader
import Tickle.Token.Scanner

/-!
Tokens of substitution text: literal runs, variable references and bracketed scripts. As for
scripts, every step lowers a measure of at most twice the length of the text.
-/

namespace Tickle.Token.Substitution

open Tickle.Text Tickle.Reader

/-- What the scanner expects: literal text or a substitution, a name after its dollar sign, the
inside of brackets, or the closing bracket. -/
inductive Mode where
  | plain | name | inside | closing
  deriving Repr, DecidableEq

/-- A name and the inside of brackets may be empty. -/
def Mode.weight : Mode → Nat
  | .name | .inside => 1
  | _ => 0

/-- The next token. The end of the text ends every mode. -/
def next? (s : Scanner Mode) : Option (Token × Scanner Mode) :=
  match s.rest with
  | [] => none
  | c :: rest =>
    match s.mode with
    | .plain =>
      if c = '[' then some (s.take ⟨.leftBracket, "[", rest, .inside⟩)
      else if startsName (c :: rest) then some (s.take ⟨.dollar, "$", rest, .name⟩)
      else
        let read := readPlain (· == '[') (c :: rest)
        some (s.take ⟨.string, String.ofList read.1, read.2, .plain⟩)
    | .name =>
      let read := readName (c :: rest)
      some (s.take ⟨.name, String.ofList read.1, read.2, .plain⟩)
    | .inside =>
      let read := readBracketed 0 0 (c :: rest)
      some (s.take ⟨.string, String.ofList read.1, read.2, .closing⟩)
    | .closing => some (s.take ⟨.rightBracket, "]", rest, .plain⟩)

theorem measure_next?_lt {s s' : Scanner Mode} {t : Token} (h : next? s = some (t, s')) :
    s'.measure Mode.weight < s.measure Mode.weight := by
  obtain ⟨size, rest, mode⟩ := s
  cases rest with
  | nil => simp [next?] at h
  | cons c rest =>
    cases mode with
    | plain =>
      simp only [next?] at h
      split at h
      · cases h
        simp only [Scanner.measure, Mode.weight, List.length_cons]
        omega
      · split at h
        · cases h
          simp only [Scanner.measure, Mode.weight, List.length_cons]
          omega
        · have hlt : (readPlain (· == '[') (c :: rest)).2.length < (c :: rest).length :=
            length_readPlain_lt (by simp_all) (by simp_all)
          cases h
          simp only [Scanner.measure, Mode.weight]
          omega
    | name =>
      have := length_readName_le (c :: rest)
      cases h
      simp only [Scanner.measure, Mode.weight]
      omega
    | inside =>
      have := length_readBracketed_le 0 0 (c :: rest)
      cases h
      simp only [Scanner.measure, Mode.weight]
      omega
    | closing =>
      cases h
      simp only [Scanner.measure, Mode.weight, List.length_cons]
      omega

def tokensFrom (s : Scanner Mode) : List Token :=
  match _h : next? s with
  | none => [s.endToken]
  | some (t, s') => t :: tokensFrom s'
termination_by s.measure Mode.weight
decreasing_by exact measure_next?_lt _h

def tokens (text : String) : List Token := tokensFrom (.start text.toList .plain)

end Tickle.Token.Substitution

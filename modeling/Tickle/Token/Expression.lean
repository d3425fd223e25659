import Tickle.Error
import Tickle.Token.Reader
import Tickle.Token.Scanner

/-!
Tokens of expressions. Blanks between tokens are skipped; inside quotes and braces they count. A
character that starts no token becomes an unknown token. The only failure is a literal whose
decimal text would be too long.
-/

namespace Tickle.Token.Expression

open Tickle.Text Tickle.Reader

/-- Literals with delimiters. -/
inductive Region where
  | quotes | braces
  deriving Repr, DecidableEq

namespace Region

def closer : Region → Char
  | quotes => '"'
  | braces => '\x7d'

def closeKind : Region → Kind
  | quotes => .rightQuote
  | braces => .rightBrace

/-- Reads the inside of a literal: up to the next quote, or up to the matching brace. -/
def read : Region → List Char → List Char × List Char
  | quotes => fun cs => (cs.takeWhile (· ≠ '"'), cs.dropWhile (· ≠ '"'))
  | braces => readBraced false 0

theorem length_read_le (r : Region) (cs : List Char) : (r.read cs).2.length ≤ cs.length := by
  cases r
  · exact length_dropWhile_le ..
  · exact length_readBraced_le ..

end Region

def pairKind? : Char → Char → Option Kind
  | '*', '*' => some .power
  | '<', '<' => some .shiftLeft
  | '>', '>' => some .shiftRight
  | '<', '=' => some .atMost
  | '>', '=' => some .atLeast
  | '&', '&' => some .and
  | '|', '|' => some .or
  | '=', '=' => some .equal
  | '!', '=' => some .notEqual
  | _, _ => none

def charKind? : Char → Option Kind
  | '*' => some .times
  | '/' => some .divide
  | '%' => some .remainder
  | '+' => some .plus
  | '-' => some .minus
  | '<' => some .less
  | '>' => some .more
  | '&' => some .bitAnd
  | '^' => some .bitXor
  | '|' => some .bitOr
  | '!' => some .not
  | '~' => some .bitNot
  | '?' => some .question
  | ':' => some .colon
  | '(' => some .leftParen
  | ')' => some .rightParen
  | _ => none

/-- The operator at the beginning of a text; of two that fit, the longer. -/
def operator? (c : Char) (rest : List Char) : Option (Kind × List Char × List Char) :=
  match rest.head?.bind (pairKind? c) with
  | some kind => some (kind, c :: rest.take 1, rest.drop 1)
  | none => (charKind? c).map (·, [c], rest)

/-- Kind of a run of name characters: an operator in letters or a name. -/
def wordKind (word : String) : Kind :=
  if word = "eq" then .equal
  else if word = "ne" then .notEqual
  else if word = "in" then .isIn
  else if word = "ni" then .notIn
  else .name

/-- What the scanner expects: any token, the inside of a literal, or its end. -/
inductive Mode where
  | plain
  | inside (region : Region)
  | closing (region : Region)
  deriving Repr, DecidableEq

/-- The inside of a literal may be empty. -/
def Mode.weight : Mode → Nat
  | .inside _ => 1
  | _ => 0

theorem Mode.weight_le (m : Mode) : m.weight ≤ 1 := by cases m <;> simp [weight]

def startsNumber : Char → List Char → Bool
  | '.', d :: _ => isDigit d
  | c, _ => isDigit c

/-- Reads the token that starts with `c` outside literals. -/
def readToken (c : Char) (rest : List Char) : Except Error (Step Mode) :=
  if startsNumber c rest then
    let read := readNumber (c :: rest)
    match read.1 with
    | some text => .ok ⟨.number, text, read.2, .plain⟩
    | none => .error .numeralTooLong
  else if c = '"' then .ok ⟨.leftQuote, "\"", rest, .inside .quotes⟩
  else if c = '\x7b' then .ok ⟨.leftBrace, "\x7b", rest, .inside .braces⟩
  else if isNameChar c then
    let word := String.ofList ((c :: rest).takeWhile isNameChar)
    .ok ⟨wordKind word, word, (c :: rest).dropWhile isNameChar, .plain⟩
  else
    match operator? c rest with
    | some (kind, text, rest) => .ok ⟨kind, String.ofList text, rest, .plain⟩
    | none => .ok ⟨.unknown, c.toString, rest, .plain⟩

/-- The next token. The end of the text ends every mode. -/
def next? (s : Scanner Mode) : Except Error (Option (Token × Scanner Mode)) :=
  match s.mode with
  | .plain =>
    let s := { s with rest := skipBlanks s.rest }
    match s.rest with
    | [] => .ok none
    | c :: rest => (readToken c rest).map fun step => some (s.take step)
  | .inside region =>
    match s.rest with
    | [] => .ok none
    | cs =>
      let read := region.read cs
      .ok (some (s.take ⟨.string, String.ofList read.1, read.2, .closing region⟩))
  | .closing region =>
    match s.rest with
    | [] => .ok none
    | _ :: rest => .ok (some (s.take ⟨region.closeKind, region.closer.toString, rest, .plain⟩))

theorem length_operator?_lt {c : Char} {cs : List Char} {kind : Kind} {text rest : List Char}
    (h : operator? c cs = some (kind, text, rest)) : rest.length < (c :: cs).length := by
  unfold operator? at h
  split at h
  · cases h
    simp only [List.length_drop, List.length_cons]
    omega
  · obtain ⟨k, _, hk⟩ := Option.map_eq_some_iff.1 h
    cases hk
    simp

theorem length_readToken_lt {c : Char} {rest : List Char} {step : Step Mode}
    (h : readToken c rest = .ok step) : step.rest.length < (c :: rest).length := by
  unfold readToken at h
  split at h
  · rename_i hn
    dsimp only at h
    split at h
    · cases h
      refine length_readNumber_lt ?_ rest
      unfold startsNumber at hn
      split at hn
      · exact .inr rfl
      · exact .inl hn
    · contradiction
  · split at h
    · cases h
      simp
    · split at h
      · cases h
        simp
      · split at h
        · rename_i hc
          cases h
          simpa [hc] using Nat.lt_succ_of_le (length_dropWhile_le isNameChar rest)
        · split at h
          · rename_i ho
            cases h
            exact length_operator?_lt ho
          · cases h
            simp

theorem measure_next?_lt {s s' : Scanner Mode} {t : Token}
    (h : next? s = .ok (some (t, s'))) : s'.measure Mode.weight < s.measure Mode.weight := by
  obtain ⟨size, rest, mode⟩ := s
  cases mode with
  | plain =>
    simp only [next?] at h
    have hl := length_dropWhile_le isBlank rest
    split at h
    · cases h
    · rename_i c r heq
      cases hr : readToken c r with
      | error e => simp [hr, Except.map] at h
      | ok step =>
        have hlt := length_readToken_lt hr
        have hm := step.mode.weight_le
        rw [hr] at h
        cases h
        rw [show rest.dropWhile isBlank = c :: r from heq] at hl
        simp only [Scanner.measure]
        omega
  | inside region =>
    simp only [next?] at h
    split at h
    · cases h
    · have := region.length_read_le rest
      cases h
      simp only [Scanner.measure, Mode.weight]
      omega
  | closing region =>
    simp only [next?] at h
    split at h
    · cases h
    · cases h
      simp only [Scanner.measure, Mode.weight, List.length_cons]
      omega

/-- All tokens from where the scanner stands, the end of the text included. -/
def tokensFrom (s : Scanner Mode) : Except Error (List Token) :=
  match _h : next? s with
  | .error e => .error e
  | .ok none => .ok [s.endToken]
  | .ok (some (t, s')) => (tokensFrom s').map (t :: ·)
termination_by s.measure Mode.weight
decreasing_by exact measure_next?_lt _h

def tokens (text : String) : Except Error (List Token) := tokensFrom (.start text.toList .plain)

end Tickle.Token.Expression

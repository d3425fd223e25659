import Tickle.Token.Reader
import Tickle.Token.Scanner

/-!
Tokens of command scripts. `next?` yields one token a step and `none` once the text is used up.
Every step lowers the measure of the scanner, so a text of `n` characters has at most `2 * n`
tokens in front of its end.
-/

namespace Tickle.Token.Script

open Tickle.Text Tickle.Reader

/-- Regions whose inside is one token. -/
inductive Region where
  | braces | brackets | quotes
  deriving Repr, DecidableEq

namespace Region

def opener : Region → Char
  | braces => '\x7b'
  | brackets => '['
  | quotes => '"'

def closer : Region → Char
  | braces => '\x7d'
  | brackets => ']'
  | quotes => '"'

def openKind : Region → Kind
  | braces => .leftBrace
  | brackets => .leftBracket
  | quotes => .leftQuote

def closeKind : Region → Kind
  | braces => .rightBrace
  | brackets => .rightBracket
  | quotes => .rightQuote

def read : Region → List Char → List Char × List Char
  | braces => readBraced false 0
  | brackets => readBracketed 0 0
  | quotes => readQuoted 0

theorem length_read_le (r : Region) (cs : List Char) : (r.read cs).2.length ≤ cs.length := by
  cases r
  · exact length_readBraced_le ..
  · exact length_readBracketed_le ..
  · exact length_readQuoted_le ..

end Region

/-- What the scanner expects: words (and whether a word and a command may start), a name after its
dollar sign, the inside of a region, or the end of that region. -/
inductive Mode where
  | words (wordStart commandStart : Bool)
  | name
  | inside (region : Region)
  | closing (region : Region)
  deriving Repr, DecidableEq

namespace Mode

def initial : Mode := .words true true

/-- After a part of a word only further parts of it may follow. -/
def afterPart : Mode := .words false false

/-- A name and the inside of a region may be empty. -/
def weight : Mode → Nat
  | .name | .inside _ => 1
  | _ => 0

theorem weight_le (m : Mode) : m.weight ≤ 1 := by cases m <;> simp [weight]

end Mode

def endsWord (c : Char) : Bool := isBlank c || c == ';' || c == '['

def openRegion (region : Region) (rest : List Char) : Step Mode :=
  ⟨region.openKind, region.opener.toString, rest, .inside region⟩

/-- Reads the token that starts with `c` where words are expected. -/
def readWord (wordStart commandStart : Bool) (c : Char) (rest : List Char) : Step Mode :=
  if isLineEnd c then ⟨.lineEnd, "\n", skipBlanks (c :: rest), .initial⟩
  else if c = ';' then ⟨.semicolon, ";", rest, .initial⟩
  else if isBlank c then ⟨.blank, " ", skipLineBlanks (c :: rest), .words true commandStart⟩
  else if c = '#' && commandStart then
    ⟨.comment, String.ofList (rest.takeWhile (!isLineEnd ·)), rest.dropWhile (!isLineEnd ·),
      .words wordStart commandStart⟩
  else if c = '[' then openRegion .brackets rest
  else if c = '\x7b' && wordStart then openRegion .braces rest
  else if c = '"' && wordStart then openRegion .quotes rest
  else if startsName (c :: rest) then ⟨.dollar, "$", rest, .name⟩
  else
    let read := readPlain endsWord (c :: rest)
    ⟨.word, String.ofList read.1, read.2, .afterPart⟩

/-- The next token. The end of the text ends every mode. -/
def next? (s : Scanner Mode) : Option (Token × Scanner Mode) :=
  match s.mode with
  | .words wordStart commandStart =>
    let s := { s with rest := skipContinuations s.rest }
    match s.rest with
    | [] => none
    | c :: rest => some (s.take (readWord wordStart commandStart c rest))
  | .name =>
    match s.rest with
    | [] => none
    | cs =>
      let read := readName cs
      some (s.take ⟨.name, String.ofList read.1, read.2, .afterPart⟩)
  | .inside region =>
    match s.rest with
    | [] => none
    | cs =>
      let read := region.read cs
      some (s.take ⟨.string, String.ofList read.1, read.2, .closing region⟩)
  | .closing region =>
    match s.rest with
    | [] => none
    | _ :: rest => some (s.take ⟨region.closeKind, region.closer.toString, rest, .afterPart⟩)

theorem length_readWord_lt (wordStart commandStart : Bool) (c : Char) (rest : List Char) :
    (readWord wordStart commandStart c rest).rest.length < (c :: rest).length := by
  unfold readWord
  repeat' split
  · rename_i h
    simpa [skipBlanks, isBlank_of_isLineEnd h] using
      Nat.lt_succ_of_le (length_dropWhile_le isBlank rest)
  · simp
  · rename_i h1 _ h2
    simpa [skipLineBlanks, h1, h2] using Nat.lt_succ_of_le (length_dropWhile_le _ rest)
  · simpa using Nat.lt_succ_of_le (length_dropWhile_le _ rest)
  · simp [openRegion]
  · simp [openRegion]
  · simp [openRegion]
  · simp
  · exact length_readPlain_lt (by simp_all [endsWord]) (by simp_all)

theorem measure_next?_lt {s s' : Scanner Mode} {t : Token} (h : next? s = some (t, s')) :
    s'.measure Mode.weight < s.measure Mode.weight := by
  obtain ⟨size, rest, mode⟩ := s
  cases mode with
  | words ws cs =>
    simp only [next?] at h
    have hl := length_skipContinuations_le rest
    split at h
    · contradiction
    · rename_i c r heq
      have hw := length_readWord_lt ws cs c r
      have hm := (readWord ws cs c r).mode.weight_le
      rw [heq] at hl
      cases h
      simp only [Scanner.measure]
      omega
  | name =>
    simp only [next?] at h
    split at h
    · contradiction
    · have := length_readName_le rest
      cases h
      simp only [Scanner.measure, Mode.weight, Mode.afterPart]
      omega
  | inside region =>
    simp only [next?] at h
    split at h
    · contradiction
    · have := region.length_read_le rest
      cases h
      simp only [Scanner.measure, Mode.weight]
      omega
  | closing region =>
    simp only [next?] at h
    split at h
    · contradiction
    · cases h
      simp only [Scanner.measure, Mode.weight, Mode.afterPart, List.length_cons]
      omega

def tokensFrom (s : Scanner Mode) : List Token :=
  match _h : next? s with
  | none => [s.endToken]
  | some (t, s') => t :: tokensFrom s'
termination_by s.measure Mode.weight
decreasing_by exact measure_next?_lt _h

def tokens (text : String) : List Token := tokensFrom (.start text.toList .initial)

end Tickle.Token.Script

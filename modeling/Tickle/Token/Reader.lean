import Tickle.Text.Alnum
import Tickle.Text.Blank
import Tickle.Text.CodePoint
import Tickle.Text.Digit
import Tickle.Number.Numeral

/-!
Readers on characters, shared by the three grammars. A reader takes the characters from where it
stands and returns what it read together with the characters that follow; none of them fails, and
each stops at the end of the text at the latest.
-/

namespace Tickle.Reader

open Tickle.Text

section

variable {α : Type}

/-- Puts a character in front of what a reader read. -/
@[inline] def keep (c : α) (read : List α × List Char) : List α × List Char :=
  (c :: read.1, read.2)

@[simp] theorem keep_fst (c : α) (r : List α × List Char) : (keep c r).1 = c :: r.1 := rfl

@[simp] theorem keep_snd (c : α) (r : List α × List Char) : (keep c r).2 = r.2 := rfl

end

/-- Dropping a class never lengthens a text. -/
theorem length_dropWhile_le (p : Char → Bool) (cs : List Char) :
    (cs.dropWhile p).length ≤ cs.length :=
  (List.dropWhile_suffix p).length_le

/-- What is left of a text is not longer than the text. -/
theorem length_le_of_append_eq {a b cs : List Char} (h : a ++ b = cs) : b.length ≤ cs.length := by
  rw [← h, List.length_append]
  exact Nat.le_add_left ..

/-! ## Blanks and continuations -/

def skipBlanks (cs : List Char) : List Char := cs.dropWhile isBlank

def skipLineBlanks (cs : List Char) : List Char :=
  cs.dropWhile fun c => isBlank c && !isLineEnd c

/-- A backslash in front of the end of a line. -/
def atContinuation : List Char → Bool
  | '\\' :: c :: _ => isLineEnd c
  | _ => false

/-- Skips the character at which the reader stands and all blanks after it. -/
def skipContinuation (cs : List Char) : List Char := skipBlanks (cs.drop 1)

theorem length_skipContinuation_le (c : Char) (cs : List Char) :
    (skipContinuation (c :: cs)).length ≤ cs.length := by
  simpa [skipContinuation, skipBlanks] using length_dropWhile_le isBlank cs

theorem exists_of_atContinuation {cs : List Char} (h : atContinuation cs = true) :
    ∃ c rest, cs = '\\' :: c :: rest ∧ isLineEnd c = true := by
  unfold atContinuation at h
  split at h
  · exact ⟨_, _, rfl, h⟩
  · contradiction

def skipContinuations (cs : List Char) : List Char :=
  if atContinuation cs then skipContinuations (skipContinuation cs) else cs
termination_by cs.length
decreasing_by
  rename_i h
  obtain ⟨c, rest, rfl, _⟩ := exists_of_atContinuation h
  have := length_skipContinuation_le '\\' (c :: rest)
  simp only [List.length_cons] at *
  omega

theorem length_skipContinuations_le (cs : List Char) :
    (skipContinuations cs).length ≤ cs.length := by
  fun_induction skipContinuations cs with
  | case1 cs h ih =>
    obtain ⟨c, rest, rfl, _⟩ := exists_of_atContinuation h
    have := length_skipContinuation_le '\\' (c :: rest)
    simp only [List.length_cons] at *
    omega
  | case2 => exact Nat.le_refl _

/-! ## Digits and escapes -/

def isOctalDigit (c : Char) : Bool := '0' ≤ c && c ≤ '7'

def isHexDigit (c : Char) : Bool := c.isDigit || 'a' ≤ c && c ≤ 'f' || 'A' ≤ c && c ≤ 'F'

def digitValue (c : Char) : Nat :=
  if c.isDigit then c.toNat - '0'.toNat
  else if 'a' ≤ c then c.toNat - 'a'.toNat + 10
  else c.toNat - 'A'.toNat + 10

def valueOf (base : Nat) (digits : List Char) : Nat :=
  digits.foldl (fun n c => base * n + digitValue c) 0

def takeDigits (isDigit : Char → Bool) (limit : Nat) (cs : List Char) : List Char :=
  (cs.take limit).takeWhile isDigit

def controlEscape? : Char → Option Char
  | 'a' => some '\x07'
  | 'b' => some '\x08'
  | 'f' => some '\x0c'
  | 'n' => some '\n'
  | 'r' => some '\r'
  | 't' => some '\t'
  | 'v' => some '\x0b'
  | _ => none

/-- Reads what follows a backslash: a control character, up to three octal digits, `x` and any
number of hexadecimal digits of which the low byte counts, `u` and up to four, which may give a
surrogate, or the character itself. A backslash at the end of the text stands for itself. -/
def readEscaped : List Char → CodePoint × List Char
  | [] => (.char '\\', [])
  | c :: rest =>
    match controlEscape? c with
    | some control => (.char control, rest)
    | none =>
      if isOctalDigit c then
        let digits := takeDigits isOctalDigit 3 (c :: rest)
        (.ofNat (valueOf 8 digits), (c :: rest).drop digits.length)
      else if c = 'x' then
        let digits := rest.takeWhile isHexDigit
        if digits.isEmpty then (.char 'x', rest)
        else (.ofNat (valueOf 16 digits % 256), rest.dropWhile isHexDigit)
      else if c = 'u' then
        let digits := takeDigits isHexDigit 4 rest
        if digits.isEmpty then (.char 'u', rest)
        else (.ofNat (valueOf 16 digits), rest.drop digits.length)
      else (.char c, rest)

def readEscape (cs : List Char) : CodePoint × List Char := readEscaped (cs.drop 1)

theorem length_readEscaped_le (cs : List Char) : (readEscaped cs).2.length ≤ cs.length := by
  unfold readEscaped
  split
  · simp
  · rename_i c rest
    have h := length_dropWhile_le isHexDigit rest
    split
    · simp
    · split
      · simp
      · split
        · dsimp only
          split
          · simp
          · simp only [List.length_cons]
            omega
        · split
          · dsimp only
            split <;> simp only [List.length_cons, List.length_drop] <;> omega
          · simp

theorem length_readEscape_le (c : Char) (cs : List Char) :
    (readEscape (c :: cs)).2.length ≤ cs.length := length_readEscaped_le cs

/-! ## Numbers -/

/-- Decimal text of a number, unless it is too long to be written. -/
def decimalText? (n : Nat) : Option String :=
  let text := toString n
  if Number.maxDigits < text.length then none else some text

def exponentFollows : List Char → Bool
  | '+' :: d :: _ => isDigit d
  | '-' :: d :: _ => isDigit d
  | d :: _ => isDigit d
  | [] => false

def readExponent : List Char → List Char × List Char
  | '+' :: rest => keep '+' (rest.takeWhile Char.isDigit, rest.dropWhile Char.isDigit)
  | '-' :: rest => keep '-' (rest.takeWhile Char.isDigit, rest.dropWhile Char.isDigit)
  | rest => (rest.takeWhile Char.isDigit, rest.dropWhile Char.isDigit)

/-- Reads digits with at most one point among them and an exponent after them. -/
def readDecimal (seenPoint : Bool) : List Char → List Char × List Char
  | [] => ([], [])
  | c :: rest =>
    if isDigit c then keep c (readDecimal seenPoint rest)
    else if c = '.' && !seenPoint then keep c (readDecimal true rest)
    else if (c = 'e' || c = 'E') && exponentFollows rest then keep c (readExponent rest)
    else ([], c :: rest)

/-- Reads a numeric literal. One that starts with `0` and an octal digit is octal, one that starts
with `0x` hexadecimal; these are given in decimal. There is no text if it would be too long, but
the literal is read all the same. -/
def readNumber : List Char → Option String × List Char
  | '0' :: c :: rest =>
    if isOctalDigit c then
      (decimalText? (valueOf 8 ((c :: rest).takeWhile isOctalDigit)),
        (c :: rest).dropWhile isOctalDigit)
    else if c = 'x' || c = 'X' then
      (decimalText? (valueOf 16 (rest.takeWhile isHexDigit)), rest.dropWhile isHexDigit)
    else
      let (text, rest) := readDecimal false ('0' :: c :: rest)
      (some (String.ofList text), rest)
  | cs =>
    let (text, rest) := readDecimal false cs
    (some (String.ofList text), rest)

theorem length_readExponent_le (cs : List Char) : (readExponent cs).2.length ≤ cs.length := by
  unfold readExponent
  split
  · have := length_dropWhile_le Char.isDigit
    simp only [keep_snd, List.length_cons]
    exact Nat.le_succ_of_le (this _)
  · have := length_dropWhile_le Char.isDigit
    simp only [keep_snd, List.length_cons]
    exact Nat.le_succ_of_le (this _)
  · exact length_dropWhile_le Char.isDigit _

theorem length_readDecimal_le (seenPoint : Bool) (cs : List Char) :
    (readDecimal seenPoint cs).2.length ≤ cs.length := by
  fun_induction readDecimal seenPoint cs with
  | case1 => simp
  | case2 _ c rest _ ih => simpa using Nat.le_succ_of_le ih
  | case3 _ c rest _ _ ih => simpa using Nat.le_succ_of_le ih
  | case4 _ c rest => simpa using Nat.le_succ_of_le (length_readExponent_le rest)
  | case5 => simp

/-- A literal that starts with a digit or a point is not empty. -/
theorem length_readNumber_lt {c : Char} (hc : isDigit c = true ∨ c = '.') (cs : List Char) :
    (readNumber (c :: cs)).2.length < (c :: cs).length := by
  have decimal : (readDecimal false (c :: cs)).2.length < (c :: cs).length := by
    unfold readDecimal
    split
    · simpa using Nat.lt_succ_of_le (length_readDecimal_le false cs)
    · split
      · simpa using Nat.lt_succ_of_le (length_readDecimal_le true cs)
      · rename_i h1 h2
        simp_all
  unfold readNumber
  split
  · rename_i d r heq
    obtain ⟨rfl, rfl⟩ := List.cons.inj heq
    split
    · exact Nat.lt_succ_of_le (length_dropWhile_le isOctalDigit (d :: r))
    · split
      · exact Nat.lt_succ_of_le (Nat.le_succ_of_le (length_dropWhile_le isHexDigit r))
      · exact decimal
  · exact decimal

/-! ## Names -/

def startsName : List Char → Bool
  | '$' :: c :: _ => isNameChar c || c == '{'
  | _ => false

/-- Reads an index with the parentheses around it, `depth` of which are open. -/
def readIndex (depth : Nat) : List Char → List Char × List Char
  | [] => ([], [])
  | c :: rest =>
    if c = '(' then keep c (readIndex (depth + 1) rest)
    else if c = ')' then
      if depth ≤ 1 then ([c], rest) else keep c (readIndex (depth - 1) rest)
    else keep c (readIndex depth rest)

/-- Reads a variable name: whatever stands between braces, or name characters and an index in
parentheses, which is kept as written. -/
def readName : List Char → List Char × List Char
  | '{' :: rest => (rest.takeWhile (· ≠ '}'), (rest.dropWhile (· ≠ '}')).drop 1)
  | cs =>
    let name := cs.takeWhile isNameChar
    match cs.dropWhile isNameChar with
    | '(' :: rest =>
      let (index, rest) := readIndex 0 ('(' :: rest)
      (name ++ index, rest)
    | rest => (name, rest)

/-- An index is kept as written. -/
theorem readIndex_append (depth : Nat) (cs : List Char) :
    (readIndex depth cs).1 ++ (readIndex depth cs).2 = cs := by
  fun_induction readIndex depth cs <;> simp_all

theorem length_readIndex_le (depth : Nat) (cs : List Char) :
    (readIndex depth cs).2.length ≤ cs.length :=
  length_le_of_append_eq (readIndex_append depth cs)

theorem length_readName_le (cs : List Char) : (readName cs).2.length ≤ cs.length := by
  unfold readName
  split
  · rename_i rest
    have := length_dropWhile_le (· ≠ '}') rest
    simp only [List.length_drop, List.length_cons]
    omega
  · have h := length_dropWhile_le isNameChar cs
    dsimp only
    split
    · rename_i rest heq
      rw [heq] at h
      exact Nat.le_trans (length_readIndex_le 0 _) h
    · exact h

/-! ## Regions -/

/-- Reads the text of a bracketed region up to its closing bracket. Brackets inside braces do not
count, and a backslash hides the character after it. -/
def readBracketed (opened braces : Nat) : List Char → List Char × List Char
  | [] => ([], [])
  | '\\' :: c :: rest => keep '\\' (keep c (readBracketed opened braces rest))
  | c :: rest =>
    if c = '{' then keep c (readBracketed opened (braces + 1) rest)
    else if c = '}' && 0 < braces then keep c (readBracketed opened (braces - 1) rest)
    else if c = '[' && braces == 0 then keep c (readBracketed (opened + 1) braces rest)
    else if c = ']' && braces == 0 then
      if opened = 0 then ([], c :: rest) else keep c (readBracketed (opened - 1) braces rest)
    else keep c (readBracketed opened braces rest)

/-- Reads the inside of a braced region up to its closing brace. A backslash and the character
after it are kept as they are, but a continuation is dropped with the blanks after it; `eliding`
says that such blanks are being dropped. -/
def readBraced (eliding : Bool) (opened : Nat) : List Char → List Char × List Char
  | [] => ([], [])
  | '\\' :: c :: rest =>
    if isLineEnd c then readBraced true opened rest
    else keep '\\' (keep c (readBraced false opened rest))
  | c :: rest =>
    if eliding && isBlank c then readBraced true opened rest
    else if c = '{' then keep c (readBraced false (opened + 1) rest)
    else if c = '}' then
      if opened = 0 then ([], c :: rest) else keep c (readBraced false (opened - 1) rest)
    else keep c (readBraced false opened rest)

/-- Reads the text of a quoted word up to its closing quote. A quote inside brackets does not end
the word, and a backslash hides the character after it. -/
def readQuoted (opened : Nat) : List Char → List Char × List Char
  | [] => ([], [])
  | '\\' :: c :: rest => keep '\\' (keep c (readQuoted opened rest))
  | c :: rest =>
    if c = '[' then keep c (readQuoted (opened + 1) rest)
    else if c = ']' && 0 < opened then keep c (readQuoted (opened - 1) rest)
    else if c = '"' && opened == 0 then ([], c :: rest)
    else keep c (readQuoted opened rest)

/-- The text of a bracketed region is kept as written. -/
theorem readBracketed_append (opened braces : Nat) (cs : List Char) :
    (readBracketed opened braces cs).1 ++ (readBracketed opened braces cs).2 = cs := by
  fun_induction readBracketed opened braces cs <;> simp_all

/-- The text of a quoted word is kept as written. -/
theorem readQuoted_append (opened : Nat) (cs : List Char) :
    (readQuoted opened cs).1 ++ (readQuoted opened cs).2 = cs := by
  fun_induction readQuoted opened cs <;> simp_all

theorem length_readBracketed_le (opened braces : Nat) (cs : List Char) :
    (readBracketed opened braces cs).2.length ≤ cs.length :=
  length_le_of_append_eq (readBracketed_append opened braces cs)

theorem length_readBraced_le (eliding : Bool) (opened : Nat) (cs : List Char) :
    (readBraced eliding opened cs).2.length ≤ cs.length := by
  fun_induction readBraced eliding opened cs <;> simp_all <;> omega

theorem length_readQuoted_le (opened : Nat) (cs : List Char) :
    (readQuoted opened cs).2.length ≤ cs.length :=
  length_le_of_append_eq (readQuoted_append opened cs)

/-! ## Plain text -/

/-- Reads text up to a character of the class `stop` or the beginning of a substitution, decoding
escapes and dropping continuations. -/
def readPoints (stop : Char → Bool) (cs : List Char) : List CodePoint × List Char :=
  match cs with
  | [] => ([], [])
  | c :: rest =>
    if stop c || startsName (c :: rest) then ([], c :: rest)
    else if atContinuation (c :: rest) then readPoints stop (skipContinuation (c :: rest))
    else if c = '\\' then
      keep (readEscape (c :: rest)).1 (readPoints stop (readEscape (c :: rest)).2)
    else keep (.char c) (readPoints stop rest)
termination_by cs.length
decreasing_by
  · exact Nat.lt_succ_of_le (length_skipContinuation_le c rest)
  · exact Nat.lt_succ_of_le (length_readEscape_le c rest)
  · exact Nat.lt_succ_self _

/-- The characters of plain text. Surrogates are lost: a text holds none. -/
def readPlain (stop : Char → Bool) (cs : List Char) : List Char × List Char :=
  ((readPoints stop cs).1.map CodePoint.toChar, (readPoints stop cs).2)

theorem readPlain_nil (stop : Char → Bool) : readPlain stop [] = ([], []) := by
  rw [readPlain, readPoints]
  rfl

theorem readPlain_cons (stop : Char → Bool) (c : Char) (rest : List Char) :
    readPlain stop (c :: rest) =
      if stop c || startsName (c :: rest) then ([], c :: rest)
      else if atContinuation (c :: rest) then readPlain stop (skipContinuation (c :: rest))
      else if c = '\\' then
        keep (readEscape (c :: rest)).1.toChar (readPlain stop (readEscape (c :: rest)).2)
      else keep c (readPlain stop rest) := by
  rw [readPlain, readPoints]
  split
  · rfl
  · split
    · rfl
    · split <;> rfl

theorem length_readPlain_le (stop : Char → Bool) (cs : List Char) :
    (readPlain stop cs).2.length ≤ cs.length := by
  show (readPoints stop cs).2.length ≤ cs.length
  fun_induction readPoints stop cs with
  | case1 => simp
  | case2 => simp
  | case3 c rest _ _ ih =>
    exact Nat.le_succ_of_le (Nat.le_trans ih (length_skipContinuation_le c rest))
  | case4 rest _ _ ih =>
    exact Nat.le_succ_of_le (Nat.le_trans ih (length_readEscape_le _ rest))
  | case5 c rest _ _ _ ih => simpa using Nat.le_succ_of_le ih

/-- Plain text that starts with no stop and no substitution is read at least in part. -/
theorem length_readPlain_lt {stop : Char → Bool} {c : Char} {rest : List Char}
    (hs : stop c = false) (hn : startsName (c :: rest) = false) :
    (readPlain stop (c :: rest)).2.length < (c :: rest).length := by
  rw [readPlain_cons]
  simp only [hs, hn, Bool.or_self, Bool.false_eq_true, if_false]
  split
  · exact Nat.lt_succ_of_le
      (Nat.le_trans (length_readPlain_le stop _) (length_skipContinuation_le c rest))
  · split
    · exact Nat.lt_succ_of_le
        (Nat.le_trans (length_readPlain_le stop _) (length_readEscape_le c rest))
    · exact Nat.lt_succ_of_le (length_readPlain_le stop rest)

end Tickle.Reader

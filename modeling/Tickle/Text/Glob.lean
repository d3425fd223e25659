/-!
Glob patterns: `*` stands for any text, `?` for any character, a set in brackets for one of its
characters or, after `!`, for any other. A `]` that comes first in a set belongs to it; a bracket
that is not closed stands for itself.
-/

namespace Tickle.Text.Glob

inductive Piece where
  | many
  | any
  | literal (c : Char)
  | set (negated : Bool) (ranges : List (Char × Char))
  deriving Repr, DecidableEq

def Piece.accepts : Piece → Char → Bool
  | many, _ => false
  | any, _ => true
  | literal c, x => x = c
  | set negated ranges, x => (ranges.any fun r => r.1 ≤ x && x ≤ r.2) != negated

/-- Whether `p` holds of the text or of one of its ends. -/
def anyEnd (p : List Char → Bool) : List Char → Bool
  | [] => p []
  | c :: rest => p (c :: rest) || anyEnd p rest

def fits : List Piece → List Char → Bool
  | [], cs => cs.isEmpty
  | .many :: pieces, cs => anyEnd (fits pieces) cs
  | _ :: _, [] => false
  | piece :: pieces, c :: cs => piece.accepts c && fits pieces cs

/-! ## Sets -/

/-- The inside of a set up to its closing bracket, after the characters `first` that belong to it
in any case, and what follows the bracket. -/
def closeSet? (first cs : List Char) : Option (List Char × List Char) :=
  match cs.dropWhile (· ≠ ']') with
  | [] => none
  | _ :: rest => some (first ++ cs.takeWhile (· ≠ ']'), rest)

def setBody? : List Char → Option (List Char × List Char)
  | '!' :: ']' :: rest => closeSet? ['!', ']'] rest
  | '!' :: rest => closeSet? ['!'] rest
  | ']' :: rest => closeSet? [']'] rest
  | rest => closeSet? [] rest

theorem length_closeSet?_lt {first cs body rest : List Char}
    (h : closeSet? first cs = some (body, rest)) : rest.length < cs.length := by
  unfold closeSet? at h
  split at h
  · contradiction
  · rename_i tail heq
    have hl := (List.dropWhile_suffix (· ≠ ']') : cs.dropWhile _ <:+ cs).length_le
    rw [heq] at hl
    cases h
    exact hl

theorem length_setBody?_lt {cs body rest : List Char} (h : setBody? cs = some (body, rest)) :
    rest.length < cs.length := by
  unfold setBody? at h
  split at h
  · exact Nat.lt_succ_of_lt (Nat.lt_succ_of_lt (length_closeSet?_lt h))
  · exact Nat.lt_succ_of_lt (length_closeSet?_lt h)
  · exact Nat.lt_succ_of_lt (length_closeSet?_lt h)
  · exact length_closeSet?_lt h

/-- Cuts the inside of a set at the hyphens between the ends of ranges. At least `least` characters
stand in front of the next such hyphen; two stand between one hyphen and the next. -/
def chunks (least : Nat) (cs : List Char) : List (List Char) :=
  match _h : (cs.drop least).dropWhile (· ≠ '-') with
  | [] => [cs]
  | _ :: rest => (cs.take (cs.length - rest.length - 1)) :: chunks 2 rest
termination_by cs.length
decreasing_by
  have hl := (List.dropWhile_suffix (· ≠ '-') :
    (cs.drop least).dropWhile _ <:+ cs.drop least).length_le
  rw [_h] at hl
  simp only [List.length_cons, List.length_drop] at hl
  omega

/-- A hyphen with nothing after it is a character of the set. -/
def closeChunks : List (List Char) → List (List Char)
  | [a, []] => [a ++ ['-']]
  | a :: rest => a :: closeChunks rest
  | [] => []

/-- Removes ranges that hold no character, from the last to the first. -/
def dropEmptyRanges : List (List Char) → List (List Char)
  | [] => []
  | a :: rest =>
    match dropEmptyRanges rest with
    | [] => [a]
    | b :: more =>
      match a.getLast?, b.head? with
      | some low, some high =>
        if high < low then (a.dropLast ++ b.drop 1) :: more else a :: b :: more
      | _, _ => a :: b :: more

/-- Characters and hyphens (`none`) in a row. -/
def joinChunks : List (List Char) → List (Option Char)
  | [] => []
  | [a] => a.map some
  | a :: rest => a.map some ++ none :: joinChunks rest

/-- Ranges of a row of characters and hyphens; a hyphen without a lower end is a character. -/
def rangesOf : List (Option Char) → List (Char × Char)
  | [] => []
  | none :: rest => ('-', '-') :: rangesOf rest
  | some a :: none :: some b :: rest => (a, b) :: rangesOf rest
  | some a :: rest => (a, a) :: rangesOf rest

def setOf (body : List Char) : Piece :=
  let least := if body.head? = some '!' then 2 else 1
  let row := joinChunks (dropEmptyRanges (closeChunks (chunks least body)))
  match row with
  | some '!' :: row => .set true (rangesOf row)
  | row => .set false (rangesOf row)

/-! ## Patterns -/

def pieces (cs : List Char) : List Piece :=
  match cs with
  | [] => []
  | c :: rest =>
    if c = '*' then .many :: pieces rest
    else if c = '?' then .any :: pieces rest
    else if c = '[' then
      match _h : setBody? rest with
      | none => .literal c :: pieces rest
      | some (body, rest') => setOf body :: pieces rest'
    else .literal c :: pieces rest
termination_by cs.length
decreasing_by
  · simp
  · simp
  · simp
  · exact Nat.lt_succ_of_lt (length_setBody?_lt _h)
  · simp

def isMatch (pattern text : String) : Bool := fits (pieces pattern.toList) text.toList

end Tickle.Text.Glob

import Tickle.Error
import Tickle.Token.Reader

/-!
A cursor in a text. It moves by single characters or by the readers of the grammars, never past the
end of the text. It may be moved back beyond the beginning, where there is nothing to read.
-/

namespace Tickle

/-- A place in a text, or in front of it. -/
structure Cursor where
  text : List Char
  pos : Int
  pos_le : pos ≤ text.length
  deriving Repr, DecidableEq

namespace Cursor

open Tickle.Text Tickle.Reader

def start (text : String) : Cursor := ⟨text.toList, 0, Int.natCast_nonneg _⟩

/-- The character `offset` places further on, or back if it is negative. -/
def peek? (c : Cursor) (offset : Int) : Option Char :=
  let place := c.pos + offset
  if 0 ≤ place then c.text[place.toNat]? else none

/-- Moves by some places, at most to the end of the text. -/
def advance (c : Cursor) (count : Int) : Cursor :=
  ⟨c.text, min (c.pos + count) c.text.length, Int.min_le_right ..⟩

/-- What can be read: in front of the text, nothing. -/
def rest (c : Cursor) : List Char := if 0 ≤ c.pos then c.text.drop c.pos.toNat else []

def moveTo (c : Cursor) (rest : List Char) : Cursor := c.advance (c.rest.length - rest.length)

/-- What can be asked of a cursor. -/
inductive Move where
  | current
  | peek (offset : Int)
  | advance (count : Int)
  | atEnd
  | skipSpaces (newlines : Bool)
  | atContinuation
  | skipContinuation
  | readEscape
  | readNumber
  | startsName
  | readName
  | readBracketed
  | readBraced
  deriving Repr, DecidableEq

/-- The answer to a move: text, a truth value or nothing. -/
inductive Answer where
  | text (s : String)
  | truth (b : Bool)
  | nothing
  deriving Repr, DecidableEq

def charText (c : Option Char) : String := (c.map Char.toString).getD ""

def reading (c : Cursor) (read : List Char × List Char) : Except Error Answer × Cursor :=
  (.ok (.text (String.ofList read.1)), c.moveTo read.2)

/-- Skips blanks, those that end a line only if asked to. -/
def skipSpaces (c : Cursor) (newlines : Bool) : Cursor :=
  c.moveTo (if newlines then skipBlanks c.rest else skipLineBlanks c.rest)

/-- Carries out a move. A literal that has no decimal text is an error, but it is moved over. -/
def perform (c : Cursor) : Move → Except Error Answer × Cursor
  | .current => (.ok (.text (charText (c.peek? 0))), c)
  | .peek offset => (.ok (.text (charText (c.peek? offset))), c)
  | .advance count => (.ok .nothing, c.advance count)
  | .atEnd => (.ok (.truth (c.text.length ≤ c.pos)), c)
  | .skipSpaces newlines => (.ok .nothing, c.skipSpaces newlines)
  | .atContinuation => (.ok (.truth (Reader.atContinuation c.rest)), c)
  | .skipContinuation => (.ok .nothing, (c.advance 1).skipSpaces true)
  | .readEscape =>
    let c := c.advance 1
    let (point, rest) := readEscaped c.rest
    (.ok (.text (textOf [point])), c.moveTo rest)
  | .readNumber =>
    let (text?, rest) := Reader.readNumber c.rest
    (match text? with
      | some text => .ok (.text text)
      | none => .error .numeralTooLong,
      c.moveTo rest)
  | .startsName => (.ok (.truth (Reader.startsName c.rest)), c)
  | .readName => c.reading (Reader.readName c.rest)
  | .readBracketed => c.reading (Reader.readBracketed 0 0 c.rest)
  | .readBraced => c.reading (Reader.readBraced false 0 c.rest)

end Cursor

end Tickle

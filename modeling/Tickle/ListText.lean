import Tickle.Text.Blank
import Tickle.Text.Trim

/-!
List text. Elements are separated by blanks (or by the characters of a given set), and braces group
an element that holds separators. Reading is one pass over the characters; writing puts every
element in braces.
-/

namespace Tickle.ListText

open Tickle.Text

/-- Where a character stands: in an element, in a run of separators, or in braces, with the number
of inner braces that are open and the character before it. -/
inductive Place where
  | bare
  | gap
  | group (opened : Nat) (before : Char)
  deriving Repr, DecidableEq

/-- Puts a character in front of the first element. -/
def extend (c : Char) : List (List Char) → List (List Char)
  | [] => [[c]]
  | e :: es => (c :: e) :: es

/-- Reads elements from a place on; the first of them is the one that is being read there. Inner
braces count if they open after a separator. The outer brace closes only in front of a separator or
at the end, and is then no part of the element. -/
def elementsFrom (separates : Char → Bool) : Place → List Char → List (List Char)
  | _, [] => [[]]
  | .bare, c :: rest =>
    if c = '{' then elementsFrom separates (.group 0 c) rest
    else if separates c then [] :: elementsFrom separates .gap rest
    else extend c (elementsFrom separates .bare rest)
  | .gap, c :: rest =>
    if separates c then elementsFrom separates .gap rest
    else if c = '{' then elementsFrom separates (.group 0 c) rest
    else extend c (elementsFrom separates .bare rest)
  | .group opened before, c :: rest =>
    if c = '}' && (0 < opened || rest.head?.all separates) then
      match opened with
      | 0 => elementsFrom separates .bare rest
      | opened + 1 => extend c (elementsFrom separates (.group opened c) rest)
    else if c = '{' && separates before then
      extend c (elementsFrom separates (.group (opened + 1) c) rest)
    else extend c (elementsFrom separates (.group opened c) rest)

/-- Elements of a text; an empty text has none. -/
def elements (separates : Char → Bool) : List Char → List (List Char)
  | [] => []
  | cs => elementsFrom separates .bare cs

/-- Reads a list separated by blanks; blanks at both ends do not count. -/
def parse (text : String) : List String :=
  (elements isBlank (trim isBlank text.toList)).map String.ofList

/-- Cuts a text at the characters of `separators`. -/
def split (separators text : String) : List String :=
  (elements separators.toList.contains text.toList).map String.ofList

def format (elements : List String) : String :=
  " ".intercalate (elements.map fun e => "\x7b" ++ e ++ "\x7d")

end Tickle.ListText

import Tickle.Text.Alnum

/-!
Words inside a text: maximal runs of name characters. Any other character is a word of its own.
-/

namespace Tickle.Text

def inWord (cs : List Char) (i : Nat) : Bool := cs[i]?.any isNameChar

/-- Offset of the first character of the word at `i`. -/
def wordStart (cs : List Char) (i : Nat) : Nat :=
  if inWord cs i then i - ((cs.take i).reverse.takeWhile isNameChar).length else i

/-- Offset after the last character of the word at `i`. -/
def wordEnd (cs : List Char) (i : Nat) : Nat :=
  if inWord cs i then i + ((cs.drop i).takeWhile isNameChar).length else i + 1

end Tickle.Text

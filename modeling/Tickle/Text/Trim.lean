/-!
Cutting characters of a class off the ends of a text.
-/

namespace Tickle.Text

/-- Drops the longest beginning made of characters of the class. -/
def trimStart (p : Char → Bool) (cs : List Char) : List Char := cs.dropWhile p

def trimEnd (p : Char → Bool) (cs : List Char) : List Char := (cs.reverse.dropWhile p).reverse

def trim (p : Char → Bool) (cs : List Char) : List Char := trimEnd p (trimStart p cs)

end Tickle.Text

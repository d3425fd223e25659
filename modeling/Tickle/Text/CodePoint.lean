/-!
Code points. Texts are made of characters, but an escape can also name a code point of which there
is no character: a surrogate.
-/

namespace Tickle.Text

/-- A code point: that of a character, or one of those from U+D800 to U+DFFF. -/
inductive CodePoint where
  | char (c : Char)
  | surrogate (index : Fin 0x800)
  deriving Repr, DecidableEq

namespace CodePoint

def toNat : CodePoint → Nat
  | char c => c.toNat
  | surrogate index => 0xD800 + index

def ofNat (code : Nat) : CodePoint :=
  if code.isValidChar then char (Char.ofNat code) else surrogate (Fin.ofNat 0x800 (code - 0xD800))

theorem ofNat_toNat (p : CodePoint) : ofNat p.toNat = p := by
  cases p with
  | char c =>
    have hvalid : c.toNat.isValidChar := c.valid
    rw [toNat, ofNat, Char.ofNat_toNat, if_pos hvalid]
  | surrogate index =>
    have hindex := index.isLt
    have hinvalid : ¬ (0xD800 + index.val).isValidChar := by
      rw [Nat.isValidChar]
      omega
    rw [toNat, ofNat, if_neg hinvalid, Nat.add_sub_cancel_left]
    exact congrArg surrogate (Fin.ext (Nat.mod_eq_of_lt hindex))

/-- What stands for a code point in a text. There is no character for a surrogate; NUL is put in
its place. -/
def toChar : CodePoint → Char
  | char c => c
  | surrogate _ => '\x00'

end CodePoint

def textOf (points : List CodePoint) : String := String.ofList (points.map CodePoint.toChar)

end Tickle.Text

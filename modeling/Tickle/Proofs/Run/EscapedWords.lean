import Tickle.Proofs.Run.BracedWords

/-! # Escapes in bare and quoted words

The reader of a quoted word takes a backslash with one character, and its escapes are decoded when
the word is read again; the reader of a bare word decodes them at once, and an escape may then run
on over digits. In a text of ordinary characters and escapes these digits are ordinary, so all
readers go over the same text and decode it alike. -/

namespace Tickle

open Tickle.Text Tickle.Reader

/-! ## Escaped text -/

/-- Stands for itself in words of either form. -/
def isOrdinary (c : Char) : Bool :=
  !isBlank c && c ∉ ['\\', ';', '[', '$', '"', '\x7b', '\x7d']

/-- One ordinary character, or a backslash with a character that does not end the line. -/
def isEscapedUnit : List Char → Bool
  | [c] => isOrdinary c
  | [b, c] => b == '\\' && !isLineEnd c
  | _ => false

theorem isEscapedUnit_pair (c : Char) : isEscapedUnit ['\\', c] = !isLineEnd c := rfl

/-- A text of ordinary characters and escapes. -/
def Escaped (cs : List Char) : Prop := ∀ u ∈ units cs, isEscapedUnit u = true

instance : DecidablePred Escaped := fun _ => List.decidableBAll _ _

variable {c : Char} {cs rest : List Char}

/-- What an escaped text begins with. -/
theorem Escaped.cases (h : Escaped cs) :
    cs = [] ∨ (∃ c rest, cs = c :: rest ∧ isOrdinary c = true ∧ Escaped rest) ∨
      ∃ c rest, cs = '\\' :: c :: rest ∧ isLineEnd c = false ∧ Escaped rest := by
  unfold Escaped at h
  fun_cases units cs with
  | case1 => exact .inl rfl
  | case2 c rest =>
    rw [units] at h
    obtain ⟨hc, hrest⟩ := List.forall_mem_cons.1 h
    exact .inr (.inr ⟨c, rest, rfl, by simpa [isEscapedUnit_pair] using hc, hrest⟩)
  | case3 c rest hpair =>
    have hunits : units (c :: rest) = [c] :: units rest := by
      rw [units]
      exact hpair
    rw [hunits] at h
    obtain ⟨hc, hrest⟩ := List.forall_mem_cons.1 h
    exact .inr (.inl ⟨c, rest, rfl, hc, hrest⟩)

theorem Escaped.of_append (h : Escaped (cs ++ rest)) (hcs : '\\' ∉ cs) : Escaped rest := by
  induction cs with
  | nil => exact h
  | cons c cs ih =>
    rw [Escaped, List.cons_append, units_of_ne (List.ne_of_not_mem_cons hcs).symm] at h
    exact ih (List.forall_mem_cons.1 h).2 (List.not_mem_of_not_mem_cons hcs)

namespace Reader

variable {stop : Char → Bool}

end Reader

/-! ## Words -/

namespace Token.Script

end Token.Script

namespace Tree

open Token Token.Script

variable {t : String} (hne : t ≠ "") (h : Escaped t.toList) (name : String)
include hne h

end Tree

/-! ## Characters by their codes -/

/-- A digit of base sixteen, in lower or upper case. -/
structure HexDigit where
  value : Fin 16
  upper : Bool

namespace HexDigit

def char (d : HexDigit) : Char :=
  (if d.upper then "0123456789ABCDEF" else "0123456789abcdef").toList.getD d.value '0'

end HexDigit

/-- Four digits behind `\u`. -/
structure UnicodeEscape where
  digits : List HexDigit
  length_eq : digits.length = 4

namespace UnicodeEscape

/-- The code that the digits write. -/
def code (e : UnicodeEscape) : Nat := e.digits.foldl (fun n d => 16 * n + d.value) 0

def text (e : UnicodeEscape) : List Char := '\\' :: 'u' :: e.digits.map HexDigit.char

end UnicodeEscape

/-- The escapes write these code points. -/
def Spells (es : List UnicodeEscape) (v : List CodePoint) : Prop :=
  es.map UnicodeEscape.code = v.map CodePoint.toNat

end Tickle

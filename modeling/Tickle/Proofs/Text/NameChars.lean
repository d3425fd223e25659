import Tickle.Text.Alnum
import Tickle.Text.Blank
import Tickle.Text.Digit

/-! # What name characters are not

No name character is a blank, so a name ends in front of the first blank; and a name character is
none of the characters that mean something in a script or an expression. -/

namespace Tickle.Text

/-- Code points of the blanks, one by one. -/
def blankCodes : List Nat := blankRanges.flatMap fun r => List.range' r.1 (r.2 - r.1 + 1)

theorem mem_blankCodes {c : Char} (h : isBlank c = true) : c.toNat ∈ blankCodes := by
  obtain ⟨r, hr, hle, hge⟩ := CodeRanges.holds_eq_true_iff.1 h
  refine List.mem_flatMap.2 ⟨r, hr, ?_⟩
  rw [List.mem_range'_1]
  omega

theorem isBlank_of_isNameChar {c : Char} (h : isNameChar c = true) : isBlank c = false := by
  have hcodes : ∀ n ∈ blankCodes, isNameChar (Char.ofNat n) = false := by decide +kernel
  cases hb : isBlank c with
  | false => rfl
  | true =>
    have hname := hcodes _ (mem_blankCodes hb)
    rw [Char.ofNat_toNat, h] at hname
    cases hname

theorem ne_of_isNameChar {c d : Char} (hc : isNameChar c = true) (hd : isNameChar d = false) :
    c ≠ d := by
  rintro rfl
  cases hc.symm.trans hd

theorem not_mem_of_isNameChar {cs : List Char} (h : ∀ c ∈ cs, isNameChar c = true) {d : Char}
    (hd : isNameChar d = false) : d ∉ cs := by
  intro hmem
  cases (h d hmem).symm.trans hd

section Digits

variable {c : Char} (h : c.isDigit = true)
include h

theorem toNat_lt_of_isDigit : c.toNat < 128 := by
  have hle := (Char.isDigit_iff_toNat.1 h).2
  have hnine : '9'.toNat = 57 := rfl
  omega

/-- The digits `0` to `9` are digits. -/
theorem isDigit_of_isDigit : isDigit c = true := by
  rw [isDigit, if_pos (toNat_lt_of_isDigit h), h]

theorem isNameChar_of_isDigit : isNameChar c = true := by
  rw [isNameChar, isAlnum, if_pos (toNat_lt_of_isDigit h), Char.isAlphanum, h, Bool.or_true,
    Bool.true_or]

end Digits

end Tickle.Text

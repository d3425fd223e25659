import Mathlib.Algebra.Group.Nat.Defs
import Mathlib.Data.List.TakeWhile
import Tickle.Proofs.Number.DecimalIntegers

/-! # Doubles of whole numbers

Rounding takes no quotient from one on to zero, so the double of a whole number is zero only if the
number is. A decimal integer is a numeral without places and exponent, whose double is that of its
value. -/

namespace Tickle

/-! ## Rounding keeps away from zero -/

namespace Decimal

theorem roundDiv_pos {num den : Nat} (hden : 0 < den) (h : den ≤ num) : 0 < roundDiv num den := by
  have hnear := (roundDiv_near num den hden).1
  refine Nat.pos_of_ne_zero fun hzero => ?_
  rw [hzero] at hnear
  omega

/-- A quotient from `2 ^ power` on is scaled to one from one on. -/
theorem scale_neg_le {num den : Nat} {power : Int} (h : den * 2 ^ power.toNat ≤ num) :
    0 < (scale num 2 (-power)).2 ∧ den * (scale num 2 (-power)).2 ≤ (scale num 2 (-power)).1 := by
  rw [scale]
  split
  · rename_i hneg
    rw [Int.toNat_eq_zero.2 (Int.neg_nonneg.1 hneg), Nat.pow_zero] at h
    exact ⟨Nat.one_pos, Nat.le_trans h (Nat.le_mul_of_pos_right _ (Nat.pow_pos Nat.two_pos))⟩
  · rw [Int.neg_neg]
    exact ⟨Nat.pow_pos Nat.two_pos, h⟩

end Decimal

namespace Number

open Decimal

namespace Binary64

/-- From one on the leading bit has no negative place, and its value is at most the quotient. -/
theorem leadingBit_spec {num den : Nat} (hden : 0 < den) (h : den ≤ num) :
    0 ≤ leadingBit num den ∧ den * 2 ^ (leadingBit num den).toNat ≤ num := by
  have hlog : Nat.log2 den ≤ Nat.log2 num :=
    (Nat.le_log2 (by omega)).2 (Nat.le_trans (Nat.log2_self_le (by omega)) h)
  obtain ⟨k, hk⟩ := Nat.exists_eq_add_of_le hlog
  have he : (Nat.log2 num : Int) - Nat.log2 den = k := by omega
  rw [leadingBit]
  simp only [he]
  cases k with
  | zero =>
    rw [if_pos (by simpa [scale] using h)]
    exact ⟨Int.le_refl 0, by simpa using h⟩
  | succ k =>
    have hscale : scale num 2 (-((k + 1 : Nat) : Int)) = (num, Nat.pow 2 (k + 1)) := by
      rw [scale, if_neg (by omega)]
      rfl
    rw [hscale]
    split
    · rename_i hle
      exact ⟨by omega, hle⟩
    · have hlower : ((k + 1 : Nat) : Int) - 1 = k := by omega
      rw [hlower]
      refine ⟨Int.natCast_nonneg k, Nat.le_of_lt ?_⟩
      calc den * 2 ^ k
          < 2 ^ (Nat.log2 den + 1) * 2 ^ k :=
            Nat.mul_lt_mul_of_pos_right Nat.lt_log2_self (Nat.pow_pos Nat.two_pos)
        _ = 2 ^ Nat.log2 num := by rw [← Nat.pow_add]; congr 1; omega
        _ ≤ num := Nat.log2_self_le (by omega)

/-- A quotient from one on has a double above zero. -/
theorem nearest_pos {num den : Nat} (hden : 0 < den) (h : den ≤ num) : 0 < nearest num den := by
  obtain ⟨hnonneg, hle⟩ := leadingBit_spec hden h
  obtain ⟨power, hpower⟩ : ∃ power, power = max (leadingBit num den - 52) (-1074) := ⟨_, rfl⟩
  have hlow : den * 2 ^ power.toNat ≤ num :=
    Nat.le_trans (Nat.mul_le_mul_left den (Nat.pow_le_pow_right Nat.two_pos (by omega))) hle
  obtain ⟨hd, hmantissa⟩ := scale_neg_le hlow
  have hpos : 0 < roundDiv (scale num 2 (-power)).1 (den * (scale num 2 (-power)).2) :=
    roundDiv_pos (Nat.mul_pos hden hd) hmantissa
  rw [nearest, if_neg (by omega)]
  simp only [← hpower]
  split
  · exact hpos
  · -- the exponent field of a normal double is not zero
    have hfield : 1 ≤ (power + 1075).toNat := by omega
    have hbits := Nat.mul_le_mul_right unit hfield
    exact Nat.lt_min.2 ⟨by decide, Nat.lt_of_lt_of_le (by decide) (Nat.le_add_right_of_le hbits)⟩

end Binary64

/-- Without places a numeral has the double zero only if all its digits are zero. -/
theorem Numeral.magnitude_eq_zero_iff {negative : Bool} {digits : Nat} {exponent : Int}
    (h : 0 ≤ exponent) : (finite negative digits exponent).magnitude = 0 ↔ digits = 0 := by
  constructor
  · intro hzero
    refine Nat.eq_zero_of_not_pos fun hpos => ?_
    rw [magnitude] at hzero
    dsimp only at hzero
    rw [if_neg (by omega)] at hzero
    split at hzero
    · cases hzero
    · rw [scale, if_pos h] at hzero
      have hwhole : 1 ≤ digits * Nat.pow 10 exponent.toNat :=
        Nat.mul_pos hpos (Nat.pow_pos (by decide))
      exact absurd hzero (Nat.ne_of_gt (Binary64.nearest_pos Nat.one_pos hwhole))
  · rintro rfl
    rw [magnitude]
    exact if_pos (.inl rfl)

/-! ## Decimal integers as numerals -/

theorem toLower_of_isDigit {c : Char} (h : c.isDigit = true) : c.toLower = c := by
  have hcodes : ∀ v < 10, (Char.ofNat (48 + v)).toLower = Char.ofNat (48 + v) := by decide
  obtain ⟨v, hv, rfl⟩ := exists_of_isDigit h
  exact hcodes v hv

namespace Numeral

/-- Digits are a numeral; they spell neither an infinity nor `nan`. -/
theorem ofUnsigned?_of_digits (negative : Bool) {cs : List Char} (hne : cs ≠ [])
    (h : ∀ c ∈ cs, c.isDigit = true) :
    ofUnsigned? negative cs = some (.finite negative (ofDigits cs) 0) := by
  have hlower : cs.map Char.toLower = cs :=
    (List.map_congr_left fun c hc => toLower_of_isDigit (h c hc)).trans (List.map_id cs)
  have hword : ∀ word : String, (∃ c ∈ word.toList, c.isDigit = false) →
      String.ofList cs ≠ word := by
    rintro word ⟨c, hc, hother⟩ rfl
    rw [String.toList_ofList] at hc
    rw [h c hc] at hother
    cases hother
  have hinf : ¬ (String.ofList cs = "inf" ∨ String.ofList cs = "infinity") :=
    not_or.2 ⟨hword _ ⟨'i', by decide⟩, hword _ ⟨'i', by decide⟩⟩
  have hnan : ¬ String.ofList cs = "nan" := hword _ ⟨'n', by decide⟩
  have htake : cs.takeWhile Char.isDigit = cs := List.takeWhile_eq_self_iff.2 h
  have hdrop : cs.dropWhile Char.isDigit = [] := List.dropWhile_eq_nil_iff.2 h
  rw [ofUnsigned?]
  dsimp only
  rw [hlower, if_neg hinf, if_neg hnan, htake, hdrop]
  dsimp only
  rw [List.append_nil, if_neg (by simp [hne])]
  rfl

end Numeral

/-- A decimal integer is a numeral with its digits, and its double is zero only if it is. -/
theorem Written.exists_read? {text : String} {n : Int} (h : Written text n) :
    ∃ numeral, Numeral.read? text = some numeral ∧ (numeral.magnitude = 0 ↔ n = 0) := by
  obtain ⟨cs, negative, digits, hplain, hsplit, hne, hall, -, rfl⟩ := h.comesDownTo
  refine ⟨.finite negative (ofDigits digits) 0, ?_, ?_⟩
  · rw [Numeral.read?, hplain, Option.bind_eq_bind, Option.bind_some, hsplit]
    exact Numeral.ofUnsigned?_of_digits negative hne hall
  · rw [Numeral.magnitude_eq_zero_iff (Int.le_refl 0)]
    cases negative <;> simp

end Number

end Tickle

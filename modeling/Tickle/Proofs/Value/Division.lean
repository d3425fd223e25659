import Tickle.Proofs.Value.Wrapping

/-! # Quotient and remainder

Division goes toward zero, and the remainder is what division leaves. Of all pairs of 64-bit
integers only the least one and minus one have a quotient that does not fit; it wraps to the least
integer, and the remainder is zero as it should be. -/

namespace Tickle

/-- The one pair of integers whose quotient is out of range. -/
def OverflowsQuotient (a b : Int64) : Prop := a.toInt = -2 ^ 63 ∧ b.toInt = -1

/-- The quotient is exact wherever it fits. -/
theorem toInt_div_of_fits {a b : Int64} (h : ¬ OverflowsQuotient a b) :
    (a / b).toInt = a.toInt.tdiv b.toInt := by
  by_cases ha : a = Int64.minValue
  · have hb : b ≠ -1 := by
      rintro rfl
      exact h ⟨by rw [ha]; rfl, rfl⟩
    exact Int64.toInt_div_of_ne_right a b hb
  · exact Int64.toInt_div_of_ne_left a b ha

theorem div_of_overflows {a b : Int64} (h : OverflowsQuotient a b) :
    (a / b).toInt = -2 ^ 63 ∧ (a % b).toInt = 0 := by
  rw [Int64.toInt_div, Int64.toInt_mod, h.1, h.2]
  decide

/-- What the divisor takes of the dividend and what remains add up to the dividend, modulo 2 ^ 64
also if the quotient has been wrapped. -/
theorem bmod_mul_div_add_mod (a b : Int64) :
    (b.toInt * (a / b).toInt + (a % b).toInt).bmod (2 ^ 64) = a.toInt := by
  have hexact : b.toInt * a.toInt.tdiv b.toInt + a.toInt.tmod b.toInt = a.toInt :=
    Int.mul_tdiv_add_tmod a.toInt b.toInt
  calc (b.toInt * (a / b).toInt + (a % b).toInt).bmod (2 ^ 64)
      = (b.toInt * a.toInt.tdiv b.toInt + a.toInt.tmod b.toInt).bmod (2 ^ 64) := by
        rw [Int64.toInt_div, Int64.toInt_mod, Int.add_bmod, Int.mul_bmod_bmod, ← Int.add_bmod]
    _ = a.toInt := by rw [hexact]; exact Int64.toInt_bmod a

/-- The remainder is nearer to zero than the divisor. -/
theorem natAbs_mod_lt {a b : Int64} (h : b ≠ 0) : (a % b).toInt.natAbs < b.toInt.natAbs := by
  have hb : b.toInt ≠ 0 := by
    intro hzero
    exact h (Int64.toInt_inj.1 hzero)
  rw [Int64.toInt_mod, Int.natAbs_tmod]
  exact Nat.mod_lt _ (Int.natAbs_pos.2 hb)

/-- The remainder has the sign of the dividend. -/
theorem sign_mod (a b : Int64) : (a % b).toInt = 0 ∨ (a % b).toInt.sign = a.toInt.sign := by
  rw [Int64.toInt_mod, Int.sign_tmod]
  by_cases hdvd : b.toInt ∣ a.toInt
  · exact .inl (Int.tmod_eq_zero_of_dvd hdvd)
  · exact .inr (if_neg hdvd)

/-- What a quotient and a remainder owe to the integers that were divided. -/
structure DividesInto (a b q r : Int64) : Prop where
  /-- They give the dividend back, wrapped. -/
  restores : (b.toInt * q.toInt + r.toInt).bmod (2 ^ 64) = a.toInt
  /-- The remainder is nearer to zero than the divisor. -/
  smaller : r.toInt.natAbs < b.toInt.natAbs
  /-- The remainder has the sign of the dividend. -/
  sign : r.toInt = 0 ∨ r.toInt.sign = a.toInt.sign
  /-- The quotient is the exact one without its fraction. -/
  truncates : ¬ OverflowsQuotient a b → q.toInt = a.toInt.tdiv b.toInt
  /-- The quotient that does not fit wraps to the least integer. -/
  wraps : OverflowsQuotient a b → q.toInt = -2 ^ 63 ∧ r.toInt = 0

theorem dividesInto {a b : Int64} (h : b ≠ 0) : DividesInto a b (a / b) (a % b) where
  restores := bmod_mul_div_add_mod a b
  smaller := natAbs_mod_lt h
  sign := sign_mod a b
  truncates := toInt_div_of_fits
  wraps := div_of_overflows

namespace Value

theorem binary_quotient (kind : Node.Kind) (children : List Node) (a b : Int64) :
    binary ⟨kind, some "/", children⟩ (.int a) (.int b) =
      if b = 0 then .error (.execution .divideByZero (some ⟨kind, some "/"⟩))
      else .ok (.int (a / b)) := by
  show arithmetic ⟨kind, some "/", children⟩ "/" (.int a) (.int b) = _
  by_cases hb : b = 0
  · rw [if_pos hb, hb]
    rfl
  · rw [if_neg hb]
    simp [arithmetic, truth, hb]

theorem binary_remainder (kind : Node.Kind) (children : List Node) (a b : Int64) :
    binary ⟨kind, some "%", children⟩ (.int a) (.int b) =
      if b = 0 then .error (.execution .divideByZero (some ⟨kind, some "%"⟩))
      else .ok (.int (a % b)) := rfl

/-- The tree of an operator between two operands. -/
def operation (op : String) (left right : Node) : Node := ⟨.binary, some op, [left, right]⟩

theorem evaluate_operation {left right : Node} {a b : Value} (hleft : evaluate left = .ok a)
    (hright : evaluate right = .ok b) (op : String) :
    evaluate (operation op left right) = binary (operation op left right) a b := by
  rw [operation, evaluate_binary, hleft, hright]
  rfl

/-- Quotient and remainder of integers belong together; only division by zero fails. -/
theorem evaluate_quotient_remainder {left right : Node} {a b : Int64}
    (hleft : evaluate left = .ok (.int a)) (hright : evaluate right = .ok (.int b)) :
    (b ≠ 0 → ∃ q r : Int64, evaluate (operation "/" left right) = .ok (.int q) ∧
      evaluate (operation "%" left right) = .ok (.int r) ∧ DividesInto a b q r) ∧
    (b = 0 → ∀ op ∈ ["/", "%"], evaluate (operation op left right) =
      .error (.execution .divideByZero (some ⟨.binary, some op⟩))) := by
  have hquotient := (evaluate_operation hleft hright "/").trans (binary_quotient _ _ a b)
  have hremainder := (evaluate_operation hleft hright "%").trans (binary_remainder _ _ a b)
  refine ⟨fun hb => ?_, fun hb => ?_⟩
  · rw [if_neg hb] at hquotient hremainder
    exact ⟨a / b, a % b, hquotient, hremainder, dividesInto hb⟩
  · rw [if_pos hb] at hquotient hremainder
    simp only [List.forall_mem_cons, List.not_mem_nil]
    exact ⟨hquotient, hremainder, nofun⟩

/-- The least integer is divided by minus one. -/
theorem evaluate_quotient_remainder_least :
    let least : Node := ⟨.number, some "-9223372036854775808", []⟩
    let minusOne : Node := ⟨.unary, some "-", [⟨.number, some "1", []⟩]⟩
    evaluate least = .ok (.int Int64.minValue) ∧ evaluate minusOne = .ok (.int (-1)) ∧
      ∃ q r : Int64, evaluate (operation "/" least minusOne) = .ok (.int q) ∧
        evaluate (operation "%" least minusOne) = .ok (.int r) ∧ q = Int64.minValue ∧ r = 0 := by
  intro least minusOne
  have hdigits : Number.Written "-9223372036854775808" (-9223372036854775808) :=
    .negative (show Number.IsNumeral "9223372036854775808".toList by decide) rfl
  have hone : Number.Written "1" 1 := .unsigned (show Number.IsNumeral ['1'] by decide) rfl
  have hsign : exactUnary? "-" = some fun m => -m := rfl
  have hleast : evaluate least = .ok (.int Int64.minValue) := (Exact.number hdigits).evaluate_eq
  have hminusOne : evaluate minusOne = .ok (.int (-1)) :=
    (Exact.unary hsign (.number hone)).evaluate_eq
  obtain ⟨q, r, hq, hr, hdivides⟩ :=
    (evaluate_quotient_remainder hleast hminusOne).1 (by decide)
  obtain ⟨hwraps, hzero⟩ := hdivides.wraps ⟨rfl, rfl⟩
  exact ⟨hleast, hminusOne, q, r, hq, hr, Int64.toInt_inj.1 hwraps, Int64.toInt_inj.1 hzero⟩

end Value

end Tickle

/-!
Rounding exact quotients. A positive real is given as a quotient of natural numbers, so every
decision below (which way a half goes, how many digits stand before the point) is exact.
-/

namespace Tickle.Decimal

/-- Quotient rounded to the nearest natural number, a half to the even neighbour. -/
def roundDiv (num den : Nat) : Nat :=
  let q := num / den
  let r := num % den
  if 2 * r < den then q else if den < 2 * r then q + 1 else q + q % 2

/-- Rounding moves a quotient by at most one half. -/
theorem roundDiv_near (num den : Nat) (h : 0 < den) :
    2 * num ≤ (2 * roundDiv num den + 1) * den ∧ 2 * roundDiv num den * den ≤ 2 * num + den := by
  have hq := Nat.div_add_mod num den
  have hr := Nat.mod_lt num h
  have hc : num / den * den = den * (num / den) := Nat.mul_comm ..
  unfold roundDiv
  simp only
  split
  · constructor <;> grind
  · split
    · constructor <;> grind
    · rcases Nat.mod_two_eq_zero_or_one (num / den) with h2 | h2 <;> rw [h2] <;>
        constructor <;> grind

/-- The number `count * base ^ power` as a quotient. -/
def scale (count base : Nat) (power : Int) : Nat × Nat :=
  if 0 ≤ power then (count * Nat.pow base power.toNat, 1)
  else (count, Nat.pow base (-power).toNat)

/-- Number of decimal digits of a natural number, one for zero. -/
def digitCount (n : Nat) : Nat := (Nat.toDigits 10 n).length

/-- The integer `e` with `10 ^ e ≤ num / den < 10 ^ (e + 1)`, for a positive quotient. -/
def leadingPower (num den : Nat) : Int :=
  if den ≤ num then digitCount (num / den) - 1
  else
    let n := digitCount (den / num)
    if num * Nat.pow 10 (n - 1) = den then 1 - n else -n

/-- Text of `n` in decimal with at least `width` digits. -/
def padded (width n : Nat) : String :=
  let digits := toString n
  String.ofList (List.replicate (width - digits.length) '0') ++ digits

end Tickle.Decimal

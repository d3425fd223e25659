import Tickle.Number.Binary64

/-!
Shortest decimal text of a double: of all decimals that read back as the double, those with the
fewest digits, and of these the nearest. The search goes from coarse decimal grids to fine ones and
tests the two grid points around the value; seventeen digits always suffice.
-/

namespace Tickle.Decimal

/-- Reals that round to a double, scaled to integers: from `low` to `high` around `value`, with the
ends counted in if `closed`. -/
structure Basin where
  low : Nat
  value : Nat
  high : Nat
  closed : Bool

namespace Basin

def holds (b : Basin) (x : Nat) : Bool :=
  if b.closed then b.low ≤ x && x ≤ b.high else b.low < x && x < b.high

/-- The multiple of `unit` in the basin that is next to the value, if there is one: the nearer of
two, and of two equally near ones the even multiple. -/
def gridPoint? (b : Basin) (unit : Nat) : Option Nat :=
  let below := b.value / unit
  let above := below + 1
  match b.holds (below * unit), b.holds (above * unit) with
  | true, true => some (roundDiv b.value unit)
  | true, false => some below
  | false, true => some above
  | false, false => none

end Basin

/-- Basin of `mantissa * 2 ^ power`, in units of `2 ^ (power - 2) / scale`. Below a power of two
the doubles lie twice as dense. -/
def basin (mantissa : Nat) (power : Int) (scale : Nat) : Basin where
  low :=
    (if mantissa = Number.Binary64.unit ∧ -1074 < power then 4 * mantissa - 1
      else 4 * mantissa - 2) * scale
  value := 4 * mantissa * scale
  high := (4 * mantissa + 2) * scale
  closed := mantissa % 2 = 0

/-- Digits and power of ten found on the grid `10 ^ grid` or the finest needed below it. -/
def shortestFrom (mantissa : Nat) (power : Int) : Nat → Int → Nat × Int
  | 0, grid => (0, grid)
  | steps + 1, grid =>
    let twos := scale 1 2 (power - 2)
    let tens := scale 1 10 grid
    let b := basin mantissa power (twos.1 * tens.2)
    match b.gridPoint? (tens.1 * twos.2) with
    | some digits => (digits, grid)
    | none => shortestFrom mantissa power steps (grid - 1)

/-- Shortest decimal `digits * 10 ^ exponent` that reads back as `mantissa * 2 ^ power`. -/
def shortest (mantissa : Nat) (power : Int) : Nat × Int :=
  if mantissa = 0 then (0, 0)
  else
    let (n, d) := scale mantissa 2 power
    shortestFrom mantissa power 19 (leadingPower n d + 1)

end Tickle.Decimal

import Placement.Decimal.Binary
/-! # Shortest decimals

The text of a double is **the fewest digits that read back as the same double**,
and of those the nearest to it.  A double stands for every real number that
rounds to it: an interval that ends halfway to its two neighbours, and that
includes its ends when the significand is even.  For each number of digits, the
two points of that decimal grid around the double are tested; the first grid
with a point inside the interval wins.
-/
namespace Placement

/-- The number `digits * 10 ^ exponent`. -/
structure Decimal where
  digits : Nat
  exponent : Int
  deriving DecidableEq, Repr

namespace Decimal

/-- Drop trailing zeros of the digits, at most `fuel` of them. -/
def stripZeros : Nat → Decimal → Decimal
  | 0, d => d
  | fuel + 1, d =>
      if d.digits ≠ 0 ∧ d.digits % 10 = 0 then stripZeros fuel ⟨d.digits / 10, d.exponent + 1⟩
      else d

/-- A positive double, its neighbourhood and a power of ten, over one denominator:
`low`, `value` and `high` are multiples of `1 / scale`, and `low` and `high` are
the ends of the interval of reals that round to the double. -/
structure Neighbourhood where
  low : Nat
  value : Nat
  high : Nat
  scale : Nat
  /-- Whether the ends round to the double too. -/
  closed : Bool

/-- The neighbourhood of `m * 2 ^ q`.  Below a power of two the next smaller
double is only half as far away. -/
def Neighbourhood.ofBinary (b : Binary) : Neighbourhood :=
  let up := 1 <<< b.exponent.toNat
  let below := if b.significand = 1 <<< Magnitude.fractionBits ∧ b.exponent > -1074 then 1 else 2
  { low := (4 * b.significand - below) * up
    value := 4 * b.significand * up
    high := (4 * b.significand + 2) * up
    scale := 4 <<< (-b.exponent).toNat
    closed := b.significand % 2 = 0 }

/-- Whether `point / scale` rounds to the double. -/
def Neighbourhood.contains (n : Neighbourhood) (point : Nat) : Bool :=
  if n.closed then n.low ≤ point && point ≤ n.high else n.low < point && point < n.high

/-- The point of the grid of multiples of `10 ^ exponent` that reads back as the
double and is nearest to it; the upper one on a tie. -/
def Neighbourhood.onGrid? (n : Neighbourhood) (exponent : Int) : Option Decimal :=
  -- over the denominator `scale * unit`, one step of the grid is `step`
  let unit := Nat.pow 10 (-exponent).toNat
  let step := n.scale * Nat.pow 10 exponent.toNat
  let value := n.value * unit
  let below := value / step
  let scaled : Neighbourhood := ⟨n.low * unit, value, n.high * unit, n.scale * unit, n.closed⟩
  let lower := scaled.contains (below * step)
  let upper := scaled.contains ((below + 1) * step)
  match lower, upper with
  | false, false => none
  | true, false => some ⟨below, exponent⟩
  | false, true => some ⟨below + 1, exponent⟩
  | true, true =>
      if (below + 1) * step - value ≤ value - below * step then some ⟨below + 1, exponent⟩
      else some ⟨below, exponent⟩

/-- How many digits stand before the point of `value / scale`; not positive for
numbers below a tenth. -/
def Neighbourhood.pointPosition (n : Neighbourhood) : Int :=
  if n.scale ≤ n.value then ((Nat.toDigits 10 (n.value / n.scale)).length : Int)
  else
    let guess := (Nat.toDigits 10 (n.scale / n.value)).length
    -- `10 ^ (guess - 1) ≤ scale / value < 10 ^ guess`
    if n.value * Nat.pow 10 (guess - 1) = n.scale then 2 - (guess : Int) else 1 - (guess : Int)

/-- The shortest decimal that reads back as the positive double `b`; zero for zero. -/
def shortest (b : Binary) : Decimal :=
  if b.significand = 0 then ⟨0, 0⟩
  else
    let n := Neighbourhood.ofBinary b
    let point := n.pointPosition
    let found := (List.range 17).findSome? fun (count : Nat) =>
      n.onGrid? (point - ((count : Int) + 1))
    stripZeros 17 (found.getD ⟨b.significand, b.exponent⟩)

end Decimal
end Placement

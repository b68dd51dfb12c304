import Proximity.Number.Format

/-!
# Shortest decimals

The shortest decimal of a finite positive magnitude is the one with the
fewest digits among those that round back to it, and of those the nearest;
where two are equally near, a `TieRule` decides.  On the grid of decimals with
`n` significant digits only the two neighbours of the value can be nearest, so
the search tests these two for `n = 1, 2, …` and stops at the first grid with a
hit.  All tests are exact: a magnitude `m * 2 ^ q` is the nearest one to every
number strictly between `(4 * m - 2) * 2 ^ (q - 2)` and
`(4 * m + 2) * 2 ^ (q - 2)`, where the lower gap is half as wide just above a
power of two, and to the two ends iff `m` is even.

## Main definitions

* `Decimal` — `digits * 10 ^ exponent`.
* `TieRule` — which of two equally near decimals is taken.
* `BinaryFormat.shortest` — the shortest decimal of a magnitude.
-/

namespace Proximity

/-- The number `digits * 10 ^ exponent`. -/
structure Decimal where
  digits : Nat
  exponent : Int
deriving DecidableEq, Repr

namespace Decimal

/-- Drops trailing zeros of the digits, at most `fuel` of them. -/
def strip : Nat → Decimal → Decimal
  | 0, d => d
  | fuel + 1, d =>
    if d.digits ≠ 0 ∧ d.digits % 10 = 0 then strip fuel ⟨d.digits / 10, d.exponent + 1⟩ else d

end Decimal

/-- Which of two equally near neighbours on a grid is taken. -/
inductive TieRule where
  /-- The one with the even last digit. -/
  | even
  /-- The greater one. -/
  | upward
deriving DecidableEq, Repr

/-- Whether a tie between `lower` and `lower + 1` goes to `lower`. -/
def TieRule.takesLower : TieRule → Nat → Bool
  | .even, lower => lower % 2 == 0
  | .upward, _ => false

/-- The numbers that round to a magnitude, as multiples of `2 ^ scale`. -/
structure RoundingInterval where
  low : Nat
  value : Nat
  high : Nat
  scale : Int
  closed : Bool
deriving Repr

namespace RoundingInterval

/-- The numbers that round to the finite magnitude. -/
def ofMagnitude (fmt : BinaryFormat) (magnitude : Nat) : RoundingInterval :=
  let (m, q) := fmt.parts magnitude
  let narrow : Bool := m == Nat.pow 2 fmt.fractionBits && q != fmt.leastQuantum
  ⟨if narrow then 4 * m - 1 else 4 * m - 2, 4 * m, 4 * m + 2, q - 2, m % 2 == 0⟩

/-- `digits * 10 ^ grid` and an end of the interval on one common scale. -/
def compareScaled (digits : Nat) (grid : Int) (point : Nat) (scale : Int) : Nat × Nat :=
  let left := if 0 ≤ grid then digits * Nat.pow 10 grid.toNat else digits
  let right := if 0 ≤ grid then point else point * Nat.pow 10 (-grid).toNat
  if 0 ≤ scale then (left, right <<< scale.toNat) else (left <<< (-scale).toNat, right)

/-- Whether `digits * 10 ^ grid` rounds to the magnitude. -/
def contains (i : RoundingInterval) (digits : Nat) (grid : Int) : Bool :=
  let (a, low) := compareScaled digits grid i.low i.scale
  let (b, high) := compareScaled digits grid i.high i.scale
  if i.closed then decide (low ≤ a ∧ b ≤ high) else decide (low < a ∧ b < high)

/-- The greatest multiple of `10 ^ grid` that is at most the value. -/
def floorOn (i : RoundingInterval) (grid : Int) : Nat :=
  let num := if 0 ≤ i.scale then i.value <<< i.scale.toNat else i.value
  let den := if 0 ≤ i.scale then 1 else 1 <<< (-i.scale).toNat
  if 0 ≤ grid then num / (den * Nat.pow 10 grid.toNat) else num * Nat.pow 10 (-grid).toNat / den

/-- The neighbours of the value on the grid, the one to prefer first: the
nearer one, or of two equally near ones what the rule says. -/
def neighbours (i : RoundingInterval) (tie : TieRule) (grid : Int) : Nat × Nat :=
  let below := i.floorOn grid
  -- twice the midpoint of the two neighbours against twice the value
  let (middle, value) := compareScaled (2 * below + 1) grid (2 * i.value) i.scale
  if value < middle ∨ (value = middle ∧ tie.takesLower below) then (below, below + 1)
  else (below + 1, below)

/-- The first grid, from `grid` downwards, on which a neighbour of the value
rounds back to it. -/
def search (i : RoundingInterval) (tie : TieRule) : Nat → Int → Decimal
  | 0, grid => ⟨i.floorOn grid, grid⟩
  | fuel + 1, grid =>
    let (first, second) := i.neighbours tie grid
    if first ≠ 0 ∧ i.contains first grid then ⟨first, grid⟩
    else if second ≠ 0 ∧ i.contains second grid then ⟨second, grid⟩
    else search i tie fuel (grid - 1)

/-- A power of ten above the value: its binary logarithm over three. -/
def topGrid (i : RoundingInterval) : Int :=
  let log : Int := (i.value.log2 : Int) + i.scale
  if 0 ≤ log then (log.toNat / 3 : Nat) + 1 else -(((-log).toNat / 4 : Nat) : Int) + 1

end RoundingInterval

/--
The shortest decimal of a finite magnitude; zero for the zero magnitude.  The
search starts on a grid coarser than the value, where neither neighbour can
round back to it, and needs at most one grid per digit from there.
-/
def BinaryFormat.shortest (fmt : BinaryFormat) (tie : TieRule) (magnitude : Nat) : Decimal :=
  if magnitude = 0 then ⟨0, 0⟩
  else
    let interval := RoundingInterval.ofMagnitude fmt magnitude
    let found := interval.search tie (Nat.pow 2 fmt.exponentBits) interval.topGrid
    Decimal.strip fmt.fractionBits found

end Proximity

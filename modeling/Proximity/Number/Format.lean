/-!
# Binary interchange formats

A binary floating-point format is fixed by two widths: that of its fraction
field and that of its exponent field.  This module reads a magnitude (a bit
pattern without its sign) as `mantissa * 2 ^ quantum` and, the other way
round, rounds a ratio of natural numbers to the nearest magnitude of the
format.  Both directions are exact integer arithmetic.

## Main definitions

* `BinaryFormat.single`, `BinaryFormat.double` — the two formats in use.
* `BinaryFormat.parts` — the mantissa and the quantum of a finite magnitude.
* `BinaryFormat.ofRatio` — the magnitude nearest to a ratio, ties to the even
  mantissa, the magnitude of infinity when the ratio is too large.
-/

namespace Proximity

/-- The widths of the two fields below the sign bit. -/
structure BinaryFormat where
  /-- Width of the fraction field. -/
  fractionBits : Nat
  /-- Width of the exponent field. -/
  exponentBits : Nat
deriving DecidableEq, Repr

namespace BinaryFormat

/-- The 32-bit format. -/
def single : BinaryFormat := ⟨23, 8⟩

/-- The 64-bit format. -/
def double : BinaryFormat := ⟨52, 11⟩

/-- The magnitude of infinity: all exponent bits, no fraction bit. -/
def infinity (fmt : BinaryFormat) : Nat :=
  (Nat.pow 2 fmt.exponentBits - 1) * Nat.pow 2 fmt.fractionBits

/-- The exponent of the smallest positive magnitude as a power of two. -/
def leastQuantum (fmt : BinaryFormat) : Int :=
  2 - (Nat.pow 2 (fmt.exponentBits - 1) : Nat) - fmt.fractionBits

/--
The mantissa `m` and the quantum `q` of a finite magnitude, whose value is
`m * 2 ^ q`.  A zero exponent field marks a subnormal magnitude, which has no
hidden leading bit.
-/
def parts (fmt : BinaryFormat) (magnitude : Nat) : Nat × Int :=
  let exponent := magnitude / Nat.pow 2 fmt.fractionBits
  let fraction := magnitude % Nat.pow 2 fmt.fractionBits
  if exponent = 0 then (fraction, fmt.leastQuantum)
  else (Nat.pow 2 fmt.fractionBits + fraction, fmt.leastQuantum + (exponent - 1 : Nat))

/-- The integer nearest to `num / den`; a tie goes to the even one. -/
def roundRatio (num den : Nat) : Nat :=
  let quotient := num / den
  let rest := num % den
  if den < 2 * rest ∨ (2 * rest = den ∧ quotient % 2 = 1) then quotient + 1 else quotient

/-- `num / den` scaled by `2 ^ shift`, as a numerator and a denominator. -/
def scaleRatio (num den : Nat) (shift : Int) : Nat × Nat :=
  if 0 ≤ shift then (num <<< shift.toNat, den) else (num, den <<< (-shift).toNat)

/-- The largest `e` with `2 ^ e ≤ num / den`, for positive `num` and `den`. -/
def floorLog (num den : Nat) : Int :=
  let guess : Int := (num.log2 : Int) - (den.log2 : Int)
  let (n, d) := scaleRatio num den (-guess)
  if n < d then guess - 1 else guess

/--
The magnitude nearest to `num / den`.  The mantissa is rounded at the quantum
that the ratio's own exponent asks for, never below the least one; adding it
to the exponent field lets a mantissa that rounds up carry into the exponent.
-/
def ofRatio (fmt : BinaryFormat) (num den : Nat) : Nat :=
  if num = 0 ∨ den = 0 then 0
  else
    let quantum := max (floorLog num den - fmt.fractionBits) fmt.leastQuantum
    let (n, d) := scaleRatio num den (-quantum)
    let steps := (quantum - fmt.leastQuantum).toNat
    min fmt.infinity (steps * Nat.pow 2 fmt.fractionBits + roundRatio n d)

/-- The magnitude nearest to `digits * 10 ^ exponent`. -/
def ofDecimal (fmt : BinaryFormat) (digits : Nat) (exponent : Int) : Nat :=
  if 0 ≤ exponent then fmt.ofRatio (digits * Nat.pow 10 exponent.toNat) 1
  else fmt.ofRatio digits (Nat.pow 10 (-exponent).toNat)

end BinaryFormat

end Proximity

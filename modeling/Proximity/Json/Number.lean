import Proximity.Number.Count
import Proximity.Number.Double

/-!
# What a spelled number means

A spelled number is read in one pass.  Its digits are collected in a 64-bit
significand for as long as they fit; the digits of the whole part that no
longer fit count as powers of ten, and those of the fraction are dropped.  An
integer that fits 64 bits stays an integer.  Everything else is the significand
times a power of ten, computed in double precision with one rounded power of
ten, so a spelling of many digits need not give the nearest number.  A number
too large for double precision has no value.

## Main definitions

* `Numeral` — an integer or a double-precision number.
* `Numeral.read?` — the meaning of a spelling.
-/

namespace Proximity

/-- The meaning of a spelled number. -/
inductive Numeral where
  | integer (value : Int)
  | real (value : Double)
deriving DecidableEq, Repr

/-- The parts of a spelled number. -/
structure Spelling where
  negative : Bool
  whole : List Char
  /-- The digits after the point, if there is one. -/
  fraction : Option (List Char)
  /-- Whether the exponent is negative, and its digits, if there is one. -/
  exponent : Option (Bool × List Char)
deriving DecidableEq, Repr

namespace Spelling

/-- The sign and the digits of an exponent. -/
def exponentOf : List Char → Bool × List Char
  | '-' :: rest => (true, rest)
  | '+' :: rest => (false, rest)
  | rest => (false, rest)

/-- Takes a well-formed spelling apart. -/
def ofChars (cs : List Char) : Spelling :=
  let negative := cs.head? == some '-'
  let cs := if negative then cs.tail else cs
  let whole := cs.takeWhile Char.isDigit
  let (fraction, rest) :=
    match cs.dropWhile Char.isDigit with
    | '.' :: rest => (some (rest.takeWhile Char.isDigit), rest.dropWhile Char.isDigit)
    | rest => (none, rest)
  ⟨negative, whole, fraction, if rest.isEmpty then none else some (exponentOf rest.tail)⟩

/-- Extends a significand by digits as long as it fits 64 bits; what is left
over is returned with it. -/
def extend (significand : Nat) : List Char → Nat × List Char
  | [] => (significand, [])
  | c :: rest =>
    let longer := significand * 10 + Digits.decimalValue c
    if longer < Count.bound then extend longer rest else (significand, c :: rest)

/-- Exponents above this bound are not computed with. -/
def exponentLimit : Nat := 0x7fffffff

/-- A power of ten. -/
def tenTo (n : Nat) : Float :=
  (Double.ofMagnitude false (BinaryFormat.double.ofDecimal 1 n)).toFloat

/-- `x * 10 ^ exponent`, if it is not too large.  Powers of ten beyond the
range of the format are applied in steps, of which `fuel` suffice. -/
def scale : Nat → Float → Int → Option Float
  | fuel, x, exponent =>
    if exponent.natAbs ≤ 308 then
      if 0 ≤ exponent then
        let y := x * tenTo exponent.natAbs
        if y.isInf then none else some y
      else some (x / tenTo exponent.natAbs)
    else if x == 0 then some x
    else if 0 ≤ exponent then none
    else
      match fuel with
      | 0 => some 0
      | fuel + 1 => scale fuel (x / tenTo 308) (exponent + 308)

/-- A significand times a power of ten, with a sign. -/
def real? (negative : Bool) (significand : Nat) (exponent : Int) : Option Numeral :=
  (scale 4 (Double.ofNat significand).toFloat exponent).map fun x =>
    .real (.ofFloat (if negative then -x else x))

/-- The meaning of a spelled integer that fits 64 bits without its sign.
Minus zero and negative numbers below the signed range are no integers. -/
def integer (negative : Bool) (significand : Nat) : Numeral :=
  if !negative then .integer significand
  else if significand = 0 ∨ Count.signedBound < significand then
    .real (.ofFloat (-(Double.ofNat significand).toFloat))
  else .integer (-significand)

/-- The meaning of a spelling, if it is not too large. -/
def value? (s : Spelling) : Option Numeral :=
  let (significand, excess) := extend 0 s.whole
  if excess.isEmpty && s.fraction.isNone && s.exponent.isNone then
    some (integer s.negative significand)
  else
    let fraction := s.fraction.getD []
    let (significand, dropped) := extend significand fraction
    let shift : Int := excess.length - (fraction.length - dropped.length : Nat)
    match s.exponent with
    | none => real? s.negative significand shift
    | some (down, digits) =>
      let exponent := Digits.decimal digits
      if exponent ≤ exponentLimit then
        real? s.negative significand (if down then shift - exponent else shift + exponent)
      else if significand ≠ 0 && !down then none
      else real? s.negative 0 0

end Spelling

namespace Numeral

/-- The meaning of a spelled number, if it is not too large. -/
def read? (spelling : String) : Option Numeral := (Spelling.ofChars spelling.toList).value?

/-- The single-precision number nearest to a numeral. -/
def toSingle : Numeral → Single
  | .integer i => .ofInt i
  | .real x => x.toSingle

/-- The numeral as an integer of 64 bits with a sign. -/
def toInt64? : Numeral → Option Int64
  | .integer i =>
    let bound : Int := Count.signedBound
    if -bound ≤ i ∧ i < bound then some (.ofInt i) else none
  | .real _ => none

end Numeral

end Proximity

import Proximity.Number.Digits
import Proximity.Number.Single

/-!
# Single-precision numbers written in decimal

A number is written as digits with at most one point among them, then an
exponent if there is one, all of it after an optional sign.  Infinities and
NaN are written as words, in any case of ASCII letters.  What is read is the
nearest single-precision number.

## Main definitions

* `Single.read?` — the number that a text spells.
-/

namespace Proximity.Single

/-- At least one digit, and nothing else. -/
def readDigits? (cs : List Char) : Option Nat := if cs.isEmpty then none else Digits.read? 10 cs

/-- An exponent after its mark. -/
def readExponentValue? : List Char → Option Int
  | '-' :: ds => (readDigits? ds).map fun n => -(n : Int)
  | '+' :: ds => (readDigits? ds).map fun n => (n : Int)
  | ds => (readDigits? ds).map fun n => (n : Int)

/-- An exponent with its mark; nothing stands for zero. -/
def readExponent? : List Char → Option Int
  | [] => some 0
  | mark :: rest => if mark = 'e' ∨ mark = 'E' then readExponentValue? rest else none

/-- No number with this many places before or after the point is neither zero
nor infinite. -/
def placeLimit : Nat := 100

/-- The magnitude nearest to `digits * 10 ^ exponent`, where `digits` has at
most `count` digits.  Exponents far out of range are not computed with. -/
def scaledMagnitude (digits count : Nat) (exponent : Int) : Nat :=
  if digits = 0 ∨ exponent < -(count + placeLimit : Nat) then 0
  else if (placeLimit : Int) < exponent then BinaryFormat.single.infinity
  else BinaryFormat.single.ofDecimal digits exponent

/-- The magnitude that digits, a point and an exponent spell. -/
def readPositional? (cs : List Char) : Option Nat :=
  let whole := cs.takeWhile Char.isDigit
  let (fraction, rest) :=
    match cs.dropWhile Char.isDigit with
    | '.' :: rest => (rest.takeWhile Char.isDigit, rest.dropWhile Char.isDigit)
    | rest => ([], rest)
  let ds := whole ++ fraction
  if ds.isEmpty then none
  else
    (readExponent? rest).map fun exponent =>
      scaledMagnitude (Digits.decimal ds) ds.length (exponent - fraction.length)

/-- The magnitude that a text without a sign spells. -/
def readMagnitude? (cs : List Char) : Option Nat :=
  let word := String.ofList (cs.map Char.toLower)
  if word = "inf" ∨ word = "infinity" then some BinaryFormat.single.infinity
  else if word = "nan" then some (BinaryFormat.single.infinity + 0x400000)
  else readPositional? cs

/-- The number that `text` spells, if it is one. -/
def read? (text : String) : Option Single :=
  match text.toList with
  | '-' :: cs => (readMagnitude? cs).map (ofMagnitude true)
  | '+' :: cs => (readMagnitude? cs).map (ofMagnitude false)
  | cs => (readMagnitude? cs).map (ofMagnitude false)

end Proximity.Single

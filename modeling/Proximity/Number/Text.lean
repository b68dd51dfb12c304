import Proximity.Number.Double
import Proximity.Number.Shortest

/-!
# The written form of numbers

A number is written with its shortest digits; what remains to be chosen is
where positional notation ends, whether an integer keeps a `.0`, and which of
two equally near decimals is taken.  These choices are one `NumberStyle` per
use: messages are always positional and take that of two equally near decimals
which is farther from zero; JSON texts take the even one and turn to an exponent
for very large and very small numbers, with limits of their own for each width.

## Main definitions

* `NumberStyle` — the choices, with the three styles in use.
* `Single.display`, `Double.display` — numbers in messages.
* `Single.json?`, `Double.json?` — numbers in JSON, where an infinity or a
  NaN has no written form.
-/

namespace Proximity

/-- How the digits of a decimal are laid out. -/
structure NumberStyle where
  /-- Positional notation needs a point after more than this many places
  before the first digit (negative: zeros after the point); `none` sets no
  limit. -/
  leastPoint : Option Int
  /-- Positional notation needs a point after at most this many digits. -/
  greatestPoint : Option Int
  /-- Whether an integer is written with `.0`. -/
  keepFraction : Bool
  /-- Which of two equally near decimals is taken. -/
  tie : TieRule

namespace NumberStyle

/-- Messages: always positional, integers without a fraction, ties upward. -/
def message : NumberStyle := ⟨none, none, false, .upward⟩

/-- JSON texts of single-precision numbers. -/
def jsonSingle : NumberStyle := ⟨some (-6), some 13, true, .even⟩

/-- JSON texts of double-precision numbers. -/
def jsonDouble : NumberStyle := ⟨some (-5), some 16, true, .even⟩

/-- Whether a point after `point` digits is written in place. -/
def positional (style : NumberStyle) (point : Int) : Bool :=
  style.leastPoint.all (· < point) && style.greatestPoint.all (point ≤ ·)

/-- The written form of a decimal. -/
def write (style : NumberStyle) (d : Decimal) : String :=
  let digits := Nat.toDigits 10 d.digits
  let count := digits.length
  let point : Int := count + d.exponent
  let text :=
    if d.digits = 0 then if style.keepFraction then "0.0".toList else ['0']
    else if style.positional point then
      if 0 ≤ d.exponent then
        digits ++ List.replicate d.exponent.toNat '0' ++
          (if style.keepFraction then ['.', '0'] else [])
      else if 0 < point then
        digits.take point.toNat ++ '.' :: digits.drop point.toNat
      else
        '0' :: '.' :: List.replicate (-point).toNat '0' ++ digits
    else
      let mantissa := if count = 1 then digits else digits.take 1 ++ '.' :: digits.drop 1
      let exponent := point - 1
      let sign := if 0 ≤ exponent then '+' else '-'
      mantissa ++ 'e' :: sign :: Nat.toDigits 10 exponent.natAbs
  String.ofList text

/-- The written form of a finite number of a format, given by its sign and its
magnitude. -/
def writeFinite (style : NumberStyle) (fmt : BinaryFormat) (negative : Bool) (magnitude : Nat) :
    String :=
  (if negative then "-" else "") ++ style.write (fmt.shortest style.tie magnitude)

end NumberStyle

namespace Single

/-- The number in a message. -/
def display (x : Single) : String :=
  if x.isNaN then "NaN"
  else if x.isFinite then NumberStyle.message.writeFinite .single x.isNegative x.magnitude
  else if x.isNegative then "-inf"
  else "inf"

/-- The number in a JSON text. -/
def json? (x : Single) : Option String :=
  if x.isFinite then some (NumberStyle.jsonSingle.writeFinite .single x.isNegative x.magnitude)
  else none

end Single

namespace Double

/-- Neither infinite nor a NaN. -/
def isFinite (x : Double) : Bool := decide (x.magnitude < BinaryFormat.double.infinity)

/-- A magnitude above that of infinity is a NaN. -/
def isNaN (x : Double) : Bool := decide (BinaryFormat.double.infinity < x.magnitude)

/-- The number in a message. -/
def display (x : Double) : String :=
  if x.isNaN then "NaN"
  else if x.isFinite then NumberStyle.message.writeFinite .double x.isNegative x.magnitude
  else if x.isNegative then "-inf"
  else "inf"

/-- The number in a JSON text. -/
def json? (x : Double) : Option String :=
  if x.isFinite then some (NumberStyle.jsonDouble.writeFinite .double x.isNegative x.magnitude)
  else none

end Double

end Proximity

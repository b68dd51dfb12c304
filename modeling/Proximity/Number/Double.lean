import Proximity.Number.Single

/-!
# Double-precision numbers

A `Double` is an IEEE 754 binary64 number held as its bit pattern, for the
same reason as `Single`: what is stored comes back bit for bit.  Arithmetic
is done on machine numbers; this module converts between the two.  Single
precision is widened by exact integer arithmetic.
-/

namespace Proximity

/-- An IEEE 754 binary64 number, as its bit pattern. -/
structure Double where
  bits : UInt64
deriving DecidableEq, Inhabited, Repr

namespace Double

/-- The sign bit. -/
def signBit : Nat := 0x8000000000000000

/-- The bit pattern without its sign. -/
def magnitude (x : Double) : Nat := x.bits.toNat % signBit

/-- Whether the sign bit is set. -/
def isNegative (x : Double) : Bool := decide (signBit ≤ x.bits.toNat)

/-- A NaN without a sign, with only the top bit of its fraction set. -/
def nan : Double := ⟨0x7ff8000000000000⟩

/-- The pattern as a machine number. -/
@[inline] def toFloat (x : Double) : Float := Float.ofBits x.bits

/-- The pattern of a machine number. -/
@[inline] def ofFloat (x : Float) : Double := ⟨x.toBits⟩

instance : Neg Double := ⟨fun x => ⟨x.bits ^^^ 0x8000000000000000⟩⟩

/-- The number with a given sign and magnitude. -/
def ofMagnitude (negative : Bool) (magnitude : Nat) : Double :=
  ⟨UInt64.ofNat (if negative then signBit + magnitude else magnitude)⟩

/-- The number nearest to a natural number. -/
def ofNat (n : Nat) : Double := ofMagnitude false (BinaryFormat.double.ofRatio n 1)

/-- The single-precision number nearest to `x`. -/
def toSingle (x : Double) : Single := .ofFloat32 x.toFloat.toFloat32

end Double

/-- Every single-precision number is a double-precision one.  The conversion is exact, but
all NaNs become the same one. -/
def Single.toDouble (x : Single) : Double :=
  if x.isNaN then .nan
  else if !x.isFinite then .ofMagnitude x.isNegative BinaryFormat.double.infinity
  else
    let (mantissa, quantum) := BinaryFormat.single.parts x.magnitude
    let (num, den) := BinaryFormat.scaleRatio mantissa 1 quantum
    .ofMagnitude x.isNegative (BinaryFormat.double.ofRatio num den)

end Proximity

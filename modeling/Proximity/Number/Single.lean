import Proximity.Number.Format

/-!
# Single-precision numbers

A `Single` is an IEEE 754 binary32 number held as its bit pattern.  Keeping
the pattern, and not only the number it stands for, means that what is stored
comes back bit for bit, whatever a NaN carries in its fraction.

Two orders live on it.  `rank` is the total order of the standard, in which
`-0.0` comes before `+0.0` and every NaN has its place; rankings use it, since
it never leaves two different patterns tied.  `lt` and `le` are the numeric
comparisons, in which the zeros are equal and a NaN compares with nothing.

## Main definitions

* `Single.rank` — the total order, as a natural number.
* `Single.lt`, `Single.le` — the numeric comparisons.
* `Single.ofNat`, `Single.ofInt` — conversion, to nearest with ties to even.
* `Single.ceilCount` — the least natural number not below a number, cut off
  at the largest 64-bit count.

## Main results

* `Single.rank_injective` — the total order separates bit patterns.
-/

namespace Proximity

/-- An IEEE 754 binary32 number, as its bit pattern. -/
structure Single where
  bits : UInt32
deriving DecidableEq, Inhabited, Repr

namespace Single

/-- The sign bit. -/
def signBit : Nat := 0x80000000

/-- The bit pattern without its sign. -/
def magnitude (x : Single) : Nat := x.bits.toNat % signBit

/-- Whether the sign bit is set. -/
def isNegative (x : Single) : Bool := decide (signBit ≤ x.bits.toNat)

/-- A magnitude above that of infinity is a NaN. -/
def isNaN (x : Single) : Bool := decide (BinaryFormat.single.infinity < x.magnitude)

/-- Neither infinite nor a NaN. -/
def isFinite (x : Single) : Bool := decide (x.magnitude < BinaryFormat.single.infinity)

/-- The magnitude with its sign: equal for the two zeros, ordered like the
numbers wherever neither is a NaN. -/
def signed (x : Single) : Int := if x.isNegative then -x.magnitude else x.magnitude

/-- Numeric "less than". -/
def lt (x y : Single) : Bool := !x.isNaN && !y.isNaN && decide (x.signed < y.signed)

/-- Numeric "at most". -/
def le (x y : Single) : Bool := !x.isNaN && !y.isNaN && decide (x.signed ≤ y.signed)

/-- The place of a pattern in the total order: negative patterns descend from
the middle, the others ascend from it. -/
def rank (x : Single) : Nat :=
  if x.bits.toNat < signBit then signBit + x.bits.toNat else 0xffffffff - x.bits.toNat

theorem rank_injective {x y : Single} (h : x.rank = y.rank) : x = y := by
  have hx := x.bits.toNat_lt
  have hy := y.bits.toNat_lt
  have : x.bits.toNat = y.bits.toNat := by
    unfold rank at h
    split at h <;> split at h <;> simp only [signBit] at * <;> omega
  cases x; cases y
  simp_all [UInt32.toNat_inj]

/-! ## Particular numbers -/

def zero : Single := ⟨0⟩

/-- The neutral element of addition: `-0.0 + x` is `x` for every `x`. -/
def negZero : Single := ⟨0x80000000⟩

def one : Single := ⟨0x3f800000⟩

def infinity : Single := ⟨0x7f800000⟩

/-! ## Arithmetic -/

/-- The pattern as a machine number. -/
@[inline] def toFloat32 (x : Single) : Float32 := Float32.ofBits x.bits

/-- The pattern of a machine number. -/
@[inline] def ofFloat32 (x : Float32) : Single := ⟨x.toBits⟩

instance : Add Single := ⟨fun x y => ofFloat32 (x.toFloat32 + y.toFloat32)⟩
instance : Sub Single := ⟨fun x y => ofFloat32 (x.toFloat32 - y.toFloat32)⟩
instance : Mul Single := ⟨fun x y => ofFloat32 (x.toFloat32 * y.toFloat32)⟩
instance : Div Single := ⟨fun x y => ofFloat32 (x.toFloat32 / y.toFloat32)⟩

/-- Negation flips the sign bit and nothing else. -/
instance : Neg Single := ⟨fun x => ⟨x.bits ^^^ 0x80000000⟩⟩

/-- The larger of a number and zero; zero for a NaN. -/
def clampBelow (x : Single) : Single := if zero.lt x then x else zero

/-! ## Conversions -/

/-- The number with a given sign and magnitude. -/
def ofMagnitude (negative : Bool) (magnitude : Nat) : Single :=
  ⟨UInt32.ofNat (if negative then signBit + magnitude else magnitude)⟩

/-- The number nearest to a natural number. -/
def ofNat (n : Nat) : Single := ofMagnitude false (BinaryFormat.single.ofRatio n 1)

/-- The number nearest to an integer. -/
def ofInt (i : Int) : Single :=
  ofMagnitude (decide (i < 0)) (BinaryFormat.single.ofRatio i.natAbs 1)

/-- The largest count that fits 64 bits. -/
def maxCount : Nat := 0xffffffffffffffff

/--
The least natural number not below `x`, at most `maxCount`.  Numbers below
zero and NaN count as none.
-/
def ceilCount (x : Single) : Nat :=
  if x.isNaN || x.isNegative then 0
  else if !x.isFinite then maxCount
  else
    let (mantissa, quantum) := BinaryFormat.single.parts x.magnitude
    let scale := Nat.pow 2 quantum.natAbs
    min maxCount (if 0 ≤ quantum then mantissa * scale else (mantissa + scale - 1) / scale)

end Single

end Proximity

import Proximity.Space.Measure

/-!
# Vector spaces

A space descriptor fixes the elements of a vector and the cost by which an
index ranks vectors.  Costs are "lower is closer" throughout; `reported` turns
a cost into the distance that callers see and `toCost` turns it back.  The
index structures are written against the class `Space` alone, so whatever is
proved of them holds for every cost function.

Two spaces are provided.  `FloatSpace` compares float vectors by a metric;
sums are taken from the left in single precision, starting at `-0.0`, the
neutral element.  `BinarySpace` compares packed bit vectors by the number of
differing bits.  Where two vectors differ in length, the excess of the longer
one does not count.

## Main definitions

* `Space` — the class of space descriptors.
* `FloatSpace`, `BinarySpace` — the two spaces.
-/

namespace Proximity

/-- `S` describes spaces whose vectors have elements of type `E`. -/
class Space (S : Type) (E : outParam Type) where
  /-- What a host calls the space. -/
  spaceType : S → SpaceType
  /-- The ranking cost of a stored vector for a query; lower is closer. -/
  cost : S → Array E → Array E → Single
  /-- The distance reported for a cost. -/
  reported : S → Single → Single
  /-- The cost of a reported distance. -/
  toCost : S → Single → Single
  /-- The representative of some vectors of the given width. -/
  centroid : S → Array (Array E) → Nat → Array E

/-- The kind of elements in a space. -/
def Space.kind {S E : Type} [Space S E] (s : S) : Kind := (Space.spaceType s).kind

/-! ## Float vectors -/

/-- Float vectors under a metric. -/
structure FloatSpace where
  metric : Metric
deriving DecidableEq, Inhabited, Repr

namespace FloatSpace

/-- The sum of some numbers, from the left. -/
def sum (xs : Array Single) : Single := xs.foldl (· + ·) .negZero

/-- The squared Euclidean distance. -/
def squaredDistance (a b : Array Single) : Single :=
  sum (Array.zipWith (fun x y => (x - y) * (x - y)) a b)

/-- The inner product. -/
def innerProduct (a b : Array Single) : Single := sum (Array.zipWith (· * ·) a b)

/-- Adds a vector to a sum, coordinate by coordinate. -/
def accumulate (total member : Array Single) : Array Single :=
  total.mapIdx fun i s =>
    match member[i]? with
    | some v => s + v
    | none => s

/-- The mean of some vectors. -/
def mean (members : Array (Array Single)) (width : Nat) : Array Single :=
  let total := members.foldl accumulate (Array.replicate width .zero)
  let count := Single.ofNat (max members.size 1)
  total.map (· / count)

instance : Space FloatSpace Single where
  spaceType s := .ofMetric s.metric
  cost s a b :=
    match s.metric with
    | .l2 => squaredDistance a b
    | .innerProduct => -innerProduct a b
  reported s cost :=
    match s.metric with
    | .l2 => cost
    | .innerProduct => -cost
  toCost s distance :=
    match s.metric with
    | .l2 => distance
    | .innerProduct => -distance
  centroid _ := mean

end FloatSpace

/-! ## Bit vectors -/

/-- Packed bit vectors under the Hamming distance. -/
structure BinarySpace where
deriving DecidableEq, Inhabited, Repr

namespace BinarySpace

/-- Bit `j` of a byte. -/
def bit (byte : UInt8) (j : Nat) : Bool := byte.toNat.testBit j

/-- The byte with the given bits. -/
def byteOf (bits : Nat → Bool) : UInt8 :=
  UInt8.ofNat <| (List.range 8).foldl
    (fun value j => if bits j then value + Nat.pow 2 j else value) 0

/-- How many bits of a byte are set. -/
def weight (byte : UInt8) : Nat := (List.range 8).countP (bit byte)

/-- The number of bits in which two vectors differ. -/
def hamming (a b : Array UInt8) : Nat :=
  (Array.zipWith (fun x y => weight (x ^^^ y)) a b).foldl (· + ·) 0

/-- Whether more than half of the members have bit `j` of byte `i` set. -/
def majority (members : Array (Array UInt8)) (i j : Nat) : Bool :=
  decide (members.size / 2 < members.countP fun m => bit (m[i]?.getD 0) j)

/-- The bitwise majority of some vectors; a tie gives a clear bit. -/
def median (members : Array (Array UInt8)) (width : Nat) : Array UInt8 :=
  (Array.range width).map fun i => byteOf (majority members i)

instance : Space BinarySpace UInt8 where
  spaceType _ := .hamming
  cost _ a b := Single.ofNat (hamming a b)
  reported _ cost := cost
  toCost _ distance := distance
  centroid _ := median

end BinarySpace

end Proximity

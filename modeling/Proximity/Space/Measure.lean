import Proximity.Number.Single

/-!
# Ways to measure distance

A space type names what a host asks for: squared Euclidean distance or inner
product of float vectors, or Hamming distance of packed bit vectors.  It fixes
the kind of elements a vector is made of and how a reported distance turns
into a score, which is better the higher it is.

## Main definitions

* `Kind`, `Metric`, `SpaceType` — the three levels of naming.
* `SpaceType.score` — the relevance of a distance.
* `SpaceType.ofName?` — the names a host may use.
-/

namespace Proximity

/-- What the elements of a vector are. -/
inductive Kind where
  /-- One single-precision number per dimension. -/
  | float
  /-- Packed bits, eight dimensions to a byte. -/
  | binary
deriving DecidableEq, Inhabited, Repr

namespace Kind

def name : Kind → String
  | .float => "float"
  | .binary => "binary"

/-- How many dimensions one element holds. -/
def dimensionsPerElement : Kind → Nat
  | .float => 1
  | .binary => 8

/-- How many bytes one element takes. -/
def bytesPerElement : Kind → Nat
  | .float => 4
  | .binary => 1

end Kind

/-- How float vectors are compared. -/
inductive Metric where
  /-- Squared Euclidean distance; lower is closer. -/
  | l2
  /-- Inner product; higher is closer. -/
  | innerProduct
deriving DecidableEq, Inhabited, Repr

def Metric.name : Metric → String
  | .l2 => "l2"
  | .innerProduct => "inner_product"

/-- What a host asks an index to measure. -/
inductive SpaceType where
  | l2
  | innerProduct
  | hamming
deriving DecidableEq, Inhabited, Repr

namespace SpaceType

def name : SpaceType → String
  | .l2 => "l2"
  | .innerProduct => "innerproduct"
  | .hamming => "hamming"

/-- The metric of a float space type. -/
def metric? : SpaceType → Option Metric
  | .l2 => some .l2
  | .innerProduct => some .innerProduct
  | .hamming => none

def kind : SpaceType → Kind
  | .l2 | .innerProduct => .float
  | .hamming => .binary

/-- The space type of a metric. -/
def ofMetric : Metric → SpaceType
  | .l2 => .l2
  | .innerProduct => .innerProduct

/-- The space type of a name, in any case of ASCII letters. -/
def ofName? (text : String) : Option SpaceType :=
  match text.map Char.toLower with
  | "l2" => some .l2
  | "innerproduct" | "inner_product" | "ip" => some .innerProduct
  | "hamming" => some .hamming
  | _ => none

/--
The relevance of a reported distance; higher is better.  Distances fall
towards zero as they grow.  A similarity that is not negative is shifted
above one, and a negative one falls towards zero.
-/
def score : SpaceType → Single → Single
  | .l2, d | .hamming, d => .one / (.one + d)
  | .innerProduct, d => if Single.zero.le d then .one + d else .one / (.one - d)

end SpaceType

end Proximity

import Proximity.Search.Best
import Proximity.Space.Basic
import Proximity.Error

/-!
# Flat storage

Vectors are stored back to back in the order in which they were added, and a
vector's label is its position.  A search looks at every vector, so its answer
is the definition of a right answer: the acceptable candidates, ranked and cut
off.  Flat storage is an index of its own and also holds the vectors of a
graph and the exact copies of a composite.

## Main definitions

* `Flat.empty`, `Flat.append` — construction.
* `Flat.vectors` — the stored vectors in order.
* `Flat.nearest`, `Flat.within` — the best candidates, and those below a cost.
-/

namespace Proximity

/-- Vectors of one dimension, back to back. -/
structure Flat (S E : Type) where
  space : S
  dimension : Nat
  /-- Elements of one vector. -/
  unitLength : Nat
  data : Array E
deriving DecidableEq, Repr

namespace Flat

variable {S E : Type}

/-- Storage that holds nothing. -/
def empty [Space S E] (space : S) (dimension : Nat) : Except Error (Flat S E) := do
  let unitLength ← (Space.kind space).width dimension
  return ⟨space, dimension, unitLength, #[]⟩

/-- The number of stored vectors. -/
def total (f : Flat S E) : Nat := f.data.size / f.unitLength

/-- The vector with label `i`. -/
def vector (f : Flat S E) (i : Nat) : Array E :=
  f.data.extract (i * f.unitLength) (i * f.unitLength + f.unitLength)

/-- The stored vectors in order. -/
def vectors (f : Flat S E) : List (Array E) := (List.range f.total).map f.vector

/-- Whether some elements are whole vectors of the given width. -/
def checkWhole (unitLength : Nat) (elements : Array E) : Except Error Unit :=
  if elements.size % unitLength = 0 then .ok ()
  else .error (.dimensionMismatch unitLength (elements.size % unitLength))

/-- Appends whole vectors; a refusal changes nothing. -/
def append (f : Flat S E) (elements : Array E) : Flat S E × Except Error Unit :=
  match checkWhole f.unitLength elements with
  | .error e => (f, .error e)
  | .ok () => ({ f with data := f.data ++ elements }, .ok ())

/-! ## Search -/

variable [Space S E]

/-- The cost of the vector with label `i` for a query. -/
def costTo (f : Flat S E) (query : Array E) (i : Nat) : Single :=
  Space.cost f.space (f.vector i) query

/-- The acceptable vectors as candidates, in order of labels. -/
def candidates (f : Flat S E) (query : Array E) (accept : Nat → Bool) : List Candidate :=
  ((List.range f.total).filter accept).map fun i => ⟨f.costTo query i, i⟩

/-- The best `k` acceptable vectors, best first. -/
def nearest (f : Flat S E) (query : Array E) (k : Nat) (accept : Nat → Bool) : List Candidate :=
  Best.collect k (f.candidates query accept)

/-- The acceptable vectors with a cost strictly below `bound`, best first. -/
def within (f : Flat S E) (query : Array E) (bound : Single) (accept : Nat → Bool) :
    List Candidate :=
  Candidate.ranked ((f.candidates query accept).filter fun c => c.cost.lt bound)

end Flat

end Proximity

import Proximity.Error

/-!
# Batches of vectors

Vectors arrive as one flat run of elements.  A buffer says who owns the run; a
batch adds the dimension and counts the whole vectors in it.  Elements after
the last whole vector do not count, and a batch holds at least one vector.

## Main definitions

* `Buffer`, `Batch` — the two levels.
* `Batch.ofBuffer`, `Batch.withIds` — checked construction.
* `Batch.whole`, `Batch.vectors` — the elements of the whole vectors, and the
  vectors themselves.
-/

namespace Proximity

/-- Who owns the elements of a buffer. -/
inductive Ownership where
  /-- The host keeps them. -/
  | lent
  /-- They were handed over. -/
  | transferred
deriving DecidableEq, Inhabited, Repr

def Ownership.name : Ownership → String
  | .lent => "lent"
  | .transferred => "transferred"

/-- A run of elements and its owner. -/
structure Buffer (E : Type) where
  ownership : Ownership
  data : Array E
deriving Repr

/-- A buffer read as vectors of one dimension. -/
structure Batch (E : Type) where
  buffer : Buffer E
  dimension : Nat
  unitLength : Nat
  count : Nat
deriving Repr

namespace Batch

variable {E : Type}

/-- Reads a buffer as vectors of the given dimension. -/
def ofBuffer (kind : Kind) (buffer : Buffer E) (dimension : Nat) : Except Error (Batch E) := do
  let unitLength ← kind.width dimension
  let count := buffer.data.size / unitLength
  if count = 0 then throw .emptyInput
  return ⟨buffer, dimension, unitLength, count⟩

/-- Whether there is one id for each vector. -/
def checkIds (batch : Batch E) (ids : Nat) : Except Error Unit :=
  if ids = batch.count then .ok () else .error (.idCountMismatch ids batch.count)

/-- Reads a buffer as vectors of the given dimension, one for each of `ids`
identifiers. -/
def withIds (kind : Kind) (buffer : Buffer E) (dimension ids : Nat) :
    Except Error (Batch E) := do
  let batch ← ofBuffer kind buffer dimension
  batch.checkIds ids
  return batch

/-- The elements of the whole vectors. -/
def whole (batch : Batch E) : Array E :=
  batch.buffer.data.extract 0 (batch.count * batch.unitLength)

/-- Vector number `i`. -/
def vector (batch : Batch E) (i : Nat) : Array E :=
  batch.whole.extract (i * batch.unitLength) (i * batch.unitLength + batch.unitLength)

/-- The vectors in order. -/
def vectors (batch : Batch E) : List (Array E) := (List.range batch.count).map batch.vector

end Batch

end Proximity

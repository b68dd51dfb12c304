import Proximity.Batch

/-!
# Streaming transfer

A host that reads its vectors one by one stages them in a `Transfer`.  Staged
vectors are moved to one contiguous store in flushes whose size follows from a
memory limit and from the number of vectors that was announced.  The first
vector fixes the width of all others.

## Main definitions

* `Transfer.start`, `Transfer.announce` — a fresh transfer, and a fresh start
  of one.
* `Transfer.add`, `Transfer.flush` — staging and moving vectors.
* `Transfer.toBuffer` — everything staged so far, as a buffer.
-/

namespace Proximity

/-- A stream of vectors on its way into one buffer. -/
structure Transfer (E : Type) where
  kind : Kind
  /-- Bytes that may be staged; zero sets no limit. -/
  memoryLimit : Nat
  /-- The number of vectors announced. -/
  announced : Nat
  /-- Vectors to a flush, fixed by the first vector. -/
  perFlush : Option Nat
  /-- Elements of a vector, fixed by the first vector. -/
  unitLength : Option Nat
  /-- Elements of the staged vectors. -/
  pending : Array E
  pendingCount : Nat
  /-- Elements of the flushed vectors. -/
  stored : Array E
  /-- Flushes that moved something. -/
  flushes : Nat
deriving Repr

namespace Transfer

variable {E : Type}

/-- A transfer that holds nothing. -/
def start (kind : Kind) (memoryLimit : Nat) : Transfer E :=
  ⟨kind, memoryLimit, 0, none, none, #[], 0, #[], 0⟩

/-- Forgets what was staged and announces a number of vectors. -/
def announce (t : Transfer E) (total : Nat) : Transfer E :=
  { start t.kind t.memoryLimit with announced := total }

/-- Vectors to a flush, for vectors of the given width: as many as the memory
limit takes, but at least one and at most as many as were announced. -/
def flushSize (t : Transfer E) (unitLength : Nat) : Nat :=
  let total := max t.announced 1
  if t.memoryLimit = 0 then total
  else min (max (t.memoryLimit / (unitLength * t.kind.bytesPerElement)) 1) total

/-- Moves the staged vectors to the store. -/
def flush (t : Transfer E) : Transfer E :=
  if t.pendingCount = 0 then t
  else
    { t with
      stored := t.stored ++ t.pending
      pending := #[]
      pendingCount := 0
      flushes := t.flushes + 1 }

/-- The width that a vector of `given` elements is taken to have. -/
def widthFor (t : Transfer E) (given : Nat) : Except Error Nat :=
  match t.unitLength with
  | some expected =>
    if expected = given then .ok expected else .error (.dimensionMismatch expected given)
  | none => if given = 0 then .error (.invalidDimension .emptyVector) else .ok given

/-- Stages a vector whose width has been accepted. -/
def stage (t : Transfer E) (unitLength : Nat) (vector : Array E) : Transfer E :=
  let perFlush := t.perFlush.getD (t.flushSize unitLength)
  let t :=
    { t with
      unitLength := some unitLength
      perFlush := some perFlush
      pending := t.pending ++ vector
      pendingCount := t.pendingCount + 1 }
  if perFlush ≤ t.pendingCount then t.flush else t

/-- Stages one vector; a refused vector changes nothing. -/
def add (t : Transfer E) (vector : Array E) : Transfer E × Except Error Unit :=
  match t.widthFor vector.size with
  | .error e => (t, .error e)
  | .ok unitLength => (t.stage unitLength vector, .ok ())

/-- The dimension of the vectors, once one was staged. -/
def dimension? (t : Transfer E) : Option Nat :=
  t.unitLength.map (· * t.kind.dimensionsPerElement)

/-- The number of vectors staged and flushed. -/
def count (t : Transfer E) : Nat :=
  match t.unitLength with
  | some unitLength => t.stored.size / unitLength + t.pendingCount
  | none => 0

/-- Everything staged so far, and its dimension. -/
def toBuffer (t : Transfer E) : Buffer E × Option Nat :=
  let t := t.flush
  (⟨.transferred, t.stored⟩, t.dimension?)

end Transfer

end Proximity

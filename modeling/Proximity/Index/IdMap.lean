import Proximity.Batch
import Proximity.Index.Consistency

/-!
# External ids

An id map puts a caller's identifiers in front of an index: the vector with
label `i` is known by the id at position `i`.  Ids need not be distinct.
Filters and hits of an id map speak of ids, those of the index under it of
labels.

## Main definitions

* `IdMap.wrap` — an id map over an empty index.
* `IdMap.append`, `IdMap.appendBatch` — vectors with their ids.
* `IdMap.search`, `IdMap.searchRange` — searches that speak of ids.
-/

namespace Proximity

/-- An index and the ids of its vectors in the order of labels. -/
structure IdMap (S E : Type) where
  index : Index S E
  ids : Array Int64
deriving DecidableEq, Repr

namespace IdMap

variable {S E : Type} [Space S E]

/-- Puts an id map over an empty index. -/
def wrap (index : Index S E) : Except Error (IdMap S E) :=
  if index.total = 0 then .ok ⟨index, #[]⟩ else .error (.notEmpty index.total)

/-- Whether some elements can be appended under `ids` ids.  Everything is
checked before the index is touched. -/
def checkAppend (m : IdMap S E) (elements : Array E) (ids : Nat) : Except Error Unit := do
  if !m.index.isTrained then throw .untrainedIndex
  Flat.checkWhole m.index.unitLength elements
  let count := elements.size / m.index.unitLength
  if count = 0 then throw .emptyInput
  if ids ≠ count then throw (.idCountMismatch ids count)

/-- Appends whole vectors under their ids. -/
def append (m : IdMap S E) (elements : Array E) (ids : Array Int64) :
    IdMap S E × Except Error Unit :=
  match m.checkAppend elements ids.size with
  | .error e => (m, .error e)
  | .ok () =>
    match m.index.append elements with
    | (index, .error e) => ({ m with index }, .error e)
    | (index, .ok ()) => (⟨index, m.ids ++ ids⟩, .ok ())

/-- Appends the whole vectors of a batch under their ids. -/
def appendBatch (m : IdMap S E) (batch : Batch E) (ids : Array Int64) :
    IdMap S E × Except Error Unit :=
  if batch.dimension = m.index.dimension then m.append batch.whole ids
  else (m, .error (.dimensionMismatch m.index.dimension batch.dimension))

/-- The id of a label. -/
def idOf (m : IdMap S E) (label : Nat) : Int64 := m.ids[label]?.getD 0

/-- Hits by id. -/
def withIds (m : IdMap S E) (hits : List (Hit Nat)) : List (Hit Int64) :=
  hits.map fun h => ⟨m.idOf h.label, h.distance⟩

/-- The `k` nearest vectors with an acceptable id, best first. -/
def search (m : IdMap S E) (query : Array E) (k : Nat) (accept : Int64 → Bool) :
    Except Error (List (Hit Int64)) :=
  m.withIds <$> m.index.search query k (accept ∘ m.idOf)

/-- The vectors with an acceptable id within a reported distance, best
first. -/
def searchRange (m : IdMap S E) (query : Array E) (radius : Single) (accept : Int64 → Bool) :
    Except Error (List (Hit Int64)) :=
  m.withIds <$> m.index.searchRange query radius (accept ∘ m.idOf)

/-- The index is in order, and there is one id to a vector. -/
def check (m : IdMap S E) : Except Inconsistency Unit := do
  m.index.check
  refuse (m.ids.size != m.index.total) (.idCount m.ids.size m.index.total)

end IdMap

end Proximity

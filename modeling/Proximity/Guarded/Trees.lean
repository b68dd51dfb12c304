import Proximity.Guarded.Linking
import Proximity.Guarded.Training
import Proximity.Index.IdMap

/-!
# Guarded index trees

The operations of a tree read lists by the labels that a quantizer found, copies
by the labels that a base found, and ids by the labels that an index found.  A graph
anywhere in the tree makes room for what it looks for, whether it is asked by a caller,
by the lists that it is the quantizer of, or by the composite that it is the base of.

## Main definitions

* `InvertedFile.candidates?`, `InvertedFile.insert?` — guarded lists.
* `Index.nearest?`, `Index.within?`, `Index.append?`, `Index.train?`,
  `Index.search?`, `Index.searchRange?` — guarded trees.
* `IdMap.search?`, `IdMap.searchRange?`, `IdMap.append?`, `IdMap.appendBatch?` — guarded
  id maps.
-/

namespace Proximity

open Guarded

variable {S E : Type}

/-! ## Lists -/

namespace InvertedFile

/-- Appends a vector to a list, which has to exist, under the next label. -/
def insert? (f : InvertedFile S E) (list : Nat) (vector : Array E) : Option (InvertedFile S E) :=
  (f.lists[list]?).map fun _ => f.insert list vector

/-- Appends vectors, each to the list chosen for it. -/
def insertAll? (f : InvertedFile S E) (chosen : List (Nat × Array E)) :
    Option (InvertedFile S E) :=
  chosen.foldlM (fun f c => f.insert? c.1 c.2) f

variable [Space S E]

/-- The acceptable vectors of some lists, which have to exist, as candidates. -/
def candidates? (f : InvertedFile S E) (probed : List Nat) (query : Array E)
    (accept? : Nat → Option Bool) : Option (List Candidate) := do
  let found ← probed.mapM fun list => do
    let l ← f.lists[list]?
    let vs ← chunks? f.unitLength l.codes
    scan? accept? (fun v => Space.cost f.space v query) (l.labels.toList.zip vs)
  return found.flatten

/-- The best `k` acceptable vectors of some lists, best first. -/
def nearest? (f : InvertedFile S E) (probed : List Nat) (query : Array E) (k : Nat)
    (accept? : Nat → Option Bool) : Option (List Candidate) :=
  (f.candidates? probed query accept?).map (Best.collect k)

/-- The acceptable vectors of some lists with a cost strictly below `bound`,
best first. -/
def within? (f : InvertedFile S E) (probed : List Nat) (query : Array E) (bound : Single)
    (accept? : Nat → Option Bool) : Option (List Candidate) :=
  (f.candidates? probed query accept?).map fun cs =>
    Candidate.ranked (cs.filter fun c => c.cost.lt bound)

end InvertedFile

/-! ## Trees -/

namespace Index

/-- The number of stored vectors. -/
def total? : Index S E → Option Nat
  | .flat f => f.total?
  | .invertedFile f _ => some f.total
  | .graph g => g.storage.total?
  | .composite _ copies _ => copies.total?

/-- Whether vectors can be added. -/
def isTrained? : Index S E → Option Bool
  | .flat _ | .graph _ => some true
  | .invertedFile f quantizer => quantizer.total?.map (· == f.listCount)
  | .composite base _ _ => base.isTrained?

variable [Space S E] (machine : Machine)

/-- The best `k` acceptable labels that the tree finds, best first. -/
def nearest? : Index S E → Array E → Nat → (Nat → Option Bool) → Option (List Candidate)
  | .flat f, query, k, accept? => f.nearest? query k accept?
  | .invertedFile f quantizer, query, k, accept? => do
    let probed ← quantizer.nearest? query f.probeCount fun _ => some true
    f.nearest? (probed.map (·.label)) query k accept?
  | .graph g, query, k, accept? => g.nearest? machine query k accept?
  | .composite base copies factor, query, k, accept? => do
    let fetched ← base.nearest? query (fetchCount factor k) accept?
    let found ← fetched.mapM fun c =>
      (copies.costTo? query c.label).map fun cost => (⟨cost, c.label⟩ : Candidate)
    return Best.collect k found

/-- The acceptable labels with a cost strictly below `bound`, best first. -/
def within? : Index S E → Array E → Single → (Nat → Option Bool) → Option (List Candidate)
  | .flat f, query, bound, accept? => f.within? query bound accept?
  | .invertedFile f quantizer, query, bound, accept? => do
    let probed ← quantizer.nearest? machine query f.probeCount fun _ => some true
    f.within? (probed.map (·.label)) query bound accept?
  | .graph g, query, bound, accept? => g.within? query bound accept?
  | .composite _ copies _, query, bound, accept? => copies.within? query bound accept?

/-- The list that a vector belongs to. -/
def listFor? (quantizer : Index S E) (vector : Array E) : Option Nat := do
  match ← quantizer.nearest? machine vector 1 fun _ => some true with
  | [] => return 0
  | c :: _ => return c.label

/-- Appends whole vectors. -/
def append? : Index S E → Array E → Option (Index S E × Except Error Unit)
  | .flat f, elements => (f.append? elements).map fun r => (.flat r.1, r.2)
  | .invertedFile f quantizer, elements => do
    if (← quantizer.total?) ≠ f.listCount then
      return (.invertedFile f quantizer, .error .untrainedIndex)
    let rest ← remainder? elements.size f.unitLength
    if rest ≠ 0 then
      return (.invertedFile f quantizer, .error (.dimensionMismatch f.unitLength rest))
    let vectors ← chunks? f.unitLength elements
    let chosen ← vectors.mapM fun v => (quantizer.listFor? machine v).map fun list => (list, v)
    let f ← f.insertAll? chosen
    return (.invertedFile f quantizer, .ok ())
  | .graph g, elements => (g.append? machine elements).map fun r => (.graph r.1, r.2)
  | .composite base copies factor, elements => do
    if ← base.isTrained? then
      match ← base.append? elements with
      | (base, .error e) => return (.composite base copies factor, .error e)
      | (base, .ok ()) =>
        let (copies, outcome) ← copies.append? elements
        return (.composite base copies factor, outcome)
    else return (.composite base copies factor, .error .untrainedIndex)

/-- Learns what the tree has to know before vectors can be added. -/
def train? [Space.GuardsCentroid S] : Index S E → Array E → Option (Index S E × Except Error Unit)
  | .flat f, sample =>
    some (.flat f, if sample.size < f.unitLength then .error .emptyInput else .ok ())
  | .graph g, sample =>
    some (.graph g, if sample.size < g.storage.unitLength then .error .emptyInput else .ok ())
  | .invertedFile f quantizer, sample =>
    if sample.size < f.unitLength then some (.invertedFile f quantizer, .error .emptyInput)
    else do
      if (← quantizer.total?) = f.listCount then return (.invertedFile f quantizer, .ok ())
      match ← Clustering.train? f.space f.clustering f.unitLength f.listCount sample with
      | .error e => return (.invertedFile f quantizer, .error e)
      | .ok centroids =>
        let (quantizer, outcome) ← quantizer.append? machine centroids
        return (.invertedFile f quantizer, outcome)
  | .composite base copies factor, sample =>
    if sample.size < base.unitLength then
      some (.composite base copies factor, .error .emptyInput)
    else (base.train? sample).map fun r => (.composite r.1 copies factor, r.2)

/-- The `k` nearest acceptable vectors, best first. -/
def search? (index : Index S E) (query : Array E) (k : Nat) (accept? : Nat → Option Bool) :
    Option (Except Error (List (Hit Nat))) :=
  match index.checkQuery query with
  | .error e => some (.error e)
  | .ok () => do
    if k = 0 then return .ok []
    if (← index.total?) = 0 then return .ok []
    let found ← index.nearest? machine query k accept?
    return .ok (index.hits found)

/-- The acceptable vectors within a reported distance, best first. -/
def searchRange? (index : Index S E) (query : Array E) (radius : Single)
    (accept? : Nat → Option Bool) : Option (Except Error (List (Hit Nat))) :=
  match index.checkQuery query with
  | .error e => some (.error e)
  | .ok () => do
    let found ← index.within? machine query (Space.toCost index.space radius) accept?
    return .ok (index.hits found)

end Index

/-! ## Id maps -/

namespace IdMap

/-- Whether the id of a label, which has to exist, is acceptable. -/
def accept? (m : IdMap S E) (accept : Int64 → Bool) (label : Nat) : Option Bool :=
  (m.ids[label]?).map accept

/-- The outcome of a search by id; all labels of hits have to exist. -/
def withIds? (m : IdMap S E) :
    Except Error (List (Hit Nat)) → Option (Except Error (List (Hit Int64)))
  | .error e => some (.error e)
  | .ok hits =>
    (hits.mapM fun h => (m.ids[h.label]?).map fun id => (⟨id, h.distance⟩ : Hit Int64)).map .ok

/-- Whether some elements can be appended under `ids` ids. -/
def checkAppend? (m : IdMap S E) (elements : Array E) (ids : Nat) :
    Option (Except Error Unit) := do
  if !(← m.index.isTrained?) then return .error .untrainedIndex
  let rest ← remainder? elements.size m.index.unitLength
  if rest ≠ 0 then return .error (.dimensionMismatch m.index.unitLength rest)
  let count ← quotient? elements.size m.index.unitLength
  if count = 0 then return .error .emptyInput
  if ids ≠ count then return .error (.idCountMismatch ids count)
  return .ok ()

variable [Space S E] (machine : Machine)

/-- The `k` nearest vectors with an acceptable id, best first. -/
def search? (m : IdMap S E) (query : Array E) (k : Nat) (accept : Int64 → Bool) :
    Option (Except Error (List (Hit Int64))) := do
  m.withIds? (← m.index.search? machine query k (m.accept? accept))

/-- The vectors with an acceptable id within a reported distance, best first. -/
def searchRange? (m : IdMap S E) (query : Array E) (radius : Single) (accept : Int64 → Bool) :
    Option (Except Error (List (Hit Int64))) := do
  m.withIds? (← m.index.searchRange? machine query radius (m.accept? accept))

/-- Appends whole vectors under their ids. -/
def append? (m : IdMap S E) (elements : Array E) (ids : Array Int64) :
    Option (IdMap S E × Except Error Unit) := do
  match ← m.checkAppend? elements ids.size with
  | .error e => return (m, .error e)
  | .ok () =>
    match ← m.index.append? machine elements with
    | (index, .error e) => return ({ m with index }, .error e)
    | (index, .ok ()) => return (⟨index, m.ids ++ ids⟩, .ok ())

/-- Appends the whole vectors of a batch under their ids. -/
def appendBatch? (m : IdMap S E) (batch : Batch E) (ids : Array Int64) :
    Option (IdMap S E × Except Error Unit) :=
  if batch.dimension = m.index.dimension then m.append? machine batch.whole ids
  else some (m, .error (.dimensionMismatch m.index.dimension batch.dimension))

end IdMap

end Proximity

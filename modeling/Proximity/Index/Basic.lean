import Proximity.Index.Graph
import Proximity.Index.InvertedFile
import Proximity.Index.Settings

/-!
# Index trees

An index is flat storage, a graph, an inverted file over a quantizer, or a
composite of a base and exact copies of its vectors.  Quantizers and bases are
indexes themselves, so an index is a tree.  Labels are positions in the order
of insertion.

An operation that changes an index answers with the index it leaves behind and
with its outcome, since a failing operation could have changed a part.

## Main definitions

* `Index` — the trees.
* `Index.invertedFileOver`, `Index.compositeOver` — checked construction.
* `Index.train`, `Index.append` — changes.
* `Index.nearest`, `Index.within` — the candidates of a query.
* `Index.search`, `Index.searchRange` — the hits that callers see.
-/

namespace Proximity

/-- An index tree over vectors of one space. -/
inductive Index (S E : Type) where
  | flat (storage : Flat S E)
  | invertedFile (file : InvertedFile S E) (quantizer : Index S E)
  | graph (graph : Graph S E)
  /-- Asks the base for `factor` times as many candidates and ranks them by
  their exact copies. -/
  | composite (base : Index S E) (copies : Flat S E) (factor : Single)
deriving DecidableEq, Repr

/-- A result that callers see: a label or an id, and its distance. -/
structure Hit (L : Type) where
  label : L
  distance : Single
deriving DecidableEq, Repr

namespace Index

variable {S E : Type}

/-! ## Properties -/

def topology : Index S E → Topology
  | .flat _ => .flat
  | .invertedFile .. => .invertedFile
  | .graph _ => .graph
  | .composite .. => .composite

def space : Index S E → S
  | .flat f => f.space
  | .invertedFile f _ => f.space
  | .graph g => g.storage.space
  | .composite base _ _ => base.space

def dimension : Index S E → Nat
  | .flat f => f.dimension
  | .invertedFile f _ => f.dimension
  | .graph g => g.storage.dimension
  | .composite base _ _ => base.dimension

/-- Elements of one vector. -/
def unitLength : Index S E → Nat
  | .flat f => f.unitLength
  | .invertedFile f _ => f.unitLength
  | .graph g => g.storage.unitLength
  | .composite base _ _ => base.unitLength

/-- The number of stored vectors. -/
def total : Index S E → Nat
  | .flat f => f.total
  | .invertedFile f _ => f.total
  | .graph g => g.storage.total
  | .composite _ copies _ => copies.total

/-- Whether vectors can be added: an inverted file needs all its centroids. -/
def isTrained : Index S E → Bool
  | .flat _ | .graph _ => true
  | .invertedFile f quantizer => quantizer.total == f.listCount
  | .composite base _ _ => base.isTrained

def settings : Index S E → Settings
  | .flat _ => .flat
  | .invertedFile f quantizer => .invertedFile f.listCount f.probes quantizer.settings
  | .graph g => .graph g.degree g.buildWidth g.searchWidth
  | .composite base _ factor => .composite factor base.settings

variable [Space S E]

/-! ## Construction -/

/-- An inverted file of `listCount` lists over an empty quantizer. -/
def invertedFileOver (quantizer : Index S E) (listCount : Nat) (clustering : ClusteringSettings) :
    Except Error (Index S E) := do
  if listCount = 0 then throw (.invalidParameter "nlist" .zero)
  if quantizer.total ≠ 0 then throw (.notEmpty quantizer.total)
  let unitLength ← (Space.kind quantizer.space).width quantizer.dimension
  return .invertedFile
    (.empty quantizer.space quantizer.dimension unitLength listCount clustering) quantizer

/-- A composite over an empty base. -/
def compositeOver (base : Index S E) : Except Error (Index S E) := do
  if base.total ≠ 0 then throw (.notEmpty base.total)
  let copies ← Flat.empty base.space base.dimension
  return .composite base copies .one

/-! ## Candidates -/

/-- How many candidates a composite fetches for `k` results. -/
def fetchCount (factor : Single) (k : Nat) : Nat := max (Single.ofNat k * factor).ceilCount k

/-- The best `k` acceptable labels that the tree finds, best first. -/
def nearest : Index S E → Array E → Nat → (Nat → Bool) → List Candidate
  | .flat f, query, k, accept => f.nearest query k accept
  | .invertedFile f quantizer, query, k, accept =>
    let probed := (quantizer.nearest query f.probeCount fun _ => true).map (·.label)
    f.nearest probed query k accept
  | .graph g, query, k, accept => g.nearest query k accept
  | .composite base copies factor, query, k, accept =>
    let fetched := base.nearest query (fetchCount factor k) accept
    Best.collect k (fetched.map fun c => ⟨copies.costTo query c.label, c.label⟩)

/-- The acceptable labels with a cost strictly below `bound`, best first. -/
def within : Index S E → Array E → Single → (Nat → Bool) → List Candidate
  | .flat f, query, bound, accept => f.within query bound accept
  | .invertedFile f quantizer, query, bound, accept =>
    let probed := (quantizer.nearest query f.probeCount fun _ => true).map (·.label)
    f.within probed query bound accept
  | .graph g, query, bound, accept => g.within query bound accept
  | .composite _ copies _, query, bound, accept => copies.within query bound accept

/-! ## Changes -/

/-- The list that a vector belongs to: that of the nearest centroid. -/
def listFor (quantizer : Index S E) (vector : Array E) : Nat :=
  match quantizer.nearest vector 1 fun _ => true with
  | [] => 0
  | c :: _ => c.label

/-- Appends whole vectors. -/
def append : Index S E → Array E → Index S E × Except Error Unit
  | .flat f, elements =>
    let (f, outcome) := f.append elements
    (.flat f, outcome)
  | .invertedFile f quantizer, elements =>
    if quantizer.total ≠ f.listCount then (.invertedFile f quantizer, .error .untrainedIndex)
    else
      match Flat.checkWhole f.unitLength elements with
      | .error e => (.invertedFile f quantizer, .error e)
      | .ok () =>
        let chosen := (vectorsOf f.unitLength elements).map fun v => (quantizer.listFor v, v)
        (.invertedFile (f.insertAll chosen) quantizer, .ok ())
  | .graph g, elements =>
    let (g, outcome) := g.append elements
    (.graph g, outcome)
  | .composite base copies factor, elements =>
    if base.isTrained then
      match base.append elements with
      | (base, .error e) => (.composite base copies factor, .error e)
      | (base, .ok ()) =>
        let (copies, outcome) := copies.append elements
        (.composite base copies factor, outcome)
    else (.composite base copies factor, .error .untrainedIndex)

/-- Learns what the tree has to know before vectors can be added: the
centroids of the inverted file it reaches, if that has none. -/
def train : Index S E → Array E → Index S E × Except Error Unit
  | .flat f, sample =>
    (.flat f, if sample.size < f.unitLength then .error .emptyInput else .ok ())
  | .graph g, sample =>
    (.graph g, if sample.size < g.storage.unitLength then .error .emptyInput else .ok ())
  | .invertedFile f quantizer, sample =>
    if sample.size < f.unitLength then (.invertedFile f quantizer, .error .emptyInput)
    else if quantizer.total = f.listCount then (.invertedFile f quantizer, .ok ())
    else
      match Clustering.train f.space f.clustering f.unitLength f.listCount sample with
      | .error e => (.invertedFile f quantizer, .error e)
      | .ok centroids =>
        let (quantizer, outcome) := quantizer.append centroids
        (.invertedFile f quantizer, outcome)
  | .composite base copies factor, sample =>
    if sample.size < base.unitLength then (.composite base copies factor, .error .emptyInput)
    else
      let (base, outcome) := base.train sample
      (.composite base copies factor, outcome)

/-! ## Hits -/

/-- Whether a query has the width of the stored vectors. -/
def checkQuery (index : Index S E) (query : Array E) : Except Error Unit :=
  if query.size = index.unitLength then .ok ()
  else .error (.dimensionMismatch index.unitLength query.size)

/-- What a caller sees of some candidates. -/
def hits (index : Index S E) (cs : List Candidate) : List (Hit Nat) :=
  cs.map fun c => ⟨c.label, Space.reported index.space c.cost⟩

/-- The `k` nearest acceptable vectors, best first. -/
def search (index : Index S E) (query : Array E) (k : Nat) (accept : Nat → Bool) :
    Except Error (List (Hit Nat)) := do
  index.checkQuery query
  if k = 0 ∨ index.total = 0 then return []
  return index.hits (index.nearest query k accept)

/-- The acceptable vectors within a reported distance, best first: an upper
bound on distances, a lower bound on similarities. -/
def searchRange (index : Index S E) (query : Array E) (radius : Single) (accept : Nat → Bool) :
    Except Error (List (Hit Nat)) := do
  index.checkQuery query
  return index.hits (index.within query (Space.toCost index.space radius) accept)

/-! ## Reaching into a tree -/

/-- The children of a node. -/
inductive Child where
  /-- The base of a composite. -/
  | base
  /-- The quantizer of an inverted file. -/
  | quantizer
deriving DecidableEq, Repr

/-- The node that a path leads to. -/
def node? : Index S E → List Child → Option (Index S E)
  | index, [] => some index
  | .composite base _ _, .base :: path => node? base path
  | .invertedFile _ quantizer, .quantizer :: path => node? quantizer path
  | _, _ :: _ => none

/-- Changes the node that a path leads to, if there is one. -/
def changeAt {A : Type} (change : Index S E → Index S E × A) :
    Index S E → List Child → Option (Index S E × A)
  | index, [] => some (change index)
  | .composite base copies factor, .base :: path =>
    (changeAt change base path).map fun r => (.composite r.1 copies factor, r.2)
  | .invertedFile f quantizer, .quantizer :: path =>
    (changeAt change quantizer path).map fun r => (.invertedFile f r.1, r.2)
  | _, _ :: _ => none

end Index

end Proximity

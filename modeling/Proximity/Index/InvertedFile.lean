import Proximity.Index.Clustering
import Proximity.Search.Best

/-!
# Inverted files

An inverted file keeps its vectors in lists, one for each centroid, and each
vector in the list of the centroid nearest to it.  A query looks only at the
lists of the centroids nearest to the query.  Which centroids are nearest is
the business of a quantizer, an index over the centroids; this module holds
the lists and takes the quantizer's answers as arguments.

## Main definitions

* `PostingList`, `InvertedFile` — the lists.
* `InvertedFile.insertAll` — insertion, given the list of each vector.
* `InvertedFile.nearest`, `InvertedFile.within` — searches over probed lists.
-/

namespace Proximity

/-- One list: labels, and the vectors they belong to, back to back. -/
structure PostingList (E : Type) where
  labels : Array Nat
  codes : Array E
deriving DecidableEq, Repr

namespace PostingList

variable {E : Type}

/-- A list that holds nothing. -/
def empty : PostingList E := ⟨#[], #[]⟩

/-- Appends a vector. -/
def push (l : PostingList E) (label : Nat) (vector : Array E) : PostingList E :=
  ⟨l.labels.push label, l.codes ++ vector⟩

/-- The labels with their vectors, in order. -/
def entries (l : PostingList E) (unitLength : Nat) : List (Nat × Array E) :=
  l.labels.toList.zip (vectorsOf unitLength l.codes)

end PostingList

/-- The lists of an inverted file and its settings. -/
structure InvertedFile (S E : Type) where
  space : S
  dimension : Nat
  /-- Elements of one vector. -/
  unitLength : Nat
  /-- The number of lists. -/
  listCount : Nat
  /-- How many lists a query looks at. -/
  probes : Nat
  /-- How the centroids are found. -/
  clustering : ClusteringSettings
  lists : Array (PostingList E)
  /-- The number of stored vectors. -/
  total : Nat
deriving DecidableEq, Repr

namespace InvertedFile

variable {S E : Type}

/-- Empty lists. -/
def empty (space : S) (dimension unitLength listCount : Nat) (clustering : ClusteringSettings) :
    InvertedFile S E :=
  ⟨space, dimension, unitLength, listCount, 1, clustering,
    Array.replicate listCount PostingList.empty, 0⟩

/-- The number of vectors in each list. -/
def listSizes (f : InvertedFile S E) : List Nat := f.lists.toList.map (·.labels.size)

/-- Appends a vector to a list under the next label. -/
def insert (f : InvertedFile S E) (list : Nat) (vector : Array E) : InvertedFile S E :=
  { f with
    lists := f.lists.modify list fun l => l.push f.total vector
    total := f.total + 1 }

/-- Appends vectors, each to the list chosen for it. -/
def insertAll (f : InvertedFile S E) (chosen : List (Nat × Array E)) : InvertedFile S E :=
  chosen.foldl (fun f c => f.insert c.1 c.2) f

/-- How many lists are looked at. -/
def probeCount (f : InvertedFile S E) : Nat := min f.probes f.listCount

/-! ## Search -/

variable [Space S E]

/-- The acceptable vectors of some lists as candidates, list by list. -/
def candidates (f : InvertedFile S E) (probed : List Nat) (query : Array E)
    (accept : Nat → Bool) : List Candidate :=
  probed.flatMap fun list =>
    (((f.lists[list]?.getD .empty).entries f.unitLength).filter fun e => accept e.1).map
      fun e => ⟨Space.cost f.space e.2 query, e.1⟩

/-- The best `k` acceptable vectors of some lists, best first. -/
def nearest (f : InvertedFile S E) (probed : List Nat) (query : Array E) (k : Nat)
    (accept : Nat → Bool) : List Candidate :=
  Best.collect k (f.candidates probed query accept)

/-- The acceptable vectors of some lists with a cost strictly below `bound`,
best first. -/
def within (f : InvertedFile S E) (probed : List Nat) (query : Array E) (bound : Single)
    (accept : Nat → Bool) : List Candidate :=
  Candidate.ranked ((f.candidates probed query accept).filter fun c => c.cost.lt bound)

end InvertedFile

end Proximity

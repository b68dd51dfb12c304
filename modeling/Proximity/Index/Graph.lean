import Proximity.Index.Flat
import Proximity.Index.Links
import Proximity.Number.Double
import Proximity.Random.Generator

/-!
# Graph index

A graph index joins flat storage with the links of a proximity graph over the
stored vectors.  The level of a node is drawn from a generator of its own,
seeded by the node's number, so that building twice over the same vectors
gives the same graph.

## Main definitions

* `Graph.empty`, `Graph.append` — construction.
* `Graph.drawLevel` — the level of a node.
* `Graph.nearest`, `Graph.within` — searches; a range search looks at every
  stored vector.
-/

namespace Proximity

/-- Flat storage and the links over it. -/
structure Graph (S E : Type) where
  storage : Flat S E
  /-- Neighbours of a node above the lowest level, where there may be twice
  as many. -/
  degree : Nat
  /-- The beam's width during insertion. -/
  buildWidth : Nat
  /-- The beam's least width during search. -/
  searchWidth : Nat
  links : Links
  /-- How fast levels thin out. -/
  levelScale : Double
  /-- The seed of all levels. -/
  seed : UInt64
deriving DecidableEq, Repr

namespace Graph

variable {S E : Type}

/-- The seed of graphs built here. -/
def standardSeed : UInt64 := 0x5eeda11f

/-- Spreads the numbers of nodes over all seeds. -/
def nodeMultiplier : UInt64 := 0x9e3779b97f4a7c15

/-- The scale at which a level holds one in `degree` nodes of the level
below. -/
def scaleFor (degree : Nat) : Double := .ofFloat (1.0 / (Double.ofNat degree).toFloat.log)

/-- A graph that holds nothing. -/
def empty [Space S E] (space : S) (dimension degree buildWidth searchWidth : Nat) :
    Except Error (Graph S E) := do
  if degree < 2 then throw (.invalidParameter "M" (.degreeTooSmall degree))
  let storage ← Flat.empty space dimension
  return ⟨storage, degree, max buildWidth 1, max searchWidth 1, .empty, scaleFor degree,
    standardSeed⟩

/-- The level of a node: a unit draw turned into an exponential one. -/
def drawLevel (seed : UInt64) (scale : Double) (node : Nat) : Nat :=
  let draw := (Draw.unit.run (.ofSeed (seed ^^^ UInt64.ofNat node * nodeMultiplier))).1
  let draw := if draw < 1e-15 then 1e-15 else draw
  min (-draw.log * scale.toFloat).floor.toUInt64.toNat Links.levelLimit

variable [Space S E]

/-- The cost between two stored vectors. -/
def between (g : Graph S E) (i j : Nat) : Single :=
  Space.cost g.storage.space (g.storage.vector i) (g.storage.vector j)

/-- Links one stored vector. -/
def insertNode (g : Graph S E) (node : Nat) : Graph S E :=
  { g with
    links := g.links.insert g.between g.degree g.buildWidth
      (drawLevel g.seed g.levelScale node) node }

/-- Appends whole vectors and links them one by one; a refusal changes
nothing. -/
def append (g : Graph S E) (elements : Array E) : Graph S E × Except Error Unit :=
  let first := g.storage.total
  match g.storage.append elements with
  | (_, .error e) => (g, .error e)
  | (storage, .ok ()) =>
    let g := { g with storage }
    ((List.range' first (storage.total - first)).foldl insertNode g, .ok ())

/-- The best `k` acceptable vectors that the links lead to, best first. -/
def nearest (g : Graph S E) (query : Array E) (k : Nat) (accept : Nat → Bool) : List Candidate :=
  g.links.nearest (g.storage.costTo query) g.searchWidth k accept

/-- The acceptable vectors with a cost strictly below `bound`, best first. -/
def within (g : Graph S E) (query : Array E) (bound : Single) (accept : Nat → Bool) :
    List Candidate :=
  g.storage.within query bound accept

end Graph

end Proximity

import Proximity.Search.Candidate

/-!
# Beam search

A beam search walks a graph towards a target.  It keeps a frontier of nodes
to walk from, best first, and the best `width` acceptable nodes met so far,
worst first; it walks from the best frontier node until that node is worse
than everything kept and nothing can be gained.  A node that is not acceptable
is walked like any other and only kept out of the results, so a selective
filter makes the walk wider.

The graph is given by the neighbours of a node and the target by the distance
of a node, so nothing here depends on how vectors are stored or compared.

## Main definitions

* `Beam` — the state of a search.
* `Beam.step` — walks from one node.
* `Beam.search` — the whole search.
-/

namespace Proximity

/-- What a beam search needs to know. -/
structure Terrain where
  /-- Nodes are the numbers below this one. -/
  size : Nat
  /-- The nodes that a node leads to. -/
  neighbours : Nat → List Nat
  /-- How far a node is from the target. -/
  distance : Nat → Single
  /-- Whether a node may be a result. -/
  accept : Nat → Bool
  /-- How many results are kept. -/
  width : Nat

/-- The state of a beam search. -/
structure Beam where
  /-- Which nodes have been met. -/
  visited : Array Bool
  /-- Nodes still to walk from, best first. -/
  frontier : List Candidate
  /-- The best acceptable nodes met, worst first. -/
  results : List Candidate
deriving Repr

namespace Beam

/-- A node is fresh if it exists and has not been met. -/
def fresh (b : Beam) (node : Nat) : Bool := b.visited[node]? == some false

/-- Marks a node as met. -/
def mark (b : Beam) (node : Nat) : Beam :=
  { b with visited := b.visited.setIfInBounds node true }

/-- Meets a node to start from. -/
def start (t : Terrain) (b : Beam) (node : Nat) : Beam :=
  if b.fresh node then
    let c : Candidate := ⟨t.distance node, node⟩
    let b := b.mark node
    { b with
      frontier := c.insertBest b.frontier
      results := if t.accept node then c.insertWorst b.results else b.results }
  else b

/-- Whether as many results are kept as may be. -/
def full (t : Terrain) (b : Beam) : Bool := decide (t.width ≤ b.results.length)

/-- Whether a candidate is closer than the worst result, or there is room. -/
def improves (t : Terrain) (b : Beam) (c : Candidate) : Bool :=
  !b.full t ||
    match b.results with
    | [] => true
    | worst :: _ => c.cost.lt worst.cost

/-- Keeps a result; the worst one makes room for it. -/
def keep (t : Terrain) (results : List Candidate) (c : Candidate) : List Candidate :=
  let results := c.insertWorst results
  if t.width < results.length then results.tail else results

/-- Meets a neighbour of the node that is walked from. -/
def meet (t : Terrain) (b : Beam) (node : Nat) : Beam :=
  if b.fresh node then
    let c : Candidate := ⟨t.distance node, node⟩
    let gain := b.improves t c
    let b := b.mark node
    if gain then
      { b with
        frontier := c.insertBest b.frontier
        results := if t.accept node then keep t b.results c else b.results }
    else b
  else b

/-- Whether a walk from `c` cannot improve the results. -/
def hopeless (t : Terrain) (b : Beam) (c : Candidate) : Bool :=
  b.full t &&
    match b.results with
    | [] => false
    | worst :: _ => worst.cost.lt c.cost

/-- Walks from one node, met before and taken off the frontier. -/
def step (t : Terrain) (b : Beam) (c : Candidate) : Beam :=
  (t.neighbours c.label).foldl (meet t) b

/-- Walks from the best frontier node until there is none or no hope, at most
`fuel` times. -/
def run (t : Terrain) : Nat → Beam → Beam
  | 0, b => b
  | fuel + 1, b =>
    match b.frontier with
    | [] => b
    | c :: rest =>
      if b.hopeless t c then b
      else run t fuel (step t { b with frontier := rest } c)

/--
The best acceptable nodes found from the given starts, best first.  Every
node enters the frontier at most once, so the walk ends after at most as many
steps as there are nodes.  There is room for a beam of any width here, which a
machine may lack: programs run `Beam.search?`.
-/
def search (t : Terrain) (starts : List Nat) : List Candidate :=
  let b := starts.foldl (start t) ⟨Array.replicate t.size false, [], []⟩
  (run t t.size b).results.reverse

end Beam

end Proximity

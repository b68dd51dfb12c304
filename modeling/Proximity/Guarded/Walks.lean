import Proximity.Guarded.Access
import Proximity.Index.Links

/-!
# Guarded walks

A beam search makes room for its results and for one more before it starts.  Then it
reads whether a node was met, its neighbours, its distance and whether it is acceptable.
All of these are guarded here, and so is the number of steps: a search that has not come
to its end after one step to each node answers `none` too.

## Main definitions

* `Terrain.Guarded` — what a guarded search may ask.
* `Beam.search?` — the guarded search.
* `Links.layer?`, `Links.nearest?` — guarded searches in links over stored vectors.
-/

namespace Proximity

open Guarded

/-- What a guarded beam search needs to know. -/
structure Terrain.Guarded where
  size : Nat
  neighbours : Nat → Option (List Nat)
  distance : Nat → Option Single
  accept : Nat → Option Bool
  width : Nat

/-- What the bookkeeping of results reads of a terrain. -/
def Terrain.Guarded.frame (t? : Terrain.Guarded) : Terrain :=
  ⟨t?.size, fun _ => [], fun _ => .zero, fun _ => true, t?.width⟩

namespace Beam

/-- Meets a node to start from; one that does not exist is passed over. -/
def start? (t? : Terrain.Guarded) (b : Beam) (node : Nat) : Option Beam := do
  if b.visited.size ≤ node then return b
  if ← b.visited[node]? then return b
  let c : Candidate := ⟨← t?.distance node, node⟩
  let b := b.mark node
  return { b with
    frontier := c.insertBest b.frontier
    results := if ← t?.accept node then c.insertWorst b.results else b.results }

/-- Meets a neighbour of the node that is walked from, which has to exist. -/
def meet? (t? : Terrain.Guarded) (b : Beam) (node : Nat) : Option Beam := do
  if ← b.visited[node]? then return b
  let c : Candidate := ⟨← t?.distance node, node⟩
  let gain := b.improves t?.frame c
  let b := b.mark node
  if gain then
    return { b with
      frontier := c.insertBest b.frontier
      results := if ← t?.accept node then keep t?.frame b.results c else b.results }
  else return b

/-- Walks from one node, met before and taken off the frontier. -/
def step? (t? : Terrain.Guarded) (b : Beam) (c : Candidate) : Option Beam := do
  (← t?.neighbours c.label).foldlM (meet? t?) b

/-- Walks from the best frontier node until there is none or no hope, which has
to be so after at most `fuel` steps. -/
def run? (t? : Terrain.Guarded) : Nat → Beam → Option Beam
  | 0, b =>
    match b.frontier with
    | [] => some b
    | c :: _ => if b.hopeless t?.frame c then some b else none
  | fuel + 1, b =>
    match b.frontier with
    | [] => some b
    | c :: rest =>
      if b.hopeless t?.frame c then some b
      else do run? t? fuel (← step? t? { b with frontier := rest } c)

/-- The best acceptable nodes found from the given starts, best first. -/
def search? (machine : Machine) (t? : Terrain.Guarded) (starts : List Nat) :
    Option (List Candidate) := do
  reserve? machine (t?.width + 1)
  let b ← starts.foldlM (start? t?) ⟨Array.replicate t?.size false, [], []⟩
  let b ← run? t? t?.size b
  return b.results.reverse

end Beam

/-! ## Searches in links -/

namespace Links

variable {S E : Type} [Space S E] (machine : Machine)

/-- The neighbours of a node that exists at a level; it has none above its
own. -/
def neighbours? (g : Links) (level node : Nat) : Option (List Nat) :=
  (g.nodes[node]?).map fun levels => levels[level]?.getD []

/-- The best `width` acceptable nodes of a level, found from some starts. -/
def layer? (g : Links) (storage : Flat S E) (query : Array E) (level width : Nat)
    (accept? : Nat → Option Bool) (starts : List Nat) : Option (List Candidate) :=
  Beam.search? machine
    ⟨g.nodes.size, g.neighbours? level, storage.costTo? query, accept?, width⟩ starts

/-- The node of a level that a walk of width one ends in. -/
def closest? (g : Links) (storage : Flat S E) (query : Array E) (level start : Nat) :
    Option Nat := do
  match ← g.layer? machine storage query level 1 (fun _ => some true) [start] with
  | [] => return start
  | c :: _ => return c.label

/-- Walks down from a level to the one above `floor`. -/
def descend? (g : Links) (storage : Flat S E) (query : Array E) (floor : Nat) :
    Nat → Nat → Option Nat
  | 0, start => some start
  | level + 1, start =>
    if floor ≤ level then do
      descend? g storage query floor level
        (← g.closest? machine storage query (level + 1) start)
    else some start

/-- The best `k` acceptable nodes found from the entry node. -/
def nearest? (g : Links) (storage : Flat S E) (query : Array E) (width k : Nat)
    (accept? : Nat → Option Bool) : Option (List Candidate) :=
  match g.entry with
  | none => some []
  | some entry => do
    let start ← g.descend? machine storage query 0 g.topLevel entry
    let found ← g.layer? machine storage query 0 (max width k) accept? [start]
    return found.take k

end Links

end Proximity

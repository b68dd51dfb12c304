import Proximity.Guarded.Walks
import Proximity.Index.Graph

/-!
# Guarded insertion into a graph

A selection of neighbours makes room for as many as it may select.  An insertion reads
the vectors of all candidates that it compares and writes to the neighbour lists of the
new node and of those it is linked to.

## Main definitions

* `Links.select?`, `Links.connect?`, `Links.insert?` — guarded insertion.
* `Graph.append?`, `Graph.nearest?`, `Graph.within?` — guarded graphs.
-/

namespace Proximity

open Guarded

variable {S E : Type} [Space S E]

namespace Links

/-- Splits ranked candidates into selected ones and ones that are passed over. -/
def diverse? (storage : Flat S E) (limit : Nat) :
    List Candidate → List Candidate → List Candidate →
      Option (List Candidate × List Candidate)
  | selected, passed, [] => some (selected, passed)
  | selected, passed, c :: rest =>
    if limit ≤ selected.length then some (selected, passed)
    else do
      let vector ← storage.vector? c.label
      if ← selected.allM fun s => (storage.costTo? vector s.label).map c.cost.le then
        diverse? storage limit (selected ++ [c]) passed rest
      else diverse? storage limit selected (passed ++ [c]) rest

/-- Replaces the neighbours of a node at a level it has. -/
def setNeighbours? (g : Links) (level node : Nat) (list : List Nat) : Option Links := do
  let levels ← g.nodes[node]?
  if level < levels.length then some (g.setNeighbours level node list) else none

variable (machine : Machine)

/-- Selects at most `limit` neighbours. -/
def select? (storage : Flat S E) (limit : Nat) (candidates : List Candidate) :
    Option (List Nat) := do
  reserve? machine limit
  let (selected, passed) ← diverse? storage limit [] [] (Candidate.ranked candidates)
  return (selected ++ passed.take (limit - selected.length)).map (·.label)

/-- Links `source`, which has to exist, to `target` at a level, if it has that
level. -/
def connect? (storage : Flat S E) (level limit target : Nat) (g : Links) (source : Nat) :
    Option Links := do
  let levels ← g.nodes[source]?
  match levels[level]? with
  | none => some g
  | some list =>
    let list := list ++ [target]
    if limit < list.length then
      let base ← storage.vector? source
      let candidates ← list.mapM fun n =>
        (storage.costTo? base n).map fun cost => (⟨cost, n⟩ : Candidate)
      g.setNeighbours? level source (← select? machine storage limit candidates)
    else g.setNeighbours? level source list

/-- Links a node at all levels below `level`, from the highest down. -/
def linkBelow? (storage : Flat S E) (query : Array E) (degree width node : Nat) :
    Nat → List Nat → Links → Option Links
  | 0, _, g => some g
  | level + 1, starts, g => do
    let found ← g.layer? machine storage query level width (fun _ => some true) starts
    let chosen ← select? machine storage degree found
    let linked ← chosen.foldlM (connect? machine storage level (degreeAt degree level) node) g
    let linked ← linked.setNeighbours? level node chosen
    linkBelow? storage query degree width node level (if chosen.isEmpty then starts else chosen)
      linked

/-- Inserts the next node at a level. -/
def insert? (storage : Flat S E) (degree width level node : Nat) (g : Links) : Option Links :=
  let grown := { g with nodes := g.nodes.push (List.replicate (level + 1) []) }
  match g.entry with
  | none => some { grown with entry := some node, topLevel := level }
  | some entry => do
    let query ← storage.vector? node
    let start ← grown.descend? machine storage query level g.topLevel entry
    let linked ← linkBelow? machine storage query degree (max width degree) node
      (min level g.topLevel + 1) [start] grown
    if g.topLevel < level then
      return { linked with entry := some node, topLevel := level }
    else return linked

end Links

/-! ## Graphs -/

namespace Graph

/-- The acceptable vectors with a cost strictly below `bound`, best first. -/
def within? (g : Graph S E) (query : Array E) (bound : Single) (accept? : Nat → Option Bool) :
    Option (List Candidate) :=
  g.storage.within? query bound accept?

variable (machine : Machine)

/-- The best `k` acceptable vectors that the links lead to, best first. -/
def nearest? (g : Graph S E) (query : Array E) (k : Nat) (accept? : Nat → Option Bool) :
    Option (List Candidate) :=
  g.links.nearest? machine g.storage query g.searchWidth k accept?

/-- Links one stored vector. -/
def insertNode? (g : Graph S E) (node : Nat) : Option (Graph S E) :=
  (g.links.insert? machine g.storage g.degree g.buildWidth
    (drawLevel g.seed g.levelScale node) node).map fun links => { g with links }

/-- Appends whole vectors and links them one by one. -/
def append? (g : Graph S E) (elements : Array E) : Option (Graph S E × Except Error Unit) := do
  let first ← g.storage.total?
  match ← g.storage.append? elements with
  | (_, .error e) => return (g, .error e)
  | (storage, .ok ()) =>
    let last ← storage.total?
    let g ← (List.range' first (last - first)).foldlM (insertNode? machine) { g with storage }
    return (g, .ok ())

end Graph

end Proximity

import Proximity.Search.Beam

/-!
# The links of a proximity graph

Nodes are numbered in the order of insertion.  Each has a level, drawn when it
is inserted, and a list of neighbours for every level up to its own; the few
nodes of the high levels make long strides possible.  A new node is linked to
neighbours that a beam search finds, level by level, and they link back to it.
A neighbour list that outgrows its limit is selected anew.

The cost between two nodes is a parameter, so everything here holds whatever
the vectors are and however they are compared.

## Main definitions

* `Links` — neighbour lists, entry node and top level.
* `Links.select` — the diversity rule.
* `Links.connect` — a link back.
* `Links.insert` — insertion of a node at a level.
* `Links.layer`, `Links.nearest` — searches in one level, and from the top.
-/

namespace Proximity

/-- The links of a proximity graph. -/
structure Links where
  /-- For each node and each of its levels the neighbours. -/
  nodes : Array (List (List Nat))
  /-- Where searches start. -/
  entry : Option Nat
  /-- The highest level. -/
  topLevel : Nat
deriving DecidableEq, Repr

namespace Links

/-- No node has a higher level. -/
def levelLimit : Nat := 16

/-- The links of no nodes. -/
def empty : Links := ⟨#[], none, 0⟩

/-- The levels of a node, the lowest first. -/
def levelsOf (g : Links) (node : Nat) : List (List Nat) := g.nodes[node]?.getD []

/-- The neighbours of a node at a level; a node has none above its own. -/
def neighbours (g : Links) (level node : Nat) : List Nat := (g.levelsOf node)[level]?.getD []

/-- Replaces the neighbours of a node at a level it has. -/
def setNeighbours (g : Links) (level node : Nat) (list : List Nat) : Links :=
  { g with nodes := g.nodes.modify node fun levels => levels.set level list }

/-- How many neighbours a node may have at a level. -/
def degreeAt (degree level : Nat) : Nat := if level = 0 then degree * 2 else degree

/-! ## Search -/

/-- The best `width` acceptable nodes of a level, found from some starts. -/
def layer (g : Links) (distance : Nat → Single) (level width : Nat) (accept : Nat → Bool)
    (starts : List Nat) : List Candidate :=
  Beam.search ⟨g.nodes.size, g.neighbours level, distance, accept, width⟩ starts

/-- The node of a level that a walk of width one ends in. -/
def closest (g : Links) (distance : Nat → Single) (level start : Nat) : Nat :=
  match g.layer distance level 1 (fun _ => true) [start] with
  | [] => start
  | c :: _ => c.label

/-- Walks down from a level to the one above `floor`, always from where the
walk before ended. -/
def descend (g : Links) (distance : Nat → Single) (floor : Nat) : Nat → Nat → Nat
  | 0, start => start
  | level + 1, start =>
    if floor ≤ level then descend g distance floor level (g.closest distance (level + 1) start)
    else start

/-- The best `k` acceptable nodes found from the entry node, with a beam of at
least `width` on the lowest level. -/
def nearest (g : Links) (distance : Nat → Single) (width k : Nat) (accept : Nat → Bool) :
    List Candidate :=
  match g.entry with
  | none => []
  | some entry =>
    let start := g.descend distance 0 g.topLevel entry
    (g.layer distance 0 (max width k) accept [start]).take k

/-! ## Selection of neighbours -/

/-- Splits ranked candidates into those that are selected for being at least
as close to the base as to every candidate selected before them, and those
that are passed over; it stops when `limit` are selected. -/
def diverse (between : Nat → Nat → Single) (limit : Nat) :
    List Candidate → List Candidate → List Candidate → List Candidate × List Candidate
  | selected, passed, [] => (selected, passed)
  | selected, passed, c :: rest =>
    if limit ≤ selected.length then (selected, passed)
    else if selected.all fun s => c.cost.le (between s.label c.label) then
      diverse between limit (selected ++ [c]) passed rest
    else diverse between limit selected (passed ++ [c]) rest

/-- Selects at most `limit` neighbours: the diverse candidates first, then the
best of those passed over.  Programs run `Links.select?`, which first makes room for
`limit` of them. -/
def select (between : Nat → Nat → Single) (limit : Nat) (candidates : List Candidate) :
    List Nat :=
  let (selected, passed) := diverse between limit [] [] (Candidate.ranked candidates)
  (selected ++ passed.take (limit - selected.length)).map (·.label)

/-! ## Insertion -/

/-- Links `source` to `target` at a level that `source` has.  When the list
outgrows `limit` it is selected anew from its members. -/
def connect (between : Nat → Nat → Single) (level limit target : Nat) (g : Links)
    (source : Nat) : Links :=
  match (g.levelsOf source)[level]? with
  | none => g
  | some list =>
    let list := list ++ [target]
    if limit < list.length then
      g.setNeighbours level source
        (select between limit (list.map fun n => ⟨between n source, n⟩))
    else g.setNeighbours level source list

/-- Links a node at all levels below `level`, from the highest down; each
level is searched from the neighbours found on the level above. -/
def linkBelow (between : Nat → Nat → Single) (degree width node : Nat) :
    Nat → List Nat → Links → Links
  | 0, _, g => g
  | level + 1, starts, g =>
    let found := g.layer (between · node) level width (fun _ => true) starts
    let chosen := select between degree found
    let linked := chosen.foldl (connect between level (degreeAt degree level) node) g
    linkBelow between degree width node level (if chosen.isEmpty then starts else chosen)
      (linked.setNeighbours level node chosen)

/-- Inserts the next node at a level. -/
def insert (between : Nat → Nat → Single) (degree width level node : Nat) (g : Links) : Links :=
  let grown := { g with nodes := g.nodes.push (List.replicate (level + 1) []) }
  match g.entry with
  | none => { grown with entry := some node, topLevel := level }
  | some entry =>
    let start := grown.descend (between · node) level g.topLevel entry
    let linked :=
      linkBelow between degree (max width degree) node (min level g.topLevel + 1) [start] grown
    if g.topLevel < level then { linked with entry := some node, topLevel := level } else linked

end Links

end Proximity

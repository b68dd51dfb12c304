import Proximity.Index.Basic

/-!
# Consistency

What was decoded from bytes may contradict itself.  The check walks an index
tree, children first, and reports the first contradiction that would let a
search run out of the stored vectors: widths that differ, lists and
neighbours that name vectors which do not exist, counts that do not add up.

## Main definitions

* `Flat.check`, `Graph.check`, `InvertedFile.check` — the checks of one node.
* `Index.check` — the check of a tree.
-/

namespace Proximity

variable {S E : Type} [Space S E]

/-- Fails with a fault if a condition holds. -/
def refuse (condition : Bool) (fault : Inconsistency) : Except Inconsistency Unit :=
  if condition then .error fault else .ok ()

namespace Flat

/-- The width follows from the dimension, and the elements are whole
vectors. -/
def check (f : Flat S E) : Except Inconsistency Unit := do
  let expected ← ((Space.kind f.space).unitLength f.dimension).mapError .dimension
  refuse (f.unitLength != expected) (.flatWidth f.unitLength f.dimension)
  refuse (f.data.size % f.unitLength != 0) (.flatRemainder f.data.size f.unitLength)

end Flat

namespace Links

/-- The first neighbour of a node that does not exist. -/
def missing? (levels : List (List Nat)) (total : Nat) : Option Nat :=
  levels.flatten.find? fun n => decide (total ≤ n)

/-- A node has not too many levels, and its neighbours exist. -/
def checkNode (total node : Nat) (levels : List (List Nat)) : Except Inconsistency Unit := do
  refuse (decide (levelLimit + 1 < levels.length)) (.nodeLevels node levels.length)
  match missing? levels total with
  | some neighbour => throw (.missingNeighbour node neighbour)
  | none => return ()

/-- The nodes from number `node` on are in order. -/
def checkNodes (total : Nat) : Nat → List (List (List Nat)) → Except Inconsistency Unit
  | _, [] => .ok ()
  | node, levels :: rest => do
    checkNode total node levels
    checkNodes total (node + 1) rest

/-- A graph with nodes has an entry node, and it exists. -/
def checkEntry (total : Nat) : Option Nat → Except Inconsistency Unit
  | none => refuse (total != 0) .noEntryPoint
  | some entry => refuse (decide (total ≤ entry)) (.entryPoint entry total)

end Links

namespace Graph

/-- The settings are in range, and the links are over the stored vectors. -/
def check (g : Graph S E) : Except Inconsistency Unit := do
  g.storage.check
  let total := g.storage.total
  refuse (decide (g.degree < 2) || g.searchWidth == 0 || g.buildWidth == 0)
    (.graphParameters g.degree g.searchWidth g.buildWidth)
  refuse (g.links.nodes.size != total) (.adjacencyCount g.links.nodes.size total)
  refuse (decide (Links.levelLimit < g.links.topLevel)) (.graphLevel g.links.topLevel)
  Links.checkEntry total g.links.entry
  Links.checkNodes total 0 g.links.nodes.toList

end Graph

namespace InvertedFile

/-- A label as the signed number that is stored. -/
def signedLabel (label : Nat) : Int :=
  if label < Count.signedBound then label else (label : Int) - Count.bound

/-- A list has one vector to a label, and its labels exist.  The elements that
go with the labels are counted in a word of 64 bits. -/
def checkList (unitLength total : Nat) (l : PostingList E) : Except Inconsistency Unit := do
  refuse (l.codes.size != l.labels.size * unitLength % Count.bound)
    (.listLength l.labels.size l.codes.size)
  match l.labels.toList.find? fun label => decide (Count.signedBound ≤ label ∨ total ≤ label) with
  | some label => throw (.label (signedLabel label) total)
  | none => return ()

/-- The lists are in order. -/
def checkLists (unitLength total : Nat) : List (PostingList E) → Except Inconsistency Unit
  | [] => .ok ()
  | l :: rest => do
    checkList unitLength total l
    checkLists unitLength total rest

/-- The lists go with a quantizer of `centroids` centroids and with each
other. -/
def check (f : InvertedFile S E) (centroids : Nat) : Except Inconsistency Unit := do
  refuse (f.listCount == 0 || f.lists.size != f.listCount) (.listCount f.lists.size f.listCount)
  refuse (centroids != 0 && centroids != f.listCount) (.centroidCount centroids f.listCount)
  refuse (centroids == 0 && f.total != 0) .untrainedLists
  checkLists f.unitLength f.total f.lists.toList
  let stored := f.listSizes.foldr (· + ·) 0
  refuse (stored != f.total) (.listTotal stored f.total)

end InvertedFile

namespace Index

/-- The tree is in order. -/
def check : Index S E → Except Inconsistency Unit
  | .flat f => f.check
  | .graph g => g.check
  | .invertedFile f quantizer => do
    quantizer.check
    refuse (quantizer.unitLength != f.unitLength || quantizer.dimension != f.dimension)
      .quantizerWidth
    f.check quantizer.total
  | .composite base copies factor => do
    base.check
    copies.check
    refuse (copies.unitLength != base.unitLength) .copyWidth
    refuse (copies.total != base.total) (.copyTotal copies.total base.total)
    refuse (!(factor.isFinite && Single.one.le factor)) (.refineFactor factor)

end Index

end Proximity

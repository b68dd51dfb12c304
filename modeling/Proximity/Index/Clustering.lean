import Proximity.Random.Sample
import Proximity.Search.Candidate
import Proximity.Space.Basic
import Proximity.Number.Double
import Proximity.Error

/-!
# Clustering

The centroids of an inverted file are found by k-means: seeds are drawn one
after the other with a probability that grows with the cost of a point to the
seeds before it, then points are assigned to their nearest centroid and each
centroid is moved to the centre of its points, until an assignment repeats.
A centroid without points is moved to a random point instead, and then the
iteration does not count as quiet.

All draws come from one generator, so the result depends on the points and on
the settings only.

## Main definitions

* `ClusteringSettings` — the settings, with their defaults.
* `Clustering.nearest` — the nearest centroid, the first of several.
* `Clustering.seeds` — the seeding.
* `Clustering.pass`, `Clustering.settle` — one iteration, and all of them.
* `Clustering.train` — the centroids of a sample.
-/

namespace Proximity

/-- How centroids are found. -/
structure ClusteringSettings where
  /-- The most iterations, of which at least one is made. -/
  iterations : Nat
  /-- The seed of all draws. -/
  seed : UInt64
  /-- Below this many points to a centroid a sample counts as small. -/
  minPoints : Nat
  /-- At most this many points to a centroid are looked at. -/
  maxPoints : Nat
deriving DecidableEq, Repr

/-- The settings of a host that asks for none. -/
def ClusteringSettings.standard : ClusteringSettings := ⟨25, 1234, 39, 256⟩

instance : Inhabited ClusteringSettings := ⟨.standard⟩

/-- Cuts some elements into whole vectors; a rest is dropped. -/
def vectorsOf {E : Type} (unitLength : Nat) (elements : Array E) : List (Array E) :=
  (List.range (elements.size / unitLength)).map fun i =>
    elements.extract (i * unitLength) (i * unitLength + unitLength)

namespace Clustering

variable {S E : Type} [Space S E]

/-! ## Assignment -/

/-- Continues a search for the least cost over the centroids from number `i`
on; a later centroid has to be strictly cheaper. -/
def nearestFrom (space : S) (point : Array E) (i best : Nat) (cost : Single) :
    List (Array E) → Nat
  | [] => best
  | c :: rest =>
    let d := Space.cost space c point
    if d.rank < cost.rank then nearestFrom space point (i + 1) i d rest
    else nearestFrom space point (i + 1) best cost rest

/-- The number of the centroid nearest to a point, the first of several. -/
def nearest (space : S) (centroids : List (Array E)) (point : Array E) : Nat :=
  match centroids with
  | [] => 0
  | c :: rest => nearestFrom space point 1 0 (Space.cost space c point) rest

/-- The points assigned to a centroid, in order. -/
def members (points : List (Array E)) (assignment : List Nat) (cluster : Nat) :
    List (Array E) :=
  ((points.zip assignment).filter fun p => p.2 == cluster).map (·.1)

/-! ## Seeding -/

/-- The cost of each point to a centroid above its cost to itself. -/
def excess (space : S) (points : List (Array E)) (centroid : Array E) : List Single :=
  points.map fun p => (Space.cost space centroid p - Space.cost space p p).clampBelow

/-- The smaller weight, point by point. -/
def lower (weights candidates : List Single) : List Single :=
  List.zipWith (fun w d => if d.lt w then d else w) weights candidates

/-- The position at which the running sum of the weights reaches `target`. -/
def reach (target : Float) (i : Nat) : List Single → Option Nat
  | [] => none
  | w :: rest =>
    let target := target - w.toDouble.toFloat
    if target ≤ 0 && Single.zero.lt w then some i else reach target (i + 1) rest

/-- Draws a position with a probability proportional to its weight, or any
position if all weights are zero. -/
def drawWeighted (weights : List Single) : Draw Nat := do
  let total := weights.foldl (fun sum w => sum + w.toDouble.toFloat) 0
  if total > 0 then
    let target := (← Draw.unit) * total
    return (reach target 0 weights).getD (weights.length - 1)
  else Draw.below64 weights.length

/-- Draws `count` more seeds. -/
def moreSeeds (space : S) (points : List (Array E)) :
    Nat → List Single → Draw (List (Array E))
  | 0, _ => return []
  | count + 1, weights => do
    let seed := points[← drawWeighted weights]?.getD #[]
    return seed :: (← moreSeeds space points count (lower weights (excess space points seed)))

/-- Draws `count` seeds from the points. -/
def seeds (space : S) (points : List (Array E)) (count : Nat) : Draw (List (Array E)) := do
  let first := points[← Draw.below64 points.length]?.getD #[]
  return first :: (← moreSeeds space points (count - 1) (excess space points first))

/-! ## Iteration -/

/-- The new centroid of some members; without any, a random point. -/
def recentre (space : S) (points : List (Array E)) (unitLength : Nat)
    (cluster : List (Array E)) : Draw (Array E) :=
  if cluster.isEmpty then
    return points[← Draw.below64 points.length]?.getD #[]
  else return Space.centroid space cluster.toArray unitLength

/-- New centroids for all clusters, in order. -/
def recentreAll (space : S) (points : List (Array E)) (unitLength : Nat) :
    List (List (Array E)) → Draw (List (Array E))
  | [] => return []
  | cluster :: rest => do
    let centroid ← recentre space points unitLength cluster
    return centroid :: (← recentreAll space points unitLength rest)

/-- Where an iteration stands. -/
structure State (E : Type) where
  centroids : List (Array E)
  /-- The last assignment, if one was made. -/
  assignment : Option (List Nat)
  /-- The last iteration repeated the assignment before it and left no
  centroid without points. -/
  quiet : Bool

/-- One iteration. -/
def pass (space : S) (points : List (Array E)) (unitLength : Nat) (state : State E) :
    Draw (State E) := do
  let assignment := points.map (nearest space state.centroids)
  let clusters := (List.range state.centroids.length).map (members points assignment)
  let centroids ← recentreAll space points unitLength clusters
  let quiet := state.assignment == some assignment && clusters.all fun c => !c.isEmpty
  return ⟨centroids, some assignment, quiet⟩

/-- Iterates until an iteration is quiet, at most `n` times. -/
def settle (space : S) (points : List (Array E)) (unitLength : Nat) :
    Nat → State E → Draw (State E)
  | 0, state => return state
  | n + 1, state => do
    let state ← pass space points unitLength state
    if state.quiet then return state else settle space points unitLength n state

/-! ## Training -/

/-- The points that are looked at: all of them, or a sample. -/
def choosePoints (points : List (Array E)) (most : Nat) : Draw (List (Array E)) :=
  if most < points.length then do
    let chosen ← Draw.sample points.length most
    let all := points.toArray
    return chosen.toList.map fun i => all[i]?.getD #[]
  else return points

/-- The centroids of some points. -/
def centroids (space : S) (settings : ClusteringSettings) (unitLength count : Nat)
    (points : List (Array E)) : Draw (State E) := do
  let points ← choosePoints points (max (count * settings.maxPoints) count)
  let start ← seeds space points count
  settle space points unitLength (max settings.iterations 1) ⟨start, none, false⟩

/-- The centroids of a sample, back to back. -/
def train (space : S) (settings : ClusteringSettings) (unitLength count : Nat)
    (sample : Array E) : Except Error (Array E) :=
  let points := vectorsOf unitLength sample
  if points.length < count then .error (.insufficientSample count points.length)
  else
    let state := ((centroids space settings unitLength count points).run
      (Generator.ofSeed settings.seed)).1
    .ok (state.centroids.foldl (· ++ ·) #[])

end Clustering

end Proximity

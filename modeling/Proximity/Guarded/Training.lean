import Proximity.Guarded.Access

/-!
# Guarded training

A training cuts its sample, takes points by the positions that were drawn, counts
the members of every cluster and overwrites one slot of the centroids after the
other.  Draws go on with the generator that the draws before them left behind.

## Main definitions

* `Attempt` — a draw with guarded accesses.
* `Space.GuardsCentroid` — spaces whose representatives are computed with guarded
  accesses.
* `Clustering.train?` — the guarded training.
-/

namespace Proximity

open Guarded

variable {S E A B : Type}

/-! ## Draws with accesses -/

/-- A computation that draws from a generator and stops at a failed access. -/
abbrev Attempt := StateT Generator Option

namespace Attempt

/-- A draw without accesses. -/
def draw (d : Draw A) : Attempt A := fun g => some (d.run g)

/-- An access, which leaves the generator alone. -/
def access (x : Option A) : Attempt A := fun g => x.map fun a => (a, g)

/-- A number below a bound, which must not be zero. -/
def below64? (bound : Nat) : Attempt Nat := do
  access (need (0 < bound))
  draw (Draw.below64 bound)

/-- As many positions as are asked for, which must not be more than there are. -/
def sample? (length amount : Nat) : Attempt (Array Nat) := do
  access (need (amount ≤ length))
  draw (Draw.sample length amount)

end Attempt

/-! ## Representatives -/

/-- Spaces whose representatives are computed with guarded accesses, which succeed
for members of the width that is asked for. -/
class Space.GuardsCentroid (S : Type) {E : outParam Type} [Space S E] where
  centroid? : S → Array (Array E) → Nat → Option (Array E)
  centroid?_eq : ∀ (space : S) (members : Array (Array E)) (width : Nat),
    (∀ m ∈ members, m.size = width) →
      centroid? space members width = some (Space.centroid space members width)

/-- Sums are taken coordinate by coordinate, without any access. -/
instance : Space.GuardsCentroid FloatSpace where
  centroid? _ members width := some (FloatSpace.mean members width)
  centroid?_eq _ _ _ _ := rfl

namespace BinarySpace

/-- The places at which the set bits of a member are counted, eight to a byte. -/
def count? (width : Nat) (member : Array UInt8) : Option Unit :=
  (List.range member.size).forM fun i => (List.range 8).forM fun j =>
    if bit (member[i]?.getD 0) j then need (i * 8 + j < width * 8) else some ()

/-- The bitwise majority; every bit goes to a byte. -/
def median? (members : Array (Array UInt8)) (width : Nat) : Option (Array UInt8) := do
  members.toList.forM (count? width)
  (List.range (width * 8)).forM fun i => need (i / 8 < width)
  return median members width

private theorem count?_eq {width : Nat} {member : Array UInt8} (h : member.size = width) :
    count? width member = some () := by
  refine forM_eq_some fun i hi => forM_eq_some fun j hj => ?_
  have hbyte := List.mem_range.1 hi
  have hbit := List.mem_range.1 hj
  split
  · exact need_eq (by omega)
  · rfl

instance : Space.GuardsCentroid BinarySpace where
  centroid? _ := median?
  centroid?_eq _ members width h := by
    have hcount : members.toList.forM (count? width) = some () :=
      forM_eq_some fun m hm => count?_eq (h m (Array.mem_toList_iff.1 hm))
    have hbits : ((List.range (width * 8)).forM fun i => need (i / 8 < width)) = some () :=
      forM_eq_some fun i hi => need_eq (Nat.div_lt_of_lt_mul (by
        have hlt := List.mem_range.1 hi
        omega))
    rw [median?, hcount, Option.bind_eq_bind, Option.bind_some, hbits]
    rfl

end BinarySpace

namespace Clustering

open Attempt

variable [Space S E]

/-! ## The guarded training -/

/-- Draws a position by weight. -/
def drawWeighted? (weights : List Single) : Attempt Nat := do
  let total := weights.foldl (fun sum w => sum + w.toDouble.toFloat) 0
  if total > 0 then
    let target := (← draw Draw.unit) * total
    return (reach target 0 weights).getD (weights.length - 1)
  else below64? weights.length

/-- Draws `count` more seeds. -/
def moreSeeds? (space : S) (points : List (Array E)) :
    Nat → List Single → Attempt (List (Array E))
  | 0, _ => return []
  | count + 1, weights => do
    let i ← drawWeighted? weights
    let seed ← access points[i]?
    return seed :: (← moreSeeds? space points count (lower weights (excess space points seed)))

/-- Draws `count` seeds from the points. -/
def seeds? (space : S) (points : List (Array E)) (count : Nat) : Attempt (List (Array E)) := do
  let i ← below64? points.length
  let first ← access points[i]?
  return first :: (← moreSeeds? space points (count - 1) (excess space points first))

/-- The number of the centroid nearest to a point; the centroids are cut apart. -/
def nearest? (space : S) (unitLength : Nat) (centroids : List (Array E)) (point : Array E) :
    Option Nat := do
  need (0 < unitLength)
  return nearest space centroids point

/-- The members of the clusters; every point is assigned to one of them. -/
def clusters? (points : List (Array E)) (assignment : List Nat) (count : Nat) :
    Option (List (List (Array E))) := do
  assignment.forM fun cluster => need (cluster < count)
  return (List.range count).map (members points assignment)

variable [Space.GuardsCentroid S]

/-- The new centroid of some members; without any, a random point. -/
def recentre? (space : S) (points : List (Array E)) (unitLength : Nat)
    (cluster : List (Array E)) : Attempt (Array E) := do
  if cluster.isEmpty then
    let i ← below64? points.length
    access points[i]?
  else access (Space.GuardsCentroid.centroid? space cluster.toArray unitLength)

/-- New centroids for the clusters from number `i` on.  Each is copied over a slot
of the centroids, which has to be in range and of the same length. -/
def recentreAll? (space : S) (points : List (Array E)) (unitLength size : Nat) :
    Nat → List (List (Array E)) → Attempt (List (Array E))
  | _, [] => return []
  | i, cluster :: rest => do
    access (need ((i + 1) * unitLength ≤ size))
    let centroid ← recentre? space points unitLength cluster
    access (need (centroid.size = unitLength))
    return centroid :: (← recentreAll? space points unitLength size (i + 1) rest)

/-- One iteration. -/
def pass? (space : S) (points : List (Array E)) (unitLength count : Nat) (state : State E) :
    Attempt (State E) := do
  let assignment ← access (points.mapM (nearest? space unitLength state.centroids))
  let clusters ← access (clusters? points assignment count)
  let size := (state.centroids.foldl (· ++ ·) #[]).size
  let centroids ← recentreAll? space points unitLength size 0 clusters
  let quiet := state.assignment == some assignment && clusters.all fun c => !c.isEmpty
  return ⟨centroids, some assignment, quiet⟩

/-- Iterates until an iteration is quiet, at most `n` times. -/
def settle? (space : S) (points : List (Array E)) (unitLength count : Nat) :
    Nat → State E → Attempt (State E)
  | 0, state => return state
  | n + 1, state => do
    let state ← pass? space points unitLength count state
    if state.quiet then return state else settle? space points unitLength count n state

/-- The points of a sample that are looked at: all of them, or some. -/
def choosePoints? (unitLength : Nat) (sample : Array E) (most : Nat) :
    Attempt (List (Array E)) := do
  let total ← access (quotient? sample.size unitLength)
  if most < total then
    let chosen ← sample? total most
    access (chosen.toList.mapM fun i => slice? sample (i * unitLength) ((i + 1) * unitLength))
  else
    let whole ← access (slice? sample 0 (total * unitLength))
    access (chunks? unitLength whole)

/-- The centroids of a sample. -/
def centroids? (space : S) (settings : ClusteringSettings) (unitLength count : Nat)
    (sample : Array E) : Attempt (State E) := do
  let points ← choosePoints? unitLength sample (max (count * settings.maxPoints) count)
  let start ← seeds? space points count
  settle? space points unitLength count (max settings.iterations 1) ⟨start, none, false⟩

/-- The centroids of a sample, back to back. -/
def train? (space : S) (settings : ClusteringSettings) (unitLength count : Nat)
    (sample : Array E) : Option (Except Error (Array E)) := do
  let total ← quotient? sample.size unitLength
  if total < count then return .error (.insufficientSample count total)
  let (state, _) ← (centroids? space settings unitLength count sample).run
    (Generator.ofSeed settings.seed)
  return .ok (state.centroids.foldl (· ++ ·) #[])

end Clustering

end Proximity

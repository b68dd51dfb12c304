import Proximity.Guarded.Training
import Proximity.Proofs.Clustering
import Proximity.Proofs.Guarded.Access

/-!
# When guarded trainings answer

All places that a training looks at are in range, since drawn positions exist, there is
one slot to a cluster and every representative has the width of a slot.

## Main definitions

* `Attempt.Answers` — an attempt that answers what a draw gives.

## Main results

* `Clustering.train?_eq` — a training to one centroid or more of a positive width
  answers.
-/

namespace Proximity

open Guarded

variable {S E A B : Type}

/-! ## Draws with accesses -/

namespace Attempt

/-- The attempt answers what the draw gives, for every generator. -/
def Answers (a? : Attempt A) (d : Draw A) : Prop := ∀ g, a?.run g = some (d.run g)

theorem answers_pure (a : A) : Answers (pure a) (pure a) := fun _ => rfl

theorem answers_of_some {x : Option A} {a : A} (hx : x = some a) :
    Answers (access x) (pure a) := by
  intro g
  rw [hx]
  rfl

theorem answers_draw (d : Draw A) : Answers (draw d) d := fun _ => rfl

theorem Answers.bind {P : A → Prop} {a? : Attempt A} {d : Draw A} {f? : A → Attempt B}
    {f : A → Draw B} (h : Answers a? d) (hP : Draw.Always P d)
    (hf : ∀ a, P a → Answers (f? a) (f a)) : Answers (a? >>= f?) (d >>= f) := by
  intro g
  have hrest := hf _ (hP g) (d.run g).2
  rw [StateT.run_bind, h g]
  exact hrest

theorem answers_access {x : Option A} {a : A} (hx : x = some a) {f? : A → Attempt B} {d : Draw B}
    (h : Answers (f? a) d) : Answers (access x >>= f?) d := by
  intro g
  rw [hx]
  exact h g

theorem below64?_answers {bound : Nat} (hpos : 0 < bound) :
    Answers (below64? bound) (Draw.below64 bound) := by
  rw [below64?]
  exact answers_access (need_eq hpos) (answers_draw _)

theorem sample?_answers {length amount : Nat} (h : amount ≤ length) :
    Answers (sample? length amount) (Draw.sample length amount) := by
  rw [sample?]
  exact answers_access (need_eq h) (answers_draw _)

end Attempt

namespace Clustering

open Attempt

variable [Space S E]

/-! ## Seeding answers -/

section Seeding

variable {space : S} {unitLength count : Nat} {points : List (Array E)}

omit [Space S E] in
private theorem getElem?_eq_some_getD {i : Nat} (hi : i < points.length) :
    points[i]? = some (points[i]?.getD #[]) := by
  rw [List.getElem?_eq_getElem hi, Option.getD_some]

private theorem drawWeighted?_answers {weights : List Single} (hpos : 0 < weights.length) :
    Answers (drawWeighted? weights) (drawWeighted weights) := by
  rw [drawWeighted?, drawWeighted]
  dsimp only
  split
  · exact (answers_draw Draw.unit).bind (Draw.always_true _) fun _ _ => answers_pure _
  · exact below64?_answers hpos

private theorem moreSeeds?_answers (space : S) (count : Nat) {weights : List Single}
    (hpos : 0 < points.length) (hweights : weights.length = points.length) :
    Answers (moreSeeds? space points count weights) (moreSeeds space points count weights) := by
  induction count generalizing weights with
  | zero => exact answers_pure []
  | succ count ih =>
      have hnonempty : 0 < weights.length := hweights ▸ hpos
      rw [moreSeeds?, moreSeeds]
      refine (drawWeighted?_answers hnonempty).bind (drawWeighted_lt hnonempty) fun i hi => ?_
      refine answers_access (getElem?_eq_some_getD (hweights ▸ hi)) ?_
      have hlower : (lower weights (excess space points (points[i]?.getD #[]))).length =
          points.length := by
        rw [lower, List.length_zipWith, length_excess, hweights, Nat.min_self]
      exact (ih hlower).bind (Draw.always_true _) fun _ _ => answers_pure _

/-- Seeds can be drawn from one point or more. -/
theorem seeds?_answers (hpos : 0 < points.length) :
    Answers (seeds? space points count) (seeds space points count) := by
  rw [seeds?, seeds]
  refine (below64?_answers hpos).bind (Draw.below64_lt hpos) fun i hi => ?_
  refine answers_access (getElem?_eq_some_getD hi) ?_
  have hmore := moreSeeds?_answers space (count - 1) hpos
    (length_excess space points (points[i]?.getD #[]))
  exact hmore.bind (Draw.always_true _) fun _ _ => answers_pure _

end Seeding

/-! ## Iterations answer -/

section Iteration

variable [Space.GuardsCentroid S] [Space.KeepsWidth S] {space : S} {unitLength count : Nat}
  {points : List (Array E)}

omit [Space S E] [Space.GuardsCentroid S] [Space.KeepsWidth S] in
private theorem size_of_mem_members (h : SameSize unitLength points) {assignment : List Nat}
    {cluster : Nat} {m : Array E} (hm : m ∈ members points assignment cluster) :
    m.size = unitLength := by
  obtain ⟨p, hp, rfl⟩ := List.mem_map.1 hm
  exact h _ (List.of_mem_zip (List.mem_filter.1 hp).1).1

omit [Space.KeepsWidth S] in
private theorem recentre?_answers (hpos : 0 < points.length) {cluster : List (Array E)}
    (hcluster : SameSize unitLength cluster) :
    Answers (recentre? space points unitLength cluster)
      (recentre space points unitLength cluster) := by
  rw [recentre?, recentre]
  split
  · refine (below64?_answers hpos).bind (Draw.below64_lt hpos) fun i hi => ?_
    exact answers_of_some (getElem?_eq_some_getD hi)
  · refine answers_of_some (Space.GuardsCentroid.centroid?_eq space _ unitLength fun m hm => ?_)
    exact hcluster m (List.mem_toArray.1 hm)

private theorem recentreAll?_answers (h : SameSize unitLength points) (hpos : 0 < points.length)
    {clusters : List (List (Array E))} (hclusters : ∀ c ∈ clusters, SameSize unitLength c)
    {size i : Nat} (hsize : (i + clusters.length) * unitLength ≤ size) :
    Answers (recentreAll? space points unitLength size i clusters)
      (recentreAll space points unitLength clusters) := by
  induction clusters generalizing i with
  | nil => exact answers_pure []
  | cons cluster clusters ih =>
      rw [List.length_cons] at hsize
      have hslot : (i + 1) * unitLength ≤ size :=
        Nat.le_trans (Nat.mul_le_mul_right unitLength (by omega)) hsize
      have hrest : (i + 1 + clusters.length) * unitLength ≤ size := by
        rw [Nat.add_assoc, Nat.add_comm 1]
        exact hsize
      rw [recentreAll?, recentreAll]
      refine answers_access (need_eq hslot) ?_
      refine (recentre?_answers hpos (hclusters cluster List.mem_cons_self)).bind
        (recentre_size h hpos cluster) fun c hc => ?_
      refine answers_access (need_eq hc) ?_
      exact (ih (fun d hd => hclusters d (List.mem_cons_of_mem cluster hd)) hrest).bind
        (Draw.always_true _) fun _ _ => answers_pure _

/-- An iteration answers if there is one centroid to a cluster. -/
theorem pass?_answers (h : SameSize unitLength points) (hpos : 0 < points.length)
    (hunit : 0 < unitLength) (hcount : 0 < count) {state : State E}
    (hstate : Centroids unitLength count state.centroids) :
    Answers (pass? space points unitLength count state) (pass space points unitLength state) := by
  have hassign : points.mapM (nearest? space unitLength state.centroids) =
      some (points.map (nearest space state.centroids)) := by
    apply mapM_eq_some
    intro p _
    rw [nearest?, need_eq hunit]
    rfl
  have hassigned : (points.map (nearest space state.centroids)).forM
      (fun cluster => need (cluster < count)) = some () := by
    refine forM_eq_some fun cluster hcluster => need_eq ?_
    obtain ⟨p, -, rfl⟩ := List.mem_map.1 hcluster
    have hlt := nearest_lt space (hstate.length.symm ▸ hcount) p
    rwa [hstate.length] at hlt
  have hclusters : clusters? points (points.map (nearest space state.centroids)) count =
      some ((List.range state.centroids.length).map
        (members points (points.map (nearest space state.centroids)))) := by
    rw [clusters?, hassigned, hstate.length]
    rfl
  rw [pass?, pass]
  refine answers_access hassign (answers_access hclusters ?_)
  refine (recentreAll?_answers h hpos ?_ ?_).bind (Draw.always_true _) fun _ _ => answers_pure _
  · intro cluster hcluster m hm
    obtain ⟨i, -, rfl⟩ := List.mem_map.1 hcluster
    exact size_of_mem_members h hm
  · rw [size_foldl_append #[] hstate, List.length_map, List.length_range, hstate.length]
    simp

theorem settle?_answers (h : SameSize unitLength points) (hpos : 0 < points.length)
    (hunit : 0 < unitLength) (hcount : 0 < count) {n : Nat} {state : State E}
    (hstate : Centroids unitLength count state.centroids) :
    Answers (settle? space points unitLength count n state)
      (settle space points unitLength n state) := by
  induction n generalizing state with
  | zero => exact answers_pure state
  | succ n ih =>
      rw [settle?, settle]
      refine (pass?_answers h hpos hunit hcount hstate).bind (pass_centroids h hpos state)
        fun next hnext => ?_
      rw [hstate.length] at hnext
      split
      · exact answers_pure next
      · exact ih hnext

/-! ## Trainings answer -/

omit [Space S E] [Space.GuardsCentroid S] [Space.KeepsWidth S] in
private theorem choosePoints?_answers (hunit : 0 < unitLength) (sample : Array E) (most : Nat) :
    Answers (choosePoints? unitLength sample most)
      (choosePoints (vectorsOf unitLength sample) most) := by
  rw [choosePoints?, choosePoints, length_vectorsOf]
  refine answers_access (quotient?_eq hunit _) ?_
  split
  · rename_i hmost
    have hle := Nat.le_of_lt hmost
    refine (sample?_answers hle).bind (Draw.sample_positions hle) fun chosen hchosen => ?_
    refine answers_of_some (mapM_eq_some fun i hi => ?_)
    have hlt := hchosen.lt i (Array.mem_toList_iff.1 hi)
    have hend := mul_add_le_of_lt_div hlt
    rw [List.getElem?_toArray, getElem?_vectorsOf hlt, Option.getD_some, Nat.succ_mul]
    exact slice?_eq (Nat.le_add_right _ _) hend
  · have hle : sample.size / unitLength * unitLength ≤ sample.size := Nat.div_mul_le_self _ _
    refine answers_access (slice?_eq (Nat.zero_le _) hle) (answers_of_some ?_)
    rw [chunks?_eq hunit, vectorsOf_extract]

/-- A training to one centroid or more of a positive width answers. -/
theorem train?_eq (space : S) (settings : ClusteringSettings) (hunit : 0 < unitLength)
    (hcount : 0 < count) (sample : Array E) :
    train? space settings unitLength count sample =
      some (train space settings unitLength count sample) := by
  rw [train?, quotient?_eq hunit, Option.bind_eq_bind, Option.bind_some, train]
  dsimp only
  rw [length_vectorsOf]
  split
  · rfl
  · rename_i hpoints
    have hall := sameSize_vectorsOf unitLength sample
    have hmost : 0 < max (count * settings.maxPoints) count := by omega
    have hsome : 0 < (vectorsOf unitLength sample).length := by
      rw [length_vectorsOf]
      omega
    have hanswers : Answers (centroids? space settings unitLength count sample)
        (centroids space settings unitLength count (vectorsOf unitLength sample)) := by
      rw [centroids?, centroids]
      refine (choosePoints?_answers hunit sample _).bind (choosePoints_sameSize hall hmost hsome) ?_
      rintro points ⟨hpos, hpoints⟩
      refine (seeds?_answers hpos).bind (seeds_centroids hpoints hpos hcount) fun start hstart => ?_
      exact settle?_answers hpoints hpos hunit hcount hstart
    rw [hanswers]
    rfl

end Iteration

end Clustering

end Proximity

import Proximity.Index.Clustering
import Proximity.Proofs.Draws
import Proximity.Proofs.Vectors

/-!
# What clustering returns

A training returns as many centroids as were asked for, all of the width of
the points.  Every stage of the clustering keeps this: seeds are points, and a
centroid is replaced by a point or by the representative of its members.

The space has to give representatives of the right width, which both spaces
do; how good the centroids are is another matter.

## Main results

* `Space.KeepsWidth` — representatives have the width they are asked for.
* `Clustering.nearest_isNearest` — which centroid a point is assigned to.
* `Clustering.Cluster`, `Clustering.settle_centroids` — centroids of a width, and
  that iterations keep them.
* `Clustering.size_of_train` — the elements that a training returns.
-/

namespace Proximity

/-- Representatives have the width they are asked for. -/
class Space.KeepsWidth (S : Type) {E : outParam Type} [Space S E] : Prop where
  size_centroid : ∀ (space : S) (members : Array (Array E)) (width : Nat),
    (Space.centroid space members width).size = width

namespace FloatSpace

private theorem size_foldl_accumulate (members : List (Array Single)) (total : Array Single) :
    (members.foldl accumulate total).size = total.size := by
  induction members generalizing total with
  | nil => rfl
  | cons m members ih => rw [List.foldl_cons, ih, accumulate, Array.size_mapIdx]

instance : Space.KeepsWidth FloatSpace where
  size_centroid _ members width := by
    have hsum := size_foldl_accumulate members.toList (Array.replicate width .zero)
    rw [Array.size_replicate, Array.foldl_toList] at hsum
    show (mean members width).size = width
    rw [mean, Array.size_map, hsum]

end FloatSpace

namespace BinarySpace

instance : Space.KeepsWidth BinarySpace where
  size_centroid _ members width := by
    show (median members width).size = width
    rw [median, Array.size_map, Array.size_range]

end BinarySpace

namespace Clustering

open Draw

variable {S E : Type} {unitLength : Nat} {points : List (Array E)}

/-- All points have one width. -/
def SameSize (unitLength : Nat) (points : List (Array E)) : Prop :=
  ∀ p ∈ points, p.size = unitLength

/-- Some centroids, as many as were asked for, of one width. -/
structure Centroids (unitLength count : Nat) (cs : List (Array E)) : Prop where
  length : cs.length = count
  sameSize : SameSize unitLength cs

theorem Centroids.nil : Centroids unitLength 0 ([] : List (Array E)) :=
  ⟨rfl, fun _ hp => absurd hp List.not_mem_nil⟩

theorem Centroids.cons {count : Nat} {c : Array E} {cs : List (Array E)}
    (h : Centroids unitLength count cs) (hc : c.size = unitLength) :
    Centroids unitLength (count + 1) (c :: cs) where
  length := by rw [List.length_cons, h.length]
  sameSize p hp := by
    rcases List.mem_cons.1 hp with rfl | hp
    · exact hc
    · exact h.sameSize p hp

/-- A point that is taken by its position has the width of all points. -/
theorem SameSize.getD (h : SameSize unitLength points) {i : Nat} (hi : i < points.length) :
    (points[i]?.getD #[]).size = unitLength := by
  rw [List.getElem?_eq_getElem hi, Option.getD_some]
  exact h _ (List.getElem_mem hi)

theorem sameSize_vectorsOf (unitLength : Nat) (sample : Array E) :
    SameSize unitLength (vectorsOf unitLength sample) :=
  fun _ hp => size_of_mem_vectorsOf hp

/-! ## Assignment -/

section Assignment

variable [Space S E] {space : S} {point : Array E}

/-- A centroid costs no more for a point than any other, and less than those before it. -/
def IsNearest (space : S) (cs : List (Array E)) (point : Array E) (i : Nat) : Prop :=
  ∃ c, cs[i]? = some c ∧ ∀ j other, cs[j]? = some other →
    (Space.cost space c point).rank ≤ (Space.cost space other point).rank ∧
      (j < i → (Space.cost space c point).rank < (Space.cost space other point).rank)

/-- The search goes on behind centroids of which it knows the nearest. -/
private theorem nearestFrom_isNearest {done rest : List (Array E)} {best : Nat} {b : Array E}
    (hbest : done[best]? = some b) (hdone : IsNearest space done point best) :
    IsNearest space (done ++ rest) point
      (nearestFrom space point done.length best (Space.cost space b point) rest) := by
  induction rest generalizing done best b with
  | nil => rwa [List.append_nil]
  | cons c rest ih =>
      obtain ⟨b', hb', hleast⟩ := hdone
      obtain rfl := Option.some.inj (hbest.symm.trans hb')
      have hlt : best < done.length := (List.getElem?_eq_some_iff.1 hbest).1
      have hlength : done.length + 1 = (done ++ [c]).length := by simp
      have hlast : (done ++ [c])[done.length]? = some c := by simp
      -- A centroid of the longer list is an earlier one or the last.
      have hcases : ∀ {j other}, (done ++ [c])[j]? = some other →
          done[j]? = some other ∨ j = done.length ∧ other = c := by
        intro j other hj
        rw [List.getElem?_append] at hj
        split at hj
        · exact .inl hj
        · obtain ⟨hzero, hother⟩ := List.getElem?_eq_some_iff.1 hj
          simp only [List.length_singleton] at hzero
          have hj0 : j - done.length = 0 := by omega
          simp only [hj0, List.getElem_cons_zero] at hother
          exact .inr ⟨by omega, hother.symm⟩
      rw [nearestFrom, List.append_cons, hlength]
      split
      · rename_i hless
        refine ih hlast ⟨c, hlast, fun j other hj => ?_⟩
        obtain hold | ⟨rfl, rfl⟩ := hcases hj
        · have hle := (hleast j other hold).1
          exact ⟨by omega, fun _ => by omega⟩
        · exact ⟨Nat.le_refl _, fun habsurd => absurd habsurd (Nat.lt_irrefl _)⟩
      · rename_i hless
        have hkept : (done ++ [c])[best]? = some b := by rwa [List.getElem?_append_left hlt]
        refine ih hkept ⟨b, hkept, fun j other hj => ?_⟩
        obtain hold | ⟨rfl, rfl⟩ := hcases hj
        · exact hleast j other hold
        · exact ⟨Nat.le_of_not_lt hless, fun habsurd => by omega⟩

/-- **A point is assigned** to its nearest centroid, the first of several. -/
theorem nearest_isNearest (space : S) {cs : List (Array E)} (hne : cs ≠ []) (point : Array E) :
    IsNearest space cs point (nearest space cs point) := by
  cases cs with
  | nil => exact absurd rfl hne
  | cons c rest =>
      have hfirst : IsNearest space [c] point 0 := by
        refine ⟨c, rfl, fun j other hj => ?_⟩
        obtain ⟨hzero, rfl⟩ := List.getElem?_eq_some_iff.1 hj
        have hj0 : j = 0 := by simpa using hzero
        subst hj0
        exact ⟨Nat.le_refl _, fun habsurd => absurd habsurd (Nat.lt_irrefl _)⟩
      exact nearestFrom_isNearest rfl hfirst

/-- The nearest centroid is one of the centroids. -/
theorem nearest_lt (space : S) {cs : List (Array E)} (hpos : 0 < cs.length) (point : Array E) :
    nearest space cs point < cs.length := by
  obtain ⟨c, hc, -⟩ := nearest_isNearest space (List.ne_nil_of_length_pos hpos) point
  exact (List.getElem?_eq_some_iff.1 hc).1

end Assignment

/-! ## Points -/

/-- The points that are looked at are some of the points. -/
theorem choosePoints_sameSize {most : Nat} (h : SameSize unitLength points)
    (hmost : 0 < most) (hpoints : 0 < points.length) :
    Always (fun ps => 0 < ps.length ∧ SameSize unitLength ps) (choosePoints points most) := by
  rw [choosePoints]
  split
  · rename_i hlt
    refine (sample_positions (Nat.le_of_lt hlt)).bind fun chosen hchosen => always_pure ⟨?_, ?_⟩
    · rw [List.length_map, Array.length_toList, hchosen.size]
      exact hmost
    · intro p hp
      obtain ⟨i, hi, rfl⟩ := List.mem_map.1 hp
      have hlt := hchosen.lt i (Array.mem_toList_iff.1 hi)
      rw [List.getElem?_toArray]
      exact h.getD hlt
  · exact always_pure ⟨hpoints, h⟩

/-! ## Seeding -/

private theorem reach_lt {target : Float} {i r : Nat} {weights : List Single}
    (h : reach target i weights = some r) : r < i + weights.length := by
  induction weights generalizing target i with
  | nil => simp [reach] at h
  | cons w weights ih =>
      rw [reach] at h
      split at h
      · obtain rfl := Option.some.inj h
        rw [List.length_cons]
        omega
      · have hrest := ih h
        rw [List.length_cons]
        omega

/-- A position that is drawn by weight exists. -/
theorem drawWeighted_lt {weights : List Single} (hpos : 0 < weights.length) :
    Always (· < weights.length) (drawWeighted weights) := by
  rw [drawWeighted]
  dsimp only
  split
  · refine (always_true unit).bind fun draw _ => always_pure ?_
    cases hreach : reach (draw * _) 0 weights with
    | none =>
        rw [Option.getD_none]
        omega
    | some r =>
        have hlt := reach_lt hreach
        rw [Option.getD_some]
        omega
  · exact below64_lt hpos

variable [Space S E] {space : S}

theorem length_excess (space : S) (points : List (Array E)) (centroid : Array E) :
    (excess space points centroid).length = points.length := List.length_map _

private theorem moreSeeds_centroids (space : S) (count : Nat) {weights : List Single}
    (h : SameSize unitLength points) (hpos : 0 < points.length)
    (hweights : weights.length = points.length) :
    Always (Centroids unitLength count) (moreSeeds space points count weights) := by
  induction count generalizing weights with
  | zero => exact always_pure .nil
  | succ count ih =>
      rw [moreSeeds]
      refine (drawWeighted_lt (hweights ▸ hpos)).bind fun i hi => ?_
      have hlower : (lower weights (excess space points (points[i]?.getD #[]))).length =
          points.length := by
        rw [lower, List.length_zipWith, length_excess, hweights, Nat.min_self]
      refine (ih hlower).bind fun cs hcs => always_pure (hcs.cons (h.getD ?_))
      rw [← hweights]
      exact hi

/-- The seeds are points, as many as were asked for. -/
theorem seeds_centroids {count : Nat} (h : SameSize unitLength points)
    (hpos : 0 < points.length) (hcount : 0 < count) :
    Always (Centroids unitLength count) (seeds space points count) := by
  rw [seeds]
  refine (below64_lt hpos).bind fun i hi => ?_
  have hmore := moreSeeds_centroids space (count - 1) h hpos
    (length_excess space points (points[i]?.getD #[]))
  refine hmore.bind fun cs hcs => always_pure ?_
  have hall := hcs.cons (h.getD hi)
  rwa [Nat.sub_add_cancel hcount] at hall

/-! ## Iteration -/

section Iteration

variable [Space.KeepsWidth S]

theorem recentre_size (h : SameSize unitLength points) (hpos : 0 < points.length)
    (cluster : List (Array E)) :
    Always (fun c => c.size = unitLength) (recentre space points unitLength cluster) := by
  rw [recentre]
  split
  · exact (below64_lt hpos).bind fun i hi => always_pure (h.getD hi)
  · exact always_pure (Space.KeepsWidth.size_centroid space _ _)

theorem recentreAll_centroids (h : SameSize unitLength points) (hpos : 0 < points.length)
    (clusters : List (List (Array E))) :
    Always (Centroids unitLength clusters.length)
      (recentreAll space points unitLength clusters) := by
  induction clusters with
  | nil => exact always_pure .nil
  | cons cluster clusters ih =>
      rw [recentreAll]
      refine (recentre_size h hpos cluster).bind fun c hc => ?_
      exact ih.bind fun cs hcs => always_pure (hcs.cons hc)

theorem pass_centroids (h : SameSize unitLength points) (hpos : 0 < points.length)
    (state : State E) :
    Always (fun s => Centroids unitLength state.centroids.length s.centroids)
      (pass space points unitLength state) := by
  rw [pass]
  refine (recentreAll_centroids h hpos _).bind fun cs hcs => always_pure ?_
  rwa [List.length_map, List.length_range] at hcs

/-- Iterations keep the number of centroids and their width. -/
theorem settle_centroids {count n : Nat} (h : SameSize unitLength points)
    (hpos : 0 < points.length) {state : State E}
    (hstate : Centroids unitLength count state.centroids) :
    Always (fun s => Centroids unitLength count s.centroids)
      (settle space points unitLength n state) := by
  induction n generalizing state with
  | zero => exact always_pure hstate
  | succ n ih =>
      rw [settle]
      refine (pass_centroids h hpos state).bind fun s hs => ?_
      rw [hstate.length] at hs
      split
      · exact always_pure hs
      · exact ih hs

/-! ## Training -/

/-- The centroids of some points, as many as were asked for. -/
theorem centroids_centroids (space : S) (settings : ClusteringSettings) {count : Nat}
    (h : SameSize unitLength points) (hcount : 0 < count) (hpoints : count ≤ points.length) :
    Always (fun s => Centroids unitLength count s.centroids)
      (centroids space settings unitLength count points) := by
  rw [centroids]
  have hmost : 0 < max (count * settings.maxPoints) count := by omega
  refine (choosePoints_sameSize h hmost (by omega)).bind ?_
  rintro chosen ⟨hpos, hchosen⟩
  refine (seeds_centroids hchosen hpos hcount).bind fun start hstart => ?_
  exact settle_centroids hchosen hpos hstart

omit [Space S E] in
theorem size_foldl_append {count : Nat} {cs : List (Array E)} (data : Array E)
    (h : Centroids unitLength count cs) :
    (cs.foldl (· ++ ·) data).size = data.size + count * unitLength := by
  rw [size_foldl_rows h.sameSize, h.length]

/-- A training returns the elements of as many vectors as were asked for. -/
theorem size_of_train {settings : ClusteringSettings} {count : Nat} {sample data : Array E}
    (hcount : 0 < count) (h : train space settings unitLength count sample = .ok data) :
    data.size = count * unitLength := by
  simp only [train] at h
  split at h
  · cases h
  · rename_i hpoints
    obtain rfl := Except.ok.inj h
    have hcentroids := centroids_centroids space settings
      (sameSize_vectorsOf unitLength sample) hcount (Nat.le_of_not_lt hpoints)
      (Generator.ofSeed settings.seed)
    rw [size_foldl_append #[] hcentroids]
    simp

end Iteration

end Clustering

end Proximity

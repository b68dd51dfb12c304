import Proximity.Proofs.Convergence
import Proximity.Proofs.Hamming
import Proximity.Proofs.Rounding

/-!
# Clusterings of bit vectors get no worse

The objective of a clustering is the sum of the distances of the points to their nearest
centroids.  No iteration of a clustering of bit vectors makes it larger, so what a training
returns is at least as good as its seeds.

The points stay where they are assigned while the centroids move.  A centroid with points
moves to a median of theirs, which makes the sum of their distances to it no larger.  A
centroid without points may move anywhere, since no distance is counted to it.  That the
points may afterwards be nearer to another centroid only helps.

The costs that decide which centroid is the nearest are rounded distances.  With at most
`2 ^ 24` dimensions no distance is rounded.

## Main definitions

* `Clustering.objective` — the sum of distances to nearest centroids.

## Main results

* `Clustering.distance_eq_nearest` — distances to the centroids that points are assigned to.
* `Clustering.objective_le` — moving centroids to medians of their clusters.
* `Clustering.pass_descends`, `Clustering.stateAfter_descends` — iterations.
* `Clustering.bit_clustering_descends` — trainings.
-/

namespace Proximity

namespace Clustering

open Draw BinarySpace

variable {unitLength count : Nat} {points centroids next : List (Array UInt8)}

/-! ## The objective -/

/-- The distance of a point to the nearest of some centroids, zero if there are none. -/
def distance (centroids : List (Array UInt8)) (point : Array UInt8) : Nat :=
  ((centroids.map fun c => hamming c point).min?).getD 0

/-- The sum of the distances of the points to their nearest centroids. -/
def objective (centroids points : List (Array UInt8)) : Nat :=
  (points.map (distance centroids)).sum

theorem distance_le {c point : Array UInt8} (hc : c ∈ centroids) :
    distance centroids point ≤ hamming c point := by
  have hmem : hamming c point ∈ centroids.map fun c => hamming c point :=
    List.mem_map_of_mem hc
  obtain ⟨least, hleast⟩ := Option.isSome_iff_exists.1 (List.isSome_min?_of_mem hmem)
  rw [distance, hleast]
  exact (List.min?_eq_some_iff.1 hleast).2 _ hmem

/-- The distance of a point is that to the centroid it is assigned to. -/
theorem distance_eq_nearest (hwidth : 8 * unitLength ≤ Single.exactLimit)
    (hcentroids : SameSize unitLength centroids) (hne : centroids ≠ []) {point : Array UInt8}
    (hpoint : point.size = unitLength) :
    ∃ c, centroids[nearest (⟨⟩ : BinarySpace) centroids point]? = some c ∧
      distance centroids point = hamming c point := by
  obtain ⟨c, hc, hleast⟩ := nearest_isNearest (⟨⟩ : BinarySpace) hne point
  have hexact : ∀ other ∈ centroids, hamming other point ≤ Single.exactLimit := fun other hother =>
    Nat.le_trans (hamming_le (hcentroids other hother) hpoint) hwidth
  have hmem := List.mem_of_getElem? hc
  have hall : ∀ d ∈ centroids.map fun c => hamming c point, hamming c point ≤ d := by
    intro d hd
    obtain ⟨other, hother, rfl⟩ := List.mem_map.1 hd
    obtain ⟨j, hj⟩ := List.mem_iff_getElem?.1 hother
    exact (Single.rank_ofNat_le_iff (hexact c hmem) (hexact other hother)).1 (hleast j other hj).1
  have hmin : (centroids.map fun c => hamming c point).min? = some (hamming c point) :=
    List.min?_eq_some_iff.2 ⟨List.mem_map_of_mem hmem, hall⟩
  exact ⟨c, hc, by rw [distance, hmin, Option.getD_some]⟩

/-! ## Sums over clusters -/

theorem sum_range_ite (k a : Nat) (x : Nat → Nat) :
    ((List.range k).map fun i => if a = i then x i else 0).sum = if a < k then x a else 0 := by
  induction k with
  | zero => rfl
  | succ k ih =>
      rw [List.range_succ, List.map_append, List.sum_append, ih]
      by_cases hlast : a = k
      · subst hlast
        simp
      · by_cases hlt : a < k
        · simp [hlt, hlast, Nat.lt_succ_of_lt hlt]
        · have hnot : ¬ a < k + 1 := by omega
          simp [hlt, hlast, hnot]

/-- A sum over points is the sum over the places they are assigned to. -/
theorem sum_by_place {A : Type} {as : List A} {place : A → Nat} {k : Nat}
    (hplace : ∀ a ∈ as, place a < k) (f : Nat → A → Nat) :
    (as.map fun a => f (place a) a).sum =
      ((List.range k).map fun i => ((as.filter fun a => place a == i).map (f i)).sum).sum := by
  induction as with
  | nil => simp
  | cons a as ih =>
      obtain ⟨ha, has⟩ := List.forall_mem_cons.1 hplace
      have hsplit : ∀ i, (((a :: as).filter fun a => place a == i).map (f i)).sum =
          (if place a = i then f i a else 0) +
            ((as.filter fun a => place a == i).map (f i)).sum := by
        intro i
        by_cases hi : place a = i <;> simp [hi]
      simp only [hsplit]
      rw [List.sum_map_add, sum_range_ite, if_pos ha, ← ih has, List.map_cons, List.sum_cons]

/-! ## Iterations -/

/-- A centroid that moves to the median of its cluster is no farther from its points; one
whose cluster is empty is far from none. -/
theorem sum_cluster_le (hpoints : SameSize unitLength points)
    (hcentroids : SameSize unitLength centroids) {i : Nat} (hi : i < centroids.length)
    (hnext : cluster (⟨⟩ : BinarySpace) points centroids i ≠ [] →
      next[i]? = some (median (cluster (⟨⟩ : BinarySpace) points centroids i).toArray unitLength)) :
    ((cluster (⟨⟩ : BinarySpace) points centroids i).map (hamming (next[i]?.getD #[]))).sum ≤
      ((cluster (⟨⟩ : BinarySpace) points centroids i).map
        (hamming (centroids[i]?.getD #[]))).sum := by
  by_cases hnone : cluster (⟨⟩ : BinarySpace) points centroids i = []
  · rw [hnone]
    exact Nat.le_refl _
  · rw [hnext hnone, Option.getD_some]
    exact median_least (fun m hm => hpoints m (List.mem_of_mem_filter hm)) (hcentroids.getD hi)

/-- **Moving centroids** to the medians of their clusters makes the objective no larger,
whatever becomes of a centroid whose cluster is empty. -/
theorem objective_le (hwidth : 8 * unitLength ≤ Single.exactLimit)
    (hpoints : SameSize unitLength points) (hcentroids : SameSize unitLength centroids)
    (hlength : next.length = centroids.length)
    (hnext : ∀ i < next.length, cluster (⟨⟩ : BinarySpace) points centroids i ≠ [] →
      next[i]? = some (median (cluster (⟨⟩ : BinarySpace) points centroids i).toArray unitLength)) :
    objective next points ≤ objective centroids points := by
  by_cases hne : centroids = []
  · rw [hne] at hlength ⊢
    rw [List.length_eq_zero_iff.1 hlength]
  · have hplace : ∀ p ∈ points, nearest (⟨⟩ : BinarySpace) centroids p < centroids.length :=
      fun p _ => nearest_lt _ (List.length_pos_of_ne_nil hne) p
    -- The sums in between are over the old assignment, of which only the two ends are free.
    calc objective next points
        ≤ (points.map fun p =>
            hamming (next[nearest (⟨⟩ : BinarySpace) centroids p]?.getD #[]) p).sum := by
          refine List.sum_le_sum fun p hp => distance_le ?_
          have hlt : nearest (⟨⟩ : BinarySpace) centroids p < next.length :=
            hlength.symm ▸ hplace p hp
          rw [List.getElem?_eq_getElem hlt, Option.getD_some]
          exact List.getElem_mem hlt
      _ = ((List.range centroids.length).map fun i =>
            ((cluster (⟨⟩ : BinarySpace) points centroids i).map
              (hamming (next[i]?.getD #[]))).sum).sum :=
          sum_by_place hplace fun i => hamming (next[i]?.getD #[])
      _ ≤ ((List.range centroids.length).map fun i =>
            ((cluster (⟨⟩ : BinarySpace) points centroids i).map
              (hamming (centroids[i]?.getD #[]))).sum).sum := by
          refine List.sum_le_sum fun i hi => ?_
          have hlt := List.mem_range.1 hi
          exact sum_cluster_le hpoints hcentroids hlt (hnext i (hlength.symm ▸ hlt))
      _ = (points.map fun p =>
            hamming (centroids[nearest (⟨⟩ : BinarySpace) centroids p]?.getD #[]) p).sum :=
          (sum_by_place hplace fun i => hamming (centroids[i]?.getD #[])).symm
      _ = objective centroids points := by
          refine congrArg List.sum (List.map_congr_left fun p hp => ?_)
          obtain ⟨c, hc, hdistance⟩ := distance_eq_nearest hwidth hcentroids hne (hpoints p hp)
          rw [hc, Option.getD_some, hdistance]

/-- **An iteration** makes the objective no larger. -/
theorem pass_descends {state : State UInt8} (hwidth : 8 * unitLength ≤ Single.exactLimit)
    (hpoints : SameSize unitLength points) (hcentroids : SameSize unitLength state.centroids) :
    Always (fun next => objective next.centroids points ≤ objective state.centroids points)
      (pass (⟨⟩ : BinarySpace) points unitLength state) := by
  intro g
  have hsteps := pass_steps (⟨⟩ : BinarySpace) points unitLength state g
  have hcentred := hsteps.centred
  rw [Centred, members_nearest] at hcentred
  exact objective_le hwidth hpoints hcentroids hsteps.length hcentred

/-! ## Trainings -/

variable {settings : ClusteringSettings} {sample : Array UInt8}

/-- Iterations of a training make the objective no larger. -/
theorem stateAfter_descends (hwidth : 8 * unitLength ≤ Single.exactLimit) (hcount : 0 < count)
    (hpoints : count ≤ sample.size / unitLength) (n : Nat) :
    objective (stateAfter (⟨⟩ : BinarySpace) settings unitLength count sample (n + 1)).centroids
        (trainingPoints settings unitLength count sample) ≤
      objective (stateAfter (⟨⟩ : BinarySpace) settings unitLength count sample n).centroids
        (trainingPoints settings unitLength count sample) := by
  have hsame := (trainingPoints_sameSize settings hcount hpoints).2
  have hcentroids := stateAfter_centroids (⟨⟩ : BinarySpace) settings hcount hpoints n
  rw [stateAfter_succ]
  split
  · exact Nat.le_refl _
  · exact pass_descends hwidth hsame hcentroids.sameSize _

/-- All iterations together make the objective no larger than it is for the seeds. -/
theorem outcome_descends (hwidth : 8 * unitLength ≤ Single.exactLimit) (hcount : 0 < count)
    (hpoints : count ≤ sample.size / unitLength) (n : Nat) :
    objective (stateAfter (⟨⟩ : BinarySpace) settings unitLength count sample n).centroids
        (trainingPoints settings unitLength count sample) ≤
      objective (seeding (⟨⟩ : BinarySpace) settings unitLength count sample).1
        (trainingPoints settings unitLength count sample) := by
  induction n with
  | zero => rw [stateAfter_zero]
  | succ n ih => exact Nat.le_trans (stateAfter_descends hwidth hcount hpoints n) ih

/-- Without centroids to find, a training looks at no points. -/
theorem trainingPoints_zero (settings : ClusteringSettings) (unitLength : Nat)
    (sample : Array UInt8) : trainingPoints settings unitLength 0 sample = [] := by
  have hnone : Always (· = []) (choosePoints (vectorsOf unitLength sample) 0) := by
    rw [choosePoints]
    split
    · refine (sample_positions (Nat.zero_le _)).bind fun chosen hchosen => always_pure ?_
      have hempty := Array.eq_empty_of_size_eq_zero hchosen.size
      rw [hempty]
      rfl
    · rename_i hzero
      exact always_pure (List.length_eq_zero_iff.1 (Nat.le_zero.1 (Nat.le_of_not_lt hzero)))
  have hmost : max (0 * settings.maxPoints) 0 = 0 := by omega
  rw [trainingPoints, choice, hmost]
  exact hnone _

/-- **Clusterings of bit vectors get no worse.**  The representative of some vectors of one
width is a median of theirs.  With at most `2 ^ 24` dimensions no iteration makes the
objective larger, from whatever centroids it starts and whatever is drawn for those without
points.  The iterations of a training are such iterations, so the centroids that it returns
are at least as good for the points that it looks at as the seeds are. -/
theorem bit_clustering_descends :
    (∀ (width : Nat) (members : List (Array UInt8)) (c : Array UInt8),
      (∀ m ∈ members, m.size = width) → c.size = width →
      (members.map (hamming (Space.centroid (⟨⟩ : BinarySpace) members.toArray width))).sum ≤
        (members.map (hamming c)).sum) ∧
    ∀ unitLength, 8 * unitLength ≤ Single.exactLimit →
      (∀ points (state : State UInt8), SameSize unitLength points →
        SameSize unitLength state.centroids →
        Always (fun next => objective next.centroids points ≤ objective state.centroids points)
          (pass (⟨⟩ : BinarySpace) points unitLength state)) ∧
      ∀ settings count sample data,
        train (⟨⟩ : BinarySpace) settings unitLength count sample = .ok data →
        let points := trainingPoints settings unitLength count sample
        let after := stateAfter (⟨⟩ : BinarySpace) settings unitLength count sample
        (∀ n, objective (after (n + 1)).centroids points ≤ objective (after n).centroids points) ∧
          objective (vectorsOf unitLength data) points ≤
            objective (seeding (⟨⟩ : BinarySpace) settings unitLength count sample).1 points := by
  refine ⟨fun width members c hmembers hc => median_least hmembers hc, fun unitLength hwidth =>
    ⟨fun points state hpoints hcentroids => pass_descends hwidth hpoints hcentroids, ?_⟩⟩
  intro settings count sample data htrain points after
  by_cases hcount : count = 0
  · subst hcount
    have hnone : points = [] := trainingPoints_zero settings unitLength sample
    rw [hnone]
    exact ⟨fun _ => Nat.le_refl 0, Nat.le_refl 0⟩
  · have hpos : 0 < count := Nat.pos_of_ne_zero hcount
    obtain ⟨hpoints, hvectors⟩ := vectorsOf_of_train hpos htrain
    rw [hvectors]
    exact ⟨stateAfter_descends hwidth hpos hpoints, outcome_descends hwidth hpos hpoints _⟩

/-- Five bytes in two clusters, and an iteration that finds a cluster empty. -/
theorem bit_clustering_descends_fiveBytes :
    8 * 1 ≤ Single.exactLimit ∧
    train (⟨⟩ : BinarySpace) ⟨3, 3, 39, 256⟩ 1 2 #[15, 240, 255, 0, 3] = .ok #[3, 240] ∧
    objective (vectorsOf 1 #[3, 240])
        (trainingPoints ⟨3, 3, 39, 256⟩ 1 2 #[15, 240, 255, 0, 3]) ≤
      objective (seeding (⟨⟩ : BinarySpace) ⟨3, 3, 39, 256⟩ 1 2 #[15, 240, 255, 0, 3]).1
        (trainingPoints ⟨3, 3, 39, 256⟩ 1 2 #[15, 240, 255, 0, 3]) ∧
    Always (fun next => objective next.centroids [#[1], #[2]] ≤ objective [#[0], #[0]] [#[1], #[2]])
      (pass (⟨⟩ : BinarySpace) [#[1], #[2]] 1 ⟨[#[0], #[0]], none, false⟩) ∧
    ([#[1], #[3], #[2]].map (hamming #[3])).sum ≤ ([#[1], #[3], #[2]].map (hamming #[1])).sum := by
  have hwidth : 8 * 1 ≤ Single.exactLimit := by decide
  obtain ⟨hmedian, hclusters⟩ := bit_clustering_descends
  obtain ⟨hpass, htrainings⟩ := hclusters 1 hwidth
  have htrain : train (⟨⟩ : BinarySpace) ⟨3, 3, 39, 256⟩ 1 2 #[15, 240, 255, 0, 3] =
      .ok #[3, 240] := by
    have houtcome : (outcome (⟨⟩ : BinarySpace) ⟨3, 3, 39, 256⟩ 1 2
        #[15, 240, 255, 0, 3]).centroids = [#[3], #[240]] := by decide +kernel
    rw [train_eq, if_neg (by decide), houtcome]
    rfl
  have hmajority : Space.centroid (⟨⟩ : BinarySpace) [#[1], #[3], #[2]].toArray 1 = #[3] := by
    decide +kernel
  have hbytes := hmedian 1 [#[1], #[3], #[2]] #[1] (by decide) rfl
  rw [hmajority] at hbytes
  have hpoints : ∀ p ∈ ([#[1], #[2]] : List (Array UInt8)), p.size = 1 := by decide
  have hcentroids : ∀ c ∈ ([#[0], #[0]] : List (Array UInt8)), c.size = 1 := by decide
  exact ⟨hwidth, htrain, (htrainings _ _ _ _ htrain).2,
    hpass _ ⟨[#[0], #[0]], none, false⟩ hpoints hcentroids, hbytes⟩

end Clustering

end Proximity

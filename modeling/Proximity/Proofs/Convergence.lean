import Proximity.Proofs.Clustering
import Proximity.Proofs.Staging

/-!
# Where iterations stop

A training that stops because an iteration was quiet stops at a fixed point: no cluster of
the returned centroids is empty, and each of these centroids is the representative of its
cluster.  More iterations would not have changed anything.

The design fact is that a centroid that was moved to a random point cannot be followed by a
quiet iteration.  A cluster that was empty is empty again when the assignment repeats, so
the iteration moves a centroid once more and does not count as quiet.  What a quiet
iteration starts from are thus representatives of the very clusters that it finds, and it
puts the same representatives in their place.

## Main definitions

* `Clustering.cluster` — the points that are nearest to a centroid.
* `Clustering.trainingPoints`, `Clustering.seeding` — what a training looks at and where it
  starts.
* `Clustering.stateAfter`, `Clustering.outcome` — where it stands after some iterations, and
  in the end.
* `Clustering.Settled` — centroids that are the representatives of their clusters.

## Main results

* `Clustering.pass_steps`, `Clustering.Steps.settled` — what an iteration does, and a quiet
  one in particular.
* `Clustering.settle_settled`, `Clustering.settle_of_quiet` — runs of iterations.
* `Clustering.train_converged` — trainings.
-/

namespace Proximity

namespace Clustering

open Draw

variable {S E : Type} [Space S E] {space : S} {points : List (Array E)} {unitLength count : Nat}

/-! ## Clusters -/

/-- The points whose nearest centroid is number `i`. -/
def cluster (space : S) (points centroids : List (Array E)) (i : Nat) : List (Array E) :=
  points.filter fun p => nearest space centroids p == i

/-- The members of the nearest assignment are the clusters. -/
theorem members_nearest (space : S) (points centroids : List (Array E)) :
    members points (points.map (nearest space centroids)) = cluster space points centroids := by
  funext i
  rw [members, cluster]
  induction points with
  | nil => rfl
  | cons p points ih =>
      rw [List.map_cons, List.zip_cons_cons, List.filter_cons, List.filter_cons]
      dsimp only
      split
      · rw [List.map_cons, ih]
      · exact ih

/-- Every cluster of an assignment that has members has their representative. -/
def Centred (space : S) (points : List (Array E)) (unitLength : Nat) (assignment : List Nat)
    (centroids : List (Array E)) : Prop :=
  ∀ i < centroids.length, members points assignment i ≠ [] →
    centroids[i]? = some (Space.centroid space (members points assignment i).toArray unitLength)

/-- Every centroid is the representative of its cluster, of which none is empty. -/
def Settled (space : S) (points : List (Array E)) (unitLength : Nat)
    (centroids : List (Array E)) : Prop :=
  ∀ i < centroids.length, cluster space points centroids i ≠ [] ∧
    centroids[i]? =
      some (Space.centroid space (cluster space points centroids i).toArray unitLength)

/-! ## One iteration -/

/-- New centroids are representatives, where there is something to represent. -/
theorem recentreAll_represents (space : S) (points : List (Array E)) (unitLength : Nat)
    (clusters : List (List (Array E))) :
    Always (fun cs => cs.length = clusters.length ∧ ∀ (i : Nat) (cluster : List (Array E)),
        clusters[i]? = some cluster → cluster ≠ [] →
        cs[i]? = some (Space.centroid space cluster.toArray unitLength))
      (recentreAll space points unitLength clusters) := by
  induction clusters with
  | nil => exact always_pure ⟨rfl, nofun⟩
  | cons first rest ih =>
      have hfirst : Always (fun c => first ≠ [] →
          c = Space.centroid space first.toArray unitLength)
          (recentre space points unitLength first) := by
        rw [recentre]
        cases first with
        | nil => exact fun _ hne => absurd rfl hne
        | cons p ps => exact always_pure fun _ => rfl
      rw [recentreAll]
      refine hfirst.bind fun c hc => ih.bind fun cs hcs => always_pure ⟨?_, ?_⟩
      · rw [List.length_cons, List.length_cons, hcs.1]
      · intro i cluster hi hne
        cases i with
        | zero =>
            obtain rfl := Option.some.inj hi
            exact congrArg some (hc hne)
        | succ i => exact hcs.2 i cluster hi hne

/-- One iteration leads from a state to the next one. -/
structure Steps (space : S) (points : List (Array E)) (unitLength : Nat)
    (state next : State E) : Prop where
  length : next.centroids.length = state.centroids.length
  assignment : next.assignment = some (points.map (nearest space state.centroids))
  centred : Centred space points unitLength (points.map (nearest space state.centroids))
    next.centroids
  quiet : next.quiet = true → next.assignment = state.assignment ∧
    ∀ i < state.centroids.length, cluster space points state.centroids i ≠ []

/-- **What an iteration does**: it assigns the points to their nearest centroids, and moves
each centroid that got points to their representative. -/
theorem pass_steps (space : S) (points : List (Array E)) (unitLength : Nat) (state : State E) :
    Always (Steps space points unitLength state) (pass space points unitLength state) := by
  rw [pass]
  refine (recentreAll_represents space points unitLength _).bind fun cs hcs => always_pure ?_
  obtain ⟨hlength, hcentred⟩ := hcs
  rw [List.length_map, List.length_range] at hlength
  refine ⟨hlength, rfl, fun i hi hne => ?_, fun hquiet => ?_⟩
  · refine hcentred i _ ?_ hne
    rw [List.getElem?_map, List.getElem?_range (hlength ▸ hi)]
    rfl
  · obtain ⟨hrepeats, hfull⟩ := Bool.and_eq_true_iff.1 hquiet
    refine ⟨(eq_of_beq hrepeats).symm, fun i hi hnone => ?_⟩
    rw [← members_nearest] at hnone
    have hsome := List.all_eq_true.1 hfull _ (List.mem_map_of_mem (List.mem_range.2 hi))
    rw [hnone] at hsome
    cases hsome

/-- The centroids of a state are those of its last assignment. -/
def Follows (space : S) (points : List (Array E)) (unitLength : Nat) (state : State E) : Prop :=
  ∀ assignment, state.assignment = some assignment →
    Centred space points unitLength assignment state.centroids

variable {state next : State E}

theorem Steps.follows (h : Steps space points unitLength state next) :
    Follows space points unitLength next := by
  intro assignment hassignment
  obtain rfl := Option.some.inj (h.assignment.symm.trans hassignment)
  exact h.centred

/-- **A quiet iteration** moves no centroid, since the clusters are those of the iteration
before it and none of them is empty. -/
theorem Steps.centroids_eq (h : Steps space points unitLength state next)
    (hstate : Follows space points unitLength state) (hquiet : next.quiet = true) :
    next.centroids = state.centroids := by
  obtain ⟨hsame, hfull⟩ := h.quiet hquiet
  have hbefore := hstate _ (hsame.symm.trans h.assignment)
  refine List.ext_getElem? fun i => ?_
  -- Before and after, centroid `i` is the representative of the same members.
  by_cases hi : i < state.centroids.length
  · have hmembers : members points (points.map (nearest space state.centroids)) i ≠ [] := by
      rw [members_nearest]
      exact hfull i hi
    rw [h.centred i (h.length ▸ hi) hmembers, hbefore i hi hmembers]
  · have hle := Nat.le_of_not_lt hi
    rw [List.getElem?_eq_none hle, List.getElem?_eq_none (h.length ▸ hle)]

/-- A quiet iteration ends at a fixed point. -/
theorem Steps.settled (h : Steps space points unitLength state next)
    (hstate : Follows space points unitLength state) (hquiet : next.quiet = true) :
    Settled space points unitLength next.centroids := by
  have hsame := h.centroids_eq hstate hquiet
  intro i hi
  have hne : cluster space points next.centroids i ≠ [] := by
    rw [hsame]
    exact (h.quiet hquiet).2 i (hsame ▸ hi)
  have hcentred := h.centred i hi
  rw [members_nearest, ← hsame] at hcentred
  exact ⟨hne, hcentred hne⟩

/-! ## All iterations -/

/-- **Iterations** that stopped because one was quiet stopped at a fixed point. -/
theorem settle_settled {n : Nat} (hstate : Follows space points unitLength state)
    (hstart : state.quiet = false) :
    Always (fun final => final.quiet = true → Settled space points unitLength final.centroids)
      (settle space points unitLength n state) := by
  induction n generalizing state with
  | zero =>
      refine always_pure fun hquiet => ?_
      rw [hstart] at hquiet
      cases hquiet
  | succ n ih =>
      rw [settle]
      refine (pass_steps space points unitLength state).bind fun next hnext => ?_
      cases hquiet : next.quiet with
      | true => exact always_pure fun _ => hnext.settled hstate hquiet
      | false => exact ih hnext.follows hquiet

/-- Iterations go on after an iteration unless it was quiet. -/
theorem settle_succ_run (space : S) (points : List (Array E)) (unitLength n : Nat)
    (state : State E) (g : Generator) :
    (settle space points unitLength (n + 1) state).run g =
      let first := (pass space points unitLength state).run g
      if first.1.quiet then first
      else (settle space points unitLength n first.1).run first.2 :=
  run_bind_unless _ State.quiet _ g

/-- After a quiet iteration it makes no difference how many more were allowed. -/
theorem settle_of_quiet {n m : Nat} (hle : n ≤ m) (hstart : state.quiet = false)
    {g : Generator} (hquiet : ((settle space points unitLength n state).run g).1.quiet = true) :
    (settle space points unitLength m state).run g =
      (settle space points unitLength n state).run g := by
  induction n generalizing m state g with
  | zero =>
      have hquiet : state.quiet = true := hquiet
      rw [hstart] at hquiet
      cases hquiet
  | succ n ih =>
      obtain ⟨m, rfl⟩ : ∃ k, m = k + 1 := ⟨m - 1, by omega⟩
      -- Both runs make the same first iteration, and stop there if it is quiet.
      rw [settle_succ_run] at hquiet ⊢
      rw [settle_succ_run]
      dsimp only at hquiet ⊢
      cases hfirst : ((pass space points unitLength state).run g).1.quiet with
      | true => rfl
      | false =>
          rw [hfirst] at hquiet
          exact ih (Nat.le_of_succ_le_succ hle) hfirst hquiet

/-- One more iteration is made unless the last one was quiet. -/
theorem settle_concat_run (n : Nat) (hstart : state.quiet = false) (g : Generator) :
    (settle space points unitLength (n + 1) state).run g =
      let last := (settle space points unitLength n state).run g
      if last.1.quiet then last else (pass space points unitLength last.1).run last.2 := by
  induction n generalizing state g with
  | zero =>
      rw [settle_succ_run]
      show (if _ then (pass space points unitLength state).run g
        else (pass space points unitLength state).run g) = if state.quiet then _ else _
      rw [hstart, ite_self]
      rfl
  | succ n ih =>
      rw [settle_succ_run space points unitLength (n + 1),
        settle_succ_run space points unitLength n]
      dsimp only
      cases hfirst : ((pass space points unitLength state).run g).1.quiet with
      | true => simp [hfirst]
      | false => exact ih hfirst _

/-! ## Trainings -/

/-- The points that a training looks at, and the generator after they were chosen. -/
def choice (settings : ClusteringSettings) (unitLength count : Nat) (sample : Array E) :
    List (Array E) × Generator :=
  (choosePoints (vectorsOf unitLength sample) (max (count * settings.maxPoints) count)).run
    (.ofSeed settings.seed)

/-- The points that a training looks at. -/
def trainingPoints (settings : ClusteringSettings) (unitLength count : Nat)
    (sample : Array E) : List (Array E) := (choice settings unitLength count sample).1

/-- The seeds of a training, and the generator after they were drawn. -/
def seeding (space : S) (settings : ClusteringSettings) (unitLength count : Nat)
    (sample : Array E) : List (Array E) × Generator :=
  let chosen := choice settings unitLength count sample
  (seeds space chosen.1 count).run chosen.2

/-- A training after at most `n` iterations, which are fewer if one of them was quiet, and
the generator then. -/
def settling (space : S) (settings : ClusteringSettings) (unitLength count : Nat)
    (sample : Array E) (n : Nat) : State E × Generator :=
  let start := seeding space settings unitLength count sample
  (settle space (trainingPoints settings unitLength count sample) unitLength n
    ⟨start.1, none, false⟩).run start.2

/-- Where a training stands after at most `n` iterations. -/
def stateAfter (space : S) (settings : ClusteringSettings) (unitLength count : Nat)
    (sample : Array E) (n : Nat) : State E :=
  (settling space settings unitLength count sample n).1

theorem stateAfter_zero (space : S) (settings : ClusteringSettings) (unitLength count : Nat)
    (sample : Array E) : (stateAfter space settings unitLength count sample 0).centroids =
      (seeding space settings unitLength count sample).1 := rfl

/-- An iteration is made or not. -/
theorem stateAfter_succ (space : S) (settings : ClusteringSettings) (unitLength count : Nat)
    (sample : Array E) (n : Nat) :
    let last := settling space settings unitLength count sample n
    stateAfter space settings unitLength count sample (n + 1) =
      if last.1.quiet then last.1
      else ((pass space (trainingPoints settings unitLength count sample) unitLength last.1).run
        last.2).1 := by
  intro last
  rw [stateAfter, settling, settle_concat_run n rfl]
  exact apply_ite Prod.fst _ _ _

/-- Where a training stands in the end. -/
def outcome (space : S) (settings : ClusteringSettings) (unitLength count : Nat)
    (sample : Array E) : State E :=
  stateAfter space settings unitLength count sample (max settings.iterations 1)

/-- A training returns the centroids that it stands at in the end. -/
theorem train_eq (space : S) (settings : ClusteringSettings) (unitLength count : Nat)
    (sample : Array E) :
    train space settings unitLength count sample =
      if sample.size / unitLength < count then
        .error (.insufficientSample count (sample.size / unitLength))
      else .ok (backToBack (outcome space settings unitLength count sample).centroids) := by
  rw [← length_vectorsOf]
  rfl

variable {settings : ClusteringSettings} {sample data : Array E}

/-- A training that stopped early stopped at a fixed point. -/
theorem outcome_settled
    (hquiet : (outcome space settings unitLength count sample).quiet = true) :
    Settled space (trainingPoints settings unitLength count sample) unitLength
      (outcome space settings unitLength count sample).centroids := by
  have hnone : ∀ start, Follows space (trainingPoints settings unitLength count sample)
      unitLength (⟨start, none, false⟩ : State E) := fun _ _ h => nomatch h
  exact settle_settled (hnone _) rfl _ hquiet

/-- A training that stopped early would have stopped there with more iterations. -/
theorem outcome_iterations
    (hquiet : (outcome space settings unitLength count sample).quiet = true) {n : Nat}
    (hle : settings.iterations ≤ n) :
    outcome space { settings with iterations := n } unitLength count sample =
      outcome space settings unitLength count sample := by
  have hmost : max settings.iterations 1 ≤ max n 1 := by omega
  exact congrArg Prod.fst (settle_of_quiet hmost rfl hquiet)

/-- The points of a training have the width asked for, and there are some. -/
theorem trainingPoints_sameSize (settings : ClusteringSettings) (hcount : 0 < count)
    (hpoints : count ≤ sample.size / unitLength) :
    0 < (trainingPoints settings unitLength count sample).length ∧
      SameSize unitLength (trainingPoints settings unitLength count sample) := by
  rw [← length_vectorsOf] at hpoints
  exact choosePoints_sameSize (sameSize_vectorsOf unitLength sample) (by omega) (by omega) _

/-- The centroids of a training, before and after any iteration. -/
theorem stateAfter_centroids [Space.KeepsWidth S] (space : S) (settings : ClusteringSettings)
    (hcount : 0 < count) (hpoints : count ≤ sample.size / unitLength) (n : Nat) :
    Centroids unitLength count (stateAfter space settings unitLength count sample n).centroids := by
  obtain ⟨hpos, hsame⟩ := trainingPoints_sameSize settings hcount hpoints
  exact settle_centroids hsame hpos (seeds_centroids hsame hpos hcount _) _

/-- What a training returns, cut into vectors, are its centroids. -/
theorem vectorsOf_of_train [Space.KeepsWidth S] (hcount : 0 < count)
    (h : train space settings unitLength count sample = .ok data) :
    count ≤ sample.size / unitLength ∧
      vectorsOf unitLength data = (outcome space settings unitLength count sample).centroids := by
  rw [train_eq] at h
  split at h
  · cases h
  · rename_i hfew
    have hpoints := Nat.le_of_not_lt hfew
    obtain rfl := Except.ok.inj h
    have hpos : 0 < unitLength := by
      refine Nat.pos_of_ne_zero fun hzero => ?_
      rw [hzero, Nat.div_zero] at hpoints
      omega
    have hcentroids := stateAfter_centroids space settings hcount hpoints
      (max settings.iterations 1)
    exact ⟨hpoints, vectorsOf_backToBack hpos hcentroids.sameSize⟩

/-- **Trainings stop early at fixed points only.**  A training fails if and only if the
sample has fewer vectors than centroids are asked for, and it says so; else it returns the
elements of that many vectors.

If its last iteration was quiet, each returned vector is the representative of the training
points that are nearest to it, of which there are some, and a training with more iterations
returns the same. -/
theorem train_converged [Space.KeepsWidth S] (space : S) (settings : ClusteringSettings)
    (unitLength count : Nat) (sample : Array E) (hcount : 0 < count) :
    (train space settings unitLength count sample =
        .error (.insufficientSample count (sample.size / unitLength)) ↔
      sample.size / unitLength < count) ∧
    ((∃ data, train space settings unitLength count sample = .ok data) ↔
      count ≤ sample.size / unitLength) ∧
    ∀ data, train space settings unitLength count sample = .ok data →
      data.size = count * unitLength ∧
      ((outcome space settings unitLength count sample).quiet = true →
        (∀ i < count,
          let members := cluster space (trainingPoints settings unitLength count sample)
            (vectorsOf unitLength data) i
          members ≠ [] ∧ (vectorsOf unitLength data)[i]? =
            some (Space.centroid space members.toArray unitLength)) ∧
        ∀ n, settings.iterations ≤ n →
          train space { settings with iterations := n } unitLength count sample = .ok data) := by
  refine ⟨?_, ?_, fun data h => ⟨size_of_train hcount h, fun hquiet => ⟨?_, fun n hle => ?_⟩⟩⟩
  · rw [train_eq]
    split <;> simp_all
  · rw [train_eq]
    split <;> simp_all
  · obtain ⟨hpoints, hvectors⟩ := vectorsOf_of_train hcount h
    have hlength := (stateAfter_centroids space settings hcount hpoints
      (max settings.iterations 1)).length
    intro i hi
    rw [hvectors]
    exact outcome_settled hquiet i (hlength.symm ▸ hi)
  · rw [train_eq] at h ⊢
    rw [outcome_iterations hquiet hle]
    exact h

/-- Five vectors of eight bits in two clusters. -/
theorem train_converged_twoClusters :
    0 < 2 ∧
    train (⟨⟩ : BinarySpace) .standard 1 2 #[0, 1, 3, 255, 254] = .ok #[1, 254] ∧
    (outcome (⟨⟩ : BinarySpace) .standard 1 2 #[0, 1, 3, 255, 254]).quiet = true ∧
    (∀ i < 2,
      let members := cluster (⟨⟩ : BinarySpace)
        (trainingPoints .standard 1 2 #[0, 1, 3, 255, 254]) (vectorsOf 1 #[1, 254]) i
      members ≠ [] ∧ (vectorsOf 1 #[1, 254])[i]? =
        some (Space.centroid (⟨⟩ : BinarySpace) members.toArray 1)) ∧
    ∀ n, 25 ≤ n →
      train (⟨⟩ : BinarySpace) { ClusteringSettings.standard with iterations := n } 1 2
        #[0, 1, 3, 255, 254] = .ok #[1, 254] := by
  have hstops : (outcome (⟨⟩ : BinarySpace) .standard 1 2 #[0, 1, 3, 255, 254]).centroids =
      [#[1], #[254]] ∧
      (outcome (⟨⟩ : BinarySpace) .standard 1 2 #[0, 1, 3, 255, 254]).quiet = true := by
    decide +kernel
  have htrain : train (⟨⟩ : BinarySpace) .standard 1 2 #[0, 1, 3, 255, 254] = .ok #[1, 254] := by
    rw [train_eq, if_neg (by decide), hstops.1]
    rfl
  obtain ⟨-, -, hdata⟩ :=
    train_converged (⟨⟩ : BinarySpace) .standard 1 2 #[0, 1, 3, 255, 254] (by decide)
  obtain ⟨-, hquiet⟩ := hdata _ htrain
  exact ⟨by decide, htrain, hstops.2, hquiet hstops.2⟩

end Clustering

end Proximity

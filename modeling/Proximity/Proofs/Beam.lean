import Proximity.Proofs.Ranking
import Proximity.Search.Beam

/-!
# What a beam search returns

One invariant carries the whole search: the frontier and the results hold met
nodes only, at their distance from the target, the results besides are
acceptable, different from each other and ranked worst first.  A node is met
when it is put into one of the lists, so nothing is ever put in twice.

Nothing is asked of the terrain.  A neighbour that does not exist is never
fresh, so the results are nodes of the terrain whatever its links say.

## Main results

* `Beam.Sound` — the invariant.
* `Beam.start_sound`, `Beam.meet_sound`, `Beam.run_sound` — what each stage of
  a search keeps.
* `Beam.search_finds` — what a search returns.
-/

namespace Proximity

open Candidate

namespace Beam

/-- A node was met. -/
def Met (b : Beam) (node : Nat) : Prop := b.visited[node]? = some true

/-- The lists of a beam hold met nodes at their distance, and its results are
acceptable, different and ranked. -/
structure Sound (t : Terrain) (b : Beam) : Prop where
  size : b.visited.size = t.size
  frontier : ∀ c ∈ b.frontier, b.Met c.label ∧ c.cost = t.distance c.label
  results : ∀ c ∈ b.results, b.Met c.label ∧ c.cost = t.distance c.label
  accept : ∀ c ∈ b.results, t.accept c.label = true
  sorted : BestFirst b.results.reverse
  nodup : (b.results.map (·.label)).Nodup

variable {t : Terrain} {b : Beam} {node : Nat}

/-! ## Meeting a node -/

theorem Met.lt (h : b.Met node) : node < b.visited.size :=
  (Array.getElem?_eq_some_iff.1 h).1

theorem fresh_lt (h : b.fresh node = true) : node < b.visited.size := by
  simp only [fresh, beq_iff_eq] at h
  exact (Array.getElem?_eq_some_iff.1 h).1

theorem not_met_of_fresh (h : b.fresh node = true) : ¬ b.Met node := by
  simp only [fresh, beq_iff_eq] at h
  rw [Met, h]
  decide

theorem met_mark_self (h : b.fresh node = true) : (b.mark node).Met node := by
  rw [Met, mark, Array.getElem?_setIfInBounds_self, if_pos (fresh_lt h)]

theorem Met.mark {other : Nat} (h : b.Met other) : (b.mark node).Met other := by
  by_cases hnode : node = other
  · rw [Met, Beam.mark, hnode, Array.getElem?_setIfInBounds_self, if_pos h.lt]
  · rw [Met, Beam.mark, Array.getElem?_setIfInBounds_ne hnode]
    exact h

/-- Meeting a fresh node keeps what was known of the others. -/
theorem Sound.mark (h : Sound t b) (node : Nat) : Sound t (b.mark node) where
  size := by rw [Beam.mark, Array.size_setIfInBounds]; exact h.size
  frontier c hc := ⟨(h.frontier c hc).1.mark, (h.frontier c hc).2⟩
  results c hc := ⟨(h.results c hc).1.mark, (h.results c hc).2⟩
  accept := h.accept
  sorted := h.sorted
  nodup := h.nodup

/-- A met node may be walked from. -/
theorem Sound.insertFrontier (h : Sound t b) (hmet : b.Met node) :
    Sound t { b with frontier := insertBest ⟨t.distance node, node⟩ b.frontier } where
  size := h.size
  frontier c hc := by
    rcases mem_insertBest.1 hc with rfl | hc
    · exact ⟨hmet, rfl⟩
    · exact h.frontier c hc
  results := h.results
  accept := h.accept
  sorted := h.sorted
  nodup := h.nodup

/-- An acceptable node that was not among the results may become one. -/
theorem Sound.insertResults (h : Sound t b) (hmet : b.Met node)
    (haccept : t.accept node = true) (hnew : node ∉ b.results.map (·.label)) :
    Sound t { b with results := insertWorst ⟨t.distance node, node⟩ b.results } where
  size := h.size
  frontier := h.frontier
  results c hc := by
    rcases mem_insertWorst.1 hc with rfl | hc
    · exact ⟨hmet, rfl⟩
    · exact h.results c hc
  accept c hc := by
    rcases mem_insertWorst.1 hc with rfl | hc
    · exact haccept
    · exact h.accept c hc
  sorted := bestFirst_reverse_insertWorst h.sorted _
  nodup := by
    have hperm := (insertWorst_perm ⟨t.distance node, node⟩ b.results).map (·.label)
    exact hperm.nodup_iff.2 (List.nodup_cons.2 ⟨hnew, h.nodup⟩)

/-- The worst result may make room. -/
theorem Sound.tailResults (h : Sound t b) :
    Sound t { b with results := b.results.tail } where
  size := h.size
  frontier := h.frontier
  results c hc := h.results c (List.mem_of_mem_tail hc)
  accept c hc := h.accept c (List.mem_of_mem_tail hc)
  sorted := by
    refine h.sorted.sublist ?_
    exact (List.tail_sublist b.results).reverse
  nodup := h.nodup.sublist ((List.tail_sublist b.results).map _)

/-- A fresh node is not among the results. -/
theorem Sound.not_mem_results (h : Sound t b) (hfresh : b.fresh node = true) :
    node ∉ b.results.map (·.label) := by
  intro hmem
  obtain ⟨c, hc, rfl⟩ := List.mem_map.1 hmem
  exact not_met_of_fresh hfresh (h.results c hc).1

/-! ## The stages of a search -/

theorem start_sound (h : Sound t b) (node : Nat) : Sound t (start t b node) := by
  rw [start]
  split
  · rename_i hfresh
    have hmet := met_mark_self hfresh
    have hnew := h.not_mem_results hfresh
    have hmarked := (h.mark node).insertFrontier hmet
    by_cases haccept : t.accept node = true
    · simp only [haccept, if_true]
      exact hmarked.insertResults hmet haccept hnew
    · simp only [haccept]
      exact hmarked
  · exact h

theorem meet_sound (h : Sound t b) (node : Nat) : Sound t (meet t b node) := by
  rw [meet]
  split
  · rename_i hfresh
    have hmet := met_mark_self hfresh
    have hnew := h.not_mem_results hfresh
    have hmarked := h.mark node
    dsimp only
    split
    · have hfrontier := hmarked.insertFrontier hmet
      by_cases haccept : t.accept node = true
      · have hkept := hfrontier.insertResults hmet haccept hnew
        simp only [haccept, if_true, keep]
        split
        · exact hkept.tailResults
        · exact hkept
      · simp only [haccept]
        exact hfrontier
    · exact hmarked
  · exact h

theorem step_sound (h : Sound t b) (c : Candidate) : Sound t (step t b c) := by
  rw [step]
  generalize t.neighbours c.label = nodes
  induction nodes generalizing b with
  | nil => exact h
  | cons node nodes ih => exact ih (meet_sound h node)

theorem run_sound (h : Sound t b) (fuel : Nat) : Sound t (run t fuel b) := by
  induction fuel generalizing b with
  | zero => exact h
  | succ fuel ih =>
      rw [run]
      split
      · exact h
      · rename_i c rest hfrontier
        split
        · exact h
        · apply ih
          apply step_sound
          refine { h with frontier := fun d hd => ?_ }
          exact h.frontier d (by rw [hfrontier]; exact List.mem_cons_of_mem c hd)

/-- The state in which no node was met. -/
theorem unmet_sound : Sound t ⟨Array.replicate t.size false, [], []⟩ where
  size := Array.size_replicate
  frontier _ hc := absurd hc List.not_mem_nil
  results _ hc := absurd hc List.not_mem_nil
  accept _ hc := absurd hc List.not_mem_nil
  sorted := List.Pairwise.nil
  nodup := List.nodup_nil

/-- A search returns different acceptable nodes of the terrain at their
distance from the target, best first. -/
theorem search_finds (t : Terrain) (starts : List Nat) :
    Finds t.size t.distance t.accept (search t starts) := by
  have hstarts : ∀ b, Sound t b → Sound t (starts.foldl (start t) b) := by
    induction starts with
    | nil => exact fun b h => h
    | cons node starts ih => exact fun b h => ih _ (start_sound h node)
  have hrun := run_sound (hstarts _ unmet_sound) t.size
  exact
    { sorted := hrun.sorted
      nodup := by
        rw [search, List.map_reverse]
        exact (List.reverse_perm _).nodup_iff.2 hrun.nodup
      size := fun c hc => by
        have hmet := (hrun.results c (List.mem_reverse.1 hc)).1.lt
        rwa [hrun.size] at hmet
      cost := fun c hc => (hrun.results c (List.mem_reverse.1 hc)).2
      accept := fun c hc => hrun.accept c (List.mem_reverse.1 hc) }

end Beam

end Proximity

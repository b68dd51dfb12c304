import Proximity.Proofs.HitCounts

/-!
# A beam search ends in a local optimum

A beam search stops when the best node on its frontier is further from the target than
the worst of its results, or when there is no node on the frontier.  Every result was put
on the frontier when it was put among the results.  So when the search stops, all results
have been taken off the frontier and walked from, and all their neighbours have been met.

A node that was met is not forgotten for no reason.  It was not gained because a full beam
already held only nodes that are no further away, or it had to make room for such nodes.  A
full beam stays full and its results only get closer, so what was once outdone stays
outdone.  Both together say that no neighbour of a result would improve the results.

Candidates are ranked by the total order of numbers, which tells the zeros apart, and the
comparisons of a search are numeric.  The total order refines the numeric one, so the
argument goes by signed magnitudes; it asks that no distance is a NaN, which would not be
gained and outdone by nothing.

## Main definitions

* `Beam.Outdone` — all results are at least as close as a node.
* `Beam.Climbing` — the invariant of a search.

## Main results

* `Beam.meet_climbing`, `Beam.step_climbing` — the steps: what meeting a node and walking from
  one keep.
* `Beam.run_climbing` — the run: what a whole walk keeps, and where it stops.
* `Beam.search_outdoes` — neighbours of the results of a search.
* `Graph.layer_optimal` — searches of a level of a graph.
-/

namespace Proximity

open Candidate

/-- No node is at a distance that is a NaN. -/
def Terrain.Measured (t : Terrain) : Prop := ∀ n < t.size, (t.distance n).isNaN = false

namespace Beam

variable {t : Terrain} {b : Beam} {node n : Nat} {starts : List Nat}

/-- All results are at least as close to the target as a node. -/
def Outdone (t : Terrain) (results : List Candidate) (node : Nat) : Prop :=
  ∀ c ∈ results, c.cost.signed ≤ (t.distance node).signed

/-- The frontier is ranked.  Every result is on the frontier, or is one of those that are
being walked from, or all its neighbours were met.  Every acceptable node that was met is a
result, or outdone by a full beam. -/
structure Climbing (t : Terrain) (busy : Nat → Prop) (b : Beam) : Prop where
  frontier : BestFirst b.frontier
  walked : ∀ c ∈ b.results, c.label ∈ b.frontier.map (·.label) ∨ busy c.label ∨
    ∀ m ∈ t.neighbours c.label, m < b.visited.size → b.Met m
  kept : ∀ n, b.Met n → t.accept n = true →
    n ∈ b.results.map (·.label) ∨ b.full t = true ∧ Outdone t b.results n

variable {busy : Nat → Prop}

/-! ## Results -/

/-- The worst result stands first. -/
theorem Sound.le_worst (h : Sound t b) {worst : Candidate} {rest : List Candidate}
    (hresults : b.results = worst :: rest) :
    ∀ c ∈ b.results, c.cost.signed ≤ worst.cost.signed := by
  have hsorted := h.sorted
  rw [hresults, BestFirst, List.pairwise_reverse] at hsorted
  intro c hc
  rw [hresults] at hc
  rcases List.mem_cons.1 hc with rfl | hc
  · exact Int.le_refl _
  · exact signed_le_of_le ((List.pairwise_cons.1 hsorted).1 c hc)

/-- What is kept is what there was, and the newcomer. -/
theorem mem_of_mem_keep {results : List Candidate} {c d : Candidate}
    (h : d ∈ keep t results c) : d = c ∨ d ∈ results := by
  rw [keep] at h
  split at h
  · exact mem_insertWorst.1 (List.mem_of_mem_tail h)
  · exact mem_insertWorst.1 h

/-- What has to make room is outdone by what is kept, and leaves a full beam. -/
private theorem Sound.mem_keep_or (h : Sound t b) {d : Candidate}
    (hd : d = ⟨t.distance node, node⟩ ∨ d ∈ b.results) :
    d.label ∈ (keep t b.results ⟨t.distance node, node⟩).map (·.label) ∨
      t.width ≤ (keep t b.results ⟨t.distance node, node⟩).length ∧
        Outdone t (keep t b.results ⟨t.distance node, node⟩) d.label := by
  have hmem := mem_insertWorst.2 hd
  have hsorted := bestFirst_reverse_insertWorst h.sorted ⟨t.distance node, node⟩
  have hcost : d.cost = t.distance d.label := by
    rcases hd with rfl | hd
    · rfl
    · exact (h.results d hd).2
  rw [keep]
  split
  · rename_i hmany
    cases hlist : insertWorst ⟨t.distance node, node⟩ b.results with
    | nil =>
        rw [hlist] at hmem
        exact absurd hmem List.not_mem_nil
    | cons worst rest =>
        rw [hlist] at hmem hsorted hmany
        rw [BestFirst, List.pairwise_reverse] at hsorted
        rcases List.mem_cons.1 hmem with rfl | hmem
        · refine .inr ⟨Nat.le_of_lt_succ hmany, fun e he => ?_⟩
          exact hcost ▸ signed_le_of_le ((List.pairwise_cons.1 hsorted).1 e he)
        · exact .inl (List.mem_map_of_mem hmem)
  · exact .inl (List.mem_map_of_mem hmem)

/-! ## Meeting a node -/

/-- A node that is not gained is outdone by a full beam. -/
private theorem Sound.outdone_of_not_improves (h : Sound t b) (hnumbers : t.Measured)
    (hnode : node < t.size) (hgain : b.improves t ⟨t.distance node, node⟩ = false) :
    b.full t = true ∧ Outdone t b.results node := by
  rw [improves, Bool.or_eq_false_iff, Bool.not_eq_false'] at hgain
  refine ⟨hgain.1, fun c hc => ?_⟩
  cases hresults : b.results with
  | nil =>
      rw [hresults] at hc
      exact absurd hc List.not_mem_nil
  | cons worst rest =>
      have hmem : worst ∈ b.results := hresults ▸ List.mem_cons_self
      have hnumber : worst.cost.isNaN = false := by
        rw [(h.results worst hmem).2]
        exact hnumbers worst.label (h.size ▸ (h.results worst hmem).1.lt)
      have hlt := hgain.2
      rw [hresults] at hlt
      exact Int.le_trans (h.le_worst hresults c hc)
        ((Single.lt_eq_false_iff (hnumbers node hnode) hnumber).1 hlt)

/-- A node that is gained by a full beam is closer than what the beam outdoes. -/
private theorem le_of_improves (hwidth : 0 < t.width) (hfull : b.full t = true)
    (hgain : b.improves t ⟨t.distance node, node⟩ = true) (hn : Outdone t b.results n) :
    (t.distance node).signed ≤ (t.distance n).signed := by
  rw [improves, hfull, Bool.not_true, Bool.false_or] at hgain
  cases hresults : b.results with
  | nil =>
      rw [full_iff, hresults, List.length_nil] at hfull
      omega
  | cons worst rest =>
      rw [hresults] at hgain
      have hcloser : (t.distance node).signed < worst.cost.signed := Single.signed_lt_of_lt hgain
      have hworst := hn worst (hresults ▸ List.mem_cons_self)
      omega

/-- A full beam that gains a node still outdoes what it did. -/
private theorem Outdone.keep (h : Outdone t b.results n) (hwidth : 0 < t.width)
    (hfull : b.full t = true) (hgain : b.improves t ⟨t.distance node, node⟩ = true) :
    Outdone t (keep t b.results ⟨t.distance node, node⟩) n := by
  intro c hc
  rcases mem_of_mem_keep hc with rfl | hc
  · exact le_of_improves hwidth hfull hgain h
  · exact h c hc

/-- A node that is gained goes on the frontier and, if it is acceptable, among the results. -/
private theorem Climbing.gain (h : Climbing t busy b) (hsound : Sound t b) (hwidth : 0 < t.width)
    (hgain : b.improves t ⟨t.distance node, node⟩ = true) :
    Climbing t busy
      { b.mark node with
        frontier := insertBest ⟨t.distance node, node⟩ b.frontier
        results :=
          if t.accept node then Beam.keep t b.results ⟨t.distance node, node⟩ else b.results } where
  frontier := h.frontier.insertBest _
  walked c hc := by
    have hcases : c = ⟨t.distance node, node⟩ ∨ c ∈ b.results := by
      dsimp only at hc
      split at hc
      · exact mem_of_mem_keep hc
      · exact .inr hc
    rcases hcases with rfl | hc
    · exact .inl (List.mem_map_of_mem (mem_insertBest.2 (.inl rfl)))
    · rcases h.walked c hc with hmem | hbusy | hall
      · obtain ⟨d, hd, hlabel⟩ := List.mem_map.1 hmem
        exact .inl (List.mem_map.2 ⟨d, mem_insertBest.2 (.inr hd), hlabel⟩)
      · exact .inr (.inl hbusy)
      · refine .inr (.inr fun m hm hlt => (met_mark_iff b node m).2 (.inl (hall m hm ?_)))
        rwa [← size_visited_mark b node]
  kept m hm haccept := by
    have hcases := (met_mark_iff b node m).1 hm
    rw [full_iff]
    dsimp only
    split
    · rcases hcases with hmet | ⟨rfl, -⟩
      · rcases h.kept m hmet haccept with hmem | ⟨hfull, hout⟩
        · obtain ⟨d, hd, rfl⟩ := List.mem_map.1 hmem
          exact hsound.mem_keep_or (.inr hd)
        · exact .inr ⟨le_length_keep (full_iff.1 hfull) _, hout.keep hwidth hfull hgain⟩
      · exact hsound.mem_keep_or (.inl rfl)
    · rename_i hrefused
      rcases hcases with hmet | ⟨rfl, -⟩
      · exact (h.kept m hmet haccept).imp id fun hout => ⟨full_iff.1 hout.1, hout.2⟩
      · exact absurd haccept hrefused

/-- Meeting a node loses nothing that would improve the results. -/
theorem meet_climbing (hsound : Sound t b) (hwidth : 0 < t.width) (hnumbers : t.Measured)
    (h : Climbing t busy b) (node : Nat) : Climbing t busy (meet t b node) := by
  rw [meet]
  split
  · rename_i hfresh
    dsimp only
    split
    · rename_i hgain
      exact h.gain hsound hwidth hgain
    · rename_i hgain
      have hnode : node < t.size := hsound.size ▸ fresh_lt hfresh
      have hout := hsound.outdone_of_not_improves hnumbers hnode (Bool.eq_false_iff.2 hgain)
      exact
        { frontier := h.frontier
          walked := fun c hc => (h.walked c hc).imp id fun hc => hc.imp id fun hall m hm hlt =>
            (met_mark_iff b node m).2 (.inl (hall m hm (size_visited_mark b node ▸ hlt)))
          kept := fun m hm haccept => by
            rcases (met_mark_iff b node m).1 hm with hmet | ⟨rfl, -⟩
            · exact h.kept m hmet haccept
            · exact .inr hout }
  · exact h

/-! ## Walking -/

/-- Walking from the best node of the frontier finishes with it. -/
theorem step_climbing (hsound : Sound t b) (hwidth : 0 < t.width) (hnumbers : t.Measured)
    {c : Candidate} {rest : List Candidate} (hfrontier : b.frontier = c :: rest)
    (h : Climbing t (fun _ => False) b) :
    Climbing t (fun _ => False) (step t { b with frontier := rest } c) := by
  have hrest := hsound.rest hfrontier
  have htaken : Climbing t (· = c.label) { b with frontier := rest } :=
    { frontier := (List.pairwise_cons.1 (hfrontier ▸ h.frontier)).2
      walked := fun d hd => by
        rcases h.walked d hd with hmem | hbusy | hall
        · rw [hfrontier, List.map_cons, List.mem_cons] at hmem
          exact hmem.elim (fun heq => .inr (.inl heq)) .inl
        · exact hbusy.elim
        · exact .inr (.inr hall)
      kept := h.kept }
  have hfold : ∀ (nodes : List Nat) (b' : Beam), Sound t b' → Climbing t (· = c.label) b' →
      Climbing t (· = c.label) (nodes.foldl (meet t) b') := by
    intro nodes
    induction nodes with
    | nil => exact fun _ _ h => h
    | cons node nodes ih =>
        exact fun b' hs hb => ih _ (meet_sound hs node) (meet_climbing hs hwidth hnumbers hb node)
  have hwalked := hfold (t.neighbours c.label) _ hrest htaken
  refine ⟨hwalked.frontier, fun d hd => ?_, hwalked.kept⟩
  rcases hwalked.walked d hd with hmem | hbusy | hall
  · exact .inl hmem
  · refine .inr (.inr fun m hm hlt => (met_step_iff hrest c m).2 (.inr ⟨hbusy ▸ hm, ?_⟩))
    rwa [← (step_sound hrest c).size]
  · exact .inr (.inr hall)

/-- A walk that is not cut short stops with nothing on the frontier that could improve the
results. -/
theorem run_climbing (hsound : Sound t b) (hwidth : 0 < t.width) (hnumbers : t.Measured)
    {fuel : Nat} (hfuel : b.pending ≤ fuel) (h : Climbing t (fun _ => False) b) :
    Climbing t (fun _ => False) (run t fuel b) ∧
      ∀ c rest, (run t fuel b).frontier = c :: rest → (run t fuel b).hopeless t c = true := by
  induction fuel generalizing b with
  | zero =>
      have hlength : b.frontier.length ≤ b.pending := Nat.le_add_right _ _
      have hnone : b.frontier = [] := List.length_eq_zero_iff.1 (by omega)
      refine ⟨h, fun c rest hfrontier => ?_⟩
      rw [run, hnone] at hfrontier
      cases hfrontier
  | succ fuel ih =>
      rw [run]
      split
      · rename_i hnone
        exact ⟨h, fun c rest hfrontier => by rw [hnone] at hfrontier; cases hfrontier⟩
      · rename_i c rest hfrontier
        split
        · rename_i hhopeless
          refine ⟨h, fun d others hd => ?_⟩
          rw [hfrontier] at hd
          exact (List.cons.inj hd).1 ▸ hhopeless
        · have hfewer : ({ b with frontier := rest } : Beam).pending + 1 = b.pending := by
            simp only [pending, hfrontier, List.length_cons]
            omega
          have hstep := step_pending t { b with frontier := rest } c
          exact ih (step_sound (hsound.rest hfrontier) c) (by omega)
            (step_climbing hsound hwidth hnumbers hfrontier h)

/-! ## Whole searches -/

/-- Before its first step a search has its starts on a ranked frontier. -/
private theorem begun_climbing (t : Terrain) (starts : List Nat) :
    Climbing t (fun _ => False) (begun t starts) := by
  obtain ⟨hsound, -, hthorough, -⟩ := begun_invariant t starts
  have hfold : ∀ (more : List Nat) (b : Beam), BestFirst b.frontier →
      BestFirst (more.foldl (start t) b).frontier := by
    intro more
    induction more with
    | nil => exact fun _ h => h
    | cons node more ih =>
        intro b h
        refine ih _ ?_
        rw [start]
        split
        · exact h.insertBest _
        · exact h
  exact
    { frontier := hfold starts _ List.Pairwise.nil
      walked := fun c hc => hthorough.walked c.label (hsound.results c hc).1
      kept := fun n hn haccept => .inl (hthorough.kept n hn haccept) }

/-- A result is no longer on the frontier when a search stops. -/
private theorem not_mem_frontier (hsound : Sound t b) (h : Climbing t busy b)
    (hstop : ∀ c rest, b.frontier = c :: rest → b.hopeless t c = true) {r : Candidate}
    (hr : r ∈ b.results) : r.label ∉ b.frontier.map (·.label) := by
  intro hmem
  obtain ⟨d, hd, hlabel⟩ := List.mem_map.1 hmem
  -- the best of the frontier is further than the worst result, and they are no exceptions
  have hsame : d.cost.signed = r.cost.signed := by
    rw [(hsound.frontier d hd).2, (hsound.results r hr).2, hlabel]
  cases hfrontier : b.frontier with
  | nil =>
      rw [hfrontier] at hd
      exact List.not_mem_nil hd
  | cons c rest =>
      have hbest : c.cost.signed ≤ d.cost.signed := by
        have hranked := h.frontier
        rw [hfrontier] at hd hranked
        rcases List.mem_cons.1 hd with rfl | hd
        · exact Int.le_refl _
        · exact signed_le_of_le ((List.pairwise_cons.1 hranked).1 d hd)
      have hhopeless := hstop c rest hfrontier
      rw [hopeless, Bool.and_eq_true] at hhopeless
      cases hresults : b.results with
      | nil =>
          rw [hresults] at hr
          exact List.not_mem_nil hr
      | cons worst others =>
          rw [hresults] at hhopeless
          have hfurther := Single.signed_lt_of_lt hhopeless.2
          have hworst := hsound.le_worst hresults r hr
          omega

/-- An acceptable neighbour of a result is a result, or the beam is full and all results are
at least as close to the target. -/
theorem search_outdoes (hnumbers : t.Measured)
    (hclosed : ∀ n < t.size, ∀ m ∈ t.neighbours n, m < t.size) (hwidth : 0 < t.width)
    {r : Candidate} (hr : r ∈ search t starts) (hn : n ∈ t.neighbours r.label)
    (haccept : t.accept n = true) :
    n ∈ (search t starts).map (·.label) ∨
      t.width ≤ (search t starts).length ∧
        ∀ c ∈ search t starts, c.cost.le (t.distance n) = true := by
  obtain ⟨hsound, hpending, -, -⟩ := begun_invariant t starts
  obtain ⟨hend, hstop⟩ := run_climbing hsound hwidth hnumbers (Nat.le_of_eq hpending)
    (begun_climbing t starts)
  have hdone := run_sound hsound t.size
  have hsearch : search t starts = (run t t.size (begun t starts)).results.reverse := rfl
  have hlt := hclosed r.label ((search_finds t starts).size r hr) n hn
  rw [hsearch] at hr ⊢
  have hwalked := (hend.walked r (List.mem_reverse.1 hr)).resolve_left
    (not_mem_frontier hdone hend hstop (List.mem_reverse.1 hr))
  have hmet := hwalked.resolve_left id n hn (hdone.size.symm ▸ hlt)
  refine (hend.kept n hmet haccept).imp (fun hmem => ?_) fun hout => ⟨?_, fun c hc => ?_⟩
  · rw [List.map_reverse]
    exact List.mem_reverse.2 hmem
  · rw [List.length_reverse]
    exact full_iff.1 hout.1
  · have hc := List.mem_reverse.1 hc
    have hnumber : c.cost.isNaN = false := by
      rw [(hdone.results c hc).2]
      exact hnumbers c.label (hdone.size ▸ (hdone.results c hc).1.lt)
    exact (Single.le_iff hnumber (hnumbers n hlt)).2 (hout.2 c hc)

end Beam

/-! ## Graphs -/

namespace Graph

variable {S E : Type} [Space S E] {g : Graph S E} {query : Array E}

private theorem Consistent.layer_outdoes (h : g.Consistent)
    (hnumbers : ∀ i < g.storage.total, (g.storage.costTo query i).isNaN = false) (level : Nat)
    {width : Nat} (hwidth : 0 < width) {starts : List Nat} {accept : Nat → Bool} {r : Candidate}
    (hr : r ∈ g.links.layer (g.storage.costTo query) level width accept starts) {n : Nat}
    (hn : n ∈ g.links.neighbours level r.label) (haccept : accept n = true) :
    n ∈ (g.links.layer (g.storage.costTo query) level width accept starts).map (·.label) ∨
      width ≤ (g.links.layer (g.storage.costTo query) level width accept starts).length ∧
        ∀ c ∈ g.links.layer (g.storage.costTo query) level width accept starts,
          c.cost.le (g.storage.costTo query n) = true := by
  refine Beam.search_outdoes (fun i hi => hnumbers i (h.links.size ▸ hi)) ?_ hwidth hr hn haccept
  exact fun i _ m hm => h.links.size.symm ▸ h.links.within.neighbours_lt level i m hm

/-- The best result of a search of width one is at least as close as its neighbours. -/
private theorem Consistent.head_outdoes (h : g.Consistent)
    (hnumbers : ∀ i < g.storage.total, (g.storage.costTo query i).isNaN = false) (level : Nat)
    {start : Nat} {c : Candidate} {rest : List Candidate}
    (hlayer : g.links.layer (g.storage.costTo query) level 1 (fun _ => true) [start] = c :: rest)
    {n : Nat} (hn : n ∈ g.links.neighbours level c.label) :
    c.cost.signed ≤ (g.storage.costTo query n).signed := by
  have hfinds := g.links.layer_finds (g.storage.costTo query) level 1 (fun _ => true) [start]
  have hout := h.layer_outdoes hnumbers level Nat.one_pos
    (hlayer ▸ List.mem_cons_self) hn rfl
  rw [hlayer] at hfinds hout
  have hn' : n < g.storage.total := h.links.within.neighbours_lt level _ n hn
  have hc := hfinds.size c List.mem_cons_self
  rw [h.links.size] at hc
  rcases hout with hmem | ⟨-, hall⟩
  · obtain ⟨d, hd, rfl⟩ := List.mem_map.1 hmem
    rw [← hfinds.cost d hd]
    rcases List.mem_cons.1 hd with rfl | hd
    · exact Int.le_refl _
    · exact signed_le_of_le ((List.pairwise_cons.1 hfinds.sorted).1 d hd)
  · have hnumber : c.cost.isNaN = false := by
      rw [hfinds.cost c List.mem_cons_self]
      exact hnumbers _ hc
    exact (Single.le_iff hnumber (hnumbers n hn')).1 (hall c List.mem_cons_self)

/-- **A beam search ends in a local optimum.**  In a graph that passes its check, built or
decoded, let a level be searched with a beam of any width from any starts, by costs that are
not NaN.  Then every acceptable neighbour of a result is a result itself, unless the beam is
full, and then it costs at least as much as every result.  In particular the node in which a
walk of width one ends has no neighbour on its level that costs less. -/
theorem layer_optimal (hcheck : g.check = .ok ())
    (hnumbers : ∀ i < g.storage.total, (g.storage.costTo query i).isNaN = false) (level : Nat) :
    (∀ width, 0 < width → ∀ (starts : List Nat) (accept : Nat → Bool),
      ∀ r ∈ g.links.layer (g.storage.costTo query) level width accept starts,
        ∀ n ∈ g.links.neighbours level r.label, accept n = true →
          n ∈ (g.links.layer (g.storage.costTo query) level width accept starts).map (·.label) ∨
            width ≤ (g.links.layer (g.storage.costTo query) level width accept starts).length ∧
              ∀ c ∈ g.links.layer (g.storage.costTo query) level width accept starts,
                c.cost.le (g.storage.costTo query n) = true) ∧
    ∀ start, ∀ n ∈ g.links.neighbours level
        (g.links.closest (g.storage.costTo query) level start),
      (g.storage.costTo query n).lt
        (g.storage.costTo query (g.links.closest (g.storage.costTo query) level start)) =
          false := by
  have h := check_eq_ok_iff.1 hcheck
  refine ⟨fun width hwidth starts accept r hr n hn haccept =>
    h.layer_outdoes hnumbers level hwidth hr hn haccept, fun start n hn => ?_⟩
  have hn' : n < g.storage.total := h.links.within.neighbours_lt level _ n hn
  rw [Links.closest] at hn ⊢
  cases hlayer : g.links.layer (g.storage.costTo query) level 1 (fun _ => true) [start] with
  | nil =>
      -- a start that exists is found, and one that does not has no neighbours
      rw [hlayer] at hn
      have hmissing : ¬ start < g.links.nodes.size := fun hlt =>
        Beam.search_ne_nil (fun i _ m hm => h.links.size.symm ▸
          h.links.within.neighbours_lt level i m hm) Nat.one_ne_zero (List.mem_singleton_self start)
          hlt rfl hlayer
      rw [h.links.neighbours_eq_nil (h.links.size ▸ Nat.le_of_not_lt hmissing)] at hn
      exact absurd hn List.not_mem_nil
  | cons c rest =>
      rw [hlayer] at hn
      have hfinds := g.links.layer_finds (g.storage.costTo query) level 1 (fun _ => true) [start]
      rw [hlayer] at hfinds
      have hc := hfinds.size c List.mem_cons_self
      rw [h.links.size] at hc
      have hle := h.head_outdoes hnumbers level hlayer hn
      rw [hfinds.cost c List.mem_cons_self] at hle
      exact (Single.lt_eq_false_iff (hnumbers n hn') (hnumbers c.label hc)).2 hle

/-- From the third vector a beam of two finds the second and the first.  The third one, which
the second links to, is not closer than they are; the last one is, but nothing links to it. -/
theorem layer_optimal_unlinkedLast :
    unlinkedLast.check = .ok () ∧
      (∀ i < unlinkedLast.storage.total, (unlinkedLast.storage.costTo #[0] i).isNaN = false) ∧
      unlinkedLast.links.layer (unlinkedLast.storage.costTo #[0]) 0 2 (fun _ => true) [2] =
        [⟨Single.ofNat 1, 1⟩, ⟨Single.ofNat 2, 0⟩] ∧
      (∀ c ∈ unlinkedLast.links.layer (unlinkedLast.storage.costTo #[0]) 0 2 (fun _ => true) [2],
        c.cost.le (unlinkedLast.storage.costTo #[0] 2) = true) ∧
      (unlinkedLast.storage.costTo #[0] 3).lt (Single.ofNat 1) = true := by
  have hcheck : unlinkedLast.check = .ok () := rfl
  have hnumbers : ∀ i < unlinkedLast.storage.total,
      (unlinkedLast.storage.costTo #[0] i).isNaN = false := by decide +kernel
  have hlayer : unlinkedLast.links.layer (unlinkedLast.storage.costTo #[0]) 0 2
      (fun _ => true) [2] = [⟨Single.ofNat 1, 1⟩, ⟨Single.ofNat 2, 0⟩] := by decide +kernel
  refine ⟨hcheck, hnumbers, hlayer, ?_, by decide +kernel⟩
  have hsecond : (⟨Single.ofNat 1, 1⟩ : Candidate) ∈ unlinkedLast.links.layer
      (unlinkedLast.storage.costTo #[0]) 0 2 (fun _ => true) [2] := by
    rw [hlayer]
    exact List.mem_cons_self
  have hout := (layer_optimal hcheck hnumbers 0).1 2 (by decide) [2] (fun _ => true) _ hsecond 2
    (by decide) rfl
  refine (hout.resolve_left fun hmem => ?_).2
  rw [hlayer] at hmem
  revert hmem
  decide

end Graph

end Proximity

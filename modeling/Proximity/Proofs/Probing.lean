import Mathlib.Data.List.NodupEquivFin
import Mathlib.Order.WellFounded
import Proximity.Proofs.Exhaustive
import Proximity.Proofs.Labels

/-!
# What is in the lists that are probed

An inverted file offers the vectors of the lists that its quantizer names and no
others.  Each vector is in one list, so what the probed lists offer is the ranking of
all vectors with everything taken out that stands in another list, whatever the
quantizer is and however it came by its answer.  A search cuts this off, a search
within a distance keeps what is below a cost.

Looking at more lists puts candidates between those that were there, so at every place
stands what ranks no later than what stood there before.

## Main definitions

* `Candidate.NoWorse` — as many candidates, and none that ranks later at its place.

## Main results

* `mem_ranking_iff`, `ranking_and`, `ranking_congr` — what a ranking holds.
* `Candidate.BestFirst.noWorse` — a ranking is no worse than a part of it.
* `Index.Holds.within_eq_ranking` — searches below a cost that look at all vectors.
* `Index.Holds.nearest_eq_visited`, `Index.Holds.within_eq_visited` — searches of an
  inverted file.
-/

namespace Proximity

/-! ## Parts of rankings -/

namespace Candidate

/-- There are at least as many candidates in the first list, and at every place of the
second one the first has a candidate that ranks no later. -/
structure NoWorse (cs ds : List Candidate) : Prop where
  length : ds.length ≤ cs.length
  le : ∀ (i : Nat) (c d : Candidate), cs[i]? = some c → ds[i]? = some d → c.le d = true

/-- What is left of a best-first list moves forward. -/
theorem BestFirst.noWorse {cs ds : List Candidate} (h : BestFirst cs) (hsub : ds.Sublist cs) :
    NoWorse cs ds where
  length := hsub.length_le
  le i c d hc hd := by
    obtain ⟨place, hplace⟩ := List.sublist_iff_exists_orderEmbedding_getElem?_eq.1 hsub
    have hlater : i ≤ place i := StrictMono.le_apply place.strictMono
    rw [hplace i] at hd
    rcases Nat.eq_or_lt_of_le hlater with heq | hlt
    · rw [← heq, hc] at hd
      obtain rfl := Option.some.inj hd
      have htotal := le_total c c
      rwa [Bool.or_self] at htotal
    · obtain ⟨hi, rfl⟩ := List.getElem?_eq_some_iff.1 hc
      obtain ⟨hj, rfl⟩ := List.getElem?_eq_some_iff.1 hd
      exact List.pairwise_iff_getElem.1 h i (place i) hi hj hlt

/-- Cutting both lists off leaves the first no worse. -/
theorem NoWorse.take {cs ds : List Candidate} (h : NoWorse cs ds) (k : Nat) :
    NoWorse (cs.take k) (ds.take k) where
  length := by
    rw [List.length_take, List.length_take]
    have hlength := h.length
    omega
  le i c d hc hd := by
    have hi : i < k := by
      have hlt := (List.getElem?_eq_some_iff.1 hc).1
      rw [List.length_take] at hlt
      omega
    rw [List.getElem?_take_of_lt hi] at hc hd
    exact h.le i c d hc hd

end Candidate

variable {S E : Type} [Space S E]

section Ranking

variable {space : S} {vs : List (Array E)} {query : Array E} {accept : Nat → Bool}

theorem bestFirst_ranking (space : S) (vs : List (Array E)) (query : Array E)
    (accept : Nat → Bool) : Candidate.BestFirst (ranking space vs query accept) :=
  Candidate.bestFirst_ranked _

/-- The ranking holds the acceptable positions with what the vectors there cost. -/
theorem mem_ranking_iff {c : Candidate} :
    c ∈ ranking space vs query accept ↔
      c.label < vs.length ∧ accept c.label = true ∧ c.cost = costAt space vs query c.label := by
  rw [ranking, (Candidate.ranked_perm _).mem_iff, candidatesAt, List.mem_map]
  constructor
  · rintro ⟨i, hi, rfl⟩
    obtain ⟨hrange, haccept⟩ := List.mem_filter.1 hi
    exact ⟨List.mem_range.1 hrange, haccept, rfl⟩
  · rintro ⟨hlt, haccept, hcost⟩
    refine ⟨c.label, List.mem_filter.2 ⟨List.mem_range.2 hlt, haccept⟩, ?_⟩
    rw [← hcost]

/-- Accepting less leaves the rest of the ranking as it is. -/
theorem ranking_and (space : S) (vs : List (Array E)) (query : Array E)
    (accept p : Nat → Bool) :
    ranking space vs query (fun i => accept i && p i) =
      (ranking space vs query accept).filter fun c => p c.label := by
  have hcandidates : candidatesAt space vs query (fun i => accept i && p i) =
      (candidatesAt space vs query accept).filter fun c => p c.label := by
    rw [candidatesAt, candidatesAt, List.filter_map, List.filter_filter]
    congr 2
    funext i
    exact Bool.and_comm _ _
  rw [ranking, hcandidates, Candidate.ranked_filter, ranking]

/-- Nothing but the positions of the list is asked about. -/
theorem ranking_congr {accept' : Nat → Bool}
    (h : ∀ i < vs.length, accept i = accept' i) :
    ranking space vs query accept = ranking space vs query accept' := by
  rw [ranking, ranking, candidatesAt, candidatesAt,
    List.filter_congr fun i hi => h i (List.mem_range.1 hi)]

end Ranking

/-! ## Probed lists -/

/-- What some different lists offer are the acceptable positions that stand in them. -/
theorem InvertedFile.Holds.candidates_perm_visited {f : InvertedFile S E}
    {vs : List (Array E)} (h : f.Holds vs) {probed : List Nat} (hprobed : probed.Nodup)
    (query : Array E) (accept : Nat → Bool) :
    (f.candidates probed query accept).Perm (candidatesAt f.space vs query fun i =>
      accept i && decide (i ∈ (probed.flatMap f.entriesAt).map (·.1))) := by
  let labels := (probed.flatMap f.entriesAt).map (·.1)
  let toCandidate : Nat → Candidate := fun i => ⟨costAt f.space vs query i, i⟩
  have hcandidates : f.candidates probed query accept =
      (labels.filter accept).map toCandidate := by
    rw [← f.map_label_candidates probed query accept, List.map_map]
    refine ((List.map_congr_left fun c hc => ?_).trans (List.map_id _)).symm
    obtain ⟨-, hcost, -⟩ := h.of_mem_candidates hc
    simp only [Function.comp, toCandidate, ← hcost, id]
  have hlabels : (labels.filter accept).Perm
      ((List.range vs.length).filter fun i => accept i && decide (i ∈ labels)) := by
    refine (List.perm_ext_iff_of_nodup ((nodup_probed h.nodup hprobed).filter _)
      (List.nodup_range.filter _)).2 fun i => ?_
    have hheld : i ∈ labels → i < vs.length := by
      intro hi
      obtain ⟨e, he, rfl⟩ := List.mem_map.1 hi
      obtain ⟨list, -, he⟩ := List.mem_flatMap.1 he
      exact (List.getElem?_eq_some_iff.1
        (h.getElem?_of_mem (f.mem_entries_of_mem_entriesAt he))).1
    simp only [List.mem_filter, List.mem_range, Bool.and_eq_true, decide_eq_true_eq]
    exact ⟨fun ⟨hi, haccept⟩ => ⟨hheld hi, haccept, hi⟩, fun ⟨_, haccept, hi⟩ => ⟨hi, haccept⟩⟩
  rw [hcandidates]
  exact hlabels.map toCandidate

namespace Index

variable {index quantizer : Index S E} {f : InvertedFile S E} {vs : List (Array E)}

/-- Every root but an inverted file looks at all vectors. -/
theorem Holds.within_eq_ranking (h : index.Holds vs) (hroot : index.topology ≠ .invertedFile)
    (query : Array E) (bound : Single) (accept : Nat → Bool) :
    index.within query bound accept =
      (ranking index.space vs query accept).filter fun c => c.cost.lt bound := by
  rw [ranking, ← Candidate.ranked_filter]
  cases index with
  | flat f =>
      have hf : f.Holds vs := h
      rw [within, Flat.within, hf.candidates_eq]
      rfl
  | graph g =>
      rw [within, Graph.within, Flat.within, h.storage.candidates_eq]
      rfl
  | invertedFile f quantizer => exact absurd rfl hroot
  | composite base copies factor =>
      obtain ⟨-, hcopies, hspace, -⟩ := h
      rw [within, Flat.within, hcopies.candidates_eq, hspace]
      rfl

/-- What the probed lists offer, ranked, is what the ranking has of them. -/
private theorem ranked_probed (h : (Index.invertedFile f quantizer).Holds vs) (query : Array E)
    (accept : Nat → Bool) :
    Candidate.ranked (f.candidates
        ((quantizer.nearest query f.probeCount fun _ => true).map (·.label)) query accept) =
      (ranking f.space vs query accept).filter fun c =>
        decide (c.label ∈ (Index.invertedFile f quantizer).visited query) := by
  obtain ⟨hf, centroids, hq⟩ := h
  have hprobed := (hq.nearest_finds query f.probeCount fun _ => true).1.nodup
  rw [← ranking_and f.space vs query accept fun i =>
    decide (i ∈ (Index.invertedFile f quantizer).visited query)]
  exact Candidate.ranked_eq_of_perm (hf.candidates_perm_visited hprobed query accept)

/-- A search of an inverted file is the ranking of what is in the probed lists, cut
off. -/
theorem Holds.nearest_eq_visited (h : (Index.invertedFile f quantizer).Holds vs)
    (query : Array E) (k : Nat) (accept : Nat → Bool) :
    (Index.invertedFile f quantizer).nearest query k accept =
      ((ranking f.space vs query accept).filter fun c =>
        decide (c.label ∈ (Index.invertedFile f quantizer).visited query)).take k := by
  rw [nearest, InvertedFile.nearest, Best.collect_eq_take_ranked, ranked_probed h]

/-- A search below a cost of an inverted file is what the ranking has below that cost
in the probed lists. -/
theorem Holds.within_eq_visited (h : (Index.invertedFile f quantizer).Holds vs)
    (query : Array E) (bound : Single) (accept : Nat → Bool) :
    (Index.invertedFile f quantizer).within query bound accept =
      ((ranking f.space vs query accept).filter fun c => c.cost.lt bound).filter fun c =>
        decide (c.label ∈ (Index.invertedFile f quantizer).visited query) := by
  rw [within, InvertedFile.within, Candidate.ranked_filter, ranked_probed h, List.filter_comm]

end Index

end Proximity

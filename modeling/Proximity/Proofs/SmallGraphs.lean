import Proximity.Proofs.HitCounts

/-!
# Small graphs are exact

On the lowest level a neighbour list has room for twice the degree.  As long as a graph
holds at most one vector more than that, no list there is ever cut: links go both ways and
lead from every node to every other one.  So a search reaches all acceptable vectors from
wherever its descent ends.  If they fit into the beam, it ranks all of them, and then it
cannot be told from a search that looks at every vector, whatever the vectors cost and
however the upper levels came out.

## Main results

* `Links.Woven.mem_comm` — links that go both ways.
* `Graph.Tended.nearest_eq_storage` — a search of a small graph is one of its storage.
* `Index.search_eq_of_nearest` — what else an answer depends on.
* `Graph.small_exact` — small graphs answer like flat storage.
-/

namespace Proximity

theorem Links.Woven.mem_comm {g : Links} {total : Nat} (h : g.Woven total) (i j : Nat) :
    j ∈ g.neighbours 0 i ↔ i ∈ g.neighbours 0 j :=
  ⟨h.back i j, h.back j i⟩

variable {S E : Type}

/-- Storage that holds vectors is as wide as these. -/
theorem Flat.Holds.size_of_mem {f : Flat S E} {vs : List (Array E)} (h : f.Holds vs) :
    ∀ v ∈ vs, v.size = f.unitLength :=
  fun _ hv => size_of_mem_vectorsOf (h.vectors ▸ hv)

variable [Space S E]

/-- Storages of one space that hold the same vectors find the same. -/
theorem Flat.Holds.nearest_eq_nearest {f f' : Flat S E} {vs : List (Array E)} (h : f.Holds vs)
    (h' : f'.Holds vs) (hspace : f.space = f'.space) (query : Array E) (k : Nat)
    (accept : Nat → Bool) : f.nearest query k accept = f'.nearest query k accept := by
  rw [nearest, nearest, h.candidates_eq, h'.candidates_eq, hspace]

/-- Indexes of one space and width that hold as many vectors give the same answer if they
find the same. -/
theorem Index.search_eq_of_nearest {a b : Index S E} {query : Array E} {k : Nat}
    {accept : Nat → Bool} (hspace : a.space = b.space) (hwidth : a.unitLength = b.unitLength)
    (htotal : a.total = b.total) (hnearest : a.nearest query k accept = b.nearest query k accept) :
    a.search query k accept = b.search query k accept := by
  rw [search, search, checkQuery, checkQuery, hits, hits, hspace, hwidth, htotal, hnearest]

namespace Graph

variable {g : Graph S E} {query : Array E} {k : Nat} {accept : Nat → Bool}

/-- While no list was cut, the acceptable vectors are those that the landing of a query leads
to. -/
theorem Tended.reaches_accepted (h : g.Tended)
    (hfew : g.storage.total ≤ Links.degreeAt g.degree 0 + 1) {entry : Nat}
    (hentry : g.links.entry = some entry) (query : Array E) (accept : Nat → Bool) :
    g.Reaches query entry accept ((List.range g.storage.total).filter accept).toFinset := by
  have hlanding := h.consistent.landing_lt hentry query
  intro n
  rw [List.mem_toFinset, List.mem_filter, List.mem_range]
  constructor
  · rintro ⟨hlt, haccept⟩
    exact ⟨haccept, (h.woven hfew).connected _ hlanding n hlt⟩
  · rintro ⟨haccept, hleads⟩
    exact ⟨h.consistent.links.lt_of_leads hlanding hleads, haccept⟩

/-- While no list was cut, a search with a beam for all acceptable vectors finds what a search
of the storage finds. -/
theorem Tended.nearest_eq_storage (h : g.Tended)
    (hfew : g.storage.total ≤ Links.degreeAt g.degree 0 + 1)
    (hfits : (List.range g.storage.total).countP accept ≤ max g.searchWidth k) :
    g.nearest query k accept = g.storage.nearest query k accept := by
  rw [Flat.nearest, Best.collect_eq_take_ranked]
  cases hentry : g.links.entry with
  | none =>
      have hzero : g.storage.total = 0 := by
        by_contra hstored
        exact h.consistent.links.nonempty hstored hentry
      simp [nearest, Links.nearest, hentry, Flat.candidates, hzero, Candidate.ranked]
  | some entry =>
      have hreaches := h.reaches_accepted hfew hentry query accept
      rw [← card_accepted] at hfits
      rw [h.consistent.nearest_eq_ranked hentry hreaches hfits, Flat.candidates, Flat.candidates]
      have hsame : (List.range g.storage.total).filter (fun n =>
          decide (n ∈ ((List.range g.storage.total).filter accept).toFinset)) =
            (List.range g.storage.total).filter accept := by
        refine List.filter_congr fun n hn => ?_
        simp only [List.mem_toFinset, List.mem_filter, hn, true_and, Bool.decide_eq_true]
      rw [hsame]

/-- **Small graphs are exact.**  Whatever was appended to a graph and however it was tuned, as
long as it holds at most twice as many vectors as its degree, and one more, the links of its
lowest level go both ways and lead from every vector to every other one.  So for every query
that there is room for and every filter that accepts no more vectors than fit into the beam,
the graph answers what flat storage of the same vectors answers, in the same order also where
costs are tied.  Without room the graph does not answer, and flat storage does. -/
theorem small_exact (machine : Machine) {vs : List (Array E)} (hgrown : (Index.graph g).Grown vs)
    (hfew : vs.length ≤ 2 * g.degree + 1) :
    (∀ i j, j ∈ g.links.neighbours 0 i ↔ i ∈ g.links.neighbours 0 j) ∧
    (∀ i < vs.length, ∀ j < vs.length, g.links.Leads 0 i j) ∧
    ∀ f : Flat S E, f.Holds vs → f.space = g.storage.space →
      (vs = [] → f.unitLength = g.storage.unitLength) →
      ∀ (query : Array E) (k : Nat) (accept : Nat → Bool),
        let accept? := fun n => some (accept n)
        (List.range vs.length).countP accept ≤ max g.searchWidth k →
        (∃ answer, (Index.flat f).search? machine query k accept? = some answer) ∧
        ((query.size = g.storage.unitLength → (Index.graph g).canSearch machine k = true) →
          (Index.graph g).search? machine query k accept? =
            (Index.flat f).search? machine query k accept?) ∧
        (query.size = g.storage.unitLength → (Index.graph g).canSearch machine k = false →
          (Index.graph g).search? machine query k accept? = none) := by
  have htended : g.Tended := hgrown.tended
  have hstorage : g.storage.Holds vs := hgrown.holds.storage
  have hlists : g.storage.total ≤ Links.degreeAt g.degree 0 + 1 := by
    rw [hstorage.total, Links.degreeAt, if_pos rfl, Nat.mul_comm]
    exact hfew
  have hwoven := htended.woven hlists
  refine ⟨hwoven.mem_comm, hstorage.total ▸ hwoven.connected, ?_⟩
  intro f hf hspace hempty query k accept accept? hfits
  have hwidth : f.unitLength = g.storage.unitLength := by
    cases vs with
    | nil => exact hempty rfl
    | cons v vs =>
        have hmem : v ∈ v :: vs := List.mem_cons_self
        exact (hf.size_of_mem v hmem).symm.trans (hstorage.size_of_mem v hmem)
  have hflat : (Index.flat f).search? machine query k accept? =
      some ((Index.flat f).search query k accept) := by
    refine Index.search?_eq ?_ query (fun _ => ?_) (Guarded.below_some _ _)
    · exact hf.pos
    · simp [Index.canSearch, Index.settings, Settings.roomToSearch]
  have hsame : (Index.graph g).search query k accept = (Index.flat f).search query k accept := by
    refine Index.search_eq_of_nearest hspace.symm hwidth.symm
      (hstorage.total.trans hf.total.symm) ?_
    calc (Index.graph g).nearest query k accept
        = g.storage.nearest query k accept :=
          htended.nearest_eq_storage hlists (hstorage.total.symm ▸ hfits)
      _ = f.nearest query k accept := hstorage.nearest_eq_nearest hf hspace.symm query k accept
  refine ⟨⟨_, hflat⟩, fun hroom => ?_, fun hright hroom =>
    Index.search?_eq_none htended.searchable hright hroom accept?⟩
  rw [hflat, ← hsame]
  exact Index.search?_eq htended.searchable query hroom (Guarded.below_some _ _)

/-- Five vectors, the first and the last of which are equal, in a graph of degree two: the
answers are those of flat storage, for any query. -/
theorem small_exact_five :
    (Index.graph (ofBytes #[7, 1, 2, 4, 7])).Grown [#[7], #[1], #[2], #[4], #[7]] ∧
      (∀ i < 5, ∀ j < 5, (ofBytes #[7, 1, 2, 4, 7]).links.Leads 0 i j) ∧
      ∀ query, (Index.graph (ofBytes #[7, 1, 2, 4, 7])).search? .standard query 5
          (fun _ => some true) =
        (Index.flat (⟨⟨⟩, 8, 1, #[7, 1, 2, 4, 7]⟩ : Flat BinarySpace UInt8)).search? .standard
          query 5 fun _ => some true := by
  have hgrown := ofBytes_grown #[7, 1, 2, 4, 7]
  have hstorage := ofBytes_storage #[7, 1, 2, 4, 7]
  have hroom : (Index.graph (ofBytes #[7, 1, 2, 4, 7])).canSearch .standard 5 = true := by
    rw [Index.canSearch, hgrown.holds.total]
    decide +kernel
  obtain ⟨-, hall, hexact⟩ := small_exact .standard hgrown (Nat.le_refl 5)
  refine ⟨hgrown, hall, fun query => ?_⟩
  have hanswers := hexact ⟨⟨⟩, 8, 1, #[7, 1, 2, 4, 7]⟩ ⟨by decide, rfl, rfl⟩ rfl
    (fun _ => by rw [hstorage]) query 5 (fun _ => true) (Nat.le_max_right _ 5)
  exact hanswers.2.1 fun _ => hroom

/-- Asked for 2 ^ 60 of them, the graph does not answer, and flat storage answers with all
five. -/
theorem small_roomless_five :
    (Index.graph (ofBytes #[7, 1, 2, 4, 7])).Grown [#[7], #[1], #[2], #[4], #[7]] ∧
      (Index.graph (ofBytes #[7, 1, 2, 4, 7])).search? .standard #[0] (Nat.pow 2 60)
        (fun _ => some true) = none ∧
      (Index.flat (⟨⟨⟩, 8, 1, #[7, 1, 2, 4, 7]⟩ : Flat BinarySpace UInt8)).search? .standard #[0]
        (Nat.pow 2 60) (fun _ => some true) =
          some (.ok [⟨1, .one⟩, ⟨2, .one⟩, ⟨3, .one⟩, ⟨0, .ofNat 3⟩, ⟨4, .ofNat 3⟩]) := by
  have hgrown := ofBytes_grown #[7, 1, 2, 4, 7]
  refine ⟨hgrown, Index.search?_eq_none hgrown.tended.searchable ?_ ?_ _, ?_⟩
  · rw [Index.unitLength, ofBytes_storage]
    rfl
  · rw [Index.canSearch, hgrown.holds.total]
    decide +kernel
  · decide +kernel

end Graph

end Proximity

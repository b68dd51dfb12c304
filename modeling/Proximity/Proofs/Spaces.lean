import Proximity.Host.Engine
import Proximity.Proofs.Persistence
import Proximity.Proofs.PostingLists
import Proximity.Proofs.Preservation

/-!
# Spaces in decoded trees

Every node of a tree stores a space of its own.  A tree that was built stores one
space throughout, since a node takes its space from the node below it and no change
touches any of them.  The check of a tree compares widths and not spaces, so in a
tree that is accepted they may differ.

Of all these spaces two matter for what a caller sees.  The space of the root names
the metric, turns costs into distances and distances into scores.  The costs come
from the space in which the root ranks, which is its own except in a composite: that
ranks in the space of its copies.  Where the two agree, every distance is that of a
stored vector in the named metric, whatever spaces the other nodes store.

## Main definitions

* `Index.spaces` — all spaces that a tree stores.
* `Index.ranking` — the space in which a tree ranks.
* `Index.OneSpace` — all of them are the space of the root.
* `Index.StoresAt` — a vector is stored under a label.
* `Stored.Measures` — every result is a stored vector at its distance, with its score.
* `Artifact.RanksInOwnSpace`, `Artifact.MeasuresOwnMetric` — the two spaces agree, and
  what follows for the results.

## Main results

* `Artifact.Built.oneSpace` — what was built stores one space.
* `Index.Consistent.cost_nearest`, `Index.Consistent.cost_within` — the costs of what
  is found.
* `Artifact.ofBytes_measures` — accepted artifacts.
-/

namespace Proximity

variable {S E : Type}

namespace Index

/-! ## Spaces -/

/-- The spaces of all nodes and copies. -/
def spaces : Index S E → List S
  | .flat f => [f.space]
  | .graph g => [g.storage.space]
  | .invertedFile f quantizer => f.space :: quantizer.spaces
  | .composite base copies _ => copies.space :: base.spaces

/-- The space in which a tree ranks what it finds. -/
def ranking : Index S E → S
  | .flat f => f.space
  | .graph g => g.storage.space
  | .invertedFile f _ => f.space
  | .composite _ copies _ => copies.space

/-- A tree stores one space, that of its root. -/
def OneSpace (index : Index S E) : Prop := ∀ space ∈ index.spaces, space = index.space

variable {index : Index S E}

/-- The space in which a tree ranks is one of those it stores. -/
theorem ranking_mem_spaces (index : Index S E) : index.ranking ∈ index.spaces := by
  cases index with
  | flat f => exact List.mem_singleton_self _
  | graph g => exact List.mem_singleton_self _
  | invertedFile f quantizer => exact List.mem_cons_self
  | composite base copies factor => exact List.mem_cons_self

theorem OneSpace.ranking_eq (h : index.OneSpace) : index.ranking = index.space :=
  h _ index.ranking_mem_spaces

/-- A tree with the spaces of another one stores one space if that does. -/
theorem OneSpace.of_eq {index' : Index S E} (h : index.OneSpace)
    (hspaces : index'.spaces = index.spaces) (hspace : index'.space = index.space) :
    index'.OneSpace := by
  intro space hmem
  rw [hspaces] at hmem
  rw [hspace]
  exact h space hmem

variable [Space S E]

theorem spaces_append (index : Index S E) (elements : Array E) :
    (index.append elements).1.spaces = index.spaces := by
  refine append_induction (motive := fun a b => b.spaces = a.spaces) elements ?refl ?flat ?graph
    ?file ?composite index
  case refl => exact fun index => rfl
  case flat => exact fun f data => rfl
  case graph =>
    intro g hwhole
    obtain ⟨data, links, happend⟩ := g.append_eq elements
    rw [happend]
    rfl
  case file =>
    intro f quantizer chosen htrained
    rw [InvertedFile.insertAll_eq]
    rfl
  case composite =>
    exact fun base base' copies data factor ih => congrArg (copies.space :: ·) ih

theorem spaces_train (index : Index S E) (sample : Array E) :
    (index.train sample).1.spaces = index.spaces := by
  refine train_induction (motive := fun a b => b.spaces = a.spaces) ?refl ?file ?composite index
    sample
  case refl => exact fun index => rfl
  case file =>
    exact fun f quantizer centroids huntrained =>
      congrArg (f.space :: ·) (quantizer.spaces_append centroids)
  case composite =>
    exact fun base base' copies factor hstock ih => congrArg (copies.space :: ·) ih

omit [Space S E] in
theorem spaces_tune (index : Index S E) (ps : Parameters) :
    (index.tune ps).1.spaces = index.spaces := by
  refine tune_induction (motive := fun a b => b.spaces = a.spaces) ?refl ?graph ?file ?composite
    index ps
  case refl => exact fun index => rfl
  case graph =>
    intro g g' ps htune
    obtain ⟨_, _, rfl⟩ := eq_of_tuneGraph htune
    rfl
  case file =>
    exact fun f quantizer quantizer' ps probes nested hread hstock ih =>
      congrArg (f.space :: ·) ih
  case composite =>
    exact fun base base' copies factor ps asked hfactor hstock ih =>
      congrArg (copies.space :: ·) ih

omit [Space S E] in
/-- A change of a node that leaves its spaces alone leaves those of the root alone. -/
private theorem spaces_changeAt {A : Type} {change : Index S E → Index S E × A}
    (hsame : ∀ index, SameStock index (change index).1)
    (hchange : ∀ index, (change index).1.spaces = index.spaces) {path : List Child}
    {r : Index S E × A} (hr : index.changeAt change path = some r) :
    r.1.spaces = index.spaces ∧ r.1.space = index.space := by
  refine changeAt_sameStock_induction
    (motive := fun a b => b.spaces = a.spaces ∧ b.space = a.space) hsame ?_ ?_ ?_ hr
  · exact fun index => ⟨hchange index, (hsame index).space⟩
  · rintro base base' copies factor - ⟨hspaces, hspace⟩
    exact ⟨congrArg (copies.space :: ·) hspaces, hspace⟩
  · rintro f quantizer quantizer' - ⟨hspaces, -⟩
    exact ⟨congrArg (f.space :: ·) hspaces, rfl⟩

/-- Constructions pass one space on from the bottom of the tree to its root. -/
theorem Constructed.oneSpace (h : index.Constructed) : index.OneSpace := by
  apply h.steps (motive := OneSpace)
  · intro space dimension f _ _ s hs
    exact List.mem_singleton.1 hs
  · intro space dimension degree buildWidth searchWidth g _ _ _ _ _ s hs
    exact List.mem_singleton.1 hs
  · intro quantizer index listCount clustering _ hq _ _ hover
    obtain ⟨-, -, unitLength, -, rfl⟩ := invertedFileOver_eq_ok_iff.1 hover
    exact List.forall_mem_cons.2 ⟨rfl, hq⟩
  · intro base index hconstructed hbase hover
    obtain ⟨-, copies, hcopies, rfl⟩ := compositeOver_eq_ok_iff.1 hover
    obtain rfl := hconstructed.copies hcopies
    exact List.forall_mem_cons.2 ⟨rfl, hbase⟩

theorem Change.oneSpace {index' : Index S E} (h : index.Change index') (hindex : index.OneSpace) :
    index'.OneSpace := by
  cases h with
  | append elements =>
      exact hindex.of_eq (index.spaces_append elements) (index.append_sameWidth elements).space
  | train hr =>
      obtain ⟨hspaces, hspace⟩ := spaces_changeAt (fun index => index.train_sameStock _)
        (fun index => index.spaces_train _) hr
      exact hindex.of_eq hspaces hspace
  | tune hr =>
      obtain ⟨hspaces, hspace⟩ := spaces_changeAt (fun index => index.tune_sameStock _)
        (fun index => index.spaces_tune _) hr
      exact hindex.of_eq hspaces hspace

end Index

/-- The tree stores one space, that of its root. -/
def Artifact.OneSpace : Artifact → Prop
  | .float stored => stored.index.OneSpace
  | .binary stored => stored.index.OneSpace

/-- Whatever was built stores one space. -/
theorem Artifact.Built.oneSpace {a : Artifact} (h : a.Built) : a.OneSpace := by
  have hone := h.index_induction (P := Index.OneSpace) (Q := Index.OneSpace)
    (fun _ hindex => hindex.oneSpace) (fun _ _ hchange => hchange.oneSpace)
    (fun _ hindex => hindex.oneSpace) fun _ _ hchange => hchange.oneSpace
  cases a <;> exact hone

namespace Index

/-! ## Costs -/

/-- A tree stores a vector under a label, the copies of a composite being what it
stores. -/
def StoresAt : Index S E → Nat → Array E → Prop
  | .flat f, label, v => label < f.total ∧ v = f.vector label
  | .graph g, label, v => label < g.storage.total ∧ v = g.storage.vector label
  | .invertedFile f _, label, v => (label, v) ∈ f.entries
  | .composite _ copies _, label, v => label < copies.total ∧ v = copies.vector label

variable [Space S E] {index : Index S E} {query : Array E} {accept : Nat → Bool} {c : Candidate}

/-- The candidates of lists are entries at their cost. -/
private theorem stored_of_mem_candidates {f : InvertedFile S E} {probed : List Nat}
    (hc : c ∈ f.candidates probed query accept) :
    ∃ v, (c.label, v) ∈ f.entries ∧ c.cost = Space.cost f.space v query := by
  obtain ⟨list, -, hc⟩ := List.mem_flatMap.1 hc
  obtain ⟨⟨label, v⟩, he, rfl⟩ := List.mem_map.1 hc
  have hentry : (label, v) ∈ f.entriesAt list := (List.mem_filter.1 he).1
  exact ⟨v, f.mem_entries_of_mem_entriesAt hentry, rfl⟩

/-- What a search of a consistent tree finds costs what a vector that is stored there
costs in the space in which the tree ranks. -/
theorem Consistent.cost_nearest (h : index.Consistent) {k : Nat}
    (hc : c ∈ index.nearest query k accept) :
    ∃ v, index.StoresAt c.label v ∧ c.cost = Space.cost index.ranking v query := by
  have hlabel := h.searchable.label_lt hc
  cases index with
  | flat f => exact ⟨_, ⟨hlabel, rfl⟩, (f.nearest_finds query k accept).1.cost c hc⟩
  | graph g => exact ⟨_, ⟨hlabel, rfl⟩, (g.links.nearest_finds _ _ k accept).1.cost c hc⟩
  | invertedFile f quantizer => exact stored_of_mem_candidates (Best.mem_of_mem_collect hc)
  | composite base copies factor =>
      obtain ⟨d, -, rfl⟩ := List.mem_map.1 (Best.mem_of_mem_collect hc)
      exact ⟨_, ⟨hlabel, rfl⟩, rfl⟩

/-- So does what a search below a cost finds. -/
theorem Consistent.cost_within (h : index.Consistent) {bound : Single}
    (hc : c ∈ index.within query bound accept) :
    ∃ v, index.StoresAt c.label v ∧ c.cost = Space.cost index.ranking v query := by
  have hlabel := h.searchable.label_lt_of_within hc
  cases index with
  | flat f => exact ⟨_, ⟨hlabel, rfl⟩, (f.within_finds query bound accept).cost c hc⟩
  | graph g => exact ⟨_, ⟨hlabel, rfl⟩, (g.storage.within_finds query bound accept).cost c hc⟩
  | invertedFile f quantizer =>
      have hmet := (Candidate.ranked_perm _).mem_iff.1 hc
      exact stored_of_mem_candidates (List.mem_filter.1 hmet).1
  | composite base copies factor =>
      exact ⟨_, ⟨hlabel, rfl⟩, (copies.within_finds query bound accept).cost c hc⟩

/-- Hits of a query show vectors that are stored at the distance made of their cost. -/
private theorem shows_of_cost {cs : List Candidate}
    (h : ∀ c ∈ cs, ∃ v, index.StoresAt c.label v ∧ c.cost = Space.cost index.ranking v query) :
    ∀ hit ∈ index.hits cs, ∃ v, index.StoresAt hit.label v ∧
      hit.distance = Space.reported index.space (Space.cost index.ranking v query) := by
  intro hit hhit
  obtain ⟨c, hc, rfl⟩ := List.mem_map.1 hhit
  obtain ⟨v, hstored, hcost⟩ := h c hc
  refine ⟨v, hstored, ?_⟩
  dsimp only
  rw [hcost]

end Index

/-! ## Results -/

namespace Stored

variable [Space S E]

/-- What callers know a label by. -/
def nameOf : Stored S E → Nat → Int64
  | .bare _, label => Int64.ofNat label
  | .mapped m, label => m.idOf label

/-- A result shows a stored vector for a query, by what callers know it by, at its
distance in the metric of the index when ranked in some space, with the score of that
distance. -/
def Shows (s : Stored S E) (ranking : S) (query : Array E) (r : QueryResult) : Prop :=
  ∃ label v, s.index.StoresAt label v ∧ r.id = s.nameOf label ∧
    r.distance = Space.reported s.index.space (Space.cost ranking v query) ∧
    r.score = (Space.spaceType s.index.space).score r.distance

/-- All queries of the right width are answered, with results that show stored
vectors. -/
structure Measures (s : Stored S E) (ranking : S) : Prop where
  search : ∀ query : Array E, query.size = s.index.unitLength → ∀ k accept, ∃ hits,
    Engine.searchStored s query k accept = .ok hits ∧
      ∀ r ∈ Engine.results (Space.spaceType s.index.space) hits, s.Shows ranking query r
  searchRange : ∀ query : Array E, query.size = s.index.unitLength → ∀ radius accept, ∃ hits,
    Engine.searchStoredRange s query radius accept = .ok hits ∧
      ∀ r ∈ Engine.results (Space.spaceType s.index.space) hits, s.Shows ranking query r

/-- Results made of hits under the names of their labels. -/
private theorem shows_results {s : Stored S E} {query : Array E} {hits : List (Hit Nat)}
    (h : ∀ hit ∈ hits, ∃ v, s.index.StoresAt hit.label v ∧
      hit.distance = Space.reported s.index.space (Space.cost s.index.ranking v query)) :
    ∀ r ∈ Engine.results (Space.spaceType s.index.space)
        (hits.map fun hit => ⟨s.nameOf hit.label, hit.distance⟩),
      s.Shows s.index.ranking query r := by
  intro r hr
  obtain ⟨named, hnamed, rfl⟩ := List.mem_map.1 hr
  obtain ⟨hit, hhit, rfl⟩ := List.mem_map.1 hnamed
  obtain ⟨v, hstored, hdistance⟩ := h hit hhit
  exact ⟨hit.label, v, hstored, rfl, hdistance, rfl⟩

/-- A search of a stored index is one of its index, under the names of labels. -/
private theorem searchStored_eq (s : Stored S E) (query : Array E) (k : Nat)
    (accept : Int64 → Bool) :
    Engine.searchStored s query k accept =
      (s.index.search query k (accept ∘ s.nameOf)).map fun hits =>
        hits.map fun hit => ⟨s.nameOf hit.label, hit.distance⟩ := by
  cases s <;> rfl

theorem searchStoredRange_eq (s : Stored S E) (query : Array E) (radius : Single)
    (accept : Int64 → Bool) :
    Engine.searchStoredRange s query radius accept =
      (s.index.searchRange query radius (accept ∘ s.nameOf)).map fun hits =>
        hits.map fun hit => ⟨s.nameOf hit.label, hit.distance⟩ := by
  cases s <;> rfl

/-- The results of a consistent index show stored vectors. -/
theorem Consistent.measures {s : Stored S E} (h : s.Consistent) : s.Measures s.index.ranking where
  search query hwidth k accept := by
    rw [searchStored_eq, Index.search_eq_of_width hwidth]
    refine ⟨_, rfl, shows_results ?_⟩
    split
    · exact fun hit hhit => absurd hhit List.not_mem_nil
    · exact Index.shows_of_cost fun c hc => h.index.cost_nearest hc
  searchRange query hwidth radius accept := by
    rw [searchStoredRange_eq, Index.searchRange_eq_of_width hwidth]
    exact ⟨_, rfl, shows_results (Index.shows_of_cost fun c hc => h.index.cost_within hc)⟩

end Stored

namespace Artifact

/-- The tree ranks in the space of its root. -/
def RanksInOwnSpace : Artifact → Prop
  | .float stored => stored.index.ranking = stored.index.space
  | .binary stored => stored.index.ranking = stored.index.space

/-- Every result is a stored vector at the distance that its cost in the space in which
the tree ranks stands for. -/
def Measures : Artifact → Prop
  | .float stored => stored.Measures stored.index.ranking
  | .binary stored => stored.Measures stored.index.ranking

/-- Every result is a stored vector at its distance in the metric of the artifact. -/
def MeasuresOwnMetric : Artifact → Prop
  | .float stored => stored.Measures stored.index.space
  | .binary stored => stored.Measures stored.index.space

variable {a : Artifact}

theorem Consistent.measures (h : a.Consistent) : a.Measures := by
  cases a with
  | float stored => exact Stored.Consistent.measures h
  | binary stored => exact Stored.Consistent.measures h

theorem OneSpace.ranksInOwnSpace (h : a.OneSpace) : a.RanksInOwnSpace := by
  cases a with
  | float stored => exact Index.OneSpace.ranking_eq h
  | binary stored => exact Index.OneSpace.ranking_eq h

theorem Measures.ownMetric (h : a.Measures) (hown : a.RanksInOwnSpace) : a.MeasuresOwnMetric := by
  cases a with
  | float stored =>
      have hranking : stored.index.ranking = stored.index.space := hown
      rw [Measures, hranking] at h
      exact h
  | binary stored => exact h

/-- There is only one space of bit vectors. -/
theorem oneSpace_of_binary (h : a.kind = .binary) : a.OneSpace := by
  cases a with
  | float stored => cases h
  | binary stored => exact fun _ _ => rfl

/-- **Distances from accepted artifacts.**  Whatever bytes are accepted, every result
of every search shows a stored vector at the distance that its cost in the space in
which the index ranks stands for, with the score of that distance.  If that space is
the one that the index names, this is the distance in the named metric.  So it is
whenever one space is stored throughout, as in everything that holds bit vectors and
in everything that was built. -/
theorem ofBytes_measures {bytes : List UInt8} (h : ofBytes bytes = .ok a) :
    a.Measures ∧ (a.RanksInOwnSpace → a.MeasuresOwnMetric) ∧ (a.OneSpace → a.RanksInOwnSpace) ∧
      (a.kind = .binary → a.OneSpace) ∧ (a.Built → a.OneSpace) := by
  have hmeasures : a.Measures := (of_ofBytes h).1.measures
  exact ⟨hmeasures, hmeasures.ownMetric, OneSpace.ranksInOwnSpace, oneSpace_of_binary,
    Built.oneSpace⟩

/-- One vector of one dimension under the Euclidean metric, with a copy under any
metric. -/
def withCopies (metric : Metric) : Index FloatSpace Single :=
  .composite (.flat ⟨⟨.l2⟩, 1, 1, #[.one]⟩) ⟨⟨metric⟩, 1, 1, #[.one]⟩ .one

private theorem withCopies_kept (metric : Metric) : Kept (.float (.bare (withCopies metric))) where
  consistent := by
    refine check_eq_ok_iff.1 ?_
    cases metric <;> rfl
  settings := by
    have hone : 1 < Count.bound := by decide
    exact ⟨hone, hone⟩
  memory := by
    have hone : 1 < Count.signedBound := by decide
    exact ⟨hone, hone⟩

/-- Copies under the metric of their base are measured by it. -/
theorem ofBytes_measures_sameMetric :
    ofBytes (toBytes (.float (.bare (withCopies .l2)))) = .ok (.float (.bare (withCopies .l2))) ∧
      MeasuresOwnMetric (.float (.bare (withCopies .l2))) := by
  have hread := (withCopies_kept .l2).roundtrip (by decide +kernel)
  have hone : (withCopies .l2).OneSpace := by
    rw [Index.OneSpace]
    decide
  obtain ⟨-, hown, hranks, -⟩ := ofBytes_measures hread
  exact ⟨hread, hown (hranks hone)⟩

/-- Copies under another metric than their base are accepted, and the only vector, at
the distance zero from itself, is found at the negated inner product of the two. -/
theorem ofBytes_otherMetric :
    ofBytes (toBytes (.float (.bare (withCopies .innerProduct)))) =
        .ok (.float (.bare (withCopies .innerProduct))) ∧
      (withCopies .innerProduct).spaces = [⟨.innerProduct⟩, ⟨.l2⟩] ∧
      (withCopies .innerProduct).search #[.one] 1 (fun _ => true) = .ok [⟨0, -Single.one⟩] ∧
      (withCopies .innerProduct).searchRange #[.one] (.ofNat 1) (fun _ => true) =
        .ok [⟨0, -Single.one⟩] ∧
      Space.reported (⟨.l2⟩ : FloatSpace) (Space.cost (⟨.l2⟩ : FloatSpace) #[.one] #[.one]) =
        Single.zero := by
  have hread := (withCopies_kept .innerProduct).roundtrip (by decide +kernel)
  refine ⟨hread, rfl, ?_, ?_, ?_⟩
  · with_unfolding_all rfl
  · with_unfolding_all rfl
  · with_unfolding_all rfl

end Artifact

end Proximity

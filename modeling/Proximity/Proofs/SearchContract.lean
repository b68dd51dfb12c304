import Proximity.Proofs.Construction
import Proximity.Proofs.Contents

/-!
# What a search answers

An index that was constructed empty and has since been added to, trained and
tuned, in whatever order and with whatever success, holds exactly the vectors
that were accepted.  So its searches can be described without its structure, in
terms of the list of these vectors: an answer is made of different acceptable
positions of the list, at most as many as were asked for, ranked by what the
vectors there cost.

An id map names positions; its filters and answers go through the names, which
need not be different.

## Main results

* `Index.Grown`, `IdMap.Grown` — the histories.
* `Index.Grown.holds`, `IdMap.Grown.keeps` — what every history keeps.
* `Index.Grown.graph_induction` — induction over the histories of a graph.
* `Index.Holds.search_eq` — a search answers with what the tree finds.
* `Index.Holds.search`, `IdMap.search_of_holds` — what searches answer where there is room.
-/

namespace Proximity

variable {S E : Type} [Space S E]

/-! ## Histories -/

/-- The index was constructed empty and has accepted the vectors of the list
since, in this order. -/
inductive Index.Grown : Index S E → List (Array E) → Prop where
  | empty {index : Index S E} : index.Constructed → Grown index []
  | append {index index' : Index S E} {vs : List (Array E)} {elements : Array E} :
      Grown index vs → index.append elements = (index', .ok ()) →
      Grown index' (vs ++ vectorsOf index.unitLength elements)
  | refused {index index' : Index S E} {vs : List (Array E)} {elements : Array E} {e : Error} :
      Grown index vs → index.append elements = (index', .error e) → Grown index' vs
  | train {index : Index S E} {vs : List (Array E)} (sample : Array E) :
      Grown index vs → Grown (index.train sample).1 vs
  | tune {index : Index S E} {vs : List (Array E)} {path : List Index.Child} {ps : Parameters}
      {r : Index S E × Except Error Unit} :
      Grown index vs → index.changeAt (·.tune ps) path = some r → Grown r.1 vs

/-- The id map was put over an empty index and has accepted the vectors and ids
of the lists since, in this order. -/
inductive IdMap.Grown : IdMap S E → List (Array E) → List Int64 → Prop where
  | wrap {index : Index S E} {vs : List (Array E)} {m : IdMap S E} :
      index.Grown vs → IdMap.wrap index = .ok m → Grown m vs []
  | append {m m' : IdMap S E} {vs : List (Array E)} {ids : List Int64} {elements : Array E}
      {newIds : Array Int64} :
      Grown m vs ids → m.append elements newIds = (m', .ok ()) →
      Grown m' (vs ++ vectorsOf m.index.unitLength elements) (ids ++ newIds.toList)
  | refused {m m' : IdMap S E} {vs : List (Array E)} {ids : List Int64} {elements : Array E}
      {newIds : Array Int64} {e : Error} :
      Grown m vs ids → m.append elements newIds = (m', .error e) → Grown m' vs ids

/-! ## What histories keep -/

namespace Index

/-- What was just constructed holds nothing. -/
theorem Constructed.holds {index : Index S E} (h : index.Constructed) : index.Holds [] := by
  apply h.steps (motive := fun index => index.Holds [])
  · intro space dimension f _ hf
    obtain ⟨unitLength, hwidth, rfl⟩ := Flat.empty_eq_ok_iff.1 hf
    exact Flat.empty_holds _ _ (Kind.unitLength_bounds hwidth).1
  · intro space dimension degree buildWidth searchWidth g _ _ _ _ hg
    obtain ⟨-, storage, hstorage, rfl⟩ := Graph.empty_eq_ok_iff.1 hg
    obtain ⟨unitLength, hwidth, rfl⟩ := Flat.empty_eq_ok_iff.1 hstorage
    exact ⟨Flat.empty_holds _ _ (Kind.unitLength_bounds hwidth).1, rfl⟩
  · intro quantizer index listCount clustering _ hq _ _ hover
    obtain ⟨hlists, -, unitLength, hwidth, rfl⟩ := invertedFileOver_eq_ok_iff.1 hover
    refine ⟨?_, [], hq⟩
    exact InvertedFile.empty_holds _ _ _ (Kind.unitLength_bounds hwidth).1
      (Nat.pos_of_ne_zero hlists)
  · intro base index hconstructed hbase hover
    obtain ⟨-, copies, hcopies, rfl⟩ := compositeOver_eq_ok_iff.1 hover
    obtain rfl := hconstructed.copies hcopies
    exact ⟨hbase, Flat.empty_holds _ _ (Kind.unitLength_bounds hconstructed.width).1, rfl, rfl⟩

/-- An index holds what it has accepted. -/
theorem Grown.holds {index : Index S E} {vs : List (Array E)} (h : index.Grown vs) :
    index.Holds vs := by
  induction h with
  | empty h => exact h.holds
  | append _ happend ih => exact ih.append happend
  | refused _ happend ih => exact ih.aligned.eq_of_append_eq_error happend ▸ ih
  | train sample _ ih => exact ih.train sample
  | tune _ hr ih =>
      exact ih.changeAt (fun index => tune_sameStock index _) (fun _ _ hvs => hvs.tune _) hr

/-! ## Histories of graphs -/

/-- A property of graphs; nothing is asked of other trees. -/
private def OnGraph (P : Graph S E → Prop) : Index S E → Prop
  | .graph g => P g
  | .flat _ | .invertedFile .. | .composite .. => True

section OnGraph

variable {P : Graph S E → Prop} {index : Index S E}

private theorem Constructed.onGraph (h : index.Constructed)
    (hempty : ∀ g, (Index.graph g).Constructed → g.links = .empty → g.storage.total = 0 → P g) :
    index.OnGraph P := by
  apply h.steps (motive := OnGraph P)
  · intro _ _ _ _ _
    trivial
  · intro space dimension degree buildWidth searchWidth g hdimension hdegree hbuild hsearch hg
    have hnew := Constructed.graph hdimension hdegree hbuild hsearch hg
    obtain ⟨-, storage, hstorage, rfl⟩ := Graph.empty_eq_ok_iff.1 hg
    obtain ⟨unitLength, -, rfl⟩ := Flat.empty_eq_ok_iff.1 hstorage
    exact hempty _ hnew rfl (Nat.zero_div unitLength)
  · intro _ _ _ _ _ _ _ _ hover
    obtain ⟨-, -, _, -, rfl⟩ := invertedFileOver_eq_ok_iff.1 hover
    trivial
  · intro _ _ _ _ hover
    obtain ⟨-, _, -, rfl⟩ := compositeOver_eq_ok_iff.1 hover
    trivial

private theorem OnGraph.append (h : index.OnGraph P) (elements : Array E)
    (happend : ∀ g, elements.size % g.storage.unitLength = 0 → P g → P (g.append elements).1) :
    (index.append elements).1.OnGraph P := by
  refine append_induction (motive := fun a b => a.OnGraph P → b.OnGraph P) elements ?refl ?flat
    happend ?file ?composite index h
  case refl => exact fun index h => h
  case flat => exact fun f data h => trivial
  case file => exact fun f quantizer chosen htrained h => trivial
  case composite => exact fun base base' copies data factor ih h => trivial

private theorem OnGraph.train (h : index.OnGraph P) (sample : Array E) :
    (index.train sample).1.OnGraph P := by
  refine train_induction (motive := fun a b => a.OnGraph P → b.OnGraph P) ?refl ?file ?composite
    index sample h
  case refl => exact fun index h => h
  case file => exact fun f quantizer centroids huntrained h => trivial
  case composite => exact fun base base' copies factor hstock ih h => trivial

omit [Space S E] in
private theorem OnGraph.tune (h : index.OnGraph P) (ps : Parameters)
    (htune : ∀ g g', tuneGraph g ps = .ok g' → P g → P g') : (index.tune ps).1.OnGraph P := by
  cases index with
  | graph g =>
      simp only [Index.tune]
      split
      · exact h
      · rename_i g' hg'
        exact htune g g' hg' h
  | flat f => trivial
  | invertedFile f quantizer =>
      simp only [Index.tune]
      split
      · trivial
      · split <;> trivial
  | composite base copies factor =>
      simp only [Index.tune]
      split <;> trivial

variable {vs : List (Array E)}

private theorem Grown.onGraph (h : index.Grown vs)
    (hempty : ∀ g, (Index.graph g).Constructed → g.links = .empty → g.storage.total = 0 → P g)
    (happend : ∀ g elements, elements.size % g.storage.unitLength = 0 → P g →
      P (g.append elements).1)
    (htune : ∀ g g' ps, tuneGraph g ps = .ok g' → P g → P g') : index.OnGraph P := by
  induction h with
  | empty hindex => exact hindex.onGraph hempty
  | @append _ _ _ elements _ hnext ih =>
      have hkept := ih.append elements fun g => happend g elements
      rwa [hnext] at hkept
  | @refused _ _ _ elements _ _ hnext ih =>
      have hkept := ih.append elements fun g => happend g elements
      rwa [hnext] at hkept
  | train sample _ ih => exact ih.train sample
  | tune _ hr ih =>
      exact changeAt_induction (motive := fun a b => a.OnGraph P → b.OnGraph P)
        (fun _ h => h.tune _ fun g g' => htune g g' _) (fun _ _ _ _ _ _ => trivial)
        (fun _ _ _ _ _ => trivial) hr ih

/-- What holds of empty graphs, and is kept by appends of whole vectors and by tunings, holds
of a graph after any history. -/
theorem Grown.graph_induction {g : Graph S E} (h : (Index.graph g).Grown vs)
    (hempty : ∀ g, (Index.graph g).Constructed → g.links = .empty → g.storage.total = 0 → P g)
    (happend : ∀ g elements, elements.size % g.storage.unitLength = 0 → P g →
      P (g.append elements).1)
    (htune : ∀ g g' ps, tuneGraph g ps = .ok g' → P g → P g') : P g :=
  h.onGraph hempty happend htune

end OnGraph

end Index

/-- An id map holds what it has accepted, with an id for each vector. -/
theorem IdMap.Grown.keeps {m : IdMap S E} {vs : List (Array E)} {ids : List Int64}
    (h : m.Grown vs ids) :
    m.index.Holds vs ∧ m.ids.toList = ids ∧ ids.length = vs.length := by
  induction h with
  | wrap hgrown hwrap =>
      obtain ⟨hempty, rfl⟩ := wrap_eq_ok_iff.1 hwrap
      exact ⟨hgrown.holds, rfl, hempty.symm.trans hgrown.holds.total⟩
  | append _ happend ih =>
      obtain ⟨hholds, hids, hlength⟩ := ih
      rcases append_cases hholds.aligned happend with ⟨-, hcount, index', hindex, rfl⟩ | ⟨he, -⟩
      · refine ⟨hholds.append hindex, by rw [Array.toList_append, hids], ?_⟩
        simp [hlength, hcount]
      · obtain ⟨e, he⟩ := he
        cases he
  | refused _ happend ih =>
      rcases append_cases ih.1.aligned happend with ⟨hok, -⟩ | ⟨-, rfl⟩
      · cases hok
      · exact ih

/-! ## Answers -/

/-- Different acceptable positions of a list of vectors, at most `k` of them,
ranked by the cost of the vectors there and then by position. -/
structure Answers (space : S) (vs : List (Array E)) (query : Array E) (k : Nat)
    (accept : Nat → Bool) (positions : List Nat) : Prop where
  count : positions.length ≤ k
  nodup : positions.Nodup
  stored : ∀ i ∈ positions, i < vs.length
  accepted : ∀ i ∈ positions, accept i = true
  ranked : positions.Pairwise fun i j =>
    (costAt space vs query i).rank < (costAt space vs query j).rank ∨
      (costAt space vs query i).rank = (costAt space vs query j).rank ∧ i < j

/-- The hits that callers see for some positions, under the names of these. -/
def hitsAt {L : Type} (space : S) (vs : List (Array E)) (query : Array E) (nameOf : Nat → L)
    (positions : List Nat) : List (Hit L) :=
  positions.map fun i => ⟨nameOf i, Space.reported space (costAt space vs query i)⟩

/-- The labels of what a search finds are an answer. -/
private theorem answers_of_finds {space : S} {vs : List (Array E)} {query : Array E} {k : Nat}
    {accept : Nat → Bool} {cs : List Candidate}
    (h : Candidate.Finds vs.length (costAt space vs query) accept cs) (hlength : cs.length ≤ k) :
    Answers space vs query k accept (cs.map (·.label)) where
  count := by rw [List.length_map]; exact hlength
  nodup := h.nodup
  stored i hi := by
    obtain ⟨c, hc, rfl⟩ := List.mem_map.1 hi
    exact h.size c hc
  accepted i hi := by
    obtain ⟨c, hc, rfl⟩ := List.mem_map.1 hi
    exact h.accept c hc
  ranked := by
    have hboth := h.sorted.and (List.pairwise_map.1 h.nodup)
    refine List.pairwise_map.2 (hboth.imp_of_mem ?_)
    rintro c d hc hd ⟨hle, hne⟩
    rw [Candidate.le, decide_eq_true_eq, h.cost c hc, h.cost d hd] at hle
    have hdifferent : c.label ≠ d.label := hne
    omega

/-- A search answers with what the tree finds; where it does not look at all, there is
nothing to find. -/
theorem Index.Holds.search_eq {index : Index S E} {vs : List (Array E)} (h : index.Holds vs)
    (query : Array E) (k : Nat) (accept : Nat → Bool) :
    index.search query k accept = (index.checkQuery query).map fun _ =>
      index.hits (index.nearest query k accept) := by
  rw [Index.search]
  cases index.checkQuery query with
  | error e => rfl
  | ok u =>
      dsimp only [bind, Except.bind, Except.map]
      split
      · rename_i hnone
        obtain ⟨hfinds, hlength⟩ := h.nearest_finds query k accept
        have hempty : index.nearest query k accept = [] := by
          rcases hnone with rfl | hnone
          · exact List.eq_nil_of_length_eq_zero (Nat.le_zero.1 hlength)
          · refine List.eq_nil_iff_forall_not_mem.2 fun c hc => ?_
            have hlt := hfinds.size c hc
            rw [← h.total, hnone] at hlt
            exact Nat.not_lt_zero _ hlt
        rw [hempty]
        rfl
      · rfl

/-- A search of a tree answers with different acceptable positions, and
refuses queries of another width. -/
theorem Index.Holds.search {index : Index S E} {vs : List (Array E)} (h : index.Holds vs)
    (query : Array E) (k : Nat) (accept : Nat → Bool) :
    (query.size = index.unitLength → ∃ positions,
      Answers index.space vs query k accept positions ∧
        index.search query k accept = .ok (hitsAt index.space vs query id positions)) ∧
    (query.size ≠ index.unitLength →
      index.search query k accept = .error (.dimensionMismatch index.unitLength query.size)) := by
  constructor
  · intro hwidth
    obtain ⟨hfinds, hlength⟩ := h.nearest_finds query k accept
    refine ⟨_, answers_of_finds hfinds hlength, ?_⟩
    have hhits : index.hits (index.nearest query k accept) =
        hitsAt index.space vs query id ((index.nearest query k accept).map (·.label)) := by
      rw [hits, hitsAt, List.map_map]
      refine List.map_congr_left fun c hc => ?_
      rw [hfinds.cost c hc]
      rfl
    rw [h.search_eq, checkQuery, if_pos hwidth, hhits]
    rfl
  · intro hwidth
    simp [Index.search, checkQuery, hwidth, bind, Except.bind]

/-- A search of an id map filters by the ids of the positions and answers with them. -/
theorem IdMap.search_of_holds {m : IdMap S E} {vs : List (Array E)} (h : m.index.Holds vs)
    {query : Array E} (hwidth : query.size = m.index.unitLength) (k : Nat)
    (accept : Int64 → Bool) :
    ∃ positions,
      Answers m.index.space vs query k (fun i => accept (m.ids.toList[i]?.getD 0)) positions ∧
        m.search query k accept =
          .ok (hitsAt m.index.space vs query (fun i => m.ids.toList[i]?.getD 0) positions) := by
  have hname : m.idOf = fun i => m.ids.toList[i]?.getD 0 := by
    funext i
    rw [IdMap.idOf, Array.getElem?_toList]
  obtain ⟨positions, hanswers, hsearch⟩ := (h.search query k (accept ∘ m.idOf)).1 hwidth
  refine ⟨positions, by rw [hname] at hanswers; exact hanswers, ?_⟩
  rw [IdMap.search, hsearch]
  simp [Functor.map, Except.map, IdMap.withIds, hitsAt, hname]

end Proximity

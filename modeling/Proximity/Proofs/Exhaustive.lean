import Proximity.Proofs.SearchContract

/-!
# Trees whose searches are exact

Flat storage looks at every vector.  An inverted file does so too if it looks at
every list, since each vector is in one list, and it looks at every list if its
quantizer ranks all centroids and as many lists are probed as there are.  A
composite over such a tree fetches at least as many candidates as were asked for,
and ranks them by the costs that its base ranked them by.

So a search of such a tree is the ranking of all acceptable vectors, cut off, and
what the tree is made of cannot be told from its answers, not even where costs are
tied.

## Main definitions

* `ranking` — the acceptable positions of a list of vectors, best first.
* `Index.Exhaustive` — the trees that look at every vector.
* `Index.Seated` — lists that hold vectors have a centroid each.
* `Index.Evolved` — the histories.

## Main results

* `Index.Holds.nearest_eq`, `Index.Holds.within_eq` — searches of exhaustive trees.
* `Index.Evolved.holds`, `Index.Evolved.seated` — what histories keep.
* `exhaustive_searches_exact` — exhaustive trees answer with the ranking.
-/

namespace Proximity

variable {S E : Type} [Space S E]

/-- The acceptable positions of a list of vectors with what the vectors there cost
for a query, ordered by cost and then by position. -/
def ranking (space : S) (vs : List (Array E)) (query : Array E) (accept : Nat → Bool) :
    List Candidate :=
  Candidate.ranked (candidatesAt space vs query accept)

/-- The positions are all in the ranking, once each. -/
theorem ranking_labels_perm (space : S) (vs : List (Array E)) (query : Array E)
    (accept : Nat → Bool) :
    ((ranking space vs query accept).map (·.label)).Perm
      ((List.range vs.length).filter accept) := by
  refine ((Candidate.ranked_perm _).map _).trans ?_
  rw [candidatesAt, List.map_map]
  exact .of_eq (List.map_id _)

namespace Index

/-! ## Exhaustive trees -/

omit [Space S E] in
/-- The tree looks at every vector: flat storage, an inverted file that probes all
its lists over such a tree, or a composite of such a tree. -/
def Exhaustive : Index S E → Prop
  | .flat _ => True
  | .graph _ => False
  | .invertedFile f quantizer => quantizer.Exhaustive ∧ f.listCount ≤ f.probes
  | .composite base _ _ => base.Exhaustive

omit [Space S E] in
/-- Every inverted file of the tree that holds vectors has as many centroids as
lists. -/
def Seated : Index S E → Prop
  | .flat _ | .graph _ => True
  | .invertedFile f quantizer =>
    quantizer.Seated ∧ (f.total ≠ 0 → quantizer.total = f.listCount)
  | .composite base _ _ => base.Seated

variable {index : Index S E} {vs : List (Array E)}

/-- The lists that are probed, if all are and there is a centroid to each, are all
lists. -/
private theorem probed_perm {f : InvertedFile S E} {quantizer : Index S E}
    {centroids : List (Array E)} {query : Array E} (hall : f.listCount ≤ f.probes)
    (hfull : centroids.length = f.listCount)
    (hnearest : quantizer.nearest query f.probeCount (fun _ => true) =
      (ranking quantizer.space centroids query fun _ => true).take f.probeCount) :
    ((quantizer.nearest query f.probeCount fun _ => true).map (·.label)).Perm
      (List.range f.listCount) := by
  have hlabels := ranking_labels_perm quantizer.space centroids query fun _ => true
  rw [List.filter_eq_self.2 fun _ _ => rfl, hfull] at hlabels
  have hlength : (ranking quantizer.space centroids query fun _ => true).length =
      f.listCount := by
    have hcount := hlabels.length_eq
    rwa [List.length_map, List.length_range] at hcount
  rw [hnearest, InvertedFile.probeCount, Nat.min_eq_right hall,
    List.take_of_length_le (Nat.le_of_eq hlength)]
  exact hlabels

/-- What the lists that are probed offer is what there is. -/
private theorem candidates_perm_of_seated {f : InvertedFile S E} {quantizer : Index S E}
    {centroids : List (Array E)} (hf : f.Holds vs) (hq : quantizer.Holds centroids)
    (hseated : f.total ≠ 0 → quantizer.total = f.listCount) (hall : f.listCount ≤ f.probes)
    {query : Array E} (hnearest : quantizer.nearest query f.probeCount (fun _ => true) =
      (ranking quantizer.space centroids query fun _ => true).take f.probeCount)
    (accept : Nat → Bool) :
    (f.candidates ((quantizer.nearest query f.probeCount fun _ => true).map (·.label)) query
      accept).Perm (candidatesAt f.space vs query accept) := by
  by_cases hempty : f.total = 0
  · obtain rfl : vs = [] := List.length_eq_zero_iff.1 (hf.total.symm.trans hempty)
    rw [hf.candidates_eq_nil]
    exact .refl _
  · have hfull : centroids.length = f.listCount := hq.total.symm.trans (hseated hempty)
    exact hf.candidates_perm (probed_perm hall hfull hnearest) query accept

/-- A search of an exhaustive tree is the ranking of all acceptable positions, cut
off. -/
theorem Holds.nearest_eq (h : index.Holds vs) (hseated : index.Seated)
    (hexhaustive : index.Exhaustive) (query : Array E) (k : Nat) (accept : Nat → Bool) :
    index.nearest query k accept = (ranking index.space vs query accept).take k := by
  induction index generalizing vs k accept with
  | flat f =>
      have hf : f.Holds vs := h
      rw [nearest, Flat.nearest, hf.candidates_eq, Best.collect_eq_take_ranked]
      rfl
  | graph g => exact hexhaustive.elim
  | invertedFile f quantizer ih =>
      obtain ⟨hf, centroids, hq⟩ := h
      have hnearest := ih hq hseated.1 hexhaustive.1 f.probeCount fun _ => true
      have hperm := candidates_perm_of_seated hf hq hseated.2 hexhaustive.2 hnearest accept
      rw [nearest, InvertedFile.nearest, Best.collect_eq_take_ranked,
        Candidate.ranked_eq_of_perm hperm]
      rfl
  | composite base copies factor ih =>
      rw [h.nearest_composite, ih h.1 hseated hexhaustive, List.take_take,
        Nat.min_eq_left (le_fetchCount factor k)]
      rfl

/-- A search below a cost of an exhaustive tree is what the ranking has below that
cost. -/
theorem Holds.within_eq (h : index.Holds vs) (hseated : index.Seated)
    (hexhaustive : index.Exhaustive) (query : Array E) (bound : Single) (accept : Nat → Bool) :
    index.within query bound accept =
      (ranking index.space vs query accept).filter fun c => c.cost.lt bound := by
  rw [ranking, ← Candidate.ranked_filter]
  cases index with
  | flat f =>
      have hf : f.Holds vs := h
      rw [within, Flat.within, hf.candidates_eq]
      rfl
  | graph g => exact hexhaustive.elim
  | invertedFile f quantizer =>
      obtain ⟨hf, centroids, hq⟩ := h
      have hnearest := hq.nearest_eq hseated.1 hexhaustive.1 query f.probeCount fun _ => true
      have hperm := candidates_perm_of_seated hf hq hseated.2 hexhaustive.2 hnearest accept
      exact Candidate.ranked_eq_of_perm (hperm.filter _)
  | composite base copies factor =>
      obtain ⟨-, hcopies, hspace, -⟩ := h
      rw [within, Flat.within, hcopies.candidates_eq, hspace]
      rfl

/-! ## Seats -/

omit [Space S E] in
/-- An inverted file stays seated over another quantizer of as many centroids. -/
private theorem Seated.invertedFile {f f' : InvertedFile S E} {quantizer quantizer' : Index S E}
    (h : (Index.invertedFile f quantizer).Seated) (hcount : f'.listCount = f.listCount)
    (htotal : f'.total = f.total) (hstock : quantizer'.total = quantizer.total)
    (hquantizer : quantizer'.Seated) : (Index.invertedFile f' quantizer').Seated := by
  refine ⟨hquantizer, fun hsome => ?_⟩
  rw [hstock, hcount]
  exact h.2 (htotal ▸ hsome)

/-- What was just constructed holds nothing that needs a centroid. -/
theorem Constructed.seated (h : index.Constructed) : index.Seated := by
  apply h.steps (motive := Seated)
  · intro _ _ _ _ _
    trivial
  · intro _ _ _ _ _ _ _ _ _ _ _
    trivial
  · intro quantizer index listCount clustering _ hq _ _ hover
    obtain ⟨-, -, unitLength, -, rfl⟩ := invertedFileOver_eq_ok_iff.1 hover
    exact ⟨hq, fun hsome => absurd rfl hsome⟩
  · intro base index _ hbase hover
    obtain ⟨-, copies, -, rfl⟩ := compositeOver_eq_ok_iff.1 hover
    exact hbase

/-- Vectors are accepted only when there are centroids for them. -/
theorem Seated.append (h : index.Seated) (elements : Array E) :
    (index.append elements).1.Seated := by
  refine append_induction (motive := fun a b => a.Seated → b.Seated) elements ?refl ?flat ?graph
    ?file ?composite index h
  case refl => exact fun index h => h
  case flat => exact fun f data h => trivial
  case graph => exact fun g hwhole h => trivial
  case file =>
    intro f quantizer chosen htrained h
    refine ⟨h.1, fun _ => ?_⟩
    rw [InvertedFile.insertAll_eq]
    exact htrained
  case composite => exact fun base base' copies data factor ih h => ih h

/-- Centroids are only learned while there are none, and then there are no
vectors. -/
theorem Seated.train (h : index.Seated) (sample : Array E) :
    (index.train sample).1.Seated := by
  refine train_induction (motive := fun a b => a.Seated → b.Seated) ?refl ?file ?composite index
    sample h
  case refl => exact fun index h => h
  case file =>
    exact fun f quantizer centroids huntrained h =>
      ⟨Seated.append h.1 centroids, fun hsome => absurd (h.2 hsome) huntrained⟩
  case composite => exact fun base base' copies factor hstock ih h => ih h

omit [Space S E] in
theorem Seated.tune (h : index.Seated) (ps : Parameters) : (index.tune ps).1.Seated := by
  refine tune_induction (motive := fun a b => a.Seated → b.Seated) ?refl ?graph ?file ?composite
    index ps h
  case refl => exact fun index h => h
  case graph => exact fun g g' ps htune h => trivial
  case file =>
    exact fun f quantizer quantizer' ps probes nested hread hstock ih h =>
      h.invertedFile rfl rfl hstock.total (ih h.1)
  case composite => exact fun base base' copies factor ps asked hfactor hstock ih h => ih h

omit [Space S E] in
/-- A change of a node that keeps its stock and its seats keeps those of the
tree. -/
theorem Seated.changeAt {A : Type} {change : Index S E → Index S E × A}
    (hsame : ∀ index, SameStock index (change index).1)
    (hchange : ∀ index, index.Seated → (change index).1.Seated) (h : index.Seated)
    {path : List Child} {r : Index S E × A} (hr : index.changeAt change path = some r) :
    r.1.Seated := by
  have hkeeps : index.Seated → r.1.Seated := by
    refine changeAt_sameStock_induction (motive := fun a b => a.Seated → b.Seated) hsame hchange
      ?_ ?_ hr
    · exact fun _ _ _ _ _ hbase => hbase
    · intro f quantizer quantizer' hstock hq hall
      exact hall.invertedFile rfl rfl hstock.total (hq hall.1)
  exact hkeeps h

/-! ## Histories -/

/-- The index was constructed empty, was changed at its root or further down in
whatever way callers can, and has accepted the vectors of the list, in this
order. -/
inductive Evolved : Index S E → List (Array E) → Prop where
  | empty {index : Index S E} : index.Constructed → Evolved index []
  | append {index index' : Index S E} {vs : List (Array E)} {elements : Array E} :
      Evolved index vs → index.append elements = (index', .ok ()) →
      Evolved index' (vs ++ vectorsOf index.unitLength elements)
  | refused {index index' : Index S E} {vs : List (Array E)} {elements : Array E} {e : Error} :
      Evolved index vs → index.append elements = (index', .error e) → Evolved index' vs
  | train {index : Index S E} {vs : List (Array E)} {path : List Child} {sample : Array E}
      {r : Index S E × Except Error Unit} :
      Evolved index vs → index.changeAt (·.train sample) path = some r → Evolved r.1 vs
  | tune {index : Index S E} {vs : List (Array E)} {path : List Child} {ps : Parameters}
      {r : Index S E × Except Error Unit} :
      Evolved index vs → index.changeAt (·.tune ps) path = some r → Evolved r.1 vs

/-- An index holds what it has accepted, whatever has become of its nodes. -/
theorem Evolved.holds (h : index.Evolved vs) : index.Holds vs := by
  induction h with
  | empty hconstructed => exact hconstructed.holds
  | append _ happend ih => exact ih.append happend
  | refused _ happend ih => exact ih.aligned.eq_of_append_eq_error happend ▸ ih
  | train _ hr ih =>
      exact ih.changeAt (fun index => train_sameStock index _) (fun _ _ hvs => hvs.train _) hr
  | tune _ hr ih =>
      exact ih.changeAt (fun index => tune_sameStock index _) (fun _ _ hvs => hvs.tune _) hr

theorem Evolved.seated (h : index.Evolved vs) : index.Seated := by
  induction h with
  | empty hconstructed => exact hconstructed.seated
  | @append _ _ _ elements _ happend ih =>
      have hseated := ih.append elements
      rwa [happend] at hseated
  | @refused _ _ _ elements _ _ happend ih =>
      have hseated := ih.append elements
      rwa [happend] at hseated
  | train _ hr ih =>
      exact ih.changeAt (fun index => train_sameStock index _) (fun _ hi => hi.train _) hr
  | tune _ hr ih =>
      exact ih.changeAt (fun index => tune_sameStock index _) (fun _ hi => hi.tune _) hr

omit [Space S E] in
/-- A change of a node that keeps its stock keeps that of the root. -/
theorem sameStock_changeAt {A : Type} {change : Index S E → Index S E × A}
    (hsame : ∀ index, SameStock index (change index).1) {path : List Child}
    {r : Index S E × A} (hr : index.changeAt change path = some r) : SameStock index r.1 :=
  changeAt_sameStock_induction (motive := SameStock) hsame hsame
    (fun _ _ _ _ hstock _ => .composite hstock.toSameWidth _ _ _)
    (fun _ _ _ _ _ => ⟨⟨rfl, rfl, rfl⟩, rfl⟩) hr

/-- The vectors that were accepted are as wide as the index. -/
theorem Evolved.size_of_mem (h : index.Evolved vs) : ∀ v ∈ vs, v.size = index.unitLength := by
  induction h with
  | empty _ => exact fun v hv => absurd hv List.not_mem_nil
  | @append index index' vs elements _ happend ih =>
      have hwidth := (append_sameWidth index elements).unitLength
      rw [happend] at hwidth
      intro v hv
      rw [hwidth]
      rcases List.mem_append.1 hv with hv | hv
      · exact ih v hv
      · exact size_of_mem_vectorsOf hv
  | @refused index index' vs elements _ _ happend ih =>
      have hwidth := (append_sameWidth index elements).unitLength
      rw [happend] at hwidth
      intro v hv
      rw [hwidth]
      exact ih v hv
  | train _ hr ih =>
      intro v hv
      rw [(sameStock_changeAt (fun index => train_sameStock index _) hr).unitLength]
      exact ih v hv
  | tune _ hr ih =>
      intro v hv
      rw [(sameStock_changeAt (fun index => tune_sameStock index _) hr).unitLength]
      exact ih v hv

/-! ## Answers -/

/-- A search of an exhaustive tree answers with the first of the ranking. -/
private theorem search_eq_of_exhaustive (h : index.Evolved vs) (hexhaustive : index.Exhaustive)
    (query : Array E) (k : Nat) (accept : Nat → Bool) :
    index.search query k accept = (index.checkQuery query).map fun _ =>
      index.hits ((ranking index.space vs query accept).take k) := by
  rw [h.holds.search_eq, h.holds.nearest_eq h.seated hexhaustive]

/-- A search within a distance answers with what the ranking has below its cost. -/
private theorem searchRange_eq_of_exhaustive (h : index.Evolved vs)
    (hexhaustive : index.Exhaustive) (query : Array E) (radius : Single) (accept : Nat → Bool) :
    index.searchRange query radius accept = (index.checkQuery query).map fun _ =>
      index.hits ((ranking index.space vs query accept).filter fun c =>
        c.cost.lt (Space.toCost index.space radius)) := by
  rw [searchRange, h.holds.within_eq h.seated hexhaustive]
  cases index.checkQuery query <;> rfl

/-- Indexes over the same vectors are as wide as these, if there are any. -/
private theorem unitLength_eq_of_evolved {other : Index S E} (h : index.Evolved vs)
    (hother : other.Evolved vs) (hempty : vs = [] → index.unitLength = other.unitLength) :
    index.unitLength = other.unitLength := by
  cases vs with
  | nil => exact hempty rfl
  | cons v vs =>
      exact (h.size_of_mem v List.mem_cons_self).symm.trans
        (hother.size_of_mem v List.mem_cons_self)

end Index

/-- **Exhaustive trees are exact.**  After any history, flat storage, an inverted file
that probes all its lists over an exhaustive quantizer and a composite of an
exhaustive base, nested to any depth, answer a query with the ranking of all
acceptable vectors, cut off or kept to what is below the cost of the radius.  So two
such trees over the same vectors cannot be told apart by their answers. -/
theorem exhaustive_searches_exact :
    (∀ (index : Index S E) (vs : List (Array E)), index.Evolved vs → index.Exhaustive →
      ∀ (query : Array E) (accept : Nat → Bool),
        (∀ k, index.nearest query k accept = (ranking index.space vs query accept).take k ∧
          index.search query k accept = (index.checkQuery query).map fun _ =>
            index.hits ((ranking index.space vs query accept).take k)) ∧
        ∀ radius, index.searchRange query radius accept = (index.checkQuery query).map fun _ =>
          index.hits ((ranking index.space vs query accept).filter fun c =>
            c.cost.lt (Space.toCost index.space radius))) ∧
    ∀ (a b : Index S E) (vs : List (Array E)), a.Evolved vs → a.Exhaustive → b.Evolved vs →
      b.Exhaustive → a.space = b.space → (vs = [] → a.unitLength = b.unitLength) →
      ∀ (query : Array E) (accept : Nat → Bool),
        (∀ k, a.search query k accept = b.search query k accept) ∧
        ∀ radius, a.searchRange query radius accept = b.searchRange query radius accept := by
  constructor
  · intro index vs h hexhaustive query accept
    refine ⟨fun k => ⟨h.holds.nearest_eq h.seated hexhaustive query k accept, ?_⟩, fun radius => ?_⟩
    · exact Index.search_eq_of_exhaustive h hexhaustive query k accept
    · exact Index.searchRange_eq_of_exhaustive h hexhaustive query radius accept
  · intro a b vs ha haExhaustive hb hbExhaustive hspace hempty query accept
    have hwidth := Index.unitLength_eq_of_evolved ha hb hempty
    have hcheck : a.checkQuery query = b.checkQuery query := by
      rw [Index.checkQuery, Index.checkQuery, hwidth]
    have hhits : a.hits = b.hits := by
      funext cs
      rw [Index.hits, Index.hits, hspace]
    refine ⟨fun k => ?_, fun radius => ?_⟩
    · rw [Index.search_eq_of_exhaustive ha haExhaustive,
        Index.search_eq_of_exhaustive hb hbExhaustive, hcheck, hhits, hspace]
    · rw [Index.searchRange_eq_of_exhaustive ha haExhaustive,
        Index.searchRange_eq_of_exhaustive hb hbExhaustive, hcheck, hhits, hspace]

/-- A composite over an inverted file of one list, of bit vectors of eight
dimensions. -/
def oneListComposite (centroids : Array UInt8) (list : PostingList UInt8)
    (copies : Array UInt8) : Index BinarySpace UInt8 :=
  .composite
    (.invertedFile ⟨⟨⟩, 8, 1, 1, 1, .standard, #[list], list.labels.size⟩
      (.flat ⟨⟨⟩, 8, 1, centroids⟩))
    ⟨⟨⟩, 8, 1, copies⟩ .one

/-- It is constructed empty and learns a centroid. -/
theorem oneListComposite_trained : (oneListComposite #[5] ⟨#[], #[]⟩ #[]).Evolved [] := by
  have hflat : (Index.flat (⟨⟨⟩, 8, 1, #[]⟩ : Flat BinarySpace UInt8)).Constructed :=
    .flat (by decide : 8 < Count.bound) rfl
  have hfits : ClusteringSettings.standard.Fits := ⟨by decide, by decide, by decide⟩
  have hfile : (Index.invertedFile ⟨⟨⟩, 8, 1, 1, 1, .standard, #[⟨#[], #[]⟩], 0⟩
      (.flat (⟨⟨⟩, 8, 1, #[]⟩ : Flat BinarySpace UInt8))).Constructed :=
    .invertedFile hflat (by decide : 1 < Count.bound) hfits rfl
  have hempty : (oneListComposite #[] ⟨#[], #[]⟩ #[]).Evolved [] := .empty (.composite hfile rfl)
  have htrain : ((oneListComposite #[] ⟨#[], #[]⟩ #[]).train #[5]).1 =
      oneListComposite #[5] ⟨#[], #[]⟩ #[] := by decide +kernel
  have hchange : (oneListComposite #[] ⟨#[], #[]⟩ #[]).changeAt (·.train #[5]) [] =
      some ((oneListComposite #[] ⟨#[], #[]⟩ #[]).train #[5]) := rfl
  have htrained := hempty.train hchange
  rwa [htrain] at htrained

/-- It accepts three vectors, two of them equal. -/
theorem oneListComposite_evolved :
    (oneListComposite #[5] ⟨#[0, 1, 2], #[3, 1, 3]⟩ #[3, 1, 3]).Evolved [#[3], #[1], #[3]] := by
  have happend : (oneListComposite #[5] ⟨#[], #[]⟩ #[]).append #[3, 1, 3] =
      (oneListComposite #[5] ⟨#[0, 1, 2], #[3, 1, 3]⟩ #[3, 1, 3], .ok ()) := rfl
  exact oneListComposite_trained.append happend

/-- Of equal vectors the first one is first, whatever the tree. -/
theorem exhaustive_searches_exact_tied :
    (oneListComposite #[5] ⟨#[0, 1, 2], #[3, 1, 3]⟩ #[3, 1, 3]).Evolved [#[3], #[1], #[3]] ∧
      (oneListComposite #[5] ⟨#[0, 1, 2], #[3, 1, 3]⟩ #[3, 1, 3]).search #[3] 2 (fun _ => true) =
        .ok [⟨0, .zero⟩, ⟨2, .zero⟩] := by
  refine ⟨oneListComposite_evolved, ?_⟩
  have hexact := exhaustive_searches_exact.1 _ _ oneListComposite_evolved
    ⟨trivial, Nat.le_refl 1⟩ #[3] fun _ => true
  have hranking : (ranking (⟨⟩ : BinarySpace) [#[3], #[1], #[3]] #[3] fun _ => true).take 2 =
      [⟨.zero, 0⟩, ⟨.zero, 2⟩] := by
    rw [ranking, ← Best.collect_eq_take_ranked]
    decide +kernel
  rw [(hexact.1 2).2]
  exact congrArg (fun cs => Except.ok (Index.hits _ cs)) hranking

end Proximity

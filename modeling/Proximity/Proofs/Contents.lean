import Proximity.Proofs.Growth
import Proximity.Proofs.PostingLists

/-!
# What an index tree holds

A tree holds a list of vectors if each node keeps them in its own way: flat
storage back to back, a graph in its storage with a node for each, an inverted
file spread over its lists, a composite twice.  The quantizer of an inverted
file holds centroids, whatever they are.

An accepted append puts its vectors after the others, and nothing else changes
what a tree holds.  A search of any tree returns different positions, ranked
by the cost of the vector at the position: every kind of node keeps that
promise, given that its child does.

## Main results

* `Index.Holds` — the vectors that a tree holds.
* `Index.Holds.append`, `Index.Holds.train`, `Index.Holds.tune`,
  `Index.Holds.changeAt` — changes.
* `Index.Holds.nearest_finds`, `Index.Holds.nearest_composite` — searches.
-/

namespace Proximity

variable {S E : Type}

/-! ## Graphs -/

namespace Graph

/-- The storage holds the vectors, and there is a node for each. -/
structure Holds (g : Graph S E) (vs : List (Array E)) : Prop where
  storage : g.storage.Holds vs
  nodes : g.links.nodes.size = vs.length

variable [Space S E]

theorem size_foldl_insertNode (g : Graph S E) (nodes : List Nat) :
    (nodes.foldl insertNode g).links.nodes.size = g.links.nodes.size + nodes.length := by
  induction nodes generalizing g with
  | nil => rfl
  | cons node nodes ih =>
      rw [List.foldl_cons, ih, insertNode, Links.size_insert, List.length_cons]
      omega

/-- Whole vectors that are appended are held after the others. -/
theorem Holds.append {g : Graph S E} {vs : List (Array E)} (h : g.Holds vs)
    {elements : Array E} (hwhole : elements.size % g.storage.unitLength = 0) :
    (g.append elements).1.Holds (vs ++ vectorsOf g.storage.unitLength elements) := by
  have hstorage : ({ g.storage with data := g.storage.data ++ elements } : Flat S E).Holds
      (vs ++ vectorsOf g.storage.unitLength elements) := by
    rcases h.storage.append elements with ⟨-, -, hnew⟩ | ⟨hnot, -⟩
    · exact hnew
    · exact absurd hwhole hnot
  have htotal := hstorage.total
  rw [g.append_eq_of_whole hwhole]
  constructor
  · rw [foldl_insertNode_eq]
    exact hstorage
  · rw [size_foldl_insertNode, List.length_range', htotal, h.storage.total]
    rw [List.length_append, h.nodes]
    omega

end Graph

namespace Index

/-! ## Trees -/

/-- Every node of a tree holds the vectors `vs` in its own way. -/
def Holds : Index S E → List (Array E) → Prop
  | .flat f, vs => f.Holds vs
  | .graph g, vs => g.Holds vs
  | .invertedFile f quantizer, vs => f.Holds vs ∧ ∃ centroids, quantizer.Holds centroids
  | .composite base copies _, vs =>
    base.Holds vs ∧ copies.Holds vs ∧ copies.space = base.space ∧
      copies.unitLength = base.unitLength

variable {index : Index S E} {vs : List (Array E)}

theorem Holds.total (h : index.Holds vs) : index.total = vs.length := by
  cases index with
  | flat f => exact Flat.Holds.total h
  | graph g => exact h.storage.total
  | invertedFile f quantizer => exact h.1.total
  | composite base copies factor => exact h.2.1.total

theorem Holds.aligned (h : index.Holds vs) : index.Aligned := by
  induction index with
  | flat f => trivial
  | graph g => trivial
  | invertedFile f quantizer => trivial
  | composite base copies factor ih => exact ⟨ih h.1, h.2.2.2⟩

variable [Space S E]

/-! ## Searches -/

/-- A search of a tree returns at most as many positions as were asked for,
ranked by the cost of the vectors at these positions. -/
theorem Holds.nearest_finds (h : index.Holds vs) (query : Array E) (k : Nat)
    (accept : Nat → Bool) :
    Candidate.Finds vs.length (costAt index.space vs query) accept
        (index.nearest query k accept) ∧
      (index.nearest query k accept).length ≤ k := by
  induction index generalizing vs k accept with
  | flat f =>
      have hfinds := f.nearest_finds query k accept
      exact ⟨hfinds.1.congr h.total fun l hl => h.cost_eq query hl, hfinds.2⟩
  | graph g =>
      have hfinds := g.links.nearest_finds (g.storage.costTo query) g.searchWidth k accept
      exact ⟨hfinds.1.congr h.nodes fun l hl => h.storage.cost_eq query hl, hfinds.2⟩
  | invertedFile f quantizer ih =>
      obtain ⟨hf, centroids, hq⟩ := h
      have hprobed := (ih hq f.probeCount fun _ => true).1.nodup
      exact hf.nearest_finds hprobed query k accept
  | composite base copies factor ih =>
      obtain ⟨hbase, hcopies, hspace, -⟩ := h
      have hfinds := (ih hbase (fetchCount factor k) accept).1
      have hcost : ∀ l < vs.length, copies.costTo query l =
          costAt base.space vs query l := by
        intro l hl
        rw [← hspace]
        exact hcopies.cost_eq query hl
      apply Best.collect_finds
      · rw [List.map_map]
        exact hfinds.nodup
      · intro c hc
        obtain ⟨d, hd, rfl⟩ := List.mem_map.1 hc
        exact hfinds.size d hd
      · intro c hc
        obtain ⟨d, hd, rfl⟩ := List.mem_map.1 hc
        exact hcost d.label (hfinds.size d hd)
      · intro c hc
        obtain ⟨d, hd, rfl⟩ := List.mem_map.1 hc
        exact hfinds.accept d hd

omit [Space S E] in
/-- A composite fetches no fewer candidates than it was asked for, whatever becomes of
the product. -/
theorem le_fetchCount (factor : Single) (k : Nat) : k ≤ fetchCount factor k :=
  Nat.le_max_right _ _

/-- The copies of a composite give the candidates of the base the costs that they
have. -/
private theorem map_copies {copies : Flat S E} (hcopies : copies.Holds vs) {query : Array E}
    {accept : Nat → Bool} {fetched : List Candidate}
    (hfetched : Candidate.Finds vs.length (costAt copies.space vs query) accept fetched) :
    (fetched.map fun c => ⟨copies.costTo query c.label, c.label⟩) = fetched := by
  refine (List.map_congr_left fun c hc => ?_).trans (List.map_id fetched)
  have hcost := (hfetched.cost c hc).trans (hcopies.cost_eq query (hfetched.size c hc)).symm
  rw [← hcost]
  rfl

/-- A composite finds the first of what its base finds, with the costs that the base
gives them. -/
theorem Holds.nearest_composite {base : Index S E} {copies : Flat S E} {factor : Single}
    (h : (Index.composite base copies factor).Holds vs) (query : Array E) (k : Nat)
    (accept : Nat → Bool) :
    (Index.composite base copies factor).nearest query k accept =
      (base.nearest query (fetchCount factor k) accept).take k := by
  obtain ⟨hbase, hcopies, hspace, -⟩ := h
  have hfetched := (hbase.nearest_finds query (fetchCount factor k) accept).1
  rw [← hspace] at hfetched
  rw [nearest, map_copies hcopies hfetched, Best.collect_eq_take_ranked,
    hfetched.sorted.ranked_eq]

/-- The list chosen for a vector exists if there are as many lists as
centroids. -/
theorem Holds.listFor_lt (h : index.Holds vs) (hvs : 0 < vs.length) (v : Array E) :
    index.listFor v < vs.length := by
  have hfinds := (h.nearest_finds v 1 fun _ => true).1
  rw [listFor]
  split
  · exact hvs
  · rename_i c rest hnearest
    exact hfinds.size c (by rw [hnearest]; exact List.mem_cons_self)

/-! ## Changes -/

/-- An accepted append puts each vector into a list that exists, the one chosen for it,
and leaves the quantizer alone. -/
theorem Holds.append_invertedFile {f : InvertedFile S E} {quantizer index' : Index S E}
    (h : (Index.invertedFile f quantizer).Holds vs) {elements : Array E}
    (happend : (Index.invertedFile f quantizer).append elements = (index', .ok ())) :
    (∀ v, quantizer.listFor v < f.listCount) ∧ index' = .invertedFile
      (f.insertAll ((vectorsOf f.unitLength elements).map fun v => (quantizer.listFor v, v)))
      quantizer := by
  obtain ⟨htrained, hwhole⟩ := h.aligned.of_append_eq_ok happend
  have hfull : quantizer.total = f.listCount := by simpa [isTrained] using htrained
  obtain ⟨hf, centroids, hq⟩ := h
  have hcount : centroids.length = f.listCount := hq.total.symm.trans hfull
  rw [append_invertedFile_of_whole f hfull hwhole] at happend
  exact ⟨fun v => hcount ▸ hq.listFor_lt (hcount ▸ hf.nonempty) v, (Prod.mk.inj happend).1.symm⟩

/-- Vectors that are accepted are held after the others. -/
theorem Holds.append {index' : Index S E} (h : index.Holds vs) {elements : Array E}
    (happend : index.append elements = (index', .ok ())) :
    index'.Holds (vs ++ vectorsOf index.unitLength elements) := by
  obtain ⟨htrained, hwhole⟩ := h.aligned.of_append_eq_ok happend
  induction index generalizing index' vs with
  | flat f =>
      rcases Flat.Holds.append h elements with ⟨-, heq, hnew⟩ | ⟨hnot, -⟩
      · simp only [Index.append, heq] at happend
        rw [← (Prod.mk.inj happend).1]
        exact hnew
      · exact absurd hwhole hnot
  | graph g =>
      simp only [Index.append] at happend
      rw [← (Prod.mk.inj happend).1]
      exact Graph.Holds.append h hwhole
  | invertedFile f quantizer =>
      obtain ⟨hlists, rfl⟩ := h.append_invertedFile happend
      exact ⟨h.1.insertChosen hlists elements, h.2⟩
  | composite base copies factor ih =>
      obtain ⟨hcopies, base', hbase, rfl⟩ := h.aligned.append_composite happend
      obtain ⟨hb, hc, hspace, hwidth⟩ := h
      have hsame := append_sameWidth base elements
      rw [hbase] at hsame
      have hcopiesNew := hc.append elements
      rcases hcopiesNew with ⟨-, -, hnew⟩ | ⟨hnot, -⟩
      · have hcut : vectorsOf copies.unitLength elements = vectorsOf base.unitLength elements :=
          congrArg (vectorsOf · elements) hwidth
        rw [hcut] at hnew
        exact ⟨ih hb hbase htrained hwhole, hnew, hspace.trans hsame.space.symm,
          hwidth.trans hsame.unitLength.symm⟩
      · exact absurd hcopies hnot

/-- An append, accepted or not, leaves a tree that holds something. -/
theorem Holds.append_exists (h : index.Holds vs) (elements : Array E) :
    ∃ ws, (index.append elements).1.Holds ws := by
  cases happend : index.append elements with
  | mk index' outcome =>
      cases outcome with
      | ok u => exact ⟨_, h.append happend⟩
      | error e =>
          rw [h.aligned.eq_of_append_eq_error happend]
          exact ⟨vs, h⟩

omit [Space S E] in
/-- A change of the base that keeps its widths and what it holds. -/
theorem Holds.composite {base base' : Index S E} {copies : Flat S E} {factor : Single}
    (h : (Index.composite base copies factor).Holds vs) (hsame : SameWidth base base')
    (hbase : base'.Holds vs) (factor' : Single) :
    (Index.composite base' copies factor').Holds vs :=
  ⟨hbase, h.2.1, h.2.2.1.trans hsame.space.symm, h.2.2.2.trans hsame.unitLength.symm⟩

/-- A training leaves the vectors alone. -/
theorem Holds.train (h : index.Holds vs) (sample : Array E) :
    (index.train sample).1.Holds vs := by
  refine train_induction (motive := fun a b => ∀ vs, a.Holds vs → b.Holds vs) ?refl ?file
    ?composite index sample vs h
  case refl => exact fun index vs h => h
  case file =>
    rintro f quantizer centroids huntrained vs ⟨hf, stored, hq⟩
    exact ⟨hf, hq.append_exists centroids⟩
  case composite =>
    intro base base' copies factor hstock ih vs h
    exact h.composite hstock.toSameWidth (ih vs h.1) factor

omit [Space S E] in
/-- A tuning leaves the vectors alone. -/
theorem Holds.tune (h : index.Holds vs) (ps : Parameters) : (index.tune ps).1.Holds vs := by
  refine tune_induction (motive := fun a b => ∀ vs, a.Holds vs → b.Holds vs) ?refl ?graph ?file
    ?composite index ps vs h
  case refl => exact fun index vs h => h
  case graph =>
    intro g g' ps htune vs h
    obtain ⟨_, _, rfl⟩ := eq_of_tuneGraph htune
    exact ⟨h.storage, h.nodes⟩
  case file =>
    rintro f quantizer quantizer' ps probes nested hread hstock ih vs ⟨hf, centroids, hq⟩
    exact ⟨⟨hf.pos, hf.size, hf.nonempty, hf.whole, hf.total, hf.entries⟩, centroids,
      ih centroids hq⟩
  case composite =>
    intro base base' copies factor ps asked hfactor hstock ih vs h
    exact h.composite hstock.toSameWidth (ih vs h.1) _

omit [Space S E] in
/-- A change of a node that leaves its vectors alone leaves those of the root
alone. -/
theorem Holds.changeAt {A : Type} {change : Index S E → Index S E × A}
    (hsame : ∀ index, SameStock index (change index).1)
    (hchange : ∀ index vs, index.Holds vs → (change index).1.Holds vs)
    (h : index.Holds vs) {path : List Child} {r : Index S E × A}
    (hr : index.changeAt change path = some r) : r.1.Holds vs := by
  have hkeeps : ∀ vs, index.Holds vs → r.1.Holds vs := by
    refine changeAt_sameStock_induction (motive := fun a b => ∀ vs, a.Holds vs → b.Holds vs)
      hsame hchange ?_ ?_ hr
    · intro base base' copies factor hstock hbase vs hvs
      exact hvs.composite hstock.toSameWidth (hbase vs hvs.1) factor
    · rintro f quantizer quantizer' - hq vs ⟨hf, centroids, hcentroids⟩
      exact ⟨hf, centroids, hq centroids hcentroids⟩
  exact hkeeps vs h

end Index

end Proximity

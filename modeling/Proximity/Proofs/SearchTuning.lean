import Proximity.Proofs.Overlay

/-!
# Search settings do not influence construction

An append runs searches of its own: a graph looks for the neighbours of a new node, an
inverted file for the centroid nearest to a new vector.  The first kind is as wide as the
width of builds says, and never reads the width of searches; the second kind asks the
quantizer, whose settings are reached under one key only.  So parameters without these two
keys may be set before an append or after it.

## Main definitions

* `Parameters.SearchOnly` — neither of the two keys has a value.

## Main results

* `Graph.append_searchWidth`, `InvertedFile.insertAll_probes` — what is built does not
  depend on the settings of searches.
* `Index.append_tune` — an append after a tuning.
* `Index.searchTuning_append` — a tuning and an append in both orders.
-/

namespace Proximity

variable {S E : Type}

/-! ## Nodes -/

namespace Graph

variable [Space S E]

theorem foldl_insertNode_searchWidth (g : Graph S E) (width : Nat) (nodes : List Nat) :
    nodes.foldl insertNode { g with searchWidth := width } =
      { nodes.foldl insertNode g with searchWidth := width } := by
  induction nodes generalizing g with
  | nil => rfl
  | cons node nodes ih => exact ih (g.insertNode node)

/-- The links of new nodes do not depend on the width of searches. -/
theorem append_searchWidth (g : Graph S E) (width : Nat) (elements : Array E) :
    { g with searchWidth := width }.append elements =
      ({ (g.append elements).1 with searchWidth := width }, (g.append elements).2) := by
  simp only [append]
  split
  · rfl
  · rw [← foldl_insertNode_searchWidth]

theorem searchWidth_append (g : Graph S E) (elements : Array E) :
    (g.append elements).1.searchWidth = g.searchWidth := by
  simp only [append]
  split
  · rfl
  · rw [foldl_insertNode_eq]

end Graph

namespace InvertedFile

/-- The lists do not depend on how many of them are looked at. -/
theorem insertAll_probes (f : InvertedFile S E) (probes : Nat)
    (chosen : List (Nat × Array E)) :
    { f with probes := probes }.insertAll chosen =
      { f.insertAll chosen with probes := probes } := by
  induction chosen generalizing f with
  | nil => rfl
  | cons c chosen ih => exact ih (f.insert c.1 c.2)

end InvertedFile

/-! ## Parameters -/

namespace Parameters

/-- Neither the width of builds nor the settings of a quantizer are asked for. -/
def SearchOnly (ps : Parameters) : Prop :=
  ps.contains TuningKey.buildWidth = false ∧ ps.contains TuningKey.quantizer = false

variable {ps : Parameters} {key : String}

theorem get?_eq_none (h : ps.contains key = false) : ps.get? key = none :=
  Option.isNone_iff_eq_none.1 (Option.isSome_eq_false_iff.1 h)

theorem count?_eq_ok_none (h : ps.contains key = false) : ps.count? key = .ok none := by
  rw [count?, get?_eq_none h]

theorem map?_eq_ok_none (h : ps.contains key = false) : ps.map? key = .ok none := by
  rw [map?, get?_eq_none h]

theorem askedCount?_eq_none {e : Error} (h : ps.count? key = .error e) :
    ps.askedCount? key = none := by
  rw [askedCount?]
  split
  · rename_i n hvalue
    rw [ite_eq_right_iff]
    intro hpos
    simp only [count?, hvalue, hpos, if_true, reduceCtorEq] at h
  · rfl

end Parameters

namespace Index

variable {ps : Parameters}

/-- All that a graph takes is the width of searches. -/
theorem tune_graph_of_searchOnly (h : ps.SearchOnly) (g : Graph S E) :
    (Index.graph g).tune ps =
      (.graph { g with
          searchWidth := (ps.askedCount? TuningKey.searchWidth).getD g.searchWidth },
        (ps.count? TuningKey.searchWidth).map fun _ => ()) := by
  simp only [tune, tuneGraph, Parameters.count?_eq_ok_none h.1]
  cases hsearch : ps.count? TuningKey.searchWidth with
  | error e => rw [Parameters.askedCount?_eq_none hsearch]; rfl
  | ok asked =>
      obtain ⟨-, rfl⟩ := Parameters.count?_eq_ok_iff.1 hsearch
      simp only [bind, Except.bind, pure, Except.pure, Except.map,
        Parameters.map_max_one_askedCount?]
      rfl

/-- All that an inverted file takes is how many lists it looks at, and it hands nothing on. -/
theorem tune_invertedFile_of_searchOnly (h : ps.SearchOnly) (f : InvertedFile S E)
    (quantizer : Index S E) :
    (Index.invertedFile f quantizer).tune ps =
      (.invertedFile { f with probes := (ps.askedCount? TuningKey.probes).getD f.probes }
          quantizer,
        (ps.count? TuningKey.probes).map fun _ => ()) := by
  simp only [tune, readProbes, Parameters.map?_eq_ok_none h.2]
  cases hprobes : ps.count? TuningKey.probes with
  | error e => rw [Parameters.askedCount?_eq_none hprobes]; rfl
  | ok asked =>
      obtain ⟨-, rfl⟩ := Parameters.count?_eq_ok_iff.1 hprobes
      rfl

/-! ## Trees -/

variable [Space S E]

/-- **An append after a tuning.**  If search settings are tuned, an append has the outcome
that it has on the tree before, and leaves what a tuning makes of the tree that it leaves
there. -/
theorem append_tune (h : ps.SearchOnly) (index : Index S E) (elements : Array E) :
    (index.tune ps).1.append elements =
      (((index.append elements).1.tune ps).1, (index.append elements).2) := by
  induction index with
  | flat f => rfl
  | graph g =>
      -- The old width is still there to be replaced after the append.
      have hkept := g.searchWidth_append elements
      rw [tune_graph_of_searchOnly h]
      simp only [append]
      rw [g.append_searchWidth, tune_graph_of_searchOnly h, hkept]
  | invertedFile f quantizer =>
      have hkept (chosen : List (Nat × Array E)) : (f.insertAll chosen).probes = f.probes := by
        rw [InvertedFile.insertAll_eq]
      rw [tune_invertedFile_of_searchOnly h]
      simp only [append]
      split
      · rw [tune_invertedFile_of_searchOnly h]
      · split
        · rw [tune_invertedFile_of_searchOnly h]
        · rw [f.insertAll_probes, tune_invertedFile_of_searchOnly h, hkept]
  | composite base copies factor ih =>
      cases hfactor : ps.atLeast? TuningKey.factor .one with
      | error e =>
          -- A refused factor leaves a composite alone, whatever its parts are.
          have hrefused (base : Index S E) (copies : Flat S E) :
              ((Index.composite base copies factor).tune ps).1 =
                .composite base copies factor := by
            simp only [tune, hfactor]
          rw [hrefused]
          simp only [append]
          split
          · split <;> rw [hrefused]
          · rw [hrefused]
      | ok asked =>
          have htuned (base : Index S E) (copies : Flat S E) :
              ((Index.composite base copies factor).tune ps).1 =
                .composite (base.tune ps).1 copies (asked.getD factor) := by
            simp only [tune, hfactor]
          rw [htuned]
          simp only [append, tune_isTrained, ih]
          split
          · obtain ⟨base', outcome⟩ := base.append elements
            cases outcome <;> simp only [htuned]
          · rw [htuned]

/-- An append does not change whether a tuning is accepted. -/
theorem tune_outcome_append (index : Index S E) (elements : Array E) (ps : Parameters) :
    ((index.append elements).1.tune ps).2 = (index.tune ps).2 := by
  rw [tune_outcome, tune_outcome, topologies_append]

/-- **Search settings do not influence construction.**  Parameters without the width of
builds and without settings for a quantizer may be tuned before an append or after it: both
orders end in the same tree, with the same lists, links and labels, the append and the tuning
have the same outcomes in both, and so one order is accepted throughout exactly if the other
is. -/
theorem searchTuning_append (h : ps.SearchOnly) (index : Index S E) (elements : Array E) :
    ((index.tune ps).1.append elements).1 = ((index.append elements).1.tune ps).1 ∧
      ((index.tune ps).1.append elements).2 = (index.append elements).2 ∧
      ((index.append elements).1.tune ps).2 = (index.tune ps).2 ∧
      ((index.tune ps).2 = .ok () ∧ ((index.tune ps).1.append elements).2 = .ok () ↔
        (index.append elements).2 = .ok () ∧ ((index.append elements).1.tune ps).2 = .ok ()) := by
  obtain ⟨htree, happend⟩ := Prod.ext_iff.1 (append_tune h index elements)
  have htune := index.tune_outcome_append elements ps
  refine ⟨htree, happend, htune, ?_⟩
  rw [happend, htune]
  exact and_comm

/-- Two lists of bit vectors around the centroids `0` and `255`, with copies. -/
def copiedHalves : Index BinarySpace UInt8 :=
  .composite
    (.invertedFile ⟨⟨⟩, 8, 1, 2, 1, .standard, #[⟨#[0], #[3]⟩, ⟨#[], #[]⟩], 1⟩
      (.flat ⟨⟨⟩, 8, 1, #[0, 255]⟩))
    ⟨⟨⟩, 8, 1, #[3]⟩ .one

/-- Both lists, twice the candidates, and a width that no node has. -/
def askedSearches : Parameters :=
  [(TuningKey.searchWidth, .int 64), (TuningKey.factor, .int 2), (TuningKey.probes, .int 2)]

/-- Two vectors go to the same lists whether the number of probes is set before or after. -/
theorem searchTuning_append_copiedHalves :
    askedSearches.SearchOnly ∧
      ((copiedHalves.tune askedSearches).1.append #[254, 1]).1 =
        ((copiedHalves.append #[254, 1]).1.tune askedSearches).1 ∧
      ((copiedHalves.tune askedSearches).1.append #[254, 1]).1 =
        .composite
          (.invertedFile ⟨⟨⟩, 8, 1, 2, 2, .standard, #[⟨#[0, 2], #[3, 1]⟩, ⟨#[1], #[254]⟩], 3⟩
            (.flat ⟨⟨⟩, 8, 1, #[0, 255]⟩))
          ⟨⟨⟩, 8, 1, #[3, 254, 1]⟩ ⟨0x40000000⟩ := by
  have hsearch : askedSearches.SearchOnly := ⟨rfl, rfl⟩
  refine ⟨hsearch, (searchTuning_append hsearch copiedHalves #[254, 1]).1, ?_⟩
  with_unfolding_all rfl

-- The key of the quantizer is left out for a reason: a quantizer that looks at both of its
-- lists knows a nearer centroid for `7` than one that looks at the first only.
example :
    let centroids : Index BinarySpace UInt8 :=
      .invertedFile ⟨⟨⟩, 8, 1, 2, 1, .standard, #[⟨#[0], #[0]⟩, ⟨#[1], #[31]⟩], 2⟩
        (.flat ⟨⟨⟩, 8, 1, #[0, 255]⟩)
    let index : Index BinarySpace UInt8 :=
      .invertedFile ⟨⟨⟩, 8, 1, 2, 1, .standard, #[⟨#[], #[]⟩, ⟨#[], #[]⟩], 0⟩ centroids
    let asked : Parameters := [(TuningKey.quantizer, .map [(TuningKey.probes, .int 2)])]
    ((index.tune asked).1.append #[7]).1 ≠ ((index.append #[7]).1.tune asked).1 := by
  decide +kernel

end Index

end Proximity

import Proximity.Proofs.Guarded.Trees
import Proximity.Proofs.HitCounts
import Proximity.Proofs.Partition

/-!
# What a search answers on a machine

After any history a tree holds the vectors that it has accepted, its graphs are in order,
and a quantizer holds no centroid or one to each list.  So whatever a search looks at
exists, however large the tree is, and nothing but a lack of room can keep it from
answering.

There is less room than it seems.  A graph makes room for its beam before it searches, and
the beam is as wide as the caller asks for results, however few vectors there are.

## Main results

* `Index.Equipped` — what graphs and quantizers keep over a history.
* `Index.Grown.searchable` — every history leaves a tree that can be searched.
* `searches_answer` — what searches answer, and when.
-/

namespace Proximity

variable {S E : Type} [Space S E]

namespace Index

variable {index : Index S E} {vs : List (Array E)}

/-! ## Histories -/

/-- Every graph of the tree is in order, and every quantizer is as wide as the lists and holds
no centroid or one to each list. -/
def Equipped : Index S E → Prop
  | .flat _ => True
  | .graph g => g.Consistent
  | .invertedFile f quantizer =>
    quantizer.Equipped ∧ quantizer.unitLength = f.unitLength ∧
      (quantizer.total = 0 ∨ quantizer.total = f.listCount)
  | .composite base _ _ => base.Equipped

theorem Consistent.equipped (h : index.Consistent) : index.Equipped := by
  induction index with
  | flat f => trivial
  | graph g => exact h
  | invertedFile f quantizer ih =>
      obtain ⟨hq, hwidth, -, hf⟩ := h
      exact ⟨ih hq, hwidth, Decidable.or_iff_not_imp_left.2 hf.full⟩
  | composite base copies factor ih => exact ih h.1

/-- An inverted file stays equipped over a quantizer that was changed, but not in what it
holds. -/
private theorem Equipped.invertedFile {f f' : InvertedFile S E} {quantizer quantizer' : Index S E}
    (h : (Index.invertedFile f quantizer).Equipped) (hcount : f'.listCount = f.listCount)
    (hwidth : f'.unitLength = f.unitLength) (hstock : SameStock quantizer quantizer')
    (hquantizer : quantizer'.Equipped) : (Index.invertedFile f' quantizer').Equipped := by
  refine ⟨hquantizer, ?_, ?_⟩
  · rw [hstock.unitLength, hwidth]
    exact h.2.1
  · rw [hstock.total, hcount]
    exact h.2.2

theorem Equipped.append (h : index.Equipped) (elements : Array E) :
    (index.append elements).1.Equipped := by
  refine append_induction (motive := fun a b => a.Equipped → b.Equipped) elements ?refl ?flat
    ?graph ?file ?composite index h
  case refl => exact fun index h => h
  case flat => exact fun f data h => trivial
  case graph => exact fun g hwhole h => (Graph.Consistent.append h hwhole).1
  case file =>
    intro f quantizer chosen htrained h
    rw [InvertedFile.insertAll_eq]
    exact h
  case composite => exact fun base base' copies data factor ih h => ih h

/-- Centroids are learned while there are none, and then there is one to each list. -/
theorem Equipped.train [Space.KeepsWidth S] (h : index.Equipped) (hholds : index.Holds vs)
    (sample : Array E) : (index.train sample).1.Equipped := by
  induction index generalizing vs with
  | flat f => trivial
  | graph g => exact h
  | invertedFile f quantizer =>
      obtain ⟨hf, centroids, hq⟩ := hholds
      simp only [Index.train]
      split
      · exact h
      · split
        · exact h
        · rename_i huntrained
          split
          · exact h
          · rename_i found hfound
            have hempty : quantizer.total = 0 := h.2.2.resolve_right huntrained
            have hwidth := (append_sameWidth quantizer found).unitLength
            refine ⟨h.1.append found, hwidth.trans h.2.1, ?_⟩
            cases happend : quantizer.append found with
            | mk quantizer' outcome =>
                cases outcome with
                | error e =>
                    rw [hq.aligned.eq_of_append_eq_error happend]
                    exact .inl hempty
                | ok u =>
                    have htotal := (hq.append happend).total
                    rw [List.length_append, ← hq.total, hempty, length_vectorsOf,
                      Clustering.size_of_train hf.nonempty hfound, h.2.1,
                      Nat.mul_div_cancel _ hf.pos, Nat.zero_add] at htotal
                    exact .inr htotal
  | composite base copies factor ih =>
      simp only [Index.train]
      split
      · exact h
      · exact ih h hholds.1

omit [Space S E] in
/-- Nothing is asked of a graph but what a tuning keeps. -/
theorem Equipped.tune [Space S E] (h : index.Equipped) (ps : Parameters) :
    (index.tune ps).1.Equipped := by
  refine tune_induction (motive := fun a b => a.Equipped → b.Equipped) ?refl ?graph ?file
    ?composite index ps h
  case refl => exact fun index h => h
  case graph => exact fun g g' ps htune h => consistent_of_tuneGraph h htune
  case file =>
    exact fun f quantizer quantizer' ps probes nested hread hstock ih h =>
      h.invertedFile rfl rfl hstock (ih h.1)
  case composite => exact fun base base' copies factor ps asked hfactor hstock ih h => ih h

/-- A change of a node that keeps its stock and its equipment keeps that of the tree. -/
theorem Equipped.changeAt {A : Type} {change : Index S E → Index S E × A}
    (hsame : ∀ index, SameStock index (change index).1)
    (hchange : ∀ index, index.Equipped → (change index).1.Equipped) (h : index.Equipped)
    {path : List Child} {r : Index S E × A} (hr : index.changeAt change path = some r) :
    r.1.Equipped := by
  have hkeeps : index.Equipped → r.1.Equipped := by
    refine changeAt_sameStock_induction (motive := fun a b => a.Equipped → b.Equipped) hsame
      hchange ?_ ?_ hr
    · exact fun _ _ _ _ _ hbase => hbase
    · exact fun f quantizer quantizer' hstock hq hall =>
        hall.invertedFile rfl rfl hstock (hq hall.1)
  exact hkeeps h

theorem Grown.equipped [Space.KeepsWidth S] (h : index.Grown vs) : index.Equipped := by
  induction h with
  | empty hindex => exact hindex.kept.1.equipped
  | @append _ _ _ elements _ happend ih =>
      have hnext := ih.append elements
      rwa [happend] at hnext
  | @refused _ _ _ elements _ _ happend ih =>
      have hnext := ih.append elements
      rwa [happend] at hnext
  | train sample hgrown ih => exact ih.train hgrown.holds sample
  | tune _ hr ih =>
      exact ih.changeAt (fun index => tune_sameStock index _) (fun _ h => h.tune _) hr

/-- What holds its vectors with a seat for each, and is equipped, can be searched. -/
theorem Equipped.searchable (h : index.Equipped) (hholds : index.Holds vs)
    (hseated : index.Seated) : index.Searchable := by
  induction index generalizing vs with
  | flat f => exact Flat.Holds.pos hholds
  | graph g => exact ⟨hholds.storage.pos, Graph.Consistent.links h⟩
  | invertedFile f quantizer ih =>
      obtain ⟨hf, centroids, hq⟩ := hholds
      obtain ⟨hequipped, -, hfull⟩ := h
      refine ⟨ih hequipped hq hseated.1, hf.pos, fun l hl label hlabel => ?_, fun hsome => ?_,
        fun hnone => ?_⟩
      · have hmem : label ∈ f.labels :=
          List.mem_flatMap.2 ⟨l, Array.mem_toList_iff.2 hl, Array.mem_toList_iff.2 hlabel⟩
        exact List.mem_range.1 (hf.labels_perm.mem_iff.1 hmem)
      · exact (hfull.resolve_left hsome).trans hf.size.symm
      · refine Decidable.not_not.1 fun hstored => ?_
        exact Nat.ne_of_gt hf.nonempty ((hseated.2 hstored).symm.trans hnone)
  | composite base copies factor ih =>
      obtain ⟨hbase, hcopies, -⟩ := hholds
      exact ⟨ih h hbase hseated, hcopies.pos, hcopies.total.trans hbase.total.symm⟩

/-- Every history leaves a tree that can be searched, however large it is. -/
theorem Grown.searchable [Space.KeepsWidth S] (h : index.Grown vs) : index.Searchable :=
  h.equipped.searchable h.holds h.evolved.seated

end Index

/-- The index of an id map has a history of its own. -/
theorem IdMap.Grown.index {m : IdMap S E} {vs : List (Array E)} {ids : List Int64}
    (h : m.Grown vs ids) : m.index.Grown vs := by
  induction h with
  | wrap hgrown hwrap =>
      obtain ⟨-, rfl⟩ := wrap_eq_ok_iff.1 hwrap
      exact hgrown
  | append hgrown happend ih =>
      rcases append_cases hgrown.keeps.1.aligned happend with ⟨-, -, index', hindex, rfl⟩ | ⟨he, -⟩
      · exact ih.append hindex
      · obtain ⟨e, he⟩ := he
        cases he
  | refused hgrown happend ih =>
      rcases append_cases hgrown.keeps.1.aligned happend with ⟨hok, -⟩ | ⟨-, rfl⟩
      · cases hok
      · exact ih

/-! ## Answers -/

/-- **What searches answer on a machine.**  After any history, a query of the right width is
answered with different acceptable positions among the accepted vectors, at most as many as
were asked for, ranked by cost and position, each at its reported distance, exactly if there is
room for the search; an id map filters by the ids of these positions and answers with them.
Queries of any other width are refused. -/
theorem searches_answer [Space.KeepsWidth S] (machine : Machine) :
    (∀ (index : Index S E) (vs : List (Array E)), index.Grown vs →
      ∀ (query : Array E) (k : Nat) (accept : Nat → Bool),
        let answer := index.search? machine query k fun i => some (accept i)
        (query.size = index.unitLength → index.canSearch machine k = true → ∃ positions,
          Answers index.space vs query k accept positions ∧
            answer = some (.ok (hitsAt index.space vs query id positions))) ∧
        (query.size = index.unitLength → index.canSearch machine k = false → answer = none) ∧
        (query.size ≠ index.unitLength → answer =
          some (.error (.dimensionMismatch index.unitLength query.size)))) ∧
    (∀ (m : IdMap S E) (vs : List (Array E)) (ids : List Int64), m.Grown vs ids →
      ids.length = vs.length ∧
      ∀ (query : Array E) (k : Nat) (accept : Int64 → Bool),
        let answer := m.search? machine query k accept
        (query.size = m.index.unitLength → m.index.canSearch machine k = true → ∃ positions,
          Answers m.index.space vs query k (fun i => accept (ids[i]?.getD 0)) positions ∧
            answer =
              some (.ok (hitsAt m.index.space vs query (fun i => ids[i]?.getD 0) positions))) ∧
        (query.size = m.index.unitLength → m.index.canSearch machine k = false →
          answer = none) ∧
        (query.size ≠ m.index.unitLength → answer =
          some (.error (.dimensionMismatch m.index.unitLength query.size)))) := by
  constructor
  · intro index vs h query k accept answer
    refine ⟨fun hwidth hroom => ?_, fun hwidth hroom => ?_, fun hwidth => ?_⟩
    · obtain ⟨positions, hanswers, hsearch⟩ := (h.holds.search query k accept).1 hwidth
      refine ⟨positions, hanswers, ?_⟩
      rw [← hsearch]
      exact Index.search?_eq h.searchable query (fun _ => hroom) (Guarded.below_some _ _)
    · exact Index.search?_eq_none h.searchable hwidth hroom _
    · exact index.search?_eq_of_width hwidth k _
  · intro m vs ids h
    obtain ⟨hholds, rfl, hlength⟩ := h.keeps
    have hids : m.ids.size = m.index.total := by
      rw [hholds.total, ← hlength, Array.length_toList]
    refine ⟨hlength, fun query k accept => ⟨fun hwidth hroom => ?_, fun hwidth hroom => ?_,
      fun hwidth => ?_⟩⟩
    · obtain ⟨positions, hanswers, hsearch⟩ := IdMap.search_of_holds hholds hwidth k accept
      refine ⟨positions, hanswers, ?_⟩
      rw [← hsearch]
      exact IdMap.search?_eq h.index.searchable hids query (fun _ => hroom) accept
    · exact IdMap.search?_eq_none h.index.searchable hwidth hroom accept
    · exact m.search?_eq_of_width hwidth k accept

/-- A composite of bit vectors of eight dimensions. -/
def bitComposite (data : Array UInt8) : Index BinarySpace UInt8 :=
  .composite (.flat ⟨⟨⟩, 8, 1, data⟩) ⟨⟨⟩, 8, 1, data⟩ .one

/-- Two vectors under one id are two positions, and the query finds the nearer
of them under that id. -/
theorem searches_answer_sharedId :
    (⟨bitComposite #[1, 3], #[5, 5]⟩ : IdMap BinarySpace UInt8).Grown [#[1], #[3]] [5, 5] ∧
      ∃ positions,
        Answers (⟨⟩ : BinarySpace) [#[1], #[3]] #[3] 1 (fun i => [(5 : Int64), 5][i]?.getD 0 == 5)
            positions ∧
          (⟨bitComposite #[1, 3], #[5, 5]⟩ : IdMap BinarySpace UInt8).search? .standard #[3] 1
              (· == 5) =
            some (.ok (hitsAt (⟨⟩ : BinarySpace) [#[1], #[3]] #[3]
              (fun i => [(5 : Int64), 5][i]?.getD 0) positions)) := by
  have hflat : Flat.empty (⟨⟩ : BinarySpace) 8 = .ok ⟨⟨⟩, 8, 1, #[]⟩ := rfl
  have hbase : (Index.flat (⟨⟨⟩, 8, 1, #[]⟩ : Flat BinarySpace UInt8)).Constructed :=
    .flat (by decide) hflat
  have hempty : (bitComposite #[]).Constructed := .composite hbase rfl
  have hwrapped : (⟨bitComposite #[], #[]⟩ : IdMap BinarySpace UInt8).Grown [] [] :=
    .wrap (.empty hempty) rfl
  have hgrown : (⟨bitComposite #[1, 3], #[5, 5]⟩ : IdMap BinarySpace UInt8).Grown
      [#[1], #[3]] [5, 5] := by
    have happend : (⟨bitComposite #[], #[]⟩ : IdMap BinarySpace UInt8).append #[1, 3] #[5, 5] =
        (⟨bitComposite #[1, 3], #[5, 5]⟩, .ok ()) := rfl
    exact hwrapped.append happend
  have hroom : (bitComposite #[1, 3]).canSearch .standard 1 = true := rfl
  exact ⟨hgrown, (((searches_answer .standard).2 _ _ _ hgrown).2 #[3] 1 (· == 5)).1 rfl hroom⟩

/-- A graph of one vector, asked for 2 ^ 60 of them: there is no room for the beam. -/
theorem search_roomless_one :
    (Index.graph (Graph.ofBytes #[0])).Grown [#[0]] ∧
      (Index.graph (Graph.ofBytes #[0])).search? .standard #[0] (Nat.pow 2 60)
        (fun _ => some true) = none := by
  have hgrown := Graph.ofBytes_grown #[0]
  refine ⟨hgrown, Index.search?_eq_none hgrown.searchable ?_ ?_ _⟩
  · rw [Index.unitLength, Graph.ofBytes_storage]
    rfl
  · rw [Index.canSearch, hgrown.holds.total]
    decide +kernel

end Proximity

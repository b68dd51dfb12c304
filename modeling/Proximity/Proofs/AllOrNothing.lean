import Proximity.Proofs.Filling
import Proximity.Proofs.Guarded.Trees

/-!
# Changes that are made as a whole or not at all

A change of a tree is made of several steps: a composite changes its base and then its
copies, a training finds centroids and then loads them into a quantizer, which may be a
tree itself, an id map changes its index and then its ids.  None of them stops half way.
A change is refused before its first step or not at all, since all that the later steps
ask for is known by then, at every depth of the tree.

On a machine there is one thing more that may be missing, which no check asks for: room for
the beam of a graph and for the neighbours of a node.  A change that is accepted may come
to nothing for lack of it, after its first step.

Whether a change is accepted can be told beforehand.  A training goes down through the
bases of composites, so it concerns at most one inverted file; that needs centroids and
a quantizer that takes them.

## Main definitions

* `AllOrNothing` — accepted exactly under a condition, and without effect otherwise.
* `Index.reached?`, `Index.CanLearn` — what a training reaches, and what it asks for.
* `IdMap.CanTake` — what an append under ids asks for.
* `AnswersWhole` — all or nothing on a machine.

## Main results

* `Index.Consistent.train_isTrained`, `Index.train_eq_of_trained` — what a training
  leaves.
* `Index.Consistent.train_cases` — when a training is accepted.
* `changes_allOrNothing` — appends and trainings of trees that pass their check.
-/

namespace Proximity

variable {S E : Type}

/-- A change is accepted exactly under a condition, and if it is refused, what was to be
changed is as it was. -/
structure AllOrNothing {A : Type} (before : A) (condition : Prop)
    (result : A × Except Error Unit) : Prop where
  accepted : result.2 = .ok () ↔ condition
  refused : ∀ e, result.2 = .error e → result.1 = before

namespace AllOrNothing

variable {A : Type} {before : A} {condition : Prop} {result : A × Except Error Unit}

theorem of_accepted (hcondition : condition) (haccepted : result.2 = .ok ()) :
    AllOrNothing before condition result where
  accepted := iff_of_true haccepted hcondition
  refused e he := by
    rw [haccepted] at he
    cases he

theorem of_refused {e : Error} (hcondition : ¬ condition) (hrefused : result = (before, .error e)) :
    AllOrNothing before condition result where
  accepted := by
    rw [hrefused]
    exact iff_of_false nofun hcondition
  refused _ _ := congrArg Prod.fst hrefused

/-- What held before and holds after an accepted change holds after any change. -/
theorem keeps (h : AllOrNothing before condition result) {P : A → Prop} (hbefore : P before)
    (haccepted : result.2 = .ok () → P result.1) : P result.1 := by
  cases houtcome : result.2 with
  | ok u => exact haccepted houtcome
  | error e => exact (h.refused e houtcome).symm ▸ hbefore

end AllOrNothing

/-! ## Trainings -/

/-- A training finds centroids exactly if there are enough points. -/
theorem Clustering.train_cases [Space S E] (space : S) (settings : ClusteringSettings)
    (unitLength count : Nat) (sample : Array E) :
    (count ≤ sample.size / unitLength ∧
      ∃ centroids, train space settings unitLength count sample = .ok centroids) ∨
    (sample.size / unitLength < count ∧
      ∃ e, train space settings unitLength count sample = .error e) := by
  simp only [train, length_vectorsOf]
  by_cases hfew : sample.size / unitLength < count
  · exact .inr ⟨hfew, _, if_pos hfew⟩
  · exact .inl ⟨Nat.le_of_not_lt hfew, _, if_neg hfew⟩

namespace Index

/-- The inverted file that a training reaches, with its quantizer. -/
def reached? : Index S E → Option (InvertedFile S E × Index S E)
  | .flat _ | .graph _ => none
  | .invertedFile f quantizer => some (f, quantizer)
  | .composite base _ _ => base.reached?

/-- A sample holds a whole vector, and the inverted file that it reaches, if there is
one, has its centroids or can get them: the sample has enough vectors, and the quantizer
takes centroids. -/
def CanLearn (index : Index S E) (sample : Array E) : Prop :=
  index.unitLength ≤ sample.size ∧
    ∀ f quantizer, index.reached? = some (f, quantizer) →
      quantizer.total = f.listCount ∨
        f.listCount ≤ sample.size / f.unitLength ∧ quantizer.isTrained = true

variable {index : Index S E} {sample : Array E}

theorem canLearn_of_reached?_eq_none (hreached : index.reached? = none) :
    index.CanLearn sample ↔ index.unitLength ≤ sample.size := by
  refine and_iff_left fun f quantizer hsome => ?_
  rw [hreached] at hsome
  cases hsome

theorem canLearn_invertedFile {f : InvertedFile S E} {quantizer : Index S E} :
    (Index.invertedFile f quantizer).CanLearn sample ↔
      f.unitLength ≤ sample.size ∧ (quantizer.total = f.listCount ∨
        f.listCount ≤ sample.size / f.unitLength ∧ quantizer.isTrained = true) := by
  refine and_congr_right fun _ => ⟨fun h => h f quantizer rfl, ?_⟩
  rintro h f' quantizer' hreached
  obtain ⟨rfl, rfl⟩ := Prod.mk.inj (Option.some.inj hreached)
  exact h

variable [Space S E]

/-- A training that was accepted leaves a consistent tree trained. -/
theorem Consistent.train_isTrained [Space.KeepsWidth S] {index' : Index S E}
    (h : index.Consistent) (htrain : index.train sample = (index', .ok ())) :
    index'.isTrained = true := by
  induction index generalizing index' with
  | flat f =>
      obtain rfl := (Prod.mk.inj htrain).1
      rfl
  | graph g =>
      obtain rfl := (Prod.mk.inj htrain).1
      rfl
  | invertedFile f quantizer =>
      obtain ⟨hq, hwidth, -, hf⟩ := h
      simp only [Index.train] at htrain
      split at htrain
      · cases (Prod.mk.inj htrain).2
      · split at htrain
        · rename_i hfull
          obtain rfl := (Prod.mk.inj htrain).1
          simpa [isTrained] using hfull
        · rename_i hother
          split at htrain
          · cases (Prod.mk.inj htrain).2
          · rename_i centroids hcentroids
            have hempty := hf.empty_of_not_full hother
            obtain ⟨rfl, hok⟩ := Prod.mk.inj htrain
            have happend : quantizer.append centroids = ((quantizer.append centroids).1, .ok ()) :=
              Prod.ext rfl hok
            have htotal := (hq.stores_append (hq.stores_nil hempty) happend).total
            have hsize := Clustering.size_of_train (Nat.pos_of_ne_zero hf.listCount) hcentroids
            rw [List.nil_append, length_vectorsOf, hsize, hwidth,
              Nat.mul_div_cancel _ (hwidth ▸ hq.pos)] at htotal
            simpa [isTrained] using htotal
  | composite base copies factor ih =>
      simp only [Index.train] at htrain
      split at htrain
      · cases (Prod.mk.inj htrain).2
      · obtain ⟨rfl, hok⟩ := Prod.mk.inj htrain
        have hbase : base.train sample = ((base.train sample).1, .ok ()) := Prod.ext rfl hok
        have htrained := ih h.1 hbase
        exact htrained

/-- An inverted file without its centroids hands what was found to its quantizer. -/
private theorem train_invertedFile_cases [Space.KeepsWidth S] {f : InvertedFile S E}
    {quantizer : Index S E} (h : (Index.invertedFile f quantizer).Consistent)
    (hlong : ¬ sample.size < f.unitLength) (huntrained : quantizer.total ≠ f.listCount) :
    (f.listCount ≤ sample.size / f.unitLength ∧ quantizer.isTrained = true ∧
      ((Index.invertedFile f quantizer).train sample).2 = .ok ()) ∨
    (¬ (f.listCount ≤ sample.size / f.unitLength ∧ quantizer.isTrained = true) ∧
      ∃ e, (Index.invertedFile f quantizer).train sample =
        (.invertedFile f quantizer, .error e)) := by
  obtain ⟨hq, hwidth, -, hf⟩ := h
  simp only [Index.train, hlong, huntrained, if_false]
  rcases Clustering.train_cases f.space f.clustering f.unitLength f.listCount sample with
    ⟨henough, centroids, hfound⟩ | ⟨hfew, e, hnone⟩
  · simp only [hfound]
    cases htrained : quantizer.isTrained with
    | true =>
        have hsize := Clustering.size_of_train (Nat.pos_of_ne_zero hf.listCount) hfound
        have hwhole : centroids.size % quantizer.unitLength = 0 := by
          rw [hsize, hwidth, Nat.mul_mod_left]
        rw [hq.aligned.append_of_trained htrained hwhole]
        exact .inl ⟨henough, rfl, rfl⟩
    | false =>
        rw [append_eq_of_not_trained centroids htrained]
        exact .inr ⟨fun hall => Bool.false_ne_true hall.2, _, rfl⟩
  · simp only [hnone]
    exact .inr ⟨fun hall => absurd hall.1 (Nat.not_le_of_lt hfew), e, rfl⟩

/-- A training is accepted exactly if the tree can learn from the sample. -/
theorem Consistent.train_allOrNothing [Space.KeepsWidth S] (h : index.Consistent)
    (sample : Array E) :
    AllOrNothing index (index.CanLearn sample) (index.train sample) := by
  by_cases hshort : sample.size < index.unitLength
  · -- too short a sample is refused at the root, whatever the root is
    refine .of_refused (e := .emptyInput) (fun hlearns => absurd hlearns.1 (by omega)) ?_
    cases index <;> simp_all [Index.train, unitLength]
  · have hlong := Nat.le_of_not_lt hshort
    induction index with
    | flat f =>
        refine .of_accepted ((canLearn_of_reached?_eq_none rfl).2 hlong) ?_
        exact if_neg hshort
    | graph g =>
        refine .of_accepted ((canLearn_of_reached?_eq_none rfl).2 hlong) ?_
        exact if_neg hshort
    | invertedFile f quantizer =>
        by_cases hfull : quantizer.total = f.listCount
        · refine .of_accepted (canLearn_invertedFile.2 ⟨hlong, .inl hfull⟩) ?_
          simp only [Index.train, show ¬ sample.size < f.unitLength from hshort, hfull, if_false,
            if_true]
        · rcases train_invertedFile_cases h hshort hfull with
            ⟨henough, htrained, haccepted⟩ | ⟨hnot, e, hrefused⟩
          · exact .of_accepted (canLearn_invertedFile.2 ⟨hlong, .inr ⟨henough, htrained⟩⟩) haccepted
          · refine .of_refused (fun hlearns => ?_) hrefused
            exact hnot ((canLearn_invertedFile.1 hlearns).2.resolve_left hfull)
    | composite base copies factor ih =>
        have hbase := ih h.1 hshort hlong
        have htrain : (Index.composite base copies factor).train sample =
            (.composite (base.train sample).1 copies factor, (base.train sample).2) :=
          if_neg hshort
        rw [htrain]
        exact
          { accepted := hbase.accepted
            refused := fun e he => congrArg (Index.composite · copies factor) (hbase.refused e he) }

/-! ## Appends -/

/-- An append is accepted exactly if the tree is trained and the elements are whole
vectors. -/
theorem Aligned.append_allOrNothing (h : index.Aligned) (elements : Array E) :
    AllOrNothing index (index.isTrained = true ∧ elements.size % index.unitLength = 0)
      (index.append elements) where
  accepted := by
    constructor
    · intro haccepted
      exact h.of_append_eq_ok (Prod.ext rfl haccepted)
    · rintro ⟨htrained, hwhole⟩
      rw [h.append_of_trained htrained hwhole]
  refused _ hrefused := h.eq_of_append_eq_error (Prod.ext rfl hrefused)

end Index

namespace IdMap

variable [Space S E]

/-- Some whole vectors for a trained index, and an id for each. -/
structure CanTake (m : IdMap S E) (elements : Array E) (ids : Nat) : Prop where
  trained : m.index.isTrained = true
  whole : elements.size % m.index.unitLength = 0
  some : 0 < elements.size / m.index.unitLength
  ids : ids = elements.size / m.index.unitLength

variable {m : IdMap S E}

theorem append_allOrNothing (h : m.index.Aligned) (elements : Array E) (newIds : Array Int64) :
    AllOrNothing m (m.CanTake elements newIds.size) (m.append elements newIds) where
  accepted := by
    constructor
    · intro haccepted
      rw [append] at haccepted
      split at haccepted
      · cases haccepted
      · rename_i hcheck
        obtain ⟨htrained, hwhole, hsome, hids⟩ := checkAppend_eq_ok_iff.1 hcheck
        exact ⟨htrained, hwhole, Nat.pos_of_ne_zero hsome, hids⟩
    · rintro ⟨htrained, hwhole, hsome, hids⟩
      have hcheck := checkAppend_eq_ok_iff.2 ⟨htrained, hwhole, Nat.ne_of_gt hsome, hids⟩
      rw [append, hcheck, h.append_of_trained htrained hwhole]
  refused e hrefused := by
    have happend : m.append elements newIds = ((m.append elements newIds).1, .error e) :=
      Prod.ext rfl hrefused
    rcases append_cases h happend with ⟨haccepted, -⟩ | ⟨-, hsame⟩
    · cases haccepted
    · exact hsame.symm

theorem appendBatch_allOrNothing (h : m.index.Aligned) (batch : Batch E)
    (newIds : Array Int64) :
    AllOrNothing m (batch.dimension = m.index.dimension ∧ m.CanTake batch.whole newIds.size)
      (m.appendBatch batch newIds) := by
  rw [appendBatch]
  split
  · rename_i hdimension
    have hwhole := append_allOrNothing h batch.whole newIds
    exact ⟨hwhole.accepted.trans (and_iff_right hdimension).symm, hwhole.refused⟩
  · rename_i hother
    exact .of_refused (fun hall => hother hall.1) rfl

/-- An append under ids does not train the index. -/
theorem append_isTrained (m : IdMap S E) (elements : Array E) (newIds : Array Int64) :
    (m.append elements newIds).1.index.isTrained = m.index.isTrained := by
  have hindex := m.index.append_isTrained elements
  rw [append]
  split
  · rfl
  · split <;> rename_i happend <;> rw [happend] at hindex <;> exact hindex

end IdMap

/-! ## All changes -/

/-- A change on a machine: whatever it answers is all or nothing, and it answers unless it is
accepted and there is no room. -/
structure AnswersWhole {A : Type} (before : A) (condition room : Prop)
    (result? : Option (A × Except Error Unit)) : Prop where
  whole : ∀ r, result? = some r → AllOrNothing before condition r
  answered : (condition → room) → ∃ r, result? = some r

/-- A guarded change that answers what a total one does if there is room, and nothing else. -/
private theorem AnswersWhole.of_total {A : Type} {before : A} {condition room : Prop}
    {result? : Option (A × Except Error Unit)} {result : A × Except Error Unit}
    (h : AllOrNothing before condition result)
    (hagrees : Guarded.Agrees (result.2 = .ok () → room) result? result) :
    AnswersWhole before condition room result? where
  whole r hr := hagrees.same r hr ▸ h
  answered hneeded :=
    ⟨result, hagrees.answered fun haccepted => hneeded (h.accepted.1 haccepted)⟩

/-- **Changes are made as a whole or not at all.**  For a tree that passes its check, and on
any machine:

* an append is accepted exactly if the tree is trained and the elements are whole vectors;
* a training is accepted exactly if the tree can learn from the sample, and leaves it
  trained then;
* an append under ids is accepted exactly if moreover there are some vectors and an id
  for each, and an append of a batch if that is of the dimension of the tree as well.

What is refused leaves the tree and the ids as they were, and no change makes a trained
tree untrained.  A change that is refused always answers; one that is accepted does if there is
room for what it inserts into the graphs of the tree. -/
theorem changes_allOrNothing [Space S E] [Space.KeepsWidth S] [Space.GuardsCentroid S]
    (machine : Machine) {index : Index S E} (hcheck : index.check = .ok ()) :
    (∀ elements : Array E,
      AnswersWhole index (index.isTrained = true ∧ elements.size % index.unitLength = 0)
        (index.canAppend machine (elements.size / index.unitLength) = true)
        (index.append? machine elements) ∧
      ∀ r, index.append? machine elements = some r → index.isTrained = true →
        r.1.isTrained = true) ∧
    (∀ sample : Array E,
      AnswersWhole index (index.CanLearn sample) (index.canTrain machine = true)
        (index.train? machine sample) ∧
      ∀ r, index.train? machine sample = some r →
        (r.2 = .ok () → r.1.isTrained = true) ∧
        (index.isTrained = true → r.1.isTrained = true)) ∧
    ∀ (ids newIds : Array Int64) (elements : Array E) (batch : Batch E),
      let m : IdMap S E := ⟨index, ids⟩
      AnswersWhole m (m.CanTake elements newIds.size)
        (index.canAppend machine (elements.size / index.unitLength) = true)
        (m.append? machine elements newIds) ∧
      AnswersWhole m (batch.dimension = index.dimension ∧ m.CanTake batch.whole newIds.size)
        (index.canAppend machine (batch.whole.size / index.unitLength) = true)
        (m.appendBatch? machine batch newIds) ∧
      ∀ r, m.append? machine elements newIds = some r → index.isTrained = true →
        r.1.index.isTrained = true := by
  have h := Index.check_eq_ok_iff.1 hcheck
  refine ⟨fun elements => ⟨?_, fun r hr htrained => ?_⟩, fun sample => ?_,
    fun ids newIds elements batch => ?_⟩
  · exact .of_total (h.aligned.append_allOrNothing elements)
      (Index.append?_agrees machine h elements)
  · rw [(Index.append?_agrees machine h elements).same r hr]
    exact (index.append_isTrained elements).trans htrained
  · have hall := h.train_allOrNothing sample
    have haccepted : (index.train sample).2 = .ok () → (index.train sample).1.isTrained = true :=
      fun hok => h.train_isTrained (Prod.ext rfl hok)
    have hagrees := Index.train?_agrees machine h sample
    refine ⟨.of_total hall hagrees, fun r hr => ?_⟩
    obtain rfl := hagrees.same r hr
    exact ⟨haccepted, fun htrained =>
      hall.keeps (P := fun index => index.isTrained = true) htrained haccepted⟩
  · intro m
    have hmap : m.index.Consistent := h
    have hagrees := IdMap.append?_agrees machine hmap elements newIds
    refine ⟨?_, ?_, fun r hr htrained => ?_⟩
    · exact .of_total (IdMap.append_allOrNothing h.aligned elements newIds) hagrees
    · exact .of_total (IdMap.appendBatch_allOrNothing h.aligned batch newIds)
        (IdMap.appendBatch?_agrees machine hmap batch newIds)
    · rw [hagrees.same r hr]
      exact (IdMap.append_isTrained ⟨index, ids⟩ elements newIds).trans htrained

/-- A composite over two empty lists for bit vectors. -/
def emptyLists (quantizer : Index BinarySpace UInt8) : Index BinarySpace UInt8 :=
  .composite (.invertedFile (.empty ⟨⟩ 8 1 2 .standard) quantizer) ⟨⟨⟩, 8, 1, #[]⟩ .one

/-- Two vectors train it over flat storage.  Over another untrained tree its two
centroids are found and then not taken, and an append is refused as well. -/
theorem changes_allOrNothing_nested :
    let storage : Index BinarySpace UInt8 := .flat ⟨⟨⟩, 8, 1, #[]⟩
    let plain := emptyLists storage
    let nested := emptyLists plain
    plain.check = .ok () ∧ nested.check = .ok () ∧
      (∃ r, plain.train? .standard #[1, 2] = some r ∧ r.2 = .ok () ∧ r.1.isTrained = true) ∧
      (∃ r, plain.train? .standard #[1] = some r ∧ r.2 ≠ .ok ()) ∧
      (∃ r, nested.train? .standard #[1, 2] = some r ∧ r.2 ≠ .ok ()) ∧
      ∃ r, nested.append? .standard #[1] = some r ∧ r.1 = nested := by
  intro storage plain nested
  have hplain : plain.check = .ok () := rfl
  have hnested : nested.check = .ok () := rfl
  obtain ⟨-, htrainPlain, -⟩ := changes_allOrNothing .standard hplain
  obtain ⟨happendNested, htrainNested, -⟩ := changes_allOrNothing .standard hnested
  have htwo : plain.CanLearn #[1, 2] := by
    refine ⟨by decide, fun f quantizer hreached => .inr ?_⟩
    obtain ⟨rfl, rfl⟩ := Prod.mk.inj (Option.some.inj hreached)
    exact ⟨by decide, rfl⟩
  have hone : ¬ plain.CanLearn #[1] := fun hlearns =>
    (hlearns.2 _ _ rfl).elim (by decide) fun hcan => absurd hcan.1 (by decide)
  have hquantizer : ¬ nested.CanLearn #[1, 2] := fun hlearns =>
    (hlearns.2 _ _ rfl).elim (by decide) fun hcan => absurd hcan.2 (by decide)
  refine ⟨hplain, hnested, ?_, ?_, ?_, ?_⟩
  · obtain ⟨hwhole, hleaves⟩ := htrainPlain #[1, 2]
    obtain ⟨r, hr⟩ := hwhole.answered fun _ => rfl
    have haccepted := (hwhole.whole r hr).accepted.2 htwo
    exact ⟨r, hr, haccepted, (hleaves r hr).1 haccepted⟩
  · obtain ⟨hwhole, -⟩ := htrainPlain #[1]
    obtain ⟨r, hr⟩ := hwhole.answered fun _ => rfl
    exact ⟨r, hr, fun hok => hone ((hwhole.whole r hr).accepted.1 hok)⟩
  · obtain ⟨hwhole, -⟩ := htrainNested #[1, 2]
    obtain ⟨r, hr⟩ := hwhole.answered fun hlearns => absurd hlearns hquantizer
    exact ⟨r, hr, fun hok => hquantizer ((hwhole.whole r hr).accepted.1 hok)⟩
  · obtain ⟨hwhole, -⟩ := happendNested #[1]
    have huntrained : nested.isTrained = false := rfl
    obtain ⟨r, hr⟩ := hwhole.answered fun hcan => absurd hcan.1 (by rw [huntrained]; decide)
    have hrefused : r.2 ≠ .ok () := fun hok =>
      absurd ((hwhole.whole r hr).accepted.1 hok).1 (by rw [huntrained]; decide)
    cases houtcome : r.2 with
    | ok u => exact absurd houtcome hrefused
    | error e => exact ⟨r, hr, (hwhole.whole r hr).refused e houtcome⟩

/-- A graph of one bit vector whose beam for insertions is to hold 2 ^ 60 nodes. -/
def wideGraph : Graph BinarySpace UInt8 :=
  ⟨⟨⟨⟩, 8, 1, #[0]⟩, 2, Nat.pow 2 60, 16, ⟨#[[[]]], some 0, 0⟩, ⟨0⟩, 0⟩

/-- It passes its check and is trained, and a second vector is not appended to it: there is no
room for the beam. -/
theorem append_roomless_wideGraph :
    (Index.graph wideGraph).check = .ok () ∧ (Index.graph wideGraph).isTrained = true ∧
      (#[1] : Array UInt8).size % (Index.graph wideGraph).unitLength = 0 ∧
      (Index.graph wideGraph).append? .standard #[1] = none := by
  have hcheck : wideGraph.check = .ok () := rfl
  have hgraph : wideGraph.append? .standard #[1] = none :=
    Graph.append?_eq_none (Graph.check_eq_ok_iff.1 hcheck) rfl (by decide) (by decide)
      (.inl (by decide))
  refine ⟨hcheck, rfl, rfl, ?_⟩
  rw [Index.append?, hgraph]
  rfl

end Proximity

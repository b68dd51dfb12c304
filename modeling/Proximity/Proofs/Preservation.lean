import Proximity.Proofs.Clustering
import Proximity.Proofs.Codec.Trees
import Proximity.Proofs.Searchable
import Proximity.Proofs.Tuning

/-!
# Changes keep an index consistent

An append, a training and a tuning of any node, accepted or not, leave a
consistent index consistent, whether it was built or decoded.  What was
decoded may hold stranger things than what was built, since consistency says
little about which labels are where; so the argument uses nothing beyond it.

The elements that go with a list are counted in a word of 64 bits, and so are
labels with a sign.  The counts are right as long as the parts of the changed
index fit in memory, which is the one assumption made here.

## Main results

* `Index.InMemory` — the parts of a tree fit in memory.
* `Index.Consistent.append`, `Index.Consistent.train`, `Index.Consistent.tune`,
  `Index.Consistent.changeAt` — changes.
-/

namespace Proximity

variable {S E : Type}

/-! ## Memory -/

/-- The elements fit in memory. -/
def Flat.InMemory (f : Flat S E) : Prop := f.data.size < Count.signedBound

/-- The storage and the links fit in memory, and nodes have numbers of 32
bits. -/
structure Graph.InMemory (g : Graph S E) : Prop where
  storage : g.storage.InMemory
  nodes : g.links.nodes.size < Links.nodeBound
  lists : ∀ levels ∈ g.links.nodes, ∀ list ∈ levels, list.length < Count.signedBound

/-- The lists fit in memory, each of them and all labels together. -/
structure InvertedFile.InMemory (f : InvertedFile S E) : Prop where
  size : f.lists.size < Count.signedBound
  labels : ∀ l ∈ f.lists, l.labels.size < Count.signedBound
  codes : ∀ l ∈ f.lists, l.codes.size < Count.signedBound
  total : f.total < Count.signedBound

/-- The parts of a tree fit in memory. -/
def Index.InMemory : Index S E → Prop
  | .flat f => f.InMemory
  | .graph g => g.InMemory
  | .invertedFile f quantizer => f.InMemory ∧ quantizer.InMemory
  | .composite base copies _ => base.InMemory ∧ copies.InMemory

/-! ## Nodes -/

namespace Flat

variable [Space S E]

theorem Consistent.append {f : Flat S E} (h : f.Consistent) {elements : Array E}
    (hwhole : elements.size % f.unitLength = 0) :
    ({ f with data := f.data ++ elements } : Flat S E).Consistent ∧
      ({ f with data := f.data ++ elements } : Flat S E).total =
        f.total + elements.size / f.unitLength :=
  ⟨⟨h.width, append_size_mod h.whole hwhole⟩, append_size_div h.pos h.whole elements⟩

end Flat

namespace Graph

theorem drawLevel_le (seed : UInt64) (scale : Double) (node : Nat) :
    drawLevel seed scale node ≤ Links.levelLimit := Nat.min_le_right _ _

variable [Space S E]

/-- What every insertion of an append keeps holds after the append. -/
theorem foldl_insertNode_induction (g : Graph S E) {P : Nat → Links → Prop} {first count : Nat}
    (hstep : ∀ node links level, node < first + count → level ≤ Links.levelLimit →
      P node links → P (node + 1) (links.insert g.between g.degree g.buildWidth level node))
    (h : P first g.links) :
    P (first + count) ((List.range' first count).foldl insertNode g).links := by
  induction count generalizing g first with
  | zero => exact h
  | succ count ih =>
      rw [List.range'_succ, List.foldl_cons]
      have hfirst : P (first + 1) (g.insertNode first).links :=
        hstep first g.links _ (by omega) (drawLevel_le g.seed g.levelScale first) h
      have hrest : P (first + 1 + count)
          ((List.range' (first + 1) count).foldl insertNode (g.insertNode first)).links :=
        ih (g.insertNode first)
          (fun node links level hnode => hstep node links level (by omega)) hfirst
      rwa [Nat.add_assoc, Nat.add_comm 1 count] at hrest

/-- Linking the next nodes one by one keeps the links consistent. -/
theorem foldl_insertNode_consistent (g : Graph S E) {first : Nat} (count : Nat)
    (h : g.links.Consistent first) :
    ((List.range' first count).foldl insertNode g).links.Consistent (first + count) :=
  g.foldl_insertNode_induction (P := fun node links => links.Consistent node)
    (fun _ _ _ _ hlevel hlinks => hlinks.insert hlevel) h

/-- As many nodes are linked as vectors are appended. -/
theorem append_eq_of_consistent {g : Graph S E} (h : g.storage.Consistent) {elements : Array E}
    (hwhole : elements.size % g.storage.unitLength = 0) :
    g.append elements =
      ((List.range' g.storage.total (elements.size / g.storage.unitLength)).foldl insertNode
        { g with storage := { g.storage with data := g.storage.data ++ elements } }, .ok ()) := by
  rw [g.append_eq_of_whole hwhole]
  dsimp only
  rw [(h.append hwhole).2, Nat.add_sub_cancel_left]

theorem Consistent.append {g : Graph S E} (h : g.Consistent) {elements : Array E}
    (hwhole : elements.size % g.storage.unitLength = 0) :
    (g.append elements).1.Consistent ∧ (g.append elements).1.storage.total =
      g.storage.total + elements.size / g.storage.unitLength := by
  obtain ⟨hstorage, htotal⟩ := h.storage.append hwhole
  have hlinks := foldl_insertNode_consistent
    { g with storage := { g.storage with data := g.storage.data ++ elements } }
    (elements.size / g.storage.unitLength) h.links
  rw [append_eq_of_consistent h.storage hwhole]
  rw [foldl_insertNode_eq] at hlinks ⊢
  exact ⟨⟨hstorage, h.degree, h.searchWidth, h.buildWidth, htotal.symm ▸ hlinks⟩, htotal⟩

end Graph

namespace InvertedFile

/-- The counts of the lists, but for what a word of 64 bits leaves open. -/
structure Balanced (f : InvertedFile S E) : Prop where
  size : f.lists.size = f.listCount
  codes : ∀ l ∈ f.lists,
    l.codes.size % Count.bound = l.labels.size * f.unitLength % Count.bound
  labels : ∀ l ∈ f.lists, ∀ label ∈ l.labels, label < f.total
  stored : f.listSizes.foldr (· + ·) 0 = f.total

variable {f : InvertedFile S E}

/-- A quantizer that has not all of its centroids has none. -/
theorem Consistent.empty_of_not_full {centroids : Nat} (h : f.Consistent centroids)
    (hother : centroids ≠ f.listCount) : centroids = 0 := by
  by_cases hzero : centroids = 0
  · exact hzero
  · exact absurd (h.full hzero) hother

theorem Consistent.balanced {centroids : Nat} (h : f.Consistent centroids) : f.Balanced where
  size := h.size
  codes l hl := by rw [h.codes l hl, Nat.mod_mod]
  labels l hl label hlabel := (h.labels l hl label hlabel).2
  stored := h.stored

private theorem foldr_add_modify {A : Type} (size : A → Nat) (change : A → A) {l : List A}
    {i : Nat} (hi : i < l.length) (hchange : ∀ a, size (change a) = size a + 1) :
    ((l.modify i change).map size).foldr (· + ·) 0 = (l.map size).foldr (· + ·) 0 + 1 := by
  induction l generalizing i with
  | nil => exact absurd hi (Nat.not_lt_zero i)
  | cons a l ih =>
      cases i with
      | zero =>
          rw [List.modify_zero_cons, List.map_cons, List.map_cons, List.foldr_cons,
            List.foldr_cons, hchange]
          omega
      | succ i =>
          have hrest := ih (Nat.lt_of_succ_lt_succ hi)
          rw [List.modify_succ_cons, List.map_cons, List.map_cons, List.foldr_cons,
            List.foldr_cons, hrest]
          omega

/-- One more vector in a list that exists keeps the counts. -/
theorem Balanced.insert (h : f.Balanced) {list : Nat} {v : Array E}
    (hlist : list < f.lists.size) (hv : v.size = f.unitLength) : (f.insert list v).Balanced where
  size := by
    have hsize : (f.lists.modify list fun l => l.push f.total v).size = f.lists.size :=
      Array.size_modify
    exact hsize.trans h.size
  codes l hl := by
    have hmodify : l ∈ f.lists.modify list fun l => l.push f.total v := hl
    rcases mem_modify hmodify with hl | ⟨old, hold, rfl⟩
    · exact h.codes l hl
    · have hcodes := h.codes old (Array.mem_of_getElem? hold)
      rw [PostingList.push, Array.size_append, Array.size_push, hv, Nat.succ_mul]
      have hcongr : (old.codes.size + f.unitLength) % Count.bound =
          (old.labels.size * f.unitLength + f.unitLength) % Count.bound := by
        rw [Nat.add_mod, hcodes, ← Nat.add_mod]
      exact hcongr
  labels l hl label hlabel := by
    have hmodify : l ∈ f.lists.modify list fun l => l.push f.total v := hl
    have htotal : (f.insert list v).total = f.total + 1 := rfl
    rw [htotal]
    rcases mem_modify hmodify with hl | ⟨old, hold, rfl⟩
    · have hlt := h.labels l hl label hlabel
      omega
    · rcases Array.mem_push.1 hlabel with hlabel | rfl
      · have hlt := h.labels old (Array.mem_of_getElem? hold) label hlabel
        omega
      · exact Nat.lt_succ_self _
  stored := by
    have hplace : list < f.lists.toList.length := hlist
    have hsum := foldr_add_modify (fun l : PostingList E => l.labels.size)
      (fun l => l.push f.total v) hplace fun l => Array.size_push _
    have hstored := h.stored
    rw [listSizes] at hstored
    rw [listSizes, InvertedFile.insert, Array.toList_modify, hsum, hstored]

theorem Balanced.insertAll {chosen : List (Nat × Array E)} (h : f.Balanced)
    (hlists : ∀ c ∈ chosen, c.1 < f.listCount) (hwidth : ∀ c ∈ chosen, c.2.size = f.unitLength) :
    (f.insertAll chosen).Balanced := by
  induction chosen generalizing f with
  | nil => exact h
  | cons c chosen ih =>
      have hfirst := h.insert (h.size ▸ hlists c List.mem_cons_self)
        (hwidth c List.mem_cons_self)
      exact ih hfirst (fun d hd => hlists d (List.mem_cons_of_mem c hd))
        fun d hd => hwidth d (List.mem_cons_of_mem c hd)

/-- Where memory suffices, words of 64 bits leave nothing open. -/
theorem Balanced.consistent (h : f.Balanced) (hmemory : f.InMemory) (hcount : f.listCount ≠ 0) :
    f.Consistent f.listCount where
  listCount := hcount
  size := h.size
  full _ := rfl
  untrained hzero := absurd hzero hcount
  codes l hl := by
    have hlt : l.codes.size < Count.bound :=
      Nat.lt_of_lt_of_le (hmemory.codes l hl) (by decide)
    rw [← h.codes l hl, Nat.mod_eq_of_lt hlt]
  labels l hl label hlabel := by
    have hlt := h.labels l hl label hlabel
    exact ⟨Nat.lt_trans hlt hmemory.total, hlt⟩
  stored := h.stored

end InvertedFile

/-! ## Trees -/

namespace Index

variable [Space S E] {index : Index S E}

theorem Consistent.aligned (h : index.Consistent) : index.Aligned := by
  induction index with
  | flat f => trivial
  | graph g => trivial
  | invertedFile f quantizer => trivial
  | composite base copies factor ih => exact ⟨ih h.1, h.2.2.1⟩

/-! ## Searches -/

/-- A query of the right width is answered with what the tree finds, if there is
anything to find. -/
theorem search_eq_of_width {query : Array E} (hwidth : query.size = index.unitLength) (k : Nat)
    (accept : Nat → Bool) :
    index.search query k accept =
      .ok (if k = 0 ∨ index.total = 0 then [] else index.hits (index.nearest query k accept)) := by
  have hcheck : index.checkQuery query = .ok () := if_pos hwidth
  rw [search, hcheck]
  split <;> rfl

theorem searchRange_eq_of_width {query : Array E} (hwidth : query.size = index.unitLength)
    (radius : Single) (accept : Nat → Bool) :
    index.searchRange query radius accept =
      .ok (index.hits (index.within query (Space.toCost index.space radius) accept)) := by
  have hcheck : index.checkQuery query = .ok () := if_pos hwidth
  rw [searchRange, hcheck]
  rfl

/-! ## Appending -/

private theorem Consistent.append_invertedFile {f : InvertedFile S E} {quantizer index' : Index S E}
    (h : (Index.invertedFile f quantizer).Consistent) {elements : Array E}
    (happend : (Index.invertedFile f quantizer).append elements = (index', .ok ()))
    (hmemory : index'.InMemory) :
    index'.Consistent ∧ index'.total = f.total + elements.size / f.unitLength := by
  obtain ⟨htrained, hwhole⟩ := h.aligned.of_append_eq_ok happend
  obtain ⟨hq, hwidth, hdimension, hf⟩ := h
  have hfull : quantizer.total = f.listCount := by simpa [isTrained] using htrained
  rw [append_invertedFile_of_whole f hfull hwhole] at happend
  obtain rfl := (Prod.mk.inj happend).1
  let chosen := (vectorsOf f.unitLength elements).map fun v => (quantizer.listFor v, v)
  have hlists : ∀ c ∈ chosen, c.1 < f.listCount := by
    intro c hc
    obtain ⟨v, -, rfl⟩ := List.mem_map.1 hc
    have hpos : 0 < quantizer.total := hfull ▸ Nat.pos_of_ne_zero hf.listCount
    exact hfull ▸ hq.searchable.listFor_lt hpos v
  have hsizes : ∀ c ∈ chosen, c.2.size = f.unitLength := by
    intro c hc
    obtain ⟨v, hv, rfl⟩ := List.mem_map.1 hc
    exact size_of_mem_vectorsOf hv
  have hbalanced := hf.balanced.insertAll hlists hsizes
  have hlength : chosen.length = elements.size / f.unitLength := by
    rw [List.length_map, length_vectorsOf]
  have hsame := f.insertAll_eq chosen
  have hcount : (f.insertAll chosen).listCount = f.listCount := by rw [hsame]
  have hnew := hbalanced.consistent hmemory.1 (hcount ▸ hf.listCount)
  rw [hcount, ← hfull] at hnew
  have htotal : (f.insertAll chosen).total = f.total + elements.size / f.unitLength := by
    rw [hsame, hlength]
  refine ⟨⟨hq, ?_, ?_, hnew⟩, htotal⟩
  · have hunit : (f.insertAll chosen).unitLength = f.unitLength := by rw [hsame]
    exact hwidth.trans hunit.symm
  · have hdim : (f.insertAll chosen).dimension = f.dimension := by rw [hsame]
    exact hdimension.trans hdim.symm

/-- An accepted append keeps a tree consistent and counts its vectors. -/
theorem Consistent.append {index' : Index S E} (h : index.Consistent) {elements : Array E}
    (happend : index.append elements = (index', .ok ())) (hmemory : index'.InMemory) :
    index'.Consistent ∧ index'.total = index.total + elements.size / index.unitLength := by
  induction index generalizing index' with
  | flat f =>
      have hwhole := (h.aligned.of_append_eq_ok happend).2
      have hnew : (Index.flat f).append elements =
          (.flat { f with data := f.data ++ elements }, .ok ()) := by
        have hchecked : elements.size % f.unitLength = 0 := hwhole
        simp [Index.append, Flat.append, Flat.checkWhole, hchecked]
      rw [hnew] at happend
      obtain rfl := (Prod.mk.inj happend).1
      exact Flat.Consistent.append h hwhole
  | graph g =>
      have hwhole := (h.aligned.of_append_eq_ok happend).2
      simp only [Index.append] at happend
      obtain rfl := (Prod.mk.inj happend).1
      exact Graph.Consistent.append h hwhole
  | invertedFile f quantizer => exact h.append_invertedFile happend hmemory
  | composite base copies factor ih =>
      obtain ⟨hcopies, base', hbase, rfl⟩ := h.aligned.append_composite happend
      obtain ⟨hb, hc, hwidth, htotal, hfactor⟩ := h
      obtain ⟨hbaseNew, hbaseTotal⟩ := ih hb hbase hmemory.1
      obtain ⟨hcopiesNew, hcopiesTotal⟩ := hc.append hcopies
      have hsame := append_sameWidth base elements
      rw [hbase] at hsame
      refine ⟨⟨hbaseNew, hcopiesNew, hwidth.trans hsame.unitLength.symm, ?_, hfactor⟩, ?_⟩
      · rw [hcopiesTotal, hbaseTotal, htotal, hwidth]
      · have hcount : elements.size / copies.unitLength = elements.size / base.unitLength :=
          congrArg (elements.size / ·) hwidth
        exact hcopiesTotal.trans (congrArg (copies.total + ·) hcount)

/-- An append, accepted or not, keeps a tree consistent. -/
theorem Consistent.append_fst (h : index.Consistent) (elements : Array E)
    (hmemory : (index.append elements).1.InMemory) : (index.append elements).1.Consistent := by
  cases happend : index.append elements with
  | mk index' outcome =>
      cases outcome with
      | ok u =>
          rw [happend] at hmemory
          exact (h.append happend hmemory).1
      | error e =>
          rw [h.aligned.eq_of_append_eq_error happend]
          exact h

/-! ## Training and tuning -/

/-- A changed base of the same stock may be put under the copies. -/
theorem Consistent.composite {base base' : Index S E} {copies : Flat S E} {factor factor' : Single}
    (h : (Index.composite base copies factor).Consistent) (hsame : SameStock base base')
    (hbase : base'.Consistent)
    (hfactor : factor'.isFinite = true ∧ Single.one.le factor' = true) :
    (Index.composite base' copies factor').Consistent := by
  obtain ⟨-, hc, hwidth, htotal, -⟩ := h
  exact ⟨hbase, hc, hwidth.trans hsame.unitLength.symm, htotal.trans hsame.total.symm, hfactor⟩

/-- A changed quantizer of the same stock may be put under the lists. -/
theorem Consistent.invertedFile {f : InvertedFile S E} {quantizer quantizer' : Index S E}
    (h : (Index.invertedFile f quantizer).Consistent) (hsame : SameStock quantizer quantizer')
    (hquantizer : quantizer'.Consistent) : (Index.invertedFile f quantizer').Consistent := by
  obtain ⟨-, hwidth, hdimension, hf⟩ := h
  exact ⟨hquantizer, hsame.unitLength.trans hwidth, hsame.dimension.trans hdimension,
    hsame.total.symm ▸ hf⟩

/-- Centroids fill an empty quantizer. -/
private theorem Consistent.fill [Space.KeepsWidth S] {f : InvertedFile S E}
    {quantizer quantizer' : Index S E} (h : (Index.invertedFile f quantizer).Consistent)
    (huntrained : quantizer.total ≠ f.listCount) {sample centroids : Array E}
    (htrain : Clustering.train f.space f.clustering f.unitLength f.listCount sample =
      .ok centroids)
    (happend : quantizer.append centroids = (quantizer', .ok ()))
    (hmemory : quantizer'.InMemory) : (Index.invertedFile f quantizer').Consistent := by
  obtain ⟨hq, hwidth, hdimension, hf⟩ := h
  have hempty := hf.empty_of_not_full huntrained
  have hsize := Clustering.size_of_train (Nat.pos_of_ne_zero hf.listCount) htrain
  obtain ⟨hnew, htotal⟩ := hq.append happend hmemory
  have hfull : quantizer'.total = f.listCount := by
    rw [htotal, hempty, hsize, hwidth, Nat.zero_add]
    exact Nat.mul_div_cancel _ (hwidth ▸ hq.pos)
  have hsame := append_sameWidth quantizer centroids
  rw [happend] at hsame
  refine ⟨hnew, hsame.unitLength.trans hwidth, hsame.dimension.trans hdimension, ?_⟩
  exact
    { listCount := hf.listCount
      size := hf.size
      full := fun _ => hfull
      untrained := fun hzero => absurd (hfull.symm.trans hzero) hf.listCount
      codes := hf.codes
      labels := hf.labels
      stored := hf.stored }

/-- A training keeps a tree consistent. -/
theorem Consistent.train [Space.KeepsWidth S] (h : index.Consistent) (sample : Array E)
    (hmemory : (index.train sample).1.InMemory) : (index.train sample).1.Consistent := by
  induction index with
  | flat f => exact h
  | graph g => exact h
  | invertedFile f quantizer =>
      simp only [Index.train] at hmemory ⊢
      split at hmemory
      · rename_i hshort
        simpa [hshort] using h
      · rename_i hlong
        split at hmemory
        · rename_i htrained
          simpa [hlong, htrained] using h
        · rename_i huntrained
          cases htrain : Clustering.train f.space f.clustering f.unitLength f.listCount sample with
          | error e => simpa [hlong, huntrained, htrain] using h
          | ok centroids =>
              simp only [htrain] at hmemory
              simp only [hlong, huntrained, if_false]
              cases happend : quantizer.append centroids with
              | mk quantizer' outcome =>
                  rw [happend] at hmemory
                  cases outcome with
                  | ok u => exact h.fill huntrained htrain happend hmemory.2
                  | error e =>
                      rw [h.1.aligned.eq_of_append_eq_error happend]
                      exact h
  | composite base copies factor ih =>
      simp only [Index.train] at hmemory ⊢
      split at hmemory
      · rename_i hshort
        simpa [hshort] using h
      · rename_i hlong
        simp only [hlong, if_false]
        have hbase := ih h.1 hmemory.1
        exact h.composite (train_sameStock base sample) hbase h.2.2.2.2

/-- A tuning keeps a graph consistent. -/
theorem consistent_of_tuneGraph {g g' : Graph S E} (h : g.Consistent) {ps : Parameters}
    (htune : tuneGraph g ps = .ok g') : g'.Consistent := by
  have hkept {key : String} {old : Nat} (hold : old ≠ 0) : (ps.askedCount? key).getD old ≠ 0 := by
    cases hasked : ps.askedCount? key with
    | none => exact hold
    | some n => exact Nat.ne_of_gt (Parameters.askedCount?_pos hasked)
  obtain ⟨-, rfl⟩ := tuneGraph_eq_ok_iff.1 htune
  exact ⟨h.storage, h.degree, hkept h.searchWidth, hkept h.buildWidth, h.links⟩

/-- A tuning keeps a tree consistent. -/
theorem Consistent.tune (h : index.Consistent) (ps : Parameters) :
    (index.tune ps).1.Consistent := by
  refine tune_induction (motive := fun a b => a.Consistent → b.Consistent) ?refl ?graph ?file
    ?composite index ps h
  case refl => exact fun index h => h
  case graph => exact fun g g' ps htune h => consistent_of_tuneGraph h htune
  case file =>
    intro f quantizer quantizer' ps probes nested hread hstock ih h
    have hprobes : (Index.invertedFile { f with probes := probes.getD f.probes }
        quantizer).Consistent := by
      obtain ⟨hq, hwidth, hdimension, hf⟩ := h
      exact ⟨hq, hwidth, hdimension, hf.listCount, hf.size, hf.full, hf.untrained, hf.codes,
        hf.labels, hf.stored⟩
    exact hprobes.invertedFile hstock (ih h.1)
  case composite =>
    intro base base' copies factor ps asked hfactor hstock ih h
    refine h.composite hstock (ih h.1) ?_
    cases asked with
    | none => exact h.2.2.2.2
    | some x =>
        exact Parameters.of_askedNumber? (Parameters.atLeast?_one_eq_ok_iff.1 hfactor).2

/-! ## Changes of a node -/

/-- A change of a node that keeps its stock and keeps it consistent keeps the
whole tree consistent. -/
theorem Consistent.changeAt {A : Type} {change : Index S E → Index S E × A}
    (hsame : ∀ index, SameStock index (change index).1)
    (hchange : ∀ index, index.Consistent → (change index).1.InMemory →
      (change index).1.Consistent)
    (h : index.Consistent) {path : List Child} {r : Index S E × A}
    (hr : index.changeAt change path = some r) (hmemory : r.1.InMemory) : r.1.Consistent := by
  have hkeeps : index.Consistent → r.1.InMemory → r.1.Consistent := by
    refine changeAt_sameStock_induction
      (motive := fun a b => a.Consistent → b.InMemory → b.Consistent) hsame hchange ?_ ?_ hr
    · intro base base' copies factor hstock hbase hall hm
      exact hall.composite hstock (hbase hall.1 hm.1) hall.2.2.2.2
    · intro f quantizer quantizer' hstock hq hall hm
      exact hall.invertedFile hstock (hq hall.1 hm.2)
  exact hkeeps h hmemory

end Index

end Proximity

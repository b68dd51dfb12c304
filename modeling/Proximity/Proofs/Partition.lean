import Mathlib.Algebra.GroupWithZero.Nat
import Proximity.Proofs.Convergence
import Proximity.Proofs.Recall
import Proximity.Proofs.Spaces

/-!
# Inverted lists are a partition

Labels are given out in order, so a list that takes a vector takes it behind smaller labels.
Each list thus names its vectors in the order of their acceptance, and since no label is in
two lists, the lists cut the accepted vectors into parts that have nothing in common.

Which part a vector is in is up to the quantizer.  Flat storage looks for the centroid that
comes first by cost and number, by collecting the best one of all; the clustering looks for
the first of the cheapest centroids, by keeping the better one of two.  These are the same
centroid whatever the costs are, so over flat storage the lists are the clusters that an
iteration of the training would make of the accepted vectors.

## Main definitions

* `InvertedFile.Ascending`, `Index.Ascending` — labels in the order in which they were given
  out.
* `InvertedFile.InList` — where a label is.
* `InvertedFile.Partition` — the lists cut some vectors into parts.

## Main results

* `Index.Evolved.change_induction` — induction over histories, change by change.
* `Index.Change.ascending` — changes keep labels in order.
* `InvertedFile.Holds.partition` — lists that hold vectors in order are a partition of them.
* `Index.home_eq_nearest` — the centroid that ranks first is the one that clustering assigns.
* `Index.Evolved.mem_entriesAt_iff`, `Index.Evolved.map_snd_entriesAt` — the lists over flat
  storage.
* `inverted_lists_partition` — inverted files.
-/

namespace Proximity

variable {S E : Type}

/-! ## Lists of entries -/

/-- Entries in order of their labels are determined by which entries there are. -/
private theorem eq_of_increasing {A : Type} {as bs : List (Nat × A)}
    (ha : as.Pairwise fun a b => a.1 < b.1) (hb : bs.Pairwise fun a b => a.1 < b.1)
    (hmem : ∀ e, e ∈ as ↔ e ∈ bs) : as = bs := by
  have hdifferent : ∀ {es : List (Nat × A)}, es.Pairwise (fun a b => a.1 < b.1) → es.Nodup :=
    fun hes => hes.imp fun hlt heq => absurd (congrArg Prod.fst heq) (Nat.ne_of_lt hlt)
  have hperm := (List.perm_ext_iff_of_nodup (hdifferent ha) (hdifferent hb)).2 hmem
  exact hperm.eq_of_pairwise (fun _ _ _ _ hab hba => absurd hab (Nat.lt_asymm hba)) ha hb

/-- The vectors of a list with their positions. -/
private theorem mem_range_zip_iff {vs : List (Array E)} {label : Nat} {v : Array E} :
    (label, v) ∈ (List.range vs.length).zip vs ↔ vs[label]? = some v := by
  rw [List.mem_iff_getElem?]
  constructor
  · rintro ⟨i, hi⟩
    obtain ⟨hrange, hv⟩ := List.getElem?_zip_eq_some.1 hi
    obtain ⟨_, rfl⟩ := List.getElem?_eq_some_iff.1 hrange
    rwa [List.getElem_range]
  · intro hv
    refine ⟨label, List.getElem?_zip_eq_some.2 ⟨?_, hv⟩⟩
    exact List.getElem?_range (List.getElem?_eq_some_iff.1 hv).1

private theorem range_zip_increasing (vs : List (Array E)) :
    ((List.range vs.length).zip vs).Pairwise fun a b => a.1 < b.1 := by
  refine List.pairwise_map.1 ?_
  rw [List.map_fst_zip (Nat.le_of_eq List.length_range)]
  exact List.pairwise_lt_range

/-! ## Labels in order -/

namespace InvertedFile

variable {f : InvertedFile S E} {vs : List (Array E)}

/-- The labels in each list ascend, and all of them were given out. -/
structure Ascending (f : InvertedFile S E) : Prop where
  increasing : ∀ l ∈ f.lists, l.labels.toList.Pairwise (· < ·)
  below : ∀ l ∈ f.lists, ∀ label ∈ l.labels, label < f.total

/-- There is nothing to be in order in empty lists. -/
theorem empty_ascending (space : S) (dimension unitLength listCount : Nat)
    (clustering : ClusteringSettings) :
    (InvertedFile.empty (E := E) space dimension unitLength listCount clustering).Ascending where
  increasing l hl := by
    obtain rfl := (Array.mem_replicate.1 hl).2
    exact List.Pairwise.nil
  below l hl label hlabel := by
    obtain rfl := (Array.mem_replicate.1 hl).2
    exact absurd hlabel (Array.not_mem_empty label)

/-- The next label goes behind all labels of its list. -/
theorem Ascending.insert (h : f.Ascending) (list : Nat) (v : Array E) :
    (f.insert list v).Ascending where
  increasing l hl := by
    have hmodify : l ∈ f.lists.modify list fun l => l.push f.total v := hl
    rcases mem_modify hmodify with hl | ⟨old, hold, rfl⟩
    · exact h.increasing l hl
    · have hmem : old ∈ f.lists := Array.mem_of_getElem? hold
      rw [PostingList.push, Array.toList_push]
      refine List.pairwise_append.2 ⟨h.increasing old hmem, List.pairwise_singleton _ _, ?_⟩
      intro label hlabel last hlast
      rw [List.mem_singleton.1 hlast]
      exact h.below old hmem label (Array.mem_toList_iff.1 hlabel)
  below l hl label hlabel := by
    have hmodify : l ∈ f.lists.modify list fun l => l.push f.total v := hl
    show label < f.total + 1
    rcases mem_modify hmodify with hl | ⟨old, hold, rfl⟩
    · exact Nat.lt_succ_of_lt (h.below l hl label hlabel)
    · rcases Array.mem_push.1 hlabel with hlabel | rfl
      · exact Nat.lt_succ_of_lt (h.below old (Array.mem_of_getElem? hold) label hlabel)
      · exact Nat.lt_succ_self _

theorem Ascending.insertAll (h : f.Ascending) (chosen : List (Nat × Array E)) :
    (f.insertAll chosen).Ascending := by
  induction chosen generalizing f with
  | nil => exact h
  | cons c chosen ih => exact ih (h.insert c.1 c.2)

end InvertedFile

namespace Index

/-- The labels in the lists of every inverted file of the tree are in order. -/
def Ascending : Index S E → Prop
  | .flat _ | .graph _ => True
  | .invertedFile f quantizer => f.Ascending ∧ quantizer.Ascending
  | .composite base _ _ => base.Ascending

variable [Space S E] {index : Index S E} {vs : List (Array E)}

theorem Constructed.ascending (h : index.Constructed) : index.Ascending := by
  apply h.steps (motive := Ascending)
  · intro _ _ _ _ _
    trivial
  · intro _ _ _ _ _ _ _ _ _ _ _
    trivial
  · intro quantizer index listCount clustering _ hq _ _ hover
    obtain ⟨-, -, unitLength, -, rfl⟩ := invertedFileOver_eq_ok_iff.1 hover
    exact ⟨InvertedFile.empty_ascending _ _ _ _ _, hq⟩
  · intro base index _ hbase hover
    obtain ⟨-, copies, -, rfl⟩ := compositeOver_eq_ok_iff.1 hover
    exact hbase

theorem Ascending.append (h : index.Ascending) (elements : Array E) :
    (index.append elements).1.Ascending := by
  refine append_induction (motive := fun a b => a.Ascending → b.Ascending) elements ?refl ?flat
    ?graph ?file ?composite index h
  case refl => exact fun index h => h
  case flat => exact fun f data h => trivial
  case graph => exact fun g hwhole h => trivial
  case file => exact fun f quantizer chosen htrained h => ⟨h.1.insertAll chosen, h.2⟩
  case composite => exact fun base base' copies data factor ih h => ih h

theorem Ascending.train (h : index.Ascending) (sample : Array E) :
    (index.train sample).1.Ascending := by
  refine train_induction (motive := fun a b => a.Ascending → b.Ascending) ?refl ?file ?composite
    index sample h
  case refl => exact fun index h => h
  case file => exact fun f quantizer centroids huntrained h => ⟨h.1, h.2.append centroids⟩
  case composite => exact fun base base' copies factor hstock ih h => ih h

omit [Space S E] in
theorem Ascending.tune (h : index.Ascending) (ps : Parameters) :
    (index.tune ps).1.Ascending := by
  refine tune_induction (motive := fun a b => a.Ascending → b.Ascending) ?refl ?graph ?file
    ?composite index ps h
  case refl => exact fun index h => h
  case graph => exact fun g g' ps htune h => trivial
  case file =>
    exact fun f quantizer quantizer' ps probes nested hread hstock ih h =>
      ⟨⟨h.1.increasing, h.1.below⟩, ih h.2⟩
  case composite => exact fun base base' copies factor ps asked hfactor hstock ih h => ih h

omit [Space S E] in
/-- A change of a node that keeps its labels in order keeps those of the tree. -/
theorem Ascending.changeAt {A : Type} {change : Index S E → Index S E × A}
    (hchange : ∀ index, index.Ascending → (change index).1.Ascending) (h : index.Ascending)
    {path : List Child} {r : Index S E × A} (hr : index.changeAt change path = some r) :
    r.1.Ascending := by
  have hkeeps : index.Ascending → r.1.Ascending := by
    refine changeAt_induction (motive := fun a b => a.Ascending → b.Ascending) hchange ?_ ?_ hr
    · exact fun _ _ _ _ hbase => hbase
    · exact fun _ _ _ hq hall => ⟨hall.1, hq hall.2⟩
  exact hkeeps h

/-- Changes keep the labels in order. -/
theorem Change.ascending {index' : Index S E} (h : index.Change index')
    (hindex : index.Ascending) : index'.Ascending := by
  cases h with
  | append elements => exact hindex.append elements
  | train hr => exact hindex.changeAt (fun _ h => h.train _) hr
  | tune hr => exact hindex.changeAt (fun _ h => h.tune _) hr

/-! ## Histories -/

/-- What holds of whatever was constructed, and is kept by changes, holds after any history. -/
theorem Evolved.change_induction {P : Index S E → Prop} (h : index.Evolved vs)
    (hempty : ∀ index, index.Constructed → P index)
    (hchange : ∀ index index', index.Change index' → P index → P index') : P index := by
  induction h with
  | empty hindex => exact hempty _ hindex
  | @append index _ _ elements _ happend ih =>
      have hnext := Change.append index elements
      rw [happend] at hnext
      exact hchange _ _ hnext ih
  | @refused index _ _ elements _ _ happend ih =>
      have hnext := Change.append index elements
      rw [happend] at hnext
      exact hchange _ _ hnext ih
  | train _ hr ih => exact hchange _ _ (.train hr) ih
  | tune _ hr ih => exact hchange _ _ (.tune hr) ih

theorem Evolved.ascending (h : index.Evolved vs) : index.Ascending :=
  h.change_induction (fun _ hindex => hindex.ascending) fun _ _ hchange => hchange.ascending

theorem Evolved.oneSpace (h : index.Evolved vs) : index.OneSpace :=
  h.change_induction (fun _ hindex => hindex.oneSpace) fun _ _ hchange => hchange.oneSpace

/-- A training of the root is one of a node. -/
theorem Grown.evolved (h : index.Grown vs) : index.Evolved vs := by
  induction h with
  | empty hindex => exact .empty hindex
  | append _ happend ih => exact ih.append happend
  | refused _ happend ih => exact ih.refused happend
  | @train index vs sample _ ih =>
      have hr : index.changeAt (·.train sample) [] = some (index.train sample) := by
        rw [changeAt]
      exact ih.train hr
  | tune _ hr ih => exact ih.tune hr

end Index

/-! ## Parts -/

namespace InvertedFile

variable {f : InvertedFile S E} {vs : List (Array E)}

/-- A label is in the list with a number. -/
def InList (f : InvertedFile S E) (place : Nat) (label : Nat) : Prop :=
  ∃ l, f.lists[place]? = some l ∧ label ∈ l.labels

/-- The lists cut some vectors, taken in order, into parts. -/
structure Partition (f : InvertedFile S E) (vs : List (Array E)) : Prop where
  total : f.total = vs.length
  lists : f.lists.size = f.listCount
  /-- The sizes of the lists add up. -/
  sizes : f.listSizes.sum = f.total
  /-- Within a list labels ascend. -/
  increasing : ∀ l ∈ f.lists, l.labels.toList.Pairwise (· < ·)
  /-- No other labels are used than the positions of the vectors. -/
  below : ∀ l ∈ f.lists, ∀ label ∈ l.labels, label < f.total
  /-- Each of them is in one list. -/
  once : ∀ label < f.total, ∃! place, f.InList place label
  /-- A list has the elements of one vector to a label. -/
  whole : ∀ l ∈ f.lists, l.codes.size = l.labels.size * f.unitLength
  /-- The vector beside a label is the one at that position. -/
  beside : ∀ l ∈ f.lists, ∀ i label, l.labels[i]? = some label →
    vs[label]? = some (l.codes.extract (i * f.unitLength) (i * f.unitLength + f.unitLength))

/-- The labels in all lists are the positions of the vectors. -/
theorem Holds.labels_perm (h : f.Holds vs) : f.labels.Perm (List.range f.total) := by
  have hperm := h.entries.map (·.1)
  rwa [h.map_fst_entries, List.map_fst_zip (Nat.le_of_eq List.length_range), ← h.total] at hperm

/-- No label is in two lists. -/
theorem Holds.place_unique (h : f.Holds vs) {label a b : Nat} (ha : f.InList a label)
    (hb : f.InList b label) : a = b := by
  obtain ⟨la, ha, hla⟩ := ha
  obtain ⟨lb, hb, hlb⟩ := hb
  have hother := (List.pairwise_flatMap.1 h.nodup_labels).2
  rw [List.pairwise_iff_getElem] at hother
  rw [← Array.getElem?_toList] at ha hb
  obtain ⟨hlta, rfl⟩ := List.getElem?_eq_some_iff.1 ha
  obtain ⟨hltb, rfl⟩ := List.getElem?_eq_some_iff.1 hb
  have hla := Array.mem_toList_iff.2 hla
  have hlb := Array.mem_toList_iff.2 hlb
  rcases Nat.lt_trichotomy a b with hab | rfl | hba
  · exact absurd rfl (hother a b hlta hltb hab label hla label hlb)
  · rfl
  · exact absurd rfl (hother b a hltb hlta hba label hlb label hla)

/-- Every position is in some list. -/
theorem Holds.exists_place (h : f.Holds vs) {label : Nat} (hlabel : label < f.total) :
    ∃ place, f.InList place label := by
  have hmem : label ∈ f.labels := h.labels_perm.mem_iff.2 (List.mem_range.2 hlabel)
  obtain ⟨l, hl, hlabel⟩ := List.mem_flatMap.1 hmem
  obtain ⟨place, hplace⟩ := List.mem_iff_getElem?.1 hl
  rw [Array.getElem?_toList] at hplace
  exact ⟨place, l, hplace, Array.mem_toList_iff.1 hlabel⟩

/-- The entries of a list are its labels, each with the vector beside it. -/
theorem Holds.getElem?_entries (h : f.Holds vs) {l : PostingList E} (hl : l ∈ f.lists)
    {i label : Nat} (hi : l.labels[i]? = some label) :
    (l.entries f.unitLength)[i]? =
      some (label, l.codes.extract (i * f.unitLength) (i * f.unitLength + f.unitLength)) := by
  have hwhole := h.whole l hl
  have hlt : i < l.codes.size / f.unitLength := by
    rw [hwhole, Nat.mul_div_cancel _ h.pos]
    exact (Array.getElem?_eq_some_iff.1 hi).1
  rw [PostingList.entries, List.getElem?_zip_eq_some]
  exact ⟨by rwa [Array.getElem?_toList], getElem?_vectorsOf hlt⟩

/-- A label of a list comes with a vector there. -/
theorem Holds.exists_mem_entriesAt (h : f.Holds vs) {place label : Nat}
    (hlabel : f.InList place label) : ∃ v, (label, v) ∈ f.entriesAt place := by
  obtain ⟨l, hplace, hlabel⟩ := hlabel
  obtain ⟨i, hi⟩ := Array.mem_iff_getElem?.1 hlabel
  have hentry := h.getElem?_entries (Array.mem_of_getElem? hplace) hi
  rw [entriesAt, hplace]
  exact ⟨_, List.mem_of_getElem? hentry⟩

/-- Lists that hold some vectors with their labels in order are a partition of them. -/
theorem Holds.partition (h : f.Holds vs) (hascending : f.Ascending) : f.Partition vs where
  total := h.total
  lists := h.size
  sizes := by
    have hlength := h.labels_perm.length_eq
    rw [List.length_range, InvertedFile.labels, List.length_flatMap] at hlength
    exact hlength
  increasing := hascending.increasing
  below := hascending.below
  once label hlabel := by
    obtain ⟨place, hplace⟩ := h.exists_place hlabel
    exact ⟨place, hplace, fun other hother => h.place_unique hother hplace⟩
  whole := h.whole
  beside l hl i label hi := by
    have hentry := List.mem_of_getElem? (h.getElem?_entries hl hi)
    exact h.getElem?_of_mem (List.mem_flatMap.2 ⟨l, Array.mem_toList_iff.2 hl, hentry⟩)

end InvertedFile

/-! ## Flat storage over centroids -/

variable [Space S E]

namespace Index

variable {f : InvertedFile S E} {q : Flat S E} {vs : List (Array E)} {place label : Nat}
  {v : Array E}

/-- The centroid that ranks first by cost and number is the first of the cheapest ones. -/
theorem home_eq_nearest (space : S) (centroids : List (Array E)) (v : Array E) :
    home space centroids v = Clustering.nearest space centroids v := by
  by_cases hne : centroids = []
  · subst hne
    simp [home, Proximity.ranking, candidatesAt, Candidate.ranked, Clustering.nearest]
  · obtain ⟨c, hc, hleast⟩ := Clustering.nearest_isNearest space hne v
    generalize Clustering.nearest space centroids v = nearest at hc hleast ⊢
    have hlt : nearest < centroids.length := (List.getElem?_eq_some_iff.1 hc).1
    have hmem : (⟨Space.cost space c v, nearest⟩ : Candidate) ∈
        Proximity.ranking space centroids v fun _ => true := by
      refine mem_ranking_iff.2 ⟨hlt, rfl, ?_⟩
      rw [costAt, hc, Option.getD_some]
    have hbest := bestFirst_ranking space centroids v fun _ => true
    rw [home]
    cases hranking : Proximity.ranking space centroids v fun _ => true with
    | nil => exact absurd (hranking ▸ hmem) List.not_mem_nil
    | cons first rest =>
        have hfirst : first ∈ Proximity.ranking space centroids v fun _ => true :=
          hranking ▸ List.mem_cons_self
        obtain ⟨hstored, -, hcost⟩ := mem_ranking_iff.1 hfirst
        have hplace := List.getElem?_eq_getElem hstored
        rw [costAt, hplace, Option.getD_some] at hcost
        obtain ⟨hle, hearlier⟩ := hleast first.label _ hplace
        rw [← hcost] at hle hearlier
        -- the first one ranks no later, so it is no more expensive, and no later if it is tied
        have hrank : first.le ⟨Space.cost space c v, nearest⟩ = true := by
          rw [hranking] at hmem hbest
          rcases List.mem_cons.1 hmem with heq | hmem
          · rw [← heq]
            exact Candidate.le_refl _
          · exact (List.pairwise_cons.1 hbest).1 _ hmem
        rw [Candidate.le, decide_eq_true_eq] at hrank
        dsimp only at hrank
        show first.label = nearest
        omega

omit [Space S E] in
theorem plain_flat (q : Flat S E) : (Index.flat q).Plain := by
  intro topology htopology
  exact .inl (List.mem_singleton.1 htopology)

/-- Flat storage chooses the list of the centroid that clustering assigns. -/
theorem Evolved.listFor_flat (h : (Index.invertedFile f (.flat q)).Evolved vs) (v : Array E) :
    (Index.flat q).listFor v = Clustering.nearest f.space q.vectors v := by
  obtain ⟨-, centroids, hq⟩ := h.holds
  have hstored : q.vectors = centroids := hq.vectors
  have hspace : q.space = f.space :=
    h.oneSpace q.space (List.mem_cons_of_mem _ (List.mem_singleton_self _))
  rw [hq.listFor_eq_home h.seated.1 (plain_flat q).exhaustive, home_eq_nearest, hstored]
  exact congrArg (Clustering.nearest · centroids v) hspace

/-- Every vector is in the list of the centroid that clustering assigns to it. -/
private theorem Evolved.mem_entriesAt_nearest
    (h : (Index.invertedFile f (.flat q)).Evolved vs) (hv : vs[label]? = some v) :
    (label, v) ∈ f.entriesAt (Clustering.nearest f.space q.vectors v) := by
  have hlabel : label < vs.length := (List.getElem?_eq_some_iff.1 hv).1
  obtain ⟨w, hhome⟩ := (h.placedExactly ⟨f, .flat q, rfl, plain_flat q⟩ hlabel).atHome
  obtain rfl : w = v := Option.some.inj ((hhome.getElem? h.holds).symm.trans hv)
  obtain ⟨centroids, hq, hentry⟩ := hhome
  rwa [← hq.listFor_eq_home h.seated.1 (plain_flat q).exhaustive, h.listFor_flat] at hentry

/-- The entries of a list are the vectors to which clustering assigns its centroid. -/
theorem Evolved.mem_entriesAt_iff (h : (Index.invertedFile f (.flat q)).Evolved vs) :
    (label, v) ∈ f.entriesAt place ↔
      vs[label]? = some v ∧ Clustering.nearest f.space q.vectors v = place := by
  constructor
  · intro hentry
    have hv := h.holds.1.getElem?_of_mem (f.mem_entries_of_mem_entriesAt hentry)
    have hnearest := h.mem_entriesAt_nearest hv
    refine ⟨hv, ?_⟩
    by_contra hne
    have hplaces : [Clustering.nearest f.space q.vectors v, place].Nodup := by simpa using hne
    have hnodup := InvertedFile.nodup_probed h.holds.1.nodup hplaces
    rw [List.flatMap_cons, List.flatMap_cons, List.flatMap_nil, List.append_nil,
      List.map_append] at hnodup
    have hdisjoint := (List.pairwise_append.1 hnodup).2.2
    exact hdisjoint label (List.mem_map_of_mem hnearest) label (List.mem_map_of_mem hentry) rfl
  · rintro ⟨hv, rfl⟩
    exact h.mem_entriesAt_nearest hv

/-- The entries of a list are in the order of their labels. -/
private theorem Evolved.entriesAt_increasing {quantizer : Index S E}
    (h : (Index.invertedFile f quantizer).Evolved vs) (place : Nat) :
    (f.entriesAt place).Pairwise fun a b => a.1 < b.1 := by
  rw [InvertedFile.entriesAt]
  cases hlist : f.lists[place]? with
  | none => exact List.Pairwise.nil
  | some l =>
      have hmem : l ∈ f.lists := Array.mem_of_getElem? hlist
      have hincreasing := h.ascending.1.increasing l hmem
      rw [← (h.holds.1.whole l hmem).map_fst_entries h.holds.1.pos] at hincreasing
      exact List.pairwise_map.1 hincreasing

/-- A list is what clustering makes of the vectors with their positions. -/
theorem Evolved.entriesAt_eq (h : (Index.invertedFile f (.flat q)).Evolved vs) (place : Nat) :
    f.entriesAt place = ((List.range vs.length).zip vs).filter fun e =>
      Clustering.nearest f.space q.vectors e.2 == place := by
  refine eq_of_increasing (h.entriesAt_increasing place) ((range_zip_increasing vs).filter _) ?_
  rintro ⟨label, v⟩
  rw [h.mem_entriesAt_iff, List.mem_filter, mem_range_zip_iff, beq_iff_eq]

/-- The vectors of a list are the members of the cluster of its centroid. -/
theorem Evolved.map_snd_entriesAt (h : (Index.invertedFile f (.flat q)).Evolved vs)
    (place : Nat) :
    (f.entriesAt place).map (·.2) =
      Clustering.members vs (vs.map (Clustering.nearest f.space q.vectors)) place := by
  have hvectors : ((List.range vs.length).zip vs).map (·.2) = vs :=
    List.map_snd_zip (Nat.le_of_eq List.length_range.symm)
  rw [h.entriesAt_eq, Clustering.members_nearest, Clustering.cluster]
  conv_rhs => rw [← hvectors]
  rw [List.filter_map]
  rfl

/-- There are centroids where there are vectors. -/
private theorem Evolved.centroids_ne_nil (h : (Index.invertedFile f (.flat q)).Evolved vs)
    (hvs : vs ≠ []) : q.vectors ≠ [] := by
  have hsome : f.total ≠ 0 := by
    rw [h.holds.1.total]
    exact mt List.length_eq_zero_iff.1 hvs
  have hcount : q.total = f.listCount := h.seated.2 hsome
  have hlength : q.vectors.length = q.total := length_vectorsOf q.unitLength q.data
  refine List.ne_nil_of_length_pos ?_
  rw [hlength, hcount]
  exact h.holds.1.nonempty

/-- A label is in the list of the first of the centroids that are cheapest for its vector. -/
theorem Evolved.eq_nearest_of_inList (h : (Index.invertedFile f (.flat q)).Evolved vs)
    (hlabel : f.InList place label) (hv : vs[label]? = some v) :
    place = Clustering.nearest f.space q.vectors v ∧
      Clustering.IsNearest f.space q.vectors v place := by
  obtain ⟨w, hentry⟩ := h.holds.1.exists_mem_entriesAt hlabel
  obtain ⟨hw, rfl⟩ := h.mem_entriesAt_iff.1 hentry
  obtain rfl := Option.some.inj (hw.symm.trans hv)
  have hvs : vs ≠ [] := List.ne_nil_of_mem (List.mem_of_getElem? hv)
  exact ⟨rfl, Clustering.nearest_isNearest f.space (h.centroids_ne_nil hvs) w⟩

end Index

/-- **Inverted lists are a partition.**  After any history of an inverted file, labels ascend
within each list, every position of an accepted vector is in exactly one list, with that
vector beside it, and the sizes of the lists add up.  Over flat storage the list of a vector is
that of the centroid to which clustering assigns it, the first of the cheapest, so the lists
are the clusters that the stored centroids make of the accepted vectors. -/
theorem inverted_lists_partition {f : InvertedFile S E} {quantizer : Index S E}
    {vs : List (Array E)} (h : (Index.invertedFile f quantizer).Grown vs) :
    f.Partition vs ∧ ∀ q, quantizer = .flat q →
      (∀ v, quantizer.listFor v = Clustering.nearest f.space q.vectors v) ∧
      (∀ place label v, f.InList place label → vs[label]? = some v →
        place = Clustering.nearest f.space q.vectors v ∧
          Clustering.IsNearest f.space q.vectors v place) ∧
      ∀ place, (f.entriesAt place).map (·.2) =
        Clustering.members vs (vs.map (Clustering.nearest f.space q.vectors)) place := by
  have hevolved := h.evolved
  refine ⟨hevolved.holds.1.partition hevolved.ascending.1, ?_⟩
  rintro q rfl
  exact ⟨hevolved.listFor_flat, fun _ _ _ => hevolved.eq_nearest_of_inList,
    hevolved.map_snd_entriesAt⟩

/-- Three vectors in two lists. -/
def threeInLists : InvertedFile BinarySpace UInt8 :=
  ⟨⟨⟩, 8, 1, 2, 1, .standard, #[⟨#[0, 2], #[112, 15]⟩, ⟨#[1], #[250]⟩], 3⟩

/-- The vectors come in two batches.  The last one differs from both centroids in as many bits
and goes to the list of the first one. -/
theorem inverted_lists_partition_tied :
    (Index.invertedFile threeInLists (centroidBytes #[0, 255])).Grown
        [#[112], #[250], #[15]] ∧
      threeInLists.Partition [#[112], #[250], #[15]] ∧
      threeInLists.InList 0 2 ∧
      Clustering.IsNearest threeInLists.space [#[0], #[255]] #[15] 0 ∧
      Clustering.members [(#[112] : Array UInt8), #[250], #[15]] ([#[112], #[250], #[15]].map
        (Clustering.nearest threeInLists.space [#[0], #[255]])) 0 = [#[112], #[15]] := by
  have hempty : (twoLists (centroidBytes #[]) 1 .empty .empty).Grown [] :=
    .empty (twoLists_constructed centroidBytes_constructed rfl)
  have htrain : ((twoLists (centroidBytes #[]) 1 .empty .empty).train #[0, 255]).1 =
      twoLists (centroidBytes #[0, 255]) 1 .empty .empty := by decide +kernel
  have htrained := hempty.train #[0, 255]
  rw [htrain] at htrained
  have hfirst : (twoLists (centroidBytes #[0, 255]) 1 .empty .empty).append #[112, 250] =
      (twoLists (centroidBytes #[0, 255]) 1 ⟨#[0], #[112]⟩ ⟨#[1], #[250]⟩, .ok ()) :=
    Prod.ext (by decide +kernel) rfl
  have hsecond : (twoLists (centroidBytes #[0, 255]) 1 ⟨#[0], #[112]⟩ ⟨#[1], #[250]⟩).append
      #[15] = (.invertedFile threeInLists (centroidBytes #[0, 255]), .ok ()) :=
    Prod.ext (by decide +kernel) rfl
  have hgrown : (Index.invertedFile threeInLists (centroidBytes #[0, 255])).Grown
      [#[112], #[250], #[15]] := (htrained.append hfirst).append hsecond
  obtain ⟨hpartition, hflat⟩ := inverted_lists_partition hgrown
  obtain ⟨-, hnearest, hmembers⟩ := hflat ⟨⟨⟩, 8, 1, #[0, 255]⟩ rfl
  have hlabel : threeInLists.InList 0 2 :=
    ⟨⟨#[0, 2], #[112, 15]⟩, rfl, Array.mem_of_getElem? (i := 1) rfl⟩
  exact ⟨hgrown, hpartition, hlabel, (hnearest 0 2 #[15] hlabel rfl).2, (hmembers 0).symm⟩

end Proximity

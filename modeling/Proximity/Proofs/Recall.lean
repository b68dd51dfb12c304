import Proximity.Proofs.Probing

/-!
# What an inverted file recalls

A vector goes into the list of the centroid that the quantizer finds when it is
accepted, and a query looks at the lists of the centroids that the quantizer finds
then.  If the quantizer looks at all centroids on both occasions, the two agree on the
centroid that ranks first, and a query for a stored vector looks at the list of that
vector before any other, however few lists are probed.  Nothing that happens between
the two moves the vector, and the centroids stay what they are once there are vectors.

A quantizer that is an inverted file itself does not have to look at all centroids on
both occasions: it can be tuned to do so after the vector was accepted.  The vector then
stays in the list that was chosen by looking at some centroids, and the query looks at
another one.

## Main definitions

* `Index.AtHome` — a vector is in the list of the centroid that ranks first for it.
* `Index.PlacedExactly` — histories in which a vector was accepted while the quantizer
  looked at all centroids.
* `Index.Plain` — flat storage under composites.
* `Index.probedLists` — the lists that a query looks at.

## Main results

* `InvertedFile.Holds.chosen_mem_entriesAt`, `InvertedFile.Holds.mem_entriesAt_insertAll`
  — where entries go, and that they stay there.
* `Index.AtHome.append`, `Index.AtHome.changeAt` — a vector at home stays there.
* `Index.PlacedExactly.atHome`, `Index.Evolved.placedExactly` — which vectors are at home.
* `Index.AtHome.nearest_self` — what a search for a vector at home finds.
* `inverted_file_recall` — what inverted files find.
-/

namespace Proximity

variable {S E : Type}

/-! ## Entries -/

namespace InvertedFile

variable {f : InvertedFile S E} {vs : List (Array E)} {chosen : List (Nat × Array E)}

/-- The entries of a list after an insertion: one more in the list that was chosen. -/
private theorem Holds.entriesAt_insert (h : f.Holds vs) {list : Nat} {v : Array E}
    (hlist : list < f.lists.size) (hv : v.size = f.unitLength) (place : Nat) :
    (f.insert list v).entriesAt place =
      f.entriesAt place ++ if list = place then [(vs.length, v)] else [] := by
  rw [entriesAt, entriesAt, InvertedFile.insert, Array.getElem?_modify]
  split
  · rename_i heq
    subst heq
    rw [Array.getElem?_eq_getElem hlist]
    rw [Option.map_some, Option.getD_some, Option.getD_some, ← h.total]
    exact PostingList.entries_push (h.whole _ (Array.getElem_mem hlist)) h.pos _ hv
  · rw [List.append_nil]

/-- Insertions leave entries where they are. -/
theorem Holds.mem_entriesAt_insertAll (h : f.Holds vs)
    (hlists : ∀ c ∈ chosen, c.1 < f.listCount) (hwidth : ∀ c ∈ chosen, c.2.size = f.unitLength)
    {place : Nat} {e : Nat × Array E} (he : e ∈ f.entriesAt place) :
    e ∈ (f.insertAll chosen).entriesAt place := by
  induction chosen generalizing f vs with
  | nil => exact he
  | cons c chosen ih =>
      have hlist : c.1 < f.lists.size := h.size ▸ hlists c List.mem_cons_self
      have hv := hwidth c List.mem_cons_self
      refine ih (h.insert hlist hv) (fun d hd => hlists d (List.mem_cons_of_mem c hd))
        (fun d hd => hwidth d (List.mem_cons_of_mem c hd)) ?_
      rw [h.entriesAt_insert hlist hv]
      exact List.mem_append_left _ he

/-- Vectors go into the lists chosen for them, under the next labels. -/
theorem Holds.chosen_mem_entriesAt (h : f.Holds vs)
    (hlists : ∀ c ∈ chosen, c.1 < f.listCount) (hwidth : ∀ c ∈ chosen, c.2.size = f.unitLength)
    {i list : Nat} {v : Array E} (hi : chosen[i]? = some (list, v)) :
    (vs.length + i, v) ∈ (f.insertAll chosen).entriesAt list := by
  induction chosen generalizing f vs i with
  | nil => simp at hi
  | cons c chosen ih =>
      have hlist : c.1 < f.lists.size := h.size ▸ hlists c List.mem_cons_self
      have hv := hwidth c List.mem_cons_self
      have hfirst := h.insert hlist hv
      have hlistsRest : ∀ d ∈ chosen, d.1 < (f.insert c.1 c.2).listCount :=
        fun d hd => hlists d (List.mem_cons_of_mem c hd)
      have hwidthRest : ∀ d ∈ chosen, d.2.size = (f.insert c.1 c.2).unitLength :=
        fun d hd => hwidth d (List.mem_cons_of_mem c hd)
      cases i with
      | zero =>
          obtain rfl := Option.some.inj (List.getElem?_cons_zero.symm.trans hi)
          refine hfirst.mem_entriesAt_insertAll hlistsRest hwidthRest ?_
          rw [h.entriesAt_insert hlist hv, if_pos rfl]
          exact List.mem_append_right _ (List.mem_singleton_self _)
      | succ i =>
          rw [List.getElem?_cons_succ] at hi
          have hrest := ih hfirst hlistsRest hwidthRest hi
          rw [List.length_append, List.length_singleton] at hrest
          rwa [Nat.add_assoc, Nat.add_comm 1 i] at hrest

end InvertedFile

variable [Space S E]

namespace Index

/-! ## Vectors at home -/

/-- The number of the centroid that ranks first for a vector. -/
def home (space : S) (centroids : List (Array E)) (v : Array E) : Nat :=
  match Proximity.ranking space centroids v fun _ => true with
  | [] => 0
  | c :: _ => c.label

/-- A vector is, under a label, in the list of the centroid that ranks first for it. -/
def AtHome : Index S E → Nat → Array E → Prop
  | .invertedFile f quantizer, label, v => ∃ centroids, quantizer.Holds centroids ∧
      (label, v) ∈ f.entriesAt (home quantizer.space centroids v)
  | .flat _, _, _ | .graph _, _, _ | .composite .., _, _ => False

variable {index index' quantizer : Index S E} {f : InvertedFile S E} {vs : List (Array E)}
  {elements : Array E} {label : Nat} {v : Array E}

/-- An exhaustive quantizer chooses the list of the centroid that ranks first. -/
theorem Holds.listFor_eq_home {centroids : List (Array E)} (h : quantizer.Holds centroids)
    (hseated : quantizer.Seated) (hexhaustive : quantizer.Exhaustive) (v : Array E) :
    quantizer.listFor v = home quantizer.space centroids v := by
  rw [listFor, h.nearest_eq hseated hexhaustive, home]
  cases Proximity.ranking quantizer.space centroids v fun _ => true <;> rfl

/-- Only an inverted file is a home. -/
theorem AtHome.exists_eq (hhome : index.AtHome label v) :
    ∃ f quantizer, index = .invertedFile f quantizer := by
  cases index with
  | invertedFile f quantizer => exact ⟨f, quantizer, rfl⟩
  | flat f => exact hhome.elim
  | graph g => exact hhome.elim
  | composite base copies factor => exact hhome.elim

/-- A vector at home stays there when others are appended. -/
theorem AtHome.append (hhome : index.AtHome label v) (h : index.Holds vs)
    (happend : index.append elements = (index', .ok ())) : index'.AtHome label v := by
  obtain ⟨f, quantizer, rfl⟩ := hhome.exists_eq
  obtain ⟨hlists, rfl⟩ := h.append_invertedFile happend
  obtain ⟨centroids, hq, hentry⟩ := hhome
  refine ⟨centroids, hq, h.1.mem_entriesAt_insertAll ?_ ?_ hentry⟩
  · exact fun c hc => (InvertedFile.of_mem_chosen hlists elements c hc).1
  · exact fun c hc => (InvertedFile.of_mem_chosen hlists elements c hc).2

/-- A vector that is appended comes home if the quantizer is exhaustive. -/
theorem Holds.atHome_append (h : (Index.invertedFile f quantizer).Holds vs)
    (hseated : quantizer.Seated) (hexhaustive : quantizer.Exhaustive)
    (happend : (Index.invertedFile f quantizer).append elements = (index', .ok ())) {i : Nat}
    (hi : (vectorsOf f.unitLength elements)[i]? = some v) :
    index'.AtHome (vs.length + i) v := by
  obtain ⟨hlists, rfl⟩ := h.append_invertedFile happend
  obtain ⟨hf, centroids, hq⟩ := h
  refine ⟨centroids, hq, ?_⟩
  rw [← hq.listFor_eq_home hseated hexhaustive]
  refine hf.chosen_mem_entriesAt ?_ ?_ ?_
  · exact fun c hc => (InvertedFile.of_mem_chosen hlists elements c hc).1
  · exact fun c hc => (InvertedFile.of_mem_chosen hlists elements c hc).2
  · rw [List.getElem?_map, hi]
    rfl

/-- The label of a vector at home is the position of that vector. -/
theorem AtHome.getElem? (hhome : index.AtHome label v) (h : index.Holds vs) :
    vs[label]? = some v := by
  obtain ⟨f, quantizer, rfl⟩ := hhome.exists_eq
  obtain ⟨centroids, -, hentry⟩ := hhome
  exact h.1.getElem?_of_mem (f.mem_entries_of_mem_entriesAt hentry)

/-- There is nothing to learn once there are vectors. -/
theorem AtHome.train (hhome : index.AtHome label v) (h : index.Holds vs)
    (hseated : index.Seated) (sample : Array E) : (index.train sample).1.AtHome label v := by
  obtain ⟨f, quantizer, rfl⟩ := hhome.exists_eq
  have hsome : f.total ≠ 0 := by
    have hlt := (List.getElem?_eq_some_iff.1 (hhome.getElem? h)).1
    rw [h.1.total]
    exact Nat.ne_of_gt (Nat.lt_of_le_of_lt (Nat.zero_le _) hlt)
  simp only [Index.train]
  split
  · exact hhome
  · rw [if_pos (hseated.2 hsome)]
    exact hhome

/-- Tuning leaves lists and centroids alone. -/
theorem AtHome.tune (hhome : index.AtHome label v) (ps : Parameters) :
    (index.tune ps).1.AtHome label v := by
  obtain ⟨f, quantizer, rfl⟩ := hhome.exists_eq
  simp only [Index.tune]
  split
  · exact hhome
  · obtain ⟨centroids, hq, hentry⟩ := hhome
    split
    · exact ⟨centroids, hq, hentry⟩
    · rename_i nested _
      refine ⟨centroids, hq.tune nested, ?_⟩
      rw [(tune_sameStock quantizer nested).space]
      exact hentry

/-- A change of a node leaves a vector at home if the change of the root does. -/
theorem AtHome.changeAt {A : Type} {change : Index S E → Index S E × A}
    (hsame : ∀ index, SameStock index (change index).1)
    (hholds : ∀ index vs, index.Holds vs → (change index).1.Holds vs)
    (hroot : index.AtHome label v → (change index).1.AtHome label v)
    (hhome : index.AtHome label v) {path : List Child} {r : Index S E × A}
    (hr : index.changeAt change path = some r) : r.1.AtHome label v := by
  cases path with
  | nil =>
      rw [Index.changeAt] at hr
      obtain rfl := Option.some.inj hr
      exact hroot hhome
  | cons child path =>
      obtain ⟨f, quantizer, rfl⟩ := hhome.exists_eq
      cases child with
      | base => simp [Index.changeAt] at hr
      | quantizer =>
          obtain ⟨r', hr', rfl⟩ := Option.map_eq_some_iff.1 hr
          obtain ⟨centroids, hq, hentry⟩ := hhome
          refine ⟨centroids, hq.changeAt hsame hholds hr', ?_⟩
          rw [(sameStock_changeAt hsame hr').space]
          exact hentry

/-! ## Histories -/

/-- The index has accepted the vectors of the list, and its root is an inverted file
whose quantizer was exhaustive when it accepted the one with the label. -/
inductive PlacedExactly : Index S E → List (Array E) → Nat → Prop where
  | accepted {f : InvertedFile S E} {quantizer index' : Index S E} {vs : List (Array E)}
      {elements : Array E} {i : Nat} :
      Evolved (.invertedFile f quantizer) vs → quantizer.Exhaustive →
      (Index.invertedFile f quantizer).append elements = (index', .ok ()) →
      i < (vectorsOf f.unitLength elements).length →
      PlacedExactly index' (vs ++ vectorsOf f.unitLength elements) (vs.length + i)
  | append {index index' : Index S E} {vs : List (Array E)} {elements : Array E} {label : Nat} :
      PlacedExactly index vs label → index.append elements = (index', .ok ()) →
      PlacedExactly index' (vs ++ vectorsOf index.unitLength elements) label
  | refused {index index' : Index S E} {vs : List (Array E)} {elements : Array E} {label : Nat}
      {e : Error} :
      PlacedExactly index vs label → index.append elements = (index', .error e) →
      PlacedExactly index' vs label
  | train {index : Index S E} {vs : List (Array E)} {label : Nat} {path : List Child}
      {sample : Array E} {r : Index S E × Except Error Unit} :
      PlacedExactly index vs label → index.changeAt (·.train sample) path = some r →
      PlacedExactly r.1 vs label
  | tune {index : Index S E} {vs : List (Array E)} {label : Nat} {path : List Child}
      {ps : Parameters} {r : Index S E × Except Error Unit} :
      PlacedExactly index vs label → index.changeAt (·.tune ps) path = some r →
      PlacedExactly r.1 vs label

theorem PlacedExactly.evolved (h : index.PlacedExactly vs label) : index.Evolved vs := by
  induction h with
  | accepted hindex _ happend _ => exact hindex.append happend
  | append _ happend ih => exact ih.append happend
  | refused _ happend ih => exact ih.refused happend
  | train _ hr ih => exact ih.train hr
  | tune _ hr ih => exact ih.tune hr

/-- A vector that was placed by an exhaustive quantizer is at home ever after. -/
theorem PlacedExactly.atHome (h : index.PlacedExactly vs label) :
    ∃ v, index.AtHome label v := by
  induction h with
  | accepted hindex hexhaustive happend hi =>
      have hvector := List.getElem?_eq_getElem hi
      exact ⟨_, hindex.holds.atHome_append hindex.seated.1 hexhaustive happend hvector⟩
  | append hplaced happend ih =>
      obtain ⟨v, hhome⟩ := ih
      exact ⟨v, hhome.append hplaced.evolved.holds happend⟩
  | refused hplaced happend ih =>
      exact hplaced.evolved.holds.aligned.eq_of_append_eq_error happend ▸ ih
  | train hplaced hr ih =>
      obtain ⟨v, hhome⟩ := ih
      have hindex := hplaced.evolved
      exact ⟨v, hhome.changeAt (fun index => train_sameStock index _) (fun _ _ hvs => hvs.train _)
        (fun hhome => hhome.train hindex.holds hindex.seated _) hr⟩
  | tune hplaced hr ih =>
      obtain ⟨v, hhome⟩ := ih
      exact ⟨v, hhome.changeAt (fun index => tune_sameStock index _) (fun _ _ hvs => hvs.tune _)
        (fun hhome => hhome.tune _) hr⟩

/-- Flat storage under any number of composites: there is no setting that could make
such a tree look at less. -/
def Plain (index : Index S E) : Prop :=
  ∀ topology ∈ index.topologies, topology = .flat ∨ topology = .composite

omit [Space S E] in
theorem Plain.exhaustive (h : index.Plain) : index.Exhaustive := by
  induction index with
  | flat f => trivial
  | graph g => simp [Plain, topologies] at h
  | invertedFile f quantizer => simp [Plain, topologies] at h
  | composite base copies factor ih =>
      exact ih fun topology htopology => h topology (List.mem_cons_of_mem _ htopology)

omit [Space S E] in
/-- The trees below an inverted file are of the shapes that they were of. -/
private theorem quantizer_of_topologies (hshape : index'.topologies = index.topologies)
    (hroot : ∃ f quantizer, index' = .invertedFile f quantizer ∧ quantizer.Plain) :
    ∃ f quantizer, index = .invertedFile f quantizer ∧ quantizer.Plain := by
  obtain ⟨f, quantizer, rfl, hplain⟩ := hroot
  cases index with
  | invertedFile f₀ quantizer₀ =>
      have hbelow : quantizer.topologies = quantizer₀.topologies := (List.cons.inj hshape).2
      exact ⟨f₀, quantizer₀, rfl, fun topology h => hplain topology (hbelow ▸ h)⟩
  | flat f => cases (List.cons.inj hshape).1
  | graph g => cases (List.cons.inj hshape).1
  | composite base copies factor => cases (List.cons.inj hshape).1

/-- A quantizer that nothing can make look at less has placed every vector. -/
theorem Evolved.placedExactly (h : index.Evolved vs)
    (hroot : ∃ f quantizer, index = .invertedFile f quantizer ∧ quantizer.Plain)
    (hlabel : label < vs.length) : index.PlacedExactly vs label := by
  induction h with
  | empty _ => exact absurd hlabel (Nat.not_lt_zero _)
  | @append index index' vs elements hindex happend ih =>
      have hshape : index'.topologies = index.topologies := by
        have hsame := topologies_append index elements
        rwa [happend] at hsame
      have hbefore := quantizer_of_topologies hshape hroot
      by_cases hold : label < vs.length
      · exact (ih hbefore hold).append happend
      · obtain ⟨f, quantizer, rfl, hplain⟩ := hbefore
        have hnew : label - vs.length < (vectorsOf f.unitLength elements).length := by
          rw [List.length_append] at hlabel
          exact Nat.sub_lt_left_of_lt_add (Nat.le_of_not_lt hold) hlabel
        have hplaced := PlacedExactly.accepted hindex hplain.exhaustive happend hnew
        rwa [Nat.add_sub_cancel' (Nat.le_of_not_lt hold)] at hplaced
  | @refused index index' vs elements e hindex happend ih =>
      have hshape : index'.topologies = index.topologies := by
        have hsame := topologies_append index elements
        rwa [happend] at hsame
      exact (ih (quantizer_of_topologies hshape hroot) hlabel).refused happend
  | train hindex hr ih =>
      have hshape := topologies_changeAt (fun index => topologies_train index _) hr
      exact (ih (quantizer_of_topologies hshape hroot) hlabel).train hr
  | tune hindex hr ih =>
      have hshape := topologies_changeAt (fun index => topologies_tune index _) hr
      exact (ih (quantizer_of_topologies hshape hroot) hlabel).tune hr

/-! ## Searches -/

/-- The lists that a query looks at, that of the nearest centroid first. -/
def probedLists (f : InvertedFile S E) (quantizer : Index S E) (query : Array E) : List Nat :=
  (quantizer.nearest query f.probeCount fun _ => true).map (·.label)

/-- An exhaustive quantizer names the lists of the centroids that rank first. -/
theorem Holds.probedLists_eq {centroids : List (Array E)} (h : quantizer.Holds centroids)
    (hseated : quantizer.Seated) (hexhaustive : quantizer.Exhaustive) (f : InvertedFile S E)
    (query : Array E) :
    probedLists f quantizer query =
      ((Proximity.ranking quantizer.space centroids query fun _ => true).map (·.label)).take
        f.probeCount := by
  rw [probedLists, h.nearest_eq hseated hexhaustive, List.map_take]

/-- Among the lists that are looked at is that of the centroid that ranks first. -/
private theorem home_mem_probedLists {centroids : List (Array E)}
    (h : quantizer.Holds centroids) (hseated : quantizer.Seated)
    (hexhaustive : quantizer.Exhaustive) (hprobes : 0 < f.probeCount)
    (hcentroids : centroids ≠ []) (query : Array E) :
    home quantizer.space centroids query ∈ probedLists f quantizer query := by
  rw [h.probedLists_eq hseated hexhaustive, home]
  cases hranking : Proximity.ranking quantizer.space centroids query fun _ => true with
  | nil =>
      have hlabels := ranking_labels_perm quantizer.space centroids query fun _ => true
      rw [hranking, List.filter_eq_self.2 fun _ _ => rfl] at hlabels
      have hnone : centroids.length = 0 := by simpa using hlabels.length_eq.symm
      exact absurd (List.eq_nil_of_length_eq_zero hnone) hcentroids
  | cons c rest =>
      obtain ⟨n, hn⟩ := Nat.exists_eq_succ_of_ne_zero (Nat.ne_of_gt hprobes)
      rw [hn, List.map_cons, List.take_succ_cons]
      exact List.mem_cons_self

/-- A search for a vector at home finds one that ranks no later than that vector. -/
theorem AtHome.nearest_self (hhome : (Index.invertedFile f quantizer).AtHome label v)
    (h : (Index.invertedFile f quantizer).Holds vs)
    (hseated : (Index.invertedFile f quantizer).Seated) (hexhaustive : quantizer.Exhaustive)
    (hprobes : 1 ≤ f.probes) {accept : Nat → Bool} (haccept : accept label = true) {k : Nat}
    (hk : 1 ≤ k) :
    ∃ c rest, (Index.invertedFile f quantizer).nearest v k accept = c :: rest ∧
      c.le ⟨Space.cost f.space v v, label⟩ = true := by
  have hposition := hhome.getElem? h
  have hlabel := (List.getElem?_eq_some_iff.1 hposition).1
  obtain ⟨centroids, hq, hentry⟩ := hhome
  -- there are centroids, since there is a vector
  have hsome : f.total ≠ 0 := by
    rw [h.1.total]
    exact Nat.ne_of_gt (Nat.lt_of_le_of_lt (Nat.zero_le _) hlabel)
  have hcentroids : centroids ≠ [] := by
    intro hnone
    have hcount : quantizer.total = 0 := hq.total.trans (by rw [hnone, List.length_nil])
    exact Nat.ne_of_gt h.1.nonempty ((hseated.2 hsome).symm.trans hcount)
  have hcount : 0 < f.probeCount := Nat.lt_min.2 ⟨hprobes, h.1.nonempty⟩
  have hvisited : label ∈ (Index.invertedFile f quantizer).visited v := by
    refine List.mem_map.2 ⟨(label, v), List.mem_flatMap.2 ⟨_, ?_, hentry⟩, rfl⟩
    exact home_mem_probedLists hq hseated.1 hexhaustive hcount hcentroids v
  let found := (Proximity.ranking f.space vs v accept).filter fun c =>
    decide (c.label ∈ (Index.invertedFile f quantizer).visited v)
  have hself : (⟨Space.cost f.space v v, label⟩ : Candidate) ∈ found := by
    refine List.mem_filter.2 ⟨mem_ranking_iff.2 ⟨hlabel, haccept, ?_⟩, decide_eq_true hvisited⟩
    rw [costAt, hposition, Option.getD_some]
  have hbest : Candidate.BestFirst found :=
    (bestFirst_ranking f.space vs v accept).sublist List.filter_sublist
  rw [h.nearest_eq_visited]
  show ∃ c rest, found.take k = c :: rest ∧ _
  cases hfound : found with
  | nil => exact absurd (hfound ▸ hself) List.not_mem_nil
  | cons c rest =>
      rw [hfound] at hself hbest
      obtain ⟨n, rfl⟩ := Nat.exists_eq_succ_of_ne_zero (Nat.ne_of_gt hk)
      refine ⟨c, rest.take n, List.take_succ_cons, ?_⟩
      rcases List.mem_cons.1 hself with heq | hrest
      · rw [← heq, ← Bool.or_self (Candidate.le _ _)]
        exact Candidate.le_total _ _
      · exact (List.pairwise_cons.1 hbest).1 _ hrest

/-- Probing more lists adds lists to those that are probed. -/
theorem Holds.probedLists_prefix (h : (Index.invertedFile f quantizer).Holds vs)
    (hseated : quantizer.Seated) (hexhaustive : quantizer.Exhaustive) {a b : Nat} (hab : a ≤ b)
    (query : Array E) :
    probedLists { f with probes := a } quantizer query <+:
      probedLists { f with probes := b } quantizer query := by
  obtain ⟨-, centroids, hq⟩ := h
  rw [hq.probedLists_eq hseated hexhaustive, hq.probedLists_eq hseated hexhaustive]
  refine List.take_prefix_take_left ?_
  show min a f.listCount ≤ min b f.listCount
  omega

omit [Space S E] in
/-- How many lists are probed is not what they hold. -/
theorem Holds.withProbes (h : (Index.invertedFile f quantizer).Holds vs) (probes : Nat) :
    (Index.invertedFile { f with probes } quantizer).Holds vs :=
  ⟨⟨h.1.pos, h.1.size, h.1.nonempty, h.1.whole, h.1.total, h.1.entries⟩, h.2⟩

/-- Probing more lists makes no answer worse. -/
theorem Holds.nearest_noWorse (h : (Index.invertedFile f quantizer).Holds vs)
    (hseated : quantizer.Seated) (hexhaustive : quantizer.Exhaustive) {a b : Nat} (hab : a ≤ b)
    (query : Array E) (k : Nat) (accept : Nat → Bool) :
    Candidate.NoWorse ((Index.invertedFile { f with probes := b } quantizer).nearest query k accept)
      ((Index.invertedFile { f with probes := a } quantizer).nearest query k accept) := by
  have hprobed := h.probedLists_prefix hseated hexhaustive hab query
  have hvisited : ∀ i, i ∈ (Index.invertedFile { f with probes := a } quantizer).visited query →
      i ∈ (Index.invertedFile { f with probes := b } quantizer).visited query := by
    intro i hi
    obtain ⟨e, he, rfl⟩ := List.mem_map.1 hi
    obtain ⟨list, hlist, he⟩ := List.mem_flatMap.1 he
    exact List.mem_map.2 ⟨e, List.mem_flatMap.2 ⟨list, hprobed.subset hlist, he⟩, rfl⟩
  rw [(h.withProbes b).nearest_eq_visited, (h.withProbes a).nearest_eq_visited]
  refine Candidate.NoWorse.take (Candidate.BestFirst.noWorse ?_ ?_) k
  · exact (bestFirst_ranking f.space vs query accept).sublist List.filter_sublist
  · refine List.monotone_filter_right _ fun c hc => ?_
    exact decide_eq_true (hvisited _ (of_decide_eq_true hc))

/-- A longer answer begins with a shorter one. -/
theorem Holds.nearest_take (h : (Index.invertedFile f quantizer).Holds vs) (query : Array E)
    {k k' : Nat} (hk : k ≤ k') (accept : Nat → Bool) :
    (Index.invertedFile f quantizer).nearest query k accept =
      ((Index.invertedFile f quantizer).nearest query k' accept).take k := by
  rw [h.nearest_eq_visited, h.nearest_eq_visited, List.take_take, Nat.min_eq_left hk]

end Index

/-- **What inverted files find.**  A search for a vector that was accepted while the
quantizer looked at all centroids finds one that ranks no later than the vector itself,
whenever the quantizer looks at all centroids again and at least one list is probed.  A
quantizer of flat storage and composites looks at all of them always, so over such a
quantizer this holds for all vectors.  Over a quantizer that looks at all centroids, the
lists that are probed with fewer probes come first among those that are probed with
more, and the answer with more is no shorter and at every place no worse.  Over any
quantizer a search is the ranking of all acceptable vectors in the probed lists, cut
off, so a longer answer begins with a shorter one. -/
theorem inverted_file_recall :
    (∀ (f : InvertedFile S E) (quantizer : Index S E) (vs : List (Array E)) (label : Nat),
      (Index.invertedFile f quantizer).PlacedExactly vs label → quantizer.Exhaustive →
      1 ≤ f.probes → ∀ (v : Array E), vs[label]? = some v → ∀ (accept : Nat → Bool),
      accept label = true → ∀ k, 1 ≤ k →
        ∃ c rest, (Index.invertedFile f quantizer).nearest v k accept = c :: rest ∧
          (Index.invertedFile f quantizer).search v k accept =
            .ok ((Index.invertedFile f quantizer).hits (c :: rest)) ∧
          c.le ⟨Space.cost f.space v v, label⟩ = true) ∧
    (∀ (f : InvertedFile S E) (quantizer : Index S E) (vs : List (Array E)),
      (Index.invertedFile f quantizer).Evolved vs → quantizer.Plain → quantizer.Exhaustive ∧
        ∀ label < vs.length, (Index.invertedFile f quantizer).PlacedExactly vs label) ∧
    ∀ (f : InvertedFile S E) (quantizer : Index S E) (vs : List (Array E)),
      (Index.invertedFile f quantizer).Evolved vs → ∀ (query : Array E) (accept : Nat → Bool),
        (quantizer.Exhaustive → ∀ a b, a ≤ b →
          Index.probedLists { f with probes := a } quantizer query <+:
            Index.probedLists { f with probes := b } quantizer query ∧
          ∀ k, Candidate.NoWorse
            ((Index.invertedFile { f with probes := b } quantizer).nearest query k accept)
            ((Index.invertedFile { f with probes := a } quantizer).nearest query k accept)) ∧
        (∀ k, (Index.invertedFile f quantizer).nearest query k accept =
            ((ranking f.space vs query accept).filter fun c => decide (c.label ∈
              ((Index.probedLists f quantizer query).flatMap f.entriesAt).map (·.1))).take k ∧
          (Index.invertedFile f quantizer).search query k accept =
            ((Index.invertedFile f quantizer).checkQuery query).map fun _ =>
              (Index.invertedFile f quantizer).hits
                ((Index.invertedFile f quantizer).nearest query k accept)) ∧
        ∀ k k', k ≤ k' →
          (Index.invertedFile f quantizer).nearest query k accept =
            ((Index.invertedFile f quantizer).nearest query k' accept).take k := by
  refine ⟨?_, ?_, ?_⟩
  · intro f quantizer vs label hplaced hexhaustive hprobes v hv accept haccept k hk
    have hindex := hplaced.evolved
    obtain ⟨w, hhome⟩ := hplaced.atHome
    obtain rfl : w = v := Option.some.inj ((hhome.getElem? hindex.holds).symm.trans hv)
    obtain ⟨c, rest, hnearest, hle⟩ := hhome.nearest_self hindex.holds hindex.seated hexhaustive
      hprobes haccept hk
    have hwidth : w.size = (Index.invertedFile f quantizer).unitLength :=
      hindex.size_of_mem w (List.mem_of_getElem? hv)
    refine ⟨c, rest, hnearest, ?_, hle⟩
    rw [hindex.holds.search_eq, hnearest, Index.checkQuery, if_pos hwidth]
    rfl
  · exact fun f quantizer vs hindex hplain =>
      ⟨hplain.exhaustive, fun _ => hindex.placedExactly ⟨f, quantizer, rfl, hplain⟩⟩
  · intro f quantizer vs hindex query accept
    refine ⟨fun hexhaustive a b hab => ⟨?_, fun k => ?_⟩, fun k => ⟨?_, ?_⟩, fun k k' hk => ?_⟩
    · exact hindex.holds.probedLists_prefix hindex.seated.1 hexhaustive hab query
    · exact hindex.holds.nearest_noWorse hindex.seated.1 hexhaustive hab query k accept
    · exact hindex.holds.nearest_eq_visited query k accept
    · exact hindex.holds.search_eq query k accept
    · exact hindex.holds.nearest_take query hk accept

/-- Two lists of bit vectors of eight dimensions, over some quantizer. -/
def twoLists (quantizer : Index BinarySpace UInt8) (probes : Nat)
    (first second : PostingList UInt8) : Index BinarySpace UInt8 :=
  .invertedFile ⟨⟨⟩, 8, 1, 2, probes, .standard, #[first, second],
    first.labels.size + second.labels.size⟩ quantizer

/-- Some centroids of the same kind. -/
def centroidBytes (bytes : Array UInt8) : Index BinarySpace UInt8 := .flat ⟨⟨⟩, 8, 1, bytes⟩

/-- Two lists can be put over any quantizer that holds nothing. -/
theorem twoLists_constructed {quantizer : Index BinarySpace UInt8}
    (h : quantizer.Constructed)
    (hover : Index.invertedFileOver quantizer 2 .standard =
      .ok (twoLists quantizer 1 .empty .empty)) :
    (twoLists quantizer 1 .empty .empty).Constructed :=
  .invertedFile h (by decide : 2 < Count.bound) ⟨by decide, by decide, by decide⟩ hover

theorem centroidBytes_constructed : (centroidBytes #[]).Constructed :=
  .flat (by decide : 8 < Count.bound) rfl

/-- What a training of a node leaves behind. -/
private theorem evolved_of_train {index index' : Index S E} {vs : List (Array E)}
    (h : index.Evolved vs) (path : List Index.Child) (sample : Array E)
    (htrain : (index.changeAt (·.train sample) path).map (·.1) = some index') :
    index'.Evolved vs := by
  obtain ⟨r, hr, rfl⟩ := Option.map_eq_some_iff.1 htrain
  exact h.train hr

/-- What a tuning of a node leaves behind. -/
private theorem evolved_of_tune {index index' : Index S E} {vs : List (Array E)}
    (h : index.Evolved vs) (path : List Index.Child) (ps : Parameters)
    (htune : (index.changeAt (·.tune ps) path).map (·.1) = some index') :
    index'.Evolved vs := by
  obtain ⟨r, hr, rfl⟩ := Option.map_eq_some_iff.1 htune
  exact h.tune hr

/-- Two vectors in lists of their own: each is found by a search for it, and a second
probe only adds to what a search for the first one finds. -/
theorem inverted_file_recall_twoLists :
    (twoLists (centroidBytes #[0, 255]) 1 ⟨#[0], #[112]⟩ ⟨#[1], #[250]⟩).Evolved
        [#[112], #[250]] ∧
      (centroidBytes #[0, 255]).Plain ∧
      (∃ c rest, (twoLists (centroidBytes #[0, 255]) 1 ⟨#[0], #[112]⟩ ⟨#[1], #[250]⟩).nearest
          #[250] 1 (fun _ => true) = c :: rest ∧ c.le ⟨.zero, 1⟩ = true) ∧
      Candidate.NoWorse
        ((twoLists (centroidBytes #[0, 255]) 2 ⟨#[0], #[112]⟩ ⟨#[1], #[250]⟩).nearest #[112] 2
          fun _ => true)
        ((twoLists (centroidBytes #[0, 255]) 1 ⟨#[0], #[112]⟩ ⟨#[1], #[250]⟩).nearest #[112] 2
          fun _ => true) := by
  have hempty : (twoLists (centroidBytes #[]) 1 .empty .empty).Evolved [] :=
    .empty (twoLists_constructed centroidBytes_constructed rfl)
  have htrained : (twoLists (centroidBytes #[0, 255]) 1 .empty .empty).Evolved [] :=
    evolved_of_train hempty [] #[0, 255] (by decide +kernel)
  have happend : (twoLists (centroidBytes #[0, 255]) 1 .empty .empty).append #[112, 250] =
      (twoLists (centroidBytes #[0, 255]) 1 ⟨#[0], #[112]⟩ ⟨#[1], #[250]⟩, .ok ()) :=
    Prod.ext (by decide +kernel) rfl
  have hevolved := htrained.append happend
  have hplain : (centroidBytes #[0, 255]).Plain := by
    rw [Index.Plain]
    decide
  obtain ⟨hself, hplaced, hwider⟩ := inverted_file_recall (S := BinarySpace) (E := UInt8)
  obtain ⟨hexhaustive, hplaced⟩ := hplaced _ _ _ hevolved hplain
  obtain ⟨c, rest, hnearest, -, hle⟩ := hself _ _ _ 1 (hplaced 1 (by decide)) hexhaustive
    (by decide) #[250] rfl (fun _ => true) rfl 1 (by decide)
  have hzero : Space.cost (⟨⟩ : BinarySpace) #[250] #[250] = .zero := by decide +kernel
  refine ⟨hevolved, hplain, ⟨c, rest, hnearest, hzero ▸ hle⟩, ?_⟩
  exact ((hwider _ _ _ hevolved #[112] fun _ => true).1 hexhaustive 1 2 (by decide)).2 2

/-- A vector that was accepted while the quantizer looked at one of its two lists is not
found by a search for it once the quantizer looks at both. -/
theorem recall_lost_to_tuning :
    (twoLists (twoLists (centroidBytes #[0, 255]) 2 ⟨#[0], #[7]⟩ ⟨#[1], #[248]⟩) 1
        ⟨#[0], #[112]⟩ .empty).Evolved [#[112]] ∧
      (twoLists (centroidBytes #[0, 255]) 2 ⟨#[0], #[7]⟩ ⟨#[1], #[248]⟩).Exhaustive ∧
      (twoLists (twoLists (centroidBytes #[0, 255]) 2 ⟨#[0], #[7]⟩ ⟨#[1], #[248]⟩) 1
        ⟨#[0], #[112]⟩ .empty).isTrained = true ∧
      (twoLists (twoLists (centroidBytes #[0, 255]) 2 ⟨#[0], #[7]⟩ ⟨#[1], #[248]⟩) 1
        ⟨#[0], #[112]⟩ .empty).nearest #[112] 1 (fun _ => true) = [] ∧
      (twoLists (twoLists (centroidBytes #[0, 255]) 2 ⟨#[0], #[7]⟩ ⟨#[1], #[248]⟩) 1
        ⟨#[0], #[112]⟩ .empty).search #[112] 1 (fun _ => true) = .ok [] := by
  have hempty : (twoLists (twoLists (centroidBytes #[]) 1 .empty .empty) 1 .empty .empty).Evolved
      [] := .empty (twoLists_constructed (twoLists_constructed centroidBytes_constructed rfl) rfl)
  have hcentroids : (twoLists (twoLists (centroidBytes #[0, 255]) 1 .empty .empty) 1 .empty
      .empty).Evolved [] :=
    evolved_of_train hempty [.quantizer] #[0, 255] (by decide +kernel)
  have htrained : (twoLists (twoLists (centroidBytes #[0, 255]) 1 ⟨#[0], #[7]⟩ ⟨#[1], #[248]⟩) 1
      .empty .empty).Evolved [] :=
    evolved_of_train hcentroids [] #[7, 248] (by decide +kernel)
  have happend : (twoLists (twoLists (centroidBytes #[0, 255]) 1 ⟨#[0], #[7]⟩ ⟨#[1], #[248]⟩) 1
      .empty .empty).append #[112] = (twoLists (twoLists (centroidBytes #[0, 255]) 1 ⟨#[0], #[7]⟩
        ⟨#[1], #[248]⟩) 1 ⟨#[0], #[112]⟩ .empty, .ok ()) := Prod.ext (by decide +kernel) rfl
  have htuned : (twoLists (twoLists (centroidBytes #[0, 255]) 2 ⟨#[0], #[7]⟩ ⟨#[1], #[248]⟩) 1
      ⟨#[0], #[112]⟩ .empty).Evolved [#[112]] :=
    evolved_of_tune (htrained.append happend) []
      [(TuningKey.quantizer, .map [(TuningKey.probes, .int 2)])] (by decide +kernel)
  have hnearest : (twoLists (twoLists (centroidBytes #[0, 255]) 2 ⟨#[0], #[7]⟩ ⟨#[1], #[248]⟩) 1
      ⟨#[0], #[112]⟩ .empty).nearest #[112] 1 (fun _ => true) = [] := by decide +kernel
  refine ⟨htuned, ⟨trivial, Nat.le_refl 2⟩, rfl, hnearest, ?_⟩
  rw [htuned.holds.search_eq, hnearest]
  rfl

end Proximity

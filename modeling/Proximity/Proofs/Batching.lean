import Proximity.Artifact.Container
import Proximity.Proofs.Guarded.Walks
import Proximity.Proofs.Preservation

/-!
# Appending in batches

It does not matter how vectors are split into batches: appending two batches one
after the other leaves the index that appending both at once leaves.

For flat storage and inverted files that is how folds go over appended lists.  A graph
stores a whole batch before it links the first vector of it, so there an insertion
could see vectors that are not linked yet.  It does not: a node is compared with nodes
that searches find and that neighbour lists name, and all of these were linked before.
So the costs that an insertion depends on are those between the nodes up to the new one.

## Main results

* `Beam.search_congr` — a search depends on the distances of its nodes only.
* `Links.insert_congr` — an insertion depends on the costs between its nodes only.
* `Graph.append_append`, `Index.append_append`, `IdMap.append_append` — two batches at
  once and one after the other.
* `append_batches` — the same with what callers see of it.
-/

namespace Proximity

variable {S E : Type}

/-! ## What an insertion compares -/

/-- A search of a closed terrain depends on the distances of its nodes only. -/
theorem Beam.search_congr {t : Terrain} {distance : Nat → Single}
    (hclosed : ∀ n < t.size, ∀ m ∈ t.neighbours n, m < t.size)
    (hdistance : ∀ n < t.size, t.distance n = distance n) (starts : List Nat) :
    search t starts = search { t with distance } starts := by
  let t? : Terrain.Guarded :=
    ⟨t.size, fun n => some (t.neighbours n), fun n => some (t.distance n),
      fun n => some (t.accept n), t.width⟩
  have hself : t?.Agrees t := ⟨rfl, rfl, fun _ _ => rfl, fun _ _ => rfl, fun _ _ => rfl, hclosed⟩
  have hother : t?.Agrees { t with distance } :=
    ⟨rfl, rfl, fun _ _ => rfl, fun n hn => congrArg some (hdistance n hn), fun _ _ => rfl, hclosed⟩
  have hanswer : search? .unlimited t? starts = some (search t starts) :=
    search?_eq hself rfl starts
  exact Option.some.inj (hanswer.symm.trans (search?_eq hother rfl starts))

namespace Links

variable {g : Links} {distance distance' : Nat → Single} {between between' : Nat → Nat → Single}
  {bound : Nat}

/-- Two ways to compare agree on the nodes below a bound. -/
def AgreeBelow (bound : Nat) (between between' : Nat → Nat → Single) : Prop :=
  ∀ i < bound, ∀ j < bound, between i j = between' i j

/-- The links are over `bound` nodes, and their neighbours are such nodes. -/
structure Closed (bound : Nat) (g : Links) : Prop where
  size : g.nodes.size = bound
  within : g.Within bound

theorem Closed.setNeighbours (h : g.Closed bound) (level node : Nat) {list : List Nat}
    (hlist : ∀ n ∈ list, n < bound) : (g.setNeighbours level node list).Closed bound :=
  ⟨(setNeighbours_frame g level node list).size.trans h.size, h.within.setNeighbours hlist⟩

theorem Closed.foldl_connect (h : g.Closed bound) (between : Nat → Nat → Single)
    (level limit : Nat) {target : Nat} (htarget : target < bound) (sources : List Nat) :
    (sources.foldl (connect between level limit target) g).Closed bound :=
  ⟨(foldl_connect_frame between level limit target g sources).size.trans h.size,
    h.within.foldl_connect htarget⟩

theorem layer_congr (h : g.Closed bound) (hdistance : ∀ n < bound, distance n = distance' n)
    (level width : Nat) (accept : Nat → Bool) (starts : List Nat) :
    g.layer distance level width accept starts = g.layer distance' level width accept starts := by
  obtain rfl := h.size
  exact Beam.search_congr (fun n _ => h.within.neighbours_lt level n) hdistance starts

theorem closest_congr (h : g.Closed bound) (hdistance : ∀ n < bound, distance n = distance' n)
    (level start : Nat) : g.closest distance level start = g.closest distance' level start := by
  rw [closest, closest, layer_congr h hdistance]

theorem descend_congr (h : g.Closed bound) (hdistance : ∀ n < bound, distance n = distance' n)
    (floor level start : Nat) :
    g.descend distance floor level start = g.descend distance' floor level start := by
  induction level generalizing start with
  | zero => rfl
  | succ level ih => rw [descend, descend, closest_congr h hdistance, ih]

private theorem diverse_congr (hagree : AgreeBelow bound between between') (limit : Nat)
    {selected passed cs : List Candidate} (hselected : ∀ c ∈ selected, c.label < bound)
    (hcs : ∀ c ∈ cs, c.label < bound) :
    diverse between limit selected passed cs = diverse between' limit selected passed cs := by
  induction cs generalizing selected passed with
  | nil => rfl
  | cons c cs ih =>
      have hc := hcs c List.mem_cons_self
      have hrest : ∀ d ∈ cs, d.label < bound := fun d hd => hcs d (List.mem_cons_of_mem c hd)
      have hmore : ∀ d ∈ selected ++ [c], d.label < bound := by
        intro d hd
        rcases List.mem_append.1 hd with hd | hd
        · exact hselected d hd
        · exact List.mem_singleton.1 hd ▸ hc
      have hall : (selected.all fun s => c.cost.le (between s.label c.label)) =
          selected.all fun s => c.cost.le (between' s.label c.label) := by
        rw [Bool.eq_iff_iff, List.all_eq_true, List.all_eq_true]
        exact forall₂_congr fun s hs => by rw [hagree s.label (hselected s hs) c.label hc]
      rw [diverse, diverse, hall, ih hmore hrest, ih hselected hrest]

theorem select_congr (hagree : AgreeBelow bound between between') (limit : Nat)
    {cs : List Candidate} (hcs : ∀ c ∈ cs, c.label < bound) :
    select between limit cs = select between' limit cs := by
  have hranked : ∀ c ∈ Candidate.ranked cs, c.label < bound :=
    fun c hc => hcs c ((Candidate.ranked_perm cs).mem_iff.1 hc)
  rw [select, select, diverse_congr hagree limit (fun c hc => absurd hc List.not_mem_nil) hranked]

theorem connect_congr (hagree : AgreeBelow bound between between') (h : g.Closed bound)
    (level limit : Nat) {target source : Nat} (htarget : target < bound)
    (hsource : source < bound) :
    connect between level limit target g source = connect between' level limit target g source := by
  rw [connect, connect]
  cases hlevel : (g.levelsOf source)[level]? with
  | none => rfl
  | some list =>
      have hlist : ∀ n ∈ list ++ [target], n < bound := by
        intro n hn
        rcases List.mem_append.1 hn with hn | hn
        · exact h.within.lt_of_mem_level hlevel n hn
        · exact List.mem_singleton.1 hn ▸ htarget
      have hcandidates : (list ++ [target]).map (fun n => (⟨between n source, n⟩ : Candidate)) =
          (list ++ [target]).map fun n => ⟨between' n source, n⟩ :=
        List.map_congr_left fun n hn => by rw [hagree n (hlist n hn) source hsource]
      have hlabels : ∀ c ∈ (list ++ [target]).map fun n => (⟨between' n source, n⟩ : Candidate),
          c.label < bound := by
        intro c hc
        obtain ⟨n, hn, rfl⟩ := List.mem_map.1 hc
        exact hlist n hn
      dsimp only
      rw [hcandidates, select_congr hagree limit hlabels]

theorem foldl_connect_congr (hagree : AgreeBelow bound between between') (h : g.Closed bound)
    (level limit : Nat) {target : Nat} (htarget : target < bound) {sources : List Nat}
    (hsources : ∀ n ∈ sources, n < bound) :
    sources.foldl (connect between level limit target) g =
      sources.foldl (connect between' level limit target) g := by
  induction sources generalizing g with
  | nil => rfl
  | cons source sources ih =>
      have hsource := hsources source List.mem_cons_self
      have hnext : (connect between' level limit target g source).Closed bound :=
        h.foldl_connect between' level limit htarget [source]
      rw [List.foldl_cons, List.foldl_cons, connect_congr hagree h level limit htarget hsource]
      exact ih hnext fun n hn => hsources n (List.mem_cons_of_mem source hn)

theorem linkBelow_congr (hagree : AgreeBelow bound between between') (h : g.Closed bound)
    (degree width : Nat) {node : Nat} (hnode : node < bound) (level : Nat) (starts : List Nat) :
    linkBelow between degree width node level starts g =
      linkBelow between' degree width node level starts g := by
  induction level generalizing starts g with
  | zero => rfl
  | succ level ih =>
      have hdistance : ∀ n < bound, between n node = between' n node :=
        fun n hn => hagree n hn node hnode
      have hfinds := layer_finds g (between' · node) level width (fun _ => true) starts
      have hfound : ∀ c ∈ g.layer (between' · node) level width (fun _ => true) starts,
          c.label < bound := fun c hc => h.size ▸ hfinds.size c hc
      have hchosen : ∀ n ∈ select between' degree
          (g.layer (between' · node) level width (fun _ => true) starts), n < bound := by
        intro n hn
        obtain ⟨c, hc, rfl⟩ := mem_of_mem_select hn
        exact hfound c hc
      rw [linkBelow, linkBelow, layer_congr h hdistance, select_congr hagree degree hfound,
        foldl_connect_congr hagree h level _ hnode hchosen]
      exact ih ((h.foldl_connect between' level _ hnode _).setNeighbours level node hchosen) _

/-- The next node is inserted according to the costs between the nodes up to it. -/
theorem insert_congr {node : Nat} (hagree : AgreeBelow (node + 1) between between')
    (h : g.Consistent node) (degree width : Nat) {level : Nat} (hlevel : level ≤ levelLimit) :
    g.insert between degree width level node = g.insert between' degree width level node := by
  have hgrown : Closed (node + 1)
      { g with nodes := g.nodes.push (List.replicate (level + 1) []) } :=
    ⟨by rw [Array.size_push, h.size], (h.within.mono (Nat.le_succ node)).push hlevel⟩
  have hnode : node < node + 1 := Nat.lt_succ_self node
  have hdistance : ∀ n < node + 1, between n node = between' n node :=
    fun n hn => hagree n hn node hnode
  rw [insert, insert]
  dsimp only
  generalize ({ g with nodes := g.nodes.push (List.replicate (level + 1) []) } : Links) = grown
    at hgrown ⊢
  cases g.entry with
  | none => rfl
  | some entry =>
      dsimp only
      rw [descend_congr hgrown hdistance, linkBelow_congr hagree hgrown _ _ hnode]

end Links

/-! ## Graphs -/

namespace Flat

/-- What is appended does not change the vectors before it. -/
theorem vector_append (f : Flat S E) (more : Array E) {i : Nat} (hi : i < f.total) :
    ({ f with data := f.data ++ more } : Flat S E).vector i = f.vector i := by
  have hend : i * f.unitLength + f.unitLength ≤ f.data.size := mul_add_le_of_lt_div hi
  have hrest : more.extract (i * f.unitLength - f.data.size)
      (i * f.unitLength + f.unitLength - f.data.size) = #[] :=
    Array.extract_empty_of_stop_le_start (by omega)
  rw [vector, vector, Array.extract_append, hrest, Array.append_empty]

end Flat

namespace Graph

variable [Space S E]

/-- Vectors that are stored behind those to be linked make no difference. -/
theorem foldl_insertNode_append (g : Graph S E) (more : Array E) {first count : Nat}
    (h : g.links.Consistent first) (hstored : first + count ≤ g.storage.total) :
    (List.range' first count).foldl insertNode
        { g with storage := { g.storage with data := g.storage.data ++ more } } =
      { (List.range' first count).foldl insertNode g with
        storage := { g.storage with data := g.storage.data ++ more } } := by
  induction count generalizing g first with
  | zero => rfl
  | succ count ih =>
      have hlevel := drawLevel_le g.seed g.levelScale first
      have hagree : Links.AgreeBelow (first + 1)
          (between { g with storage := { g.storage with data := g.storage.data ++ more } })
          g.between := by
        intro i hi j hj
        rw [between, between, g.storage.vector_append more (by omega),
          g.storage.vector_append more (by omega)]
      have hinsert :
          insertNode { g with storage := { g.storage with data := g.storage.data ++ more } } first =
            { g.insertNode first with
              storage := { g.storage with data := g.storage.data ++ more } } := by
        rw [insertNode, insertNode, Links.insert_congr hagree h _ _ hlevel]
      rw [List.range'_succ, List.foldl_cons, List.foldl_cons, hinsert]
      have hrest : first + 1 + count ≤ (g.insertNode first).storage.total := by
        rw [Nat.add_assoc, Nat.add_comm 1]
        exact hstored
      exact ih (g.insertNode first) (h.insert hlevel) hrest

/-- Two batches at once are two batches one after the other. -/
theorem append_append {g : Graph S E} (h : g.Consistent) {a b : Array E}
    (ha : a.size % g.storage.unitLength = 0) (hb : b.size % g.storage.unitLength = 0) :
    g.append (a ++ b) = (g.append a).1.append b := by
  have hboth := append_size_mod ha hb
  obtain ⟨hstored, htotal⟩ := h.storage.append ha
  have hfirst := foldl_insertNode_append
    { g with storage := { g.storage with data := g.storage.data ++ a } } b h.links
    (Nat.le_of_eq htotal.symm)
  have hframe := storage_foldl_insertNode
    { g with storage := { g.storage with data := g.storage.data ++ a } }
    (List.range' g.storage.total (a.size / g.storage.unitLength))
  rw [append_eq_of_consistent h.storage hboth, append_eq_of_consistent h.storage ha,
    append_size_div h.storage.pos ha, ← List.range'_append_1, List.foldl_append,
    ← Array.append_assoc]
  dsimp only at hfirst ⊢
  rw [hfirst]
  generalize (List.range' g.storage.total (a.size / g.storage.unitLength)).foldl insertNode
    { g with storage := { g.storage with data := g.storage.data ++ a } } = linked at hframe ⊢
  rw [append_eq_of_consistent (hframe ▸ hstored) (hframe ▸ hb), hframe, htotal]

end Graph

/-! ## Trees -/

theorem InvertedFile.insertAll_append (f : InvertedFile S E) (first last : List (Nat × Array E)) :
    f.insertAll (first ++ last) = (f.insertAll first).insertAll last := List.foldl_append

namespace Index

variable [Space S E] {index : Index S E}

/-- An append does not train a tree. -/
theorem append_isTrained (index : Index S E) (elements : Array E) :
    (index.append elements).1.isTrained = index.isTrained := by
  refine append_induction (motive := fun a b => b.isTrained = a.isTrained) elements ?refl ?flat
    ?graph ?file ?composite index
  case refl => exact fun index => rfl
  case flat => exact fun f data => rfl
  case graph => exact fun g hwhole => rfl
  case file =>
    intro f quantizer chosen htrained
    rw [InvertedFile.insertAll_eq]
    rfl
  case composite => exact fun base base' copies data factor ih => ih

/-- Nothing is appended to a tree that is not trained. -/
theorem append_eq_of_not_trained (elements : Array E) (h : index.isTrained = false) :
    index.append elements = (index, .error .untrainedIndex) := by
  cases index with
  | flat f => cases h
  | graph g => cases h
  | invertedFile f quantizer =>
      have huntrained : quantizer.total ≠ f.listCount := by simpa [isTrained] using h
      simp [Index.append, huntrained]
  | composite base copies factor =>
      have huntrained : base.isTrained = false := h
      simp [Index.append, huntrained]

/-- Two batches at once are two batches one after the other, also for a tree that
refuses them. -/
theorem append_append (h : index.Consistent) {a b : Array E}
    (ha : a.size % index.unitLength = 0) (hb : b.size % index.unitLength = 0) :
    index.append (a ++ b) = (index.append a).1.append b := by
  by_cases htrained : index.isTrained = true
  · induction index with
    | flat f =>
        have hboth : (a ++ b).size % f.unitLength = 0 := append_size_mod ha hb
        have hfirst : a.size % f.unitLength = 0 := ha
        have hlast : b.size % f.unitLength = 0 := hb
        simp only [Index.append, Flat.append, Flat.checkWhole, hboth, hfirst, hlast, if_true,
          Array.append_assoc]
    | graph g => simp only [Index.append, Graph.append_append h ha hb]
    | invertedFile f quantizer =>
        have hfull : quantizer.total = f.listCount := by simpa [isTrained] using htrained
        have hpos : 0 < f.unitLength := h.pos
        have hlast : b.size % f.unitLength = 0 := hb
        rw [append_invertedFile_of_whole f hfull (append_size_mod ha hb),
          append_invertedFile_of_whole f hfull ha, vectorsOf_append hpos ha, List.map_append,
          InvertedFile.insertAll_append]
        have hframe := f.insertAll_eq
          ((vectorsOf f.unitLength a).map fun v => (quantizer.listFor v, v))
        generalize f.insertAll ((vectorsOf f.unitLength a).map fun v =>
          (quantizer.listFor v, v)) = filled at hframe ⊢
        have hcount : filled.listCount = f.listCount := by rw [hframe]
        have hwidth : filled.unitLength = f.unitLength := by rw [hframe]
        rw [append_invertedFile_of_whole filled (hcount ▸ hfull) (hwidth ▸ hlast), hwidth]
    | composite base copies factor ih =>
        have hbase : base.isTrained = true := htrained
        have hnext : (base.append a).1.isTrained = true := (append_isTrained base a).trans hbase
        have hcopies : ∀ c : Array E, c.size % base.unitLength = 0 →
            c.size % copies.unitLength = 0 := fun c hc => h.2.2.1 ▸ hc
        have hfirst := h.1.aligned.append_of_trained hbase ha
        have hboth := h.1.aligned.append_of_trained hbase (append_size_mod ha hb)
        have hlast : (base.append a).1.append b = ((base.append (a ++ b)).1, .ok ()) := by
          rw [← ih h.1 ha hb hbase]
          exact hboth
        rw [append_composite_of_base factor hbase (hcopies _ (append_size_mod ha hb)) hboth,
          append_composite_of_base factor hbase (hcopies a ha) hfirst]
        have hcopied : b.size % ({ copies with data := copies.data ++ a } : Flat S E).unitLength =
            0 := hcopies b hb
        dsimp only
        rw [append_composite_of_base factor hnext hcopied hlast, Array.append_assoc]
  · rw [Bool.not_eq_true] at htrained
    rw [append_eq_of_not_trained _ htrained, append_eq_of_not_trained _ htrained,
      append_eq_of_not_trained _ htrained]

/-- Two batches at once are accepted if the first one is, and then the second one. -/
theorem append_append_eq_ok_iff (h : index.Consistent) {a b : Array E}
    (ha : a.size % index.unitLength = 0) (hb : b.size % index.unitLength = 0) :
    (index.append (a ++ b)).2 = .ok () ↔
      (index.append a).2 = .ok () ∧ ((index.append a).1.append b).2 = .ok () := by
  rw [append_append h ha hb]
  refine (and_iff_right_of_imp fun hok => ?_).symm
  rw [← append_append h ha hb] at hok
  have htrained := (h.aligned.of_append_eq_ok (Prod.ext rfl hok)).1
  rw [h.aligned.append_of_trained htrained ha]

end Index

/-! ## Id maps -/

namespace IdMap

variable [Space S E] {m : IdMap S E}

/-- Nothing is appended to an id map over a tree that is not trained. -/
theorem append_eq_of_not_trained (elements : Array E) (ids : Array Int64)
    (h : m.index.isTrained = false) : m.append elements ids = (m, .error .untrainedIndex) := by
  rw [append, checkAppend, h]
  rfl

/-- A trained tree takes some whole vectors with an id for each. -/
theorem append_of_trained {index' : Index S E} (hpos : 0 < m.index.unitLength)
    (htrained : m.index.isTrained = true) {elements : Array E} {ids : Array Int64}
    (hwhole : elements.size % m.index.unitLength = 0) (hsome : elements.size ≠ 0)
    (hids : ids.size = elements.size / m.index.unitLength)
    (happend : m.index.append elements = (index', .ok ())) :
    m.append elements ids = (⟨index', m.ids ++ ids⟩, .ok ()) := by
  have hle := Nat.le_of_dvd (Nat.pos_of_ne_zero hsome) (Nat.dvd_of_mod_eq_zero hwhole)
  have hcount : elements.size / m.index.unitLength ≠ 0 := Nat.ne_of_gt (Nat.div_pos hle hpos)
  have hcheck := checkAppend_eq_ok_iff.2 ⟨htrained, hwhole, hcount, hids⟩
  rw [append, hcheck, happend]

/-- Two batches with their ids at once are two batches one after the other. -/
theorem append_append (h : m.Consistent) {a b : Array E} {idsA idsB : Array Int64}
    (ha : a.size % m.index.unitLength = 0) (hb : b.size % m.index.unitLength = 0)
    (hsomeA : a.size ≠ 0) (hsomeB : b.size ≠ 0)
    (hidsA : idsA.size = a.size / m.index.unitLength)
    (hidsB : idsB.size = b.size / m.index.unitLength) :
    m.append (a ++ b) (idsA ++ idsB) = (m.append a idsA).1.append b idsB := by
  by_cases htrained : m.index.isTrained = true
  · have hpos := h.index.pos
    have hboth := append_size_mod ha hb
    have hfirst := h.index.aligned.append_of_trained htrained ha
    have hwhole := h.index.aligned.append_of_trained htrained hboth
    have hlast : (m.index.append a).1.append b = ((m.index.append (a ++ b)).1, .ok ()) := by
      rw [← Index.append_append h.index ha hb]
      exact hwhole
    have hids : (idsA ++ idsB).size = (a ++ b).size / m.index.unitLength := by
      rw [Array.size_append, hidsA, hidsB, append_size_div hpos ha]
    have hsome : (a ++ b).size ≠ 0 := by
      rw [Array.size_append]
      omega
    have hwidth := (Index.append_sameWidth m.index a).unitLength
    have hsecond : IdMap.append ⟨(m.index.append a).1, m.ids ++ idsA⟩ b idsB =
        (⟨(m.index.append (a ++ b)).1, m.ids ++ idsA ++ idsB⟩, .ok ()) :=
      append_of_trained (m := ⟨(m.index.append a).1, m.ids ++ idsA⟩) (hwidth.symm ▸ hpos)
        ((Index.append_isTrained m.index a).trans htrained) (hwidth.symm ▸ hb) hsomeB
        (hwidth.symm ▸ hidsB) hlast
    rw [append_of_trained hpos htrained hboth hsome hids hwhole,
      append_of_trained hpos htrained ha hsomeA hidsA hfirst]
    dsimp only
    rw [hsecond, Array.append_assoc]
  · rw [Bool.not_eq_true] at htrained
    rw [append_eq_of_not_trained _ _ htrained, append_eq_of_not_trained _ _ htrained,
      append_eq_of_not_trained _ _ htrained]

/-- They are accepted if the first one is, and then the second one. -/
theorem append_append_eq_ok_iff (h : m.Consistent) {a b : Array E} {idsA idsB : Array Int64}
    (ha : a.size % m.index.unitLength = 0) (hb : b.size % m.index.unitLength = 0)
    (hsomeA : a.size ≠ 0) (hsomeB : b.size ≠ 0)
    (hidsA : idsA.size = a.size / m.index.unitLength)
    (hidsB : idsB.size = b.size / m.index.unitLength) :
    (m.append (a ++ b) (idsA ++ idsB)).2 = .ok () ↔
      (m.append a idsA).2 = .ok () ∧ ((m.append a idsA).1.append b idsB).2 = .ok () := by
  rw [append_append h ha hb hsomeA hsomeB hidsA hidsB]
  refine (and_iff_right_of_imp fun hok => ?_).symm
  by_cases htrained : m.index.isTrained = true
  · rw [append_of_trained h.index.pos htrained ha hsomeA hidsA
      (h.index.aligned.append_of_trained htrained ha)]
  · rw [Bool.not_eq_true] at htrained
    rw [append_eq_of_not_trained _ _ htrained, append_eq_of_not_trained _ _ htrained] at hok
    cases hok

end IdMap

/-! ## Batches -/

/-- **Batching is irrelevant.**  For an index tree that passes its check and two batches
of whole vectors, appending both at once leaves the state that appending one after the
other leaves, with the same outcome, and so the same bytes as an artifact of either kind;
it succeeds exactly if the first append does and then the second one.  The same holds
for an id map and batches that are not empty and have an id for each vector. -/
theorem append_batches [Space S E] :
    (∀ (index : Index S E) (a b : Array E), index.check = .ok () →
      a.size % index.unitLength = 0 → b.size % index.unitLength = 0 →
        index.append (a ++ b) = (index.append a).1.append b ∧
        ((index.append (a ++ b)).2 = .ok () ↔
          (index.append a).2 = .ok () ∧ ((index.append a).1.append b).2 = .ok ()) ∧
        ∀ ofStored : Stored S E → Artifact,
          (ofStored (.bare (index.append (a ++ b)).1)).toBytes =
            (ofStored (.bare ((index.append a).1.append b).1)).toBytes) ∧
    ∀ (m : IdMap S E) (a b : Array E) (idsA idsB : Array Int64), m.check = .ok () →
      a.size % m.index.unitLength = 0 → b.size % m.index.unitLength = 0 →
      a.size ≠ 0 → b.size ≠ 0 →
      idsA.size = a.size / m.index.unitLength → idsB.size = b.size / m.index.unitLength →
        m.append (a ++ b) (idsA ++ idsB) = (m.append a idsA).1.append b idsB ∧
        ((m.append (a ++ b) (idsA ++ idsB)).2 = .ok () ↔
          (m.append a idsA).2 = .ok () ∧ ((m.append a idsA).1.append b idsB).2 = .ok ()) ∧
        ∀ ofStored : Stored S E → Artifact,
          (ofStored (.mapped (m.append (a ++ b) (idsA ++ idsB)).1)).toBytes =
            (ofStored (.mapped ((m.append a idsA).1.append b idsB).1)).toBytes := by
  constructor
  · intro index a b hcheck ha hb
    have h := Index.check_eq_ok_iff.1 hcheck
    have hstate := Index.append_append h ha hb
    exact ⟨hstate, Index.append_append_eq_ok_iff h ha hb, fun _ => by rw [hstate]⟩
  · intro m a b idsA idsB hcheck ha hb hsomeA hsomeB hidsA hidsB
    have h := IdMap.check_eq_ok_iff.1 hcheck
    have hstate := IdMap.append_append h ha hb hsomeA hsomeB hidsA hidsB
    exact ⟨hstate, IdMap.append_append_eq_ok_iff h ha hb hsomeA hsomeB hidsA hidsB,
      fun _ => by rw [hstate]⟩

/-- An id map over a composite of a graph with one stored bit vector. -/
def oneNodeMap : IdMap BinarySpace UInt8 :=
  ⟨.composite
    (.graph ⟨⟨⟨⟩, 8, 1, #[6]⟩, 2, 1, 1, ⟨#[[[]]], some 0, 0⟩, ⟨0⟩, 0⟩) ⟨⟨⟩, 8, 1, #[6]⟩ .one, #[10]⟩

/-- Two vectors and one more are three, with their ids and without. -/
theorem append_batches_oneNode :
    oneNodeMap.check = .ok () ∧ oneNodeMap.index.check = .ok () ∧
      (oneNodeMap.append #[3, 1] #[20, 30]).2 = .ok () ∧
      oneNodeMap.index.append #[3, 1, 7] = (oneNodeMap.index.append #[3, 1]).1.append #[7] ∧
      oneNodeMap.append #[3, 1, 7] #[20, 30, 40] =
        (oneNodeMap.append #[3, 1] #[20, 30]).1.append #[7] #[40] := by
  have hcheck : oneNodeMap.check = .ok () := rfl
  have hindex : oneNodeMap.index.check = .ok () := rfl
  obtain ⟨hbare, hmapped⟩ := append_batches (S := BinarySpace) (E := UInt8)
  exact ⟨hcheck, hindex, rfl, (hbare oneNodeMap.index #[3, 1] #[7] hindex rfl rfl).1,
    (hmapped oneNodeMap #[3, 1] #[7] #[20, 30] #[40] hcheck rfl rfl (by decide) (by decide)
      rfl rfl).1⟩

end Proximity

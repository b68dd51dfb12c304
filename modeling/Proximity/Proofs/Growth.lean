import Proximity.Index.IdMap
import Proximity.Index.Tuning
import Proximity.Proofs.Checks
import Proximity.Proofs.Vectors

/-!
# What changes leave alone

An append, a training and a tuning leave the space and the widths of every node
alone, and the shape of the tree; only an append at the root changes how many vectors
it stores.  An
append is accepted exactly if the tree is trained and the elements are whole
vectors; if it is not, the tree is the one it was before.  For that the copies
of a composite have to be as wide as its base, which every construction sees
to.

## Main results

* `Index.SameWidth` — the space and the widths of the root.
* `Index.append_sameWidth`, `Index.train_sameStock`, `Index.tune_sameStock` — what
  the changes leave alone.
* `Index.append_induction`, `Index.train_induction`, `Index.tune_steps`,
  `Index.tune_induction` — the ways that a change goes, node by node.
* `Index.changeAt_sameStock_induction` — what a change of a node does to the root.
* `Index.topologies_append`, `Index.topologies_train`, `Index.topologies_tune` — changes
  keep the shape of a tree.
* `Index.Aligned.append_cases`, `IdMap.append_cases` — when an append is
  accepted.
-/

namespace Proximity

variable {S E : Type}

namespace Graph

variable [Space S E]

/-- Linking nodes changes the links only. -/
theorem foldl_insertNode_eq (g : Graph S E) (nodes : List Nat) :
    nodes.foldl insertNode g = { g with links := (nodes.foldl insertNode g).links } := by
  induction nodes generalizing g with
  | nil => rfl
  | cons node nodes ih =>
      rw [List.foldl_cons, ih]
      rfl

theorem storage_foldl_insertNode (g : Graph S E) (nodes : List Nat) :
    (nodes.foldl insertNode g).storage = g.storage := by
  rw [foldl_insertNode_eq]

/-- Whole vectors are appended to the storage and linked. -/
theorem append_eq_of_whole (g : Graph S E) {elements : Array E}
    (hwhole : elements.size % g.storage.unitLength = 0) :
    let storage := { g.storage with data := g.storage.data ++ elements }
    g.append elements =
      ((List.range' g.storage.total (storage.total - g.storage.total)).foldl insertNode
        { g with storage }, .ok ()) := by
  simp [Graph.append, Flat.append, Flat.checkWhole, hwhole]

theorem append_eq_of_not_whole (g : Graph S E) {elements : Array E}
    (hwhole : elements.size % g.storage.unitLength ≠ 0) :
    ∃ e, g.append elements = (g, .error e) := by
  refine ⟨.dimensionMismatch g.storage.unitLength (elements.size % g.storage.unitLength), ?_⟩
  simp [Graph.append, Flat.append, Flat.checkWhole, hwhole]

/-- An append changes the stored elements and the links only. -/
theorem append_eq (g : Graph S E) (elements : Array E) :
    ∃ data links, (g.append elements).1 = { g with storage := { g.storage with data }, links } := by
  by_cases hwhole : elements.size % g.storage.unitLength = 0
  · rw [g.append_eq_of_whole hwhole, foldl_insertNode_eq]
    exact ⟨_, _, rfl⟩
  · obtain ⟨e, he⟩ := g.append_eq_of_not_whole hwhole
    exact ⟨g.storage.data, g.links, congrArg Prod.fst he⟩

end Graph

namespace InvertedFile

/-- Insertions change the lists and their number of vectors only. -/
theorem insertAll_eq (f : InvertedFile S E) (chosen : List (Nat × Array E)) :
    f.insertAll chosen =
      { f with lists := (f.insertAll chosen).lists, total := f.total + chosen.length } := by
  induction chosen generalizing f with
  | nil => rfl
  | cons c chosen ih =>
      have hrest := ih (f.insert c.1 c.2)
      rw [insertAll, List.foldl_cons, ← insertAll, hrest, List.length_cons]
      simp only [InvertedFile.insert]
      congr 1
      omega

end InvertedFile

namespace Index

/-! ## Widths and stocks -/

/-- Two trees hold vectors of one space and width. -/
structure SameWidth (a b : Index S E) : Prop where
  space : b.space = a.space
  dimension : b.dimension = a.dimension
  unitLength : b.unitLength = a.unitLength

/-- Two trees hold as many vectors of one space and width. -/
structure SameStock (a b : Index S E) : Prop extends SameWidth a b where
  total : b.total = a.total

theorem SameWidth.refl (a : Index S E) : SameWidth a a := ⟨rfl, rfl, rfl⟩

theorem SameStock.refl (a : Index S E) : SameStock a a := ⟨.refl a, rfl⟩

/-- A changed base changes the widths of a composite as its own. -/
theorem SameWidth.composite {base base' : Index S E} (h : SameWidth base base')
    (copies copies' : Flat S E) (factor factor' : Single) :
    SameWidth (.composite base copies factor) (.composite base' copies' factor') :=
  ⟨h.space, h.dimension, h.unitLength⟩

theorem SameStock.composite {base base' : Index S E} (h : SameWidth base base')
    (copies : Flat S E) (factor factor' : Single) :
    SameStock (.composite base copies factor) (.composite base' copies factor') :=
  ⟨h.composite _ _ _ _, rfl⟩

/-- The topologies of the nodes, from the root down. -/
def topologies : Index S E → List Topology
  | .flat _ => [.flat]
  | .graph _ => [.graph]
  | .invertedFile _ quantizer => .invertedFile :: quantizer.topologies
  | .composite base _ _ => .composite :: base.topologies

variable [Space S E]

/-! ## Appending -/

/-- What an append does to the nodes that take its vectors, and what composites pass on, it
does to the root. -/
theorem append_induction {motive : Index S E → Index S E → Prop} (elements : Array E)
    (refl : ∀ index, motive index index)
    (flat : ∀ f data, motive (.flat f) (.flat { f with data }))
    (graph : ∀ g : Graph S E, elements.size % g.storage.unitLength = 0 →
      motive (.graph g) (.graph (g.append elements).1))
    (file : ∀ f quantizer chosen, quantizer.total = f.listCount →
      motive (.invertedFile f quantizer) (.invertedFile (f.insertAll chosen) quantizer))
    (composite : ∀ base base' copies data factor, motive base base' →
      motive (.composite base copies factor) (.composite base' { copies with data } factor))
    (index : Index S E) : motive index (index.append elements).1 := by
  induction index with
  | flat f =>
      simp only [Index.append, Flat.append]
      split
      · exact refl (.flat f)
      · exact flat f (f.data ++ elements)
  | graph g =>
      by_cases hwhole : elements.size % g.storage.unitLength = 0
      · exact graph g hwhole
      · obtain ⟨e, he⟩ := g.append_eq_of_not_whole hwhole
        simp only [Index.append, he]
        exact refl (.graph g)
  | invertedFile f quantizer =>
      simp only [Index.append]
      split
      · exact refl _
      · rename_i htrained
        split
        · exact refl _
        · exact file f quantizer _ (Decidable.not_not.1 htrained)
  | composite base copies factor ih =>
      simp only [Index.append, Flat.append]
      split
      · split
        · rename_i base' e hbase
          rw [hbase] at ih
          exact composite base base' copies copies.data factor ih
        · rename_i base' hbase
          rw [hbase] at ih
          split
          · exact composite base base' copies copies.data factor ih
          · exact composite base base' copies (copies.data ++ elements) factor ih
      · exact refl _

theorem append_sameWidth (index : Index S E) (elements : Array E) :
    SameWidth index (index.append elements).1 := by
  refine append_induction (motive := SameWidth) elements .refl ?flat ?graph ?file ?composite index
  case flat => exact fun f data => ⟨rfl, rfl, rfl⟩
  case graph =>
    intro g hwhole
    obtain ⟨data, links, happend⟩ := g.append_eq elements
    rw [happend]
    exact ⟨rfl, rfl, rfl⟩
  case file =>
    intro f quantizer chosen htrained
    rw [InvertedFile.insertAll_eq]
    exact ⟨rfl, rfl, rfl⟩
  case composite => exact fun base base' copies data factor ih => ih.composite _ _ _ _

theorem topologies_append (index : Index S E) (elements : Array E) :
    (index.append elements).1.topologies = index.topologies := by
  refine append_induction (motive := fun a b => b.topologies = a.topologies) elements ?refl ?flat
    ?graph ?file ?composite index
  case refl => exact fun index => rfl
  case flat => exact fun f data => rfl
  case graph => exact fun g hwhole => rfl
  case file => exact fun f quantizer chosen htrained => rfl
  case composite =>
    exact fun base base' copies data factor ih => congrArg (Topology.composite :: ·) ih

/-- A trained inverted file puts whole vectors into the lists chosen for
them. -/
theorem append_invertedFile_of_whole (f : InvertedFile S E) {quantizer : Index S E}
    {elements : Array E} (htrained : quantizer.total = f.listCount)
    (hwhole : elements.size % f.unitLength = 0) :
    (Index.invertedFile f quantizer).append elements =
      (.invertedFile (f.insertAll ((vectorsOf f.unitLength elements).map fun v =>
        (quantizer.listFor v, v))) quantizer, .ok ()) := by
  simp [Index.append, htrained, Flat.checkWhole, hwhole]

/-- The copies of every composite on the way to the leaf base are as wide as
their base. -/
def Aligned : Index S E → Prop
  | .flat _ | .graph _ | .invertedFile .. => True
  | .composite base copies _ => base.Aligned ∧ copies.unitLength = base.unitLength

/-- A composite appends what its base accepts to its copies as well. -/
theorem append_composite_of_base {base base' : Index S E} {copies : Flat S E}
    {elements : Array E} (factor : Single) (htrained : base.isTrained = true)
    (hwhole : elements.size % copies.unitLength = 0)
    (hbase : base.append elements = (base', .ok ())) :
    (Index.composite base copies factor).append elements =
      (.composite base' { copies with data := copies.data ++ elements } factor, .ok ()) := by
  simp [Index.append, htrained, hbase, Flat.append, Flat.checkWhole, hwhole]

/-- Whole vectors are accepted by a trained tree; otherwise an append is refused
and leaves the tree as it was. -/
theorem Aligned.append_cases {index : Index S E} (h : index.Aligned) (elements : Array E) :
    (index.isTrained = true ∧ elements.size % index.unitLength = 0 ∧
      ∃ index', index.append elements = (index', .ok ())) ∨
    ∃ e, index.append elements = (index, .error e) := by
  induction index with
  | flat f =>
      by_cases hwhole : elements.size % f.unitLength = 0
      · refine .inl ⟨rfl, hwhole, .flat { f with data := f.data ++ elements }, ?_⟩
        simp [Index.append, Flat.append, Flat.checkWhole, hwhole]
      · refine .inr ⟨.dimensionMismatch f.unitLength (elements.size % f.unitLength), ?_⟩
        simp [Index.append, Flat.append, Flat.checkWhole, hwhole]
  | graph g =>
      by_cases hwhole : elements.size % g.storage.unitLength = 0
      · refine .inl ⟨rfl, hwhole, .graph (g.append elements).1, ?_⟩
        simp only [Index.append, g.append_eq_of_whole hwhole]
      · obtain ⟨e, he⟩ := g.append_eq_of_not_whole hwhole
        exact .inr ⟨e, by simp only [Index.append, he]⟩
  | invertedFile f quantizer =>
      by_cases htrained : quantizer.total = f.listCount
      · by_cases hwhole : elements.size % f.unitLength = 0
        · exact .inl ⟨by simp [isTrained, htrained], hwhole, _,
            append_invertedFile_of_whole f htrained hwhole⟩
        · refine .inr ⟨.dimensionMismatch f.unitLength (elements.size % f.unitLength), ?_⟩
          simp [Index.append, htrained, Flat.checkWhole, hwhole]
      · exact .inr ⟨.untrainedIndex, by simp [Index.append, htrained]⟩
  | composite base copies factor ih =>
      obtain ⟨hbase, hwidth⟩ := h
      rcases ih hbase with ⟨htrained, hwhole, base', happend⟩ | ⟨e, he⟩
      · exact .inl ⟨htrained, hwhole, _,
          append_composite_of_base factor htrained (hwidth ▸ hwhole) happend⟩
      · by_cases htrained : base.isTrained = true
        · exact .inr ⟨e, by simp [Index.append, htrained, he]⟩
        · exact .inr ⟨.untrainedIndex, by simp [Index.append, htrained]⟩

/-- What was accepted were whole vectors, and the tree was trained. -/
theorem Aligned.of_append_eq_ok {index index' : Index S E} (h : index.Aligned)
    {elements : Array E} (happend : index.append elements = (index', .ok ())) :
    index.isTrained = true ∧ elements.size % index.unitLength = 0 := by
  rcases h.append_cases elements with ⟨htrained, hwhole, -⟩ | ⟨e, he⟩
  · exact ⟨htrained, hwhole⟩
  · rw [he] at happend
    simp at happend

/-- A trained tree accepts whole vectors. -/
theorem Aligned.append_of_trained {index : Index S E} (h : index.Aligned)
    (htrained : index.isTrained = true) {elements : Array E}
    (hwhole : elements.size % index.unitLength = 0) :
    index.append elements = ((index.append elements).1, .ok ()) := by
  induction index with
  | flat f =>
      have hflat : elements.size % f.unitLength = 0 := hwhole
      simp [Index.append, Flat.append, Flat.checkWhole, hflat]
  | graph g => simp [Index.append, g.append_eq_of_whole hwhole]
  | invertedFile f quantizer =>
      have hfull : quantizer.total = f.listCount := by simpa [isTrained] using htrained
      rw [append_invertedFile_of_whole f hfull hwhole]
  | composite base copies factor ih =>
      have hbase : base.isTrained = true := htrained
      have hcopies : elements.size % copies.unitLength = 0 := h.2 ▸ hwhole
      rw [append_composite_of_base factor hbase hcopies (ih h.1 hbase hwhole)]

/-- What was refused changed nothing. -/
theorem Aligned.eq_of_append_eq_error {index index' : Index S E} (h : index.Aligned)
    {elements : Array E} {e : Error} (happend : index.append elements = (index', .error e)) :
    index' = index := by
  rcases h.append_cases elements with ⟨-, -, _, hok⟩ | ⟨e', he⟩
  · rw [hok] at happend
    simp at happend
  · rw [he] at happend
    exact (Prod.mk.inj happend).1.symm

/-- The base of a composite accepts what the composite accepts. -/
theorem Aligned.append_composite {base index' : Index S E} {copies : Flat S E} {factor : Single}
    (h : (Index.composite base copies factor).Aligned) {elements : Array E}
    (happend : (Index.composite base copies factor).append elements = (index', .ok ())) :
    elements.size % copies.unitLength = 0 ∧ ∃ base', base.append elements = (base', .ok ()) ∧
      index' = .composite base' { copies with data := copies.data ++ elements } factor := by
  obtain ⟨htrained, hwhole⟩ := h.of_append_eq_ok happend
  have hbaseTrained : base.isTrained = true := htrained
  have hcopies : elements.size % copies.unitLength = 0 := h.2 ▸ hwhole
  rcases h.1.append_cases elements with ⟨-, -, base', hbase⟩ | ⟨e, he⟩
  · rw [append_composite_of_base factor hbaseTrained hcopies hbase] at happend
    exact ⟨hcopies, base', hbase, (Prod.mk.inj happend).1.symm⟩
  · simp [Index.append, hbaseTrained, he] at happend

/-! ## Training and tuning -/

theorem train_sameStock (index : Index S E) (sample : Array E) :
    SameStock index (index.train sample).1 := by
  induction index with
  | flat f => exact .refl _
  | graph g => exact .refl _
  | invertedFile f quantizer =>
      simp only [Index.train]
      split
      · exact .refl _
      · split
        · exact .refl _
        · split <;> exact ⟨⟨rfl, rfl, rfl⟩, rfl⟩
  | composite base copies factor ih =>
      simp only [Index.train]
      split
      · exact .refl _
      · exact .composite ih.toSameWidth _ _ _

/-- What a training does to an inverted file that learns its centroids, and what composites
pass on, it does to the root.  It keeps the stock of every base, so composites may rely on
that. -/
theorem train_induction {motive : Index S E → Index S E → Prop} (refl : ∀ index, motive index index)
    (file : ∀ f quantizer centroids, quantizer.total ≠ f.listCount →
      motive (.invertedFile f quantizer) (.invertedFile f (quantizer.append centroids).1))
    (composite : ∀ base base' copies factor, SameStock base base' → motive base base' →
      motive (.composite base copies factor) (.composite base' copies factor))
    (index : Index S E) (sample : Array E) : motive index (index.train sample).1 := by
  induction index with
  | flat f => exact refl (.flat f)
  | graph g => exact refl (.graph g)
  | invertedFile f quantizer =>
      simp only [Index.train]
      split
      · exact refl _
      · split
        · exact refl _
        · rename_i huntrained
          split
          · exact refl _
          · exact file f quantizer _ huntrained
  | composite base copies factor ih =>
      simp only [Index.train]
      split
      · exact refl _
      · exact composite base _ copies factor (base.train_sameStock sample) ih

theorem topologies_train (index : Index S E) (sample : Array E) :
    (index.train sample).1.topologies = index.topologies := by
  refine train_induction (motive := fun a b => b.topologies = a.topologies) ?refl ?file
    ?composite index sample
  case refl => exact fun index => rfl
  case file =>
    exact fun f quantizer centroids huntrained =>
      congrArg (Topology.invertedFile :: ·) (quantizer.topologies_append centroids)
  case composite =>
    exact fun base base' copies factor hstock ih => congrArg (Topology.composite :: ·) ih

omit [Space S E] in
/-- A tuning of a graph sets its widths only. -/
theorem eq_of_tuneGraph {g g' : Graph S E} {ps : Parameters} (h : tuneGraph g ps = .ok g') :
    ∃ buildWidth searchWidth, { g with buildWidth, searchWidth } = g' := by
  obtain ⟨_, -, h⟩ := Except.bind_eq_ok_iff.1 h
  obtain ⟨_, -, h⟩ := Except.bind_eq_ok_iff.1 h
  exact ⟨_, _, Except.ok.inj h⟩

omit [Space S E] in
/-- The ways that a tuning goes.  A node is refused as it stands, or sets what it is asked for
and hands a quantizer or a base its parameters, which may still be refused below. -/
theorem tune_steps {motive : Index S E → Parameters → Index S E × Except Error Unit → Prop}
    (flat : ∀ f ps, motive (.flat f) ps (.flat f, .ok ()))
    (refused : ∀ index ps e, index.tune ps = (index, .error e) → motive index ps (index, .error e))
    (graph : ∀ g g' ps, tuneGraph g ps = .ok g' → motive (.graph g) ps (.graph g', .ok ()))
    (unhanded : ∀ f quantizer ps probes, readProbes ps = .ok (probes, none) →
      motive (.invertedFile f quantizer) ps
        (.invertedFile { f with probes := probes.getD f.probes } quantizer, .ok ()))
    (handed : ∀ f quantizer ps probes nested r, readProbes ps = .ok (probes, some nested) →
      quantizer.tune nested = r → motive quantizer nested r →
        motive (.invertedFile f quantizer) ps
          (.invertedFile { f with probes := probes.getD f.probes } r.1, r.2))
    (composite : ∀ base copies factor ps asked r,
      ps.atLeast? TuningKey.factor .one = .ok asked → base.tune ps = r → motive base ps r →
        motive (.composite base copies factor) ps
          (.composite r.1 copies (asked.getD factor), r.2))
    (index : Index S E) (ps : Parameters) : motive index ps (index.tune ps) := by
  induction index generalizing ps with
  | flat f => exact flat f ps
  | graph g =>
      cases htune : tuneGraph g ps with
      | error e =>
          have hnode : (Index.graph g).tune ps = (.graph g, .error e) := by
            simp only [Index.tune, htune]
          exact hnode ▸ refused _ ps e hnode
      | ok g' =>
          have hnode : (Index.graph g).tune ps = (.graph g', .ok ()) := by
            simp only [Index.tune, htune]
          exact hnode ▸ graph g g' ps htune
  | invertedFile f quantizer ih =>
      cases hread : readProbes ps with
      | error e =>
          have hnode : (Index.invertedFile f quantizer).tune ps =
              (.invertedFile f quantizer, .error e) := by
            simp only [Index.tune, hread]
          exact hnode ▸ refused _ ps e hnode
      | ok read =>
          obtain ⟨probes, asked⟩ := read
          simp only [Index.tune, hread]
          cases asked with
          | none => exact unhanded f quantizer ps probes hread
          | some nested => exact handed f quantizer ps probes nested _ hread rfl (ih nested)
  | composite base copies factor ih =>
      cases hfactor : ps.atLeast? TuningKey.factor .one with
      | error e =>
          have hnode : (Index.composite base copies factor).tune ps =
              (.composite base copies factor, .error e) := by
            simp only [Index.tune, hfactor]
          exact hnode ▸ refused _ ps e hnode
      | ok asked =>
          simp only [Index.tune, hfactor]
          exact composite base copies factor ps asked _ hfactor rfl (ih ps)

omit [Space S E] in
theorem tune_sameStock (index : Index S E) (ps : Parameters) :
    SameStock index (index.tune ps).1 := by
  refine tune_steps (motive := fun index _ r => SameStock index r.1) ?flat ?refused ?graph
    ?unhanded ?handed ?composite index ps
  case flat => exact fun f ps => .refl _
  case refused => exact fun index ps e hrefused => .refl index
  case graph =>
    intro g g' ps htune
    obtain ⟨_, _, rfl⟩ := eq_of_tuneGraph htune
    exact ⟨⟨rfl, rfl, rfl⟩, rfl⟩
  case unhanded => exact fun f quantizer ps probes hread => ⟨⟨rfl, rfl, rfl⟩, rfl⟩
  case handed =>
    exact fun f quantizer ps probes nested r hread htune ih => ⟨⟨rfl, rfl, rfl⟩, rfl⟩
  case composite =>
    exact fun base copies factor ps asked r hfactor htune ih => .composite ih.toSameWidth _ _ _

omit [Space S E] in
/-- What a tuning does to the nodes that take what they are asked for, and what these pass
on, it does to the root.  It keeps the stock of every node, so they may rely on that. -/
theorem tune_induction {motive : Index S E → Index S E → Prop} (refl : ∀ index, motive index index)
    (graph : ∀ g g' ps, tuneGraph g ps = .ok g' → motive (.graph g) (.graph g'))
    (file : ∀ f quantizer quantizer' ps probes nested, readProbes ps = .ok (probes, nested) →
      SameStock quantizer quantizer' → motive quantizer quantizer' →
        motive (.invertedFile f quantizer)
          (.invertedFile { f with probes := probes.getD f.probes } quantizer'))
    (composite : ∀ base base' copies factor (ps : Parameters) asked,
      ps.atLeast? TuningKey.factor .one = .ok asked → SameStock base base' → motive base base' →
        motive (.composite base copies factor) (.composite base' copies (asked.getD factor)))
    (index : Index S E) (ps : Parameters) : motive index (index.tune ps).1 := by
  refine tune_steps (motive := fun index _ r => motive index r.1) ?flat ?refused graph ?unhanded
    ?handed ?composite index ps
  case flat => exact fun f ps => refl (.flat f)
  case refused => exact fun index ps e hrefused => refl index
  case unhanded =>
    exact fun f quantizer ps probes hread =>
      file f quantizer quantizer ps probes none hread (.refl quantizer) (refl quantizer)
  case handed =>
    exact fun f quantizer ps probes nested r hread htune ih =>
      file f quantizer r.1 ps probes (some nested) hread (htune ▸ quantizer.tune_sameStock nested)
        ih
  case composite =>
    exact fun base copies factor ps asked r hfactor htune ih =>
      composite base r.1 copies factor ps asked hfactor (htune ▸ base.tune_sameStock ps) ih

omit [Space S E] in
theorem topologies_tune (index : Index S E) (ps : Parameters) :
    (index.tune ps).1.topologies = index.topologies := by
  refine tune_induction (motive := fun a b => b.topologies = a.topologies) ?refl ?graph ?file
    ?composite index ps
  case refl => exact fun index => rfl
  case graph => exact fun g g' ps htune => rfl
  case file =>
    exact fun f quantizer quantizer' ps probes nested hread hstock ih =>
      congrArg (Topology.invertedFile :: ·) ih
  case composite =>
    exact fun base base' copies factor ps asked hfactor hstock ih =>
      congrArg (Topology.composite :: ·) ih

/-! ## Changes of a node -/

omit [Space S E] in
/-- What a change does to the node it is made at, and what a composite and an
inverted file pass on, holds of the root. -/
theorem changeAt_induction {A : Type} {change : Index S E → Index S E × A}
    {motive : Index S E → Index S E → Prop} (hhere : ∀ index, motive index (change index).1)
    (hbase : ∀ base base' copies factor, motive base base' →
      motive (.composite base copies factor) (.composite base' copies factor))
    (hquantizer : ∀ f quantizer quantizer', motive quantizer quantizer' →
      motive (.invertedFile f quantizer) (.invertedFile f quantizer'))
    {index : Index S E} {path : List Child} {r : Index S E × A}
    (h : index.changeAt change path = some r) : motive index r.1 := by
  induction path generalizing index r with
  | nil =>
      rw [changeAt] at h
      obtain rfl := Option.some.inj h
      exact hhere index
  | cons child path ih =>
      cases index with
      | flat f => simp [changeAt] at h
      | graph g => simp [changeAt] at h
      | invertedFile f quantizer =>
          cases child with
          | base => simp [changeAt] at h
          | quantizer =>
              obtain ⟨r', hr', rfl⟩ := Option.map_eq_some_iff.1 h
              exact hquantizer f quantizer r'.1 (ih hr')
      | composite base copies factor =>
          cases child with
          | base =>
              obtain ⟨r', hr', rfl⟩ := Option.map_eq_some_iff.1 h
              exact hbase base r'.1 copies factor (ih hr')
          | quantizer => simp [changeAt] at h

omit [Space S E] in
/-- A change of a node that keeps its stock keeps those of the nodes above it, so
what these pass on may rely on that. -/
theorem changeAt_sameStock_induction {A : Type} {change : Index S E → Index S E × A}
    {motive : Index S E → Index S E → Prop} (hsame : ∀ index, SameStock index (change index).1)
    (hhere : ∀ index, motive index (change index).1)
    (hbase : ∀ base base' copies factor, SameStock base base' → motive base base' →
      motive (.composite base copies factor) (.composite base' copies factor))
    (hquantizer : ∀ f quantizer quantizer', SameStock quantizer quantizer' →
      motive quantizer quantizer' →
      motive (.invertedFile f quantizer) (.invertedFile f quantizer'))
    {index : Index S E} {path : List Child} {r : Index S E × A}
    (h : index.changeAt change path = some r) : motive index r.1 := by
  have hboth : SameStock index r.1 ∧ motive index r.1 := by
    refine changeAt_induction (motive := fun a b => SameStock a b ∧ motive a b)
      (fun index => ⟨hsame index, hhere index⟩) ?_ ?_ h
    · rintro base base' copies factor ⟨hstock, hmotive⟩
      exact ⟨.composite hstock.toSameWidth _ _ _, hbase base base' copies factor hstock hmotive⟩
    · rintro f quantizer quantizer' ⟨hstock, hmotive⟩
      exact ⟨⟨⟨rfl, rfl, rfl⟩, rfl⟩, hquantizer f quantizer quantizer' hstock hmotive⟩
  exact hboth.2

omit [Space S E] in
/-- A change of a node that keeps its shape keeps that of the root. -/
theorem topologies_changeAt {A : Type} {change : Index S E → Index S E × A}
    (hsame : ∀ index, (change index).1.topologies = index.topologies) {index : Index S E}
    {path : List Child} {r : Index S E × A} (hr : index.changeAt change path = some r) :
    r.1.topologies = index.topologies :=
  changeAt_induction (motive := fun a b => b.topologies = a.topologies) hsame
    (fun _ _ _ _ hbase => congrArg (Topology.composite :: ·) hbase)
    (fun _ _ _ hquantizer => congrArg (Topology.invertedFile :: ·) hquantizer) hr

end Index

/-! ## Id maps -/

namespace IdMap

variable [Space S E]

omit [Space S E] in
theorem wrap_eq_ok_iff {index : Index S E} {m : IdMap S E} :
    wrap index = .ok m ↔ index.total = 0 ∧ ⟨index, #[]⟩ = m := by
  rw [wrap]
  by_cases htotal : index.total = 0 <;> simp [htotal]

omit [Space S E] in
/-- What is checked before an append. -/
theorem checkAppend_eq_ok_iff {m : IdMap S E} {elements : Array E} {ids : Nat} :
    m.checkAppend elements ids = .ok () ↔
      m.index.isTrained = true ∧ elements.size % m.index.unitLength = 0 ∧
        elements.size / m.index.unitLength ≠ 0 ∧ ids = elements.size / m.index.unitLength := by
  by_cases htrained : m.index.isTrained = true
  · by_cases hwhole : elements.size % m.index.unitLength = 0
    · simp only [checkAppend, htrained, Flat.checkWhole, hwhole, Bool.not_true, if_true,
        throw, throwThe, MonadExceptOf.throw, bind, Except.bind, pure, Except.pure, true_and]
      rw [if_neg (by decide), Except.ite_throw_eq_ok_iff, Except.ite_throw_eq_ok_iff]
      simp
    · simp [checkAppend, htrained, Flat.checkWhole, hwhole, bind, Except.bind]
  · simp [checkAppend, htrained, throw, throwThe, MonadExceptOf.throw, bind, Except.bind]

/-- An accepted append changes the index and the ids together; a refused one
changes nothing. -/
theorem append_cases {m m' : IdMap S E} {elements : Array E} {newIds : Array Int64}
    {outcome : Except Error Unit} (haligned : m.index.Aligned)
    (h : m.append elements newIds = (m', outcome)) :
    (outcome = .ok () ∧ newIds.size = elements.size / m.index.unitLength ∧
      ∃ index', m.index.append elements = (index', .ok ()) ∧ ⟨index', m.ids ++ newIds⟩ = m') ∨
    ((∃ e, outcome = .error e) ∧ m = m') := by
  rw [append] at h
  split at h
  · obtain ⟨rfl, rfl⟩ := Prod.mk.inj h
    exact .inr ⟨⟨_, rfl⟩, rfl⟩
  · rename_i hcheck
    obtain ⟨-, -, -, hids⟩ := checkAppend_eq_ok_iff.1 hcheck
    split at h
    · rename_i index' e happend
      obtain rfl := haligned.eq_of_append_eq_error happend
      obtain ⟨rfl, rfl⟩ := Prod.mk.inj h
      exact .inr ⟨⟨e, rfl⟩, rfl⟩
    · rename_i index' happend
      obtain ⟨rfl, rfl⟩ := Prod.mk.inj h
      exact .inl ⟨rfl, hids, index', happend, rfl⟩

end IdMap

end Proximity

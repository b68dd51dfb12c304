import Proximity.Host.Request
import Proximity.Proofs.Batching
import Proximity.Proofs.Contents
import Proximity.Proofs.Tuning

/-!
# Filling an index that holds nothing

An index is filled once, under ids, from a batch of whole vectors.  If it is
trained, and the batch is of its dimension and has an id for each vector,
nothing can go wrong any more: all that the index and the id map check has been
checked before.  Afterwards it stores the vectors of the batch in order.

The index may be a decoded one, about which nothing is known but that it is
consistent and holds nothing.  So what it stores is said without its centroids,
and without asking the copies of a composite to be of the same space.

## Main results

* `Batch.withIds_eq` — when a buffer is a batch.
* `Index.Consistent.width` — the width of a consistent tree.
* `Index.Stores` — the vectors of a tree, whatever its centroids are.
* `Index.Consistent.stores_append` — what a tree stores once it is filled.
* `Index.Vacant`, `Index.Vacant.stores` — trees that can be filled, and what they
  store then.
* `Request.fill_eq` — filling a tree.
-/

namespace Proximity

/-! ## Batches -/

namespace Batch

variable {E : Type} {kind : Kind} {dimension unitLength : Nat}

/-- The batch of all whole vectors in a buffer. -/
def cut (buffer : Buffer E) (dimension unitLength : Nat) : Batch E :=
  ⟨buffer, dimension, unitLength, buffer.data.size / unitLength⟩

theorem size_whole_cut (buffer : Buffer E) (dimension unitLength : Nat) :
    (cut buffer dimension unitLength).whole.size =
      buffer.data.size / unitLength * unitLength := by
  rw [whole, cut, Array.size_extract, Nat.sub_zero]
  exact Nat.min_eq_left (Nat.div_mul_le_self _ _)

theorem vectorsOf_whole_cut (buffer : Buffer E) (dimension unitLength : Nat) :
    vectorsOf unitLength (cut buffer dimension unitLength).whole =
      vectorsOf unitLength buffer.data :=
  vectorsOf_extract unitLength buffer.data

/-- No buffer is a batch of a dimension that no vector has. -/
theorem ofBuffer_of_error {fault : DimensionFault} (h : kind.unitLength dimension = .error fault)
    (buffer : Buffer E) : ofBuffer kind buffer dimension = .error (.invalidDimension fault) := by
  rw [ofBuffer, Kind.width, h]
  rfl

theorem withIds_of_error {fault : DimensionFault} (h : kind.unitLength dimension = .error fault)
    (buffer : Buffer E) (ids : Nat) :
    withIds kind buffer dimension ids = .error (.invalidDimension fault) := by
  rw [withIds, ofBuffer_of_error h]
  rfl

/-- A buffer with some whole vectors is a batch. -/
theorem ofBuffer_eq (hwidth : kind.unitLength dimension = .ok unitLength) (buffer : Buffer E) :
    ofBuffer kind buffer dimension =
      if buffer.data.size / unitLength = 0 then .error .emptyInput
      else .ok (cut buffer dimension unitLength) := by
  rw [ofBuffer, Kind.width_eq_ok_iff.2 hwidth]
  rfl

/-- A buffer with some whole vectors and an id for each is a batch. -/
theorem withIds_eq (hwidth : kind.unitLength dimension = .ok unitLength) (buffer : Buffer E)
    (ids : Nat) :
    withIds kind buffer dimension ids =
      if buffer.data.size / unitLength = 0 then .error .emptyInput
      else if ids = buffer.data.size / unitLength then .ok (cut buffer dimension unitLength)
      else .error (.idCountMismatch ids (buffer.data.size / unitLength)) := by
  rw [withIds, ofBuffer_eq hwidth]
  by_cases hnone : buffer.data.size / unitLength = 0
  · simp [hnone, bind, Except.bind]
  · by_cases hids : ids = buffer.data.size / unitLength
    · simp [hnone, hids, checkIds, cut, bind, Except.bind, pure, Except.pure]
    · simp [hnone, hids, checkIds, cut, bind, Except.bind]

end Batch

/-! ## Widths -/

/-- All spaces of a type are over vectors of one kind. -/
class Space.OneKind (S : Type) {E : outParam Type} [Space S E] : Prop where
  kind_eq : ∀ s t : S, Space.kind s = Space.kind t

@[simp] theorem FloatSpace.kind_eq (s : FloatSpace) : Space.kind s = .float := by
  obtain ⟨metric⟩ := s
  cases metric <;> rfl

@[simp] theorem BinarySpace.kind_eq (s : BinarySpace) : Space.kind s = .binary := rfl

instance : Space.OneKind FloatSpace where
  kind_eq s t := by rw [FloatSpace.kind_eq, FloatSpace.kind_eq]

instance : Space.OneKind BinarySpace where
  kind_eq _ _ := rfl

namespace Index

variable {S E : Type} [Space S E] {index : Index S E}

/-- The width of a consistent tree goes with its space and dimension. -/
theorem Consistent.width [Space.OneKind S] (h : index.Consistent) :
    (Space.kind index.space).unitLength index.dimension = .ok index.unitLength := by
  induction index with
  | flat f => exact Flat.Consistent.width h
  | graph g => exact h.storage.width
  | invertedFile f quantizer ih =>
      obtain ⟨hq, hwidth, hdimension, -⟩ := h
      have hquantizer := ih hq
      rw [hwidth, hdimension, Space.OneKind.kind_eq quantizer.space f.space] at hquantizer
      exact hquantizer
  | composite base copies factor ih => exact ih h.1

/-! ## Contents -/

/-- A tree stores the vectors `vs`: flat storage back to back, a graph in its
storage with a node for each, an inverted file spread over its lists, a
composite in its base and as copies. -/
def Stores : Index S E → List (Array E) → Prop
  | .flat f, vs => f.Holds vs
  | .graph g, vs => g.Holds vs
  | .invertedFile f _, vs => f.Holds vs
  | .composite base copies _, vs => base.Stores vs ∧ copies.Holds vs

variable {vs : List (Array E)}

omit [Space S E] in
/-- What a tree holds, it stores. -/
theorem Holds.stores (h : index.Holds vs) : index.Stores vs := by
  induction index with
  | flat f => exact h
  | graph g => exact h
  | invertedFile f quantizer => exact h.1
  | composite base copies factor ih => exact ⟨ih h.1, h.2.1⟩

omit [Space S E] in
theorem Stores.total (h : index.Stores vs) : index.total = vs.length := by
  cases index with
  | flat f => exact Flat.Holds.total h
  | graph g => exact h.storage.total
  | invertedFile f quantizer => exact h.total
  | composite base copies factor => exact h.2.total

/-- Consistent storage that counts no vector holds none. -/
private theorem holds_nil_of_flat {f : Flat S E} (h : f.Consistent) (hempty : f.total = 0) :
    f.Holds [] := by
  refine ⟨h.pos, h.whole, List.length_eq_zero_iff.1 ?_⟩
  rw [length_vectorsOf]
  exact hempty

omit [Space S E] in
/-- Consistent lists that count no vector hold none: no label would exist. -/
private theorem holds_nil_of_lists {f : InvertedFile S E} {centroids : Nat}
    (h : f.Consistent centroids) (hpos : 0 < f.unitLength) (hempty : f.total = 0) :
    f.Holds [] := by
  have hlabels : ∀ l ∈ f.lists, l.labels = #[] := by
    intro l hl
    refine Array.eq_empty_iff_forall_not_mem.2 fun label hlabel => ?_
    have hlt := (h.labels l hl label hlabel).2
    omega
  have hentries : f.entries = [] := by
    refine List.flatMap_eq_nil_iff.2 fun l hl => ?_
    rw [PostingList.entries, hlabels l (Array.mem_toList_iff.1 hl)]
    rfl
  refine ⟨hpos, h.size, Nat.pos_of_ne_zero h.listCount, fun l hl => ?_, hempty, ?_⟩
  · rw [PostingList.Whole, h.codes l hl, hlabels l hl]
    simp
  · rw [hentries]
    exact .refl _

/-- A consistent tree that counts no vector stores none. -/
theorem Consistent.stores_nil (h : index.Consistent) (hempty : index.total = 0) :
    index.Stores [] := by
  induction index with
  | flat f => exact holds_nil_of_flat h hempty
  | graph g => exact ⟨holds_nil_of_flat h.storage hempty, h.links.size.trans hempty⟩
  | invertedFile f quantizer =>
      obtain ⟨hq, hwidth, -, hf⟩ := h
      exact holds_nil_of_lists hf (hwidth ▸ hq.pos) hempty
  | composite base copies factor ih =>
      obtain ⟨hbase, hcopies, -, htotal, -⟩ := h
      exact ⟨ih hbase (htotal ▸ hempty), holds_nil_of_flat hcopies hempty⟩

/-- Vectors that a consistent tree accepts are stored after the others. -/
theorem Consistent.stores_append {index' : Index S E} (h : index.Consistent)
    (hstores : index.Stores vs) {elements : Array E}
    (happend : index.append elements = (index', .ok ())) :
    index'.Stores (vs ++ vectorsOf index.unitLength elements) := by
  obtain ⟨htrained, hwhole⟩ := h.aligned.of_append_eq_ok happend
  induction index generalizing index' with
  | flat f =>
      rcases Flat.Holds.append hstores elements with ⟨-, heq, hnew⟩ | ⟨hnot, -⟩
      · simp only [Index.append, heq] at happend
        rw [← (Prod.mk.inj happend).1]
        exact hnew
      · exact absurd hwhole hnot
  | graph g =>
      simp only [Index.append] at happend
      rw [← (Prod.mk.inj happend).1]
      exact Graph.Holds.append hstores hwhole
  | invertedFile f quantizer =>
      obtain ⟨hq, -, -, hf⟩ := h
      have hfull : quantizer.total = f.listCount := by simpa [isTrained] using htrained
      rw [append_invertedFile_of_whole f hfull hwhole] at happend
      rw [← (Prod.mk.inj happend).1]
      have hlists : ∀ v, quantizer.listFor v < f.listCount := by
        intro v
        have hsome : 0 < quantizer.total := hfull ▸ Nat.pos_of_ne_zero hf.listCount
        have hlt := hq.searchable.listFor_lt hsome v
        exact hfull ▸ hlt
      exact InvertedFile.Holds.insertChosen hstores hlists elements
  | composite base copies factor ih =>
      obtain ⟨hcopies, base', hbase, rfl⟩ := h.aligned.append_composite happend
      obtain ⟨hb, -, hwidth, -⟩ := h
      have hcut : vectorsOf copies.unitLength elements = vectorsOf base.unitLength elements :=
        congrArg (vectorsOf · elements) hwidth
      rcases hstores.2.append elements with ⟨-, -, hnew⟩ | ⟨hnot, -⟩
      · exact ⟨ih hb hstores.1 hbase htrained hwhole, hcut ▸ hnew⟩
      · exact absurd hcopies hnot

/-- An append leaves the settings of a tree alone. -/
theorem append_settings (index : Index S E) (elements : Array E) :
    (index.append elements).1.settings = index.settings := by
  refine append_induction (motive := fun a b => b.settings = a.settings) elements ?refl ?flat
    ?graph ?file ?composite index
  case refl => exact fun index => rfl
  case flat => exact fun f data => rfl
  case graph =>
    intro g hwhole
    obtain ⟨data, links, happend⟩ := g.append_eq elements
    rw [happend]
    rfl
  case file =>
    intro f quantizer chosen htrained
    rw [InvertedFile.insertAll_eq]
    rfl
  case composite =>
    exact fun base base' copies data factor ih => congrArg (Settings.composite factor) ih

/-! ## Vacant trees -/

/-- A tree that counts no vector and stores what it accepts. -/
structure Vacant (index : Index S E) : Prop where
  width : (Space.kind index.space).unitLength index.dimension = .ok index.unitLength
  aligned : index.Aligned
  empty : index.total = 0
  accepts : ∀ {elements : Array E} {index' : Index S E},
    index.append elements = (index', .ok ()) → index'.Stores (vectorsOf index.unitLength elements)

/-- A consistent tree that counts no vector is vacant. -/
theorem Consistent.vacant [Space.OneKind S] (h : index.Consistent) (hempty : index.total = 0) :
    index.Vacant :=
  ⟨h.width, h.aligned, hempty, h.stores_append (h.stores_nil hempty)⟩

/-- A tree that holds nothing is vacant. -/
theorem Holds.vacant (h : index.Holds [])
    (hwidth : (Space.kind index.space).unitLength index.dimension = .ok index.unitLength) :
    index.Vacant :=
  ⟨hwidth, h.aligned, h.total, fun happend => (h.append happend).stores⟩

theorem Vacant.pos (h : index.Vacant) : 0 < index.unitLength := (Kind.unitLength_bounds h.width).1

/-- The whole vectors of a buffer, appended. -/
def filledWith (index : Index S E) (buffer : Buffer E) : Index S E :=
  (index.append (Batch.cut buffer index.dimension index.unitLength).whole).1

/-- A trained vacant tree takes the whole vectors of a buffer. -/
theorem Vacant.append_eq (h : index.Vacant) (htrained : index.isTrained = true)
    (buffer : Buffer E) :
    index.append (Batch.cut buffer index.dimension index.unitLength).whole =
      (index.filledWith buffer, .ok ()) := by
  refine h.aligned.append_of_trained htrained ?_
  rw [Batch.size_whole_cut, Nat.mul_mod_left]

/-- Afterwards it stores them in order. -/
theorem Vacant.stores (h : index.Vacant) (htrained : index.isTrained = true)
    (buffer : Buffer E) :
    (index.filledWith buffer).Stores (vectorsOf index.unitLength buffer.data) := by
  have hstores := h.accepts (h.append_eq htrained buffer)
  rwa [Batch.vectorsOf_whole_cut] at hstores

end Index

namespace Request

variable {S E : Type} [Space S E] {index : Index S E} {batch : Batch E} {buffer : Buffer E}
  {ids : Array Int64}

/-- A tree that is not trained cannot be filled. -/
theorem fill_eq_of_not_trained (hempty : index.total = 0)
    (hdimension : batch.dimension = index.dimension) (huntrained : index.isTrained = false) :
    fill index batch ids = .error .untrainedIndex := by
  have hwrap : IdMap.wrap index = .ok ⟨index, #[]⟩ := IdMap.wrap_eq_ok_iff.2 ⟨hempty, rfl⟩
  have hrefused : (⟨index, #[]⟩ : IdMap S E).appendBatch batch ids =
      (⟨index, #[]⟩, .error .untrainedIndex) := by
    rw [IdMap.appendBatch, if_pos hdimension]
    exact IdMap.append_eq_of_not_trained batch.whole ids huntrained
  rw [fill, hwrap]
  simp only [bind, Except.bind, hrefused]

/-- **Nothing keeps a trained vacant tree from being filled**, once there are whole
vectors of its dimension and an id for each. -/
theorem fill_eq (h : index.Vacant) (htrained : index.isTrained = true)
    (hsome : buffer.data.size / index.unitLength ≠ 0)
    (hids : ids.size = buffer.data.size / index.unitLength) :
    fill index (Batch.cut buffer index.dimension index.unitLength) ids =
      .ok ⟨index.filledWith buffer, ids⟩ := by
  have hwrap : IdMap.wrap index = .ok ⟨index, #[]⟩ := IdMap.wrap_eq_ok_iff.2 ⟨h.empty, rfl⟩
  have hsize := Batch.size_whole_cut buffer index.dimension index.unitLength
  have hfilled : (⟨index, #[]⟩ : IdMap S E).appendBatch
      (Batch.cut buffer index.dimension index.unitLength) ids =
      (⟨index.filledWith buffer, ids⟩, .ok ()) := by
    let whole := (Batch.cut buffer index.dimension index.unitLength).whole
    have hwhole : whole.size % index.unitLength = 0 := by rw [hsize, Nat.mul_mod_left]
    have hnonempty : whole.size ≠ 0 := by
      rw [hsize]
      exact Nat.mul_ne_zero hsome (Nat.ne_of_gt h.pos)
    have hcount : ids.size = whole.size / index.unitLength := by
      rw [hsize, Nat.mul_div_cancel _ h.pos]
      exact hids
    have happend := IdMap.append_of_trained (m := ⟨index, #[]⟩) h.pos htrained hwhole hnonempty
      hcount (h.append_eq htrained buffer)
    have hdimension : (Batch.cut buffer index.dimension index.unitLength).dimension =
        index.dimension := rfl
    rw [Array.empty_append] at happend
    rw [IdMap.appendBatch, if_pos hdimension, happend]
  rw [fill, hwrap]
  simp only [bind, Except.bind, hfilled]
  rfl

end Request

end Proximity

import Proximity.Proofs.Codec.Trees
import Proximity.Proofs.Grammar

/-!
# What can be constructed

An index starts as flat storage or a graph; an inverted file is put over any
index that holds nothing, a composite likewise, and so on to any depth.  An
index of a description is made of the same steps, so one induction over these
steps reaches whatever can be constructed.

The numbers given to a construction are counts of 64 bits.

## Main results

* `Flat.empty_eq_ok_iff`, `Graph.empty_eq_ok_iff`,
  `Index.invertedFileOver_eq_ok_iff`, `Index.compositeOver_eq_ok_iff` — what each
  construction gives.
* `Index.Constructed` — whatever can be constructed.
* `Index.Constructed.steps` — induction over the steps of a construction.
* `Index.Constructed.width` — the width of what was constructed.
-/

namespace Proximity

variable {S E : Type}

/-! ## Single steps -/

section Steps

variable [Space S E]

theorem Flat.empty_eq_ok_iff {space : S} {dimension : Nat} {f : Flat S E} :
    Flat.empty space dimension = .ok f ↔
      ∃ unitLength, (Space.kind space).unitLength dimension = .ok unitLength ∧
        ⟨space, dimension, unitLength, #[]⟩ = f := by
  simp only [Flat.empty, Except.bind_eq_ok_iff, Kind.width_eq_ok_iff, pure, Except.pure,
    Except.ok.injEq]

theorem Graph.empty_eq_ok_iff {space : S} {dimension degree buildWidth searchWidth : Nat}
    {g : Graph S E} :
    Graph.empty space dimension degree buildWidth searchWidth = .ok g ↔
      2 ≤ degree ∧ ∃ storage, Flat.empty space dimension = .ok storage ∧
        ⟨storage, degree, max buildWidth 1, max searchWidth 1, .empty, scaleFor degree,
          standardSeed⟩ = g := by
  by_cases hdegree : degree < 2
  · simp [Graph.empty, hdegree, Nat.not_le.2 hdegree, bind, Except.bind, throw, throwThe,
      MonadExceptOf.throw]
  · simp only [Graph.empty, hdegree, if_false, Except.bind_eq_ok_iff, pure, Except.pure,
      Except.ok.injEq, Nat.le_of_not_lt hdegree, true_and]

namespace Index

theorem invertedFileOver_eq_ok_iff {quantizer index : Index S E} {listCount : Nat}
    {clustering : ClusteringSettings} :
    invertedFileOver quantizer listCount clustering = .ok index ↔
      listCount ≠ 0 ∧ quantizer.total = 0 ∧ ∃ unitLength,
        (Space.kind quantizer.space).unitLength quantizer.dimension = .ok unitLength ∧
        .invertedFile (.empty quantizer.space quantizer.dimension unitLength listCount
          clustering) quantizer = index := by
  by_cases hlists : listCount = 0
  · simp [invertedFileOver, hlists, bind, Except.bind, throw, throwThe, MonadExceptOf.throw]
  · by_cases htotal : quantizer.total = 0
    · simp only [invertedFileOver, hlists, htotal, ne_eq, not_true_eq_false, not_false_eq_true,
        if_false, true_and]
      simp only [Except.bind_eq_ok_iff, pure, Except.pure, Except.ok.injEq, Kind.width_eq_ok_iff]
    · simp [invertedFileOver, hlists, htotal, bind, Except.bind, throw, throwThe,
        MonadExceptOf.throw]

theorem compositeOver_eq_ok_iff {base index : Index S E} :
    compositeOver base = .ok index ↔
      base.total = 0 ∧ ∃ copies, Flat.empty base.space base.dimension = .ok copies ∧
        .composite base copies .one = index := by
  by_cases htotal : base.total = 0
  · simp only [compositeOver, htotal, ne_eq, not_true_eq_false, if_false, true_and]
    simp only [Except.bind_eq_ok_iff, pure, Except.pure, Except.ok.injEq]
  · simp [compositeOver, htotal, bind, Except.bind, throw, throwThe, MonadExceptOf.throw]

end Index

end Steps

/-! ## Descriptions -/

/-- What is asked of the numbers of a shape, each in its role. -/
def Shape.Each (asked : CountRole → Nat → Prop) : Shape → Prop
  | .flat => True
  | .graph degree => asked .graphDegree degree
  | .invertedFile lists quantizerDegree =>
    asked .listCount lists ∧
      ∀ degree, quantizerDegree = some degree → asked .graphDegree degree

/-- The numbers of a shape are counts of 64 bits. -/
def Shape.Fits : Shape → Prop
  | .flat => True
  | .graph degree => degree < Count.bound
  | .invertedFile lists quantizerDegree =>
    lists < Count.bound ∧ ∀ degree, quantizerDegree = some degree → degree < Count.bound

/-- A count of 64 bits that is not too small for its role. -/
def CountRole.Takes (role : CountRole) (n : Nat) : Prop := role.least ≤ n ∧ n < Count.bound

theorem Shape.Each.fits {shape : Shape} (h : shape.Each CountRole.Takes) : shape.Fits := by
  cases shape with
  | flat => trivial
  | graph degree => exact h.2
  | invertedFile lists quantizerDegree =>
      exact ⟨h.1.2, fun degree hdegree => (h.2 degree hdegree).2⟩

/-- The numbers that a component names suit their roles. -/
theorem Shape.Names.takes {shape : Shape} {component : List Char} (h : shape.Names component) :
    shape.Each CountRole.Takes := by
  cases shape with
  | flat => trivial
  | graph degree =>
      obtain ⟨m, -, hm, hleast⟩ := h
      exact ⟨hleast, hm.lt⟩
  | invertedFile lists quantizerDegree =>
      cases quantizerDegree with
      | none =>
          obtain ⟨n, -, hn, hleast⟩ := h
          exact ⟨⟨hleast, hn.lt⟩, nofun⟩
      | some degree =>
          obtain ⟨n, m, -, ⟨hn, hlists⟩, hm, hdegree⟩ := h
          refine ⟨⟨hlists, hn.lt⟩, fun asked hasked => ?_⟩
          obtain rfl := Option.some.inj hasked
          exact ⟨hdegree, hm.lt⟩

/-- The numbers of a description that was read suit their roles. -/
theorem Description.readChars_takes {text : List Char} {asked : Description}
    (h : readChars text = .ok asked) : asked.shape.Each CountRole.Takes := by
  obtain ⟨row, ⟨component, payload, hnames, -⟩, -⟩ := readChars_eq_ok_iff.1 h
  exact hnames.takes

/-! ## Trees -/

/-- What descriptions leave open are counts of 64 bits. -/
structure IndexDefaults.Fits (d : IndexDefaults) : Prop where
  buildWidth : d.graph.buildWidth < Count.bound
  searchWidth : d.graph.searchWidth < Count.bound
  clustering : d.clustering.Fits

namespace Index

variable [Space S E]

/-- Whatever can be constructed: flat storage and graphs, inverted files and
composites over what can be constructed, and what a description asks for. -/
inductive Constructed : Index S E → Prop where
  | flat {space : S} {dimension : Nat} {f : Flat S E} :
      dimension < Count.bound → Flat.empty space dimension = .ok f → Constructed (.flat f)
  | graph {space : S} {dimension degree buildWidth searchWidth : Nat} {g : Graph S E} :
      dimension < Count.bound → degree < Count.bound → buildWidth < Count.bound →
      searchWidth < Count.bound →
      Graph.empty space dimension degree buildWidth searchWidth = .ok g → Constructed (.graph g)
  | invertedFile {quantizer index : Index S E} {listCount : Nat}
      {clustering : ClusteringSettings} :
      Constructed quantizer → listCount < Count.bound → clustering.Fits →
      invertedFileOver quantizer listCount clustering = .ok index → Constructed index
  | composite {base index : Index S E} :
      Constructed base → compositeOver base = .ok index → Constructed index
  | described {d : IndexDefaults} {space : S} {dimension : Nat} {text : String}
      {index : Index S E} :
      d.Fits → dimension < Count.bound → d.build space dimension text = .ok index →
      Constructed index

section Induction

variable {motive : Index S E → Prop}
  (hflat : ∀ (space : S) (dimension : Nat) (f : Flat S E), dimension < Count.bound →
    Flat.empty space dimension = .ok f → motive (.flat f))
  (hgraph : ∀ (space : S) (dimension degree buildWidth searchWidth : Nat) (g : Graph S E),
    dimension < Count.bound → degree < Count.bound → buildWidth < Count.bound →
    searchWidth < Count.bound →
    Graph.empty space dimension degree buildWidth searchWidth = .ok g → motive (.graph g))
  (hfile : ∀ (quantizer index : Index S E) (listCount : Nat) (clustering : ClusteringSettings),
    quantizer.Constructed → motive quantizer → listCount < Count.bound → clustering.Fits →
    invertedFileOver quantizer listCount clustering = .ok index → motive index)
  (hcomposite : ∀ base index : Index S E, base.Constructed → motive base →
    compositeOver base = .ok index → motive index)

include hflat hgraph hfile in
private theorem shapeIndex_steps {d : IndexDefaults} {space : S} {dimension : Nat} {shape : Shape}
    {index : Index S E} (hd : d.Fits) (hdimension : dimension < Count.bound) (hshape : shape.Fits)
    (h : d.shapeIndex space dimension shape = .ok index) :
    index.Constructed ∧ motive index := by
  have hflatOf : ∀ f, Flat.empty space dimension = .ok f →
      (Index.flat f).Constructed ∧ motive (.flat f) :=
    fun f hf => ⟨.flat hdimension hf, hflat space dimension f hdimension hf⟩
  have hgraphOf : ∀ degree i, degree < Count.bound →
      d.graphIndex space dimension degree = .ok i → i.Constructed ∧ motive i := by
    intro degree i hdegree hi
    obtain ⟨g, hg, rfl⟩ := Except.map_eq_ok_iff.1 hi
    exact ⟨.graph hdimension hdegree hd.buildWidth hd.searchWidth hg,
      hgraph space dimension degree _ _ g hdimension hdegree hd.buildWidth hd.searchWidth hg⟩
  have hfileOf : ∀ lists quantizer, lists < Count.bound →
      quantizer.Constructed ∧ motive quantizer →
      invertedFileOver quantizer lists d.clustering = .ok index →
      index.Constructed ∧ motive index := by
    rintro lists quantizer hlists ⟨hq, hmotive⟩ hover
    exact ⟨.invertedFile hq hlists hd.clustering hover,
      hfile quantizer index lists _ hq hmotive hlists hd.clustering hover⟩
  cases shape with
  | flat =>
      obtain ⟨f, hf, rfl⟩ := Except.map_eq_ok_iff.1 h
      exact hflatOf f hf
  | graph degree => exact hgraphOf degree index hshape h
  | invertedFile lists quantizerDegree =>
      cases quantizerDegree with
      | none =>
          obtain ⟨quantizer, hq, hover⟩ := Except.bind_eq_ok_iff.1 h
          obtain ⟨f, hf, rfl⟩ := Except.map_eq_ok_iff.1 hq
          exact hfileOf lists _ hshape.1 (hflatOf f hf) hover
      | some degree =>
          obtain ⟨quantizer, hq, hover⟩ := Except.bind_eq_ok_iff.1 h
          exact hfileOf lists quantizer hshape.1
            (hgraphOf degree quantizer (hshape.2 degree rfl) hq) hover

include hflat hgraph hfile hcomposite in
/-- An index of a description is made by the steps of a construction. -/
private theorem build_steps {d : IndexDefaults} {space : S} {dimension : Nat} {text : String}
    {index : Index S E} (hd : d.Fits) (hdimension : dimension < Count.bound)
    (h : d.build space dimension text = .ok index) : motive index := by
  obtain ⟨-, -, h⟩ := Except.bind_eq_ok_iff.1 h
  obtain ⟨asked, hasked, h⟩ := Except.bind_eq_ok_iff.1 h
  have hshape := (Description.readChars_takes (Except.mapError_eq_ok_iff.1 hasked)).fits
  simp only [throw, throwThe, MonadExceptOf.throw] at h
  split at h
  · cases h
  · obtain ⟨plain, hplain, h⟩ := Except.bind_eq_ok_iff.1 h
    obtain ⟨hconstructed, hmotive⟩ :=
      shapeIndex_steps hflat hgraph hfile hd hdimension hshape hplain
    split at h
    · exact hcomposite plain index hconstructed hmotive h
    · cases h
      exact hmotive

include hflat hgraph hfile hcomposite in
/-- What every step of a construction gives holds of whatever can be
constructed. -/
theorem Constructed.steps {index : Index S E} (h : index.Constructed) : motive index := by
  induction h with
  | flat hdimension hf => exact hflat _ _ _ hdimension hf
  | graph hdimension hdegree hbuild hsearch hg =>
      exact hgraph _ _ _ _ _ _ hdimension hdegree hbuild hsearch hg
  | invertedFile hq hlists hclustering hover ih =>
      exact hfile _ _ _ _ hq ih hlists hclustering hover
  | composite hbase hover ih => exact hcomposite _ _ hbase ih hover
  | described hd hdimension hbuild =>
      exact build_steps hflat hgraph hfile hcomposite hd hdimension hbuild

end Induction

/-- The width of whatever can be constructed goes with its space and dimension. -/
theorem Constructed.width {index : Index S E} (h : index.Constructed) :
    (Space.kind index.space).unitLength index.dimension = .ok index.unitLength := by
  apply h.steps (motive := fun index =>
    (Space.kind index.space).unitLength index.dimension = .ok index.unitLength)
  · intro space dimension f _ hf
    obtain ⟨unitLength, hwidth, rfl⟩ := Flat.empty_eq_ok_iff.1 hf
    exact hwidth
  · intro space dimension degree buildWidth searchWidth g _ _ _ _ hg
    obtain ⟨-, storage, hstorage, rfl⟩ := Graph.empty_eq_ok_iff.1 hg
    obtain ⟨unitLength, hwidth, rfl⟩ := Flat.empty_eq_ok_iff.1 hstorage
    exact hwidth
  · intro quantizer index listCount clustering _ _ _ _ hover
    obtain ⟨-, -, unitLength, hwidth, rfl⟩ := invertedFileOver_eq_ok_iff.1 hover
    exact hwidth
  · intro base index _ hwidth hover
    obtain ⟨-, copies, -, rfl⟩ := compositeOver_eq_ok_iff.1 hover
    exact hwidth

/-- The copies over what can be constructed are as wide as it is. -/
theorem Constructed.copies {base : Index S E} (h : base.Constructed) {copies : Flat S E}
    (hcopies : Flat.empty base.space base.dimension = .ok copies) :
    ⟨base.space, base.dimension, base.unitLength, #[]⟩ = copies := by
  obtain ⟨unitLength, hwidth, rfl⟩ := Flat.empty_eq_ok_iff.1 hcopies
  obtain rfl : base.unitLength = unitLength := by
    rw [h.width] at hwidth
    exact Except.ok.inj hwidth
  rfl

end Index

end Proximity

import Proximity.Proofs.Construction
import Proximity.Proofs.Contents

/-!
# What a description builds

Once the dimension is right, only the text itself can keep an index from being
built: the numbers of a description that was read suit their roles, so none of
the steps of the construction fails.  What comes out is a blank index, which can
be written down directly.  It holds nothing, its settings are read off the
description, and it has to be trained exactly if it has lists.

## Main results

* `IndexDefaults.blank` — the blank index of a description.
* `IndexDefaults.build_eq` — what a text builds, and why it builds nothing.
* `IndexDefaults.build_grammar` — the same in terms of the grammar.
* `IndexDefaults.blank_settings`, `IndexDefaults.blank_topology`,
  `IndexDefaults.blank_isTrained`, `IndexDefaults.blank_holds` — what a blank index is like.
-/

namespace Proximity

/-! ## Shapes and descriptions -/

namespace Shape

/-- Whether an index of the shape puts its vectors into lists. -/
def hasLists : Shape → Bool
  | .flat | .graph _ => false
  | .invertedFile .. => true

/-- The settings of a graph of some degree that nothing was asked of. -/
def graphSettings (d : IndexDefaults) (degree : Nat) : Settings :=
  .graph degree (max d.graph.buildWidth 1) (max d.graph.searchWidth 1)

/-- The settings of an index of the shape that nothing was asked of. -/
def settings (d : IndexDefaults) : Shape → Settings
  | .flat => .flat
  | .graph degree => graphSettings d degree
  | .invertedFile lists none => .invertedFile lists 1 .flat
  | .invertedFile lists (some degree) => .invertedFile lists 1 (graphSettings d degree)

end Shape

namespace Description

/-- What a text asks for, if it asks for an index over vectors of some kind. -/
def readFor (kind : Kind) (text : String) : Except DescriptionFault Description := do
  let asked ← read text
  if asked.kind = kind then return asked else throw (.otherKind asked.kind kind)

theorem readFor_eq_ok_iff {kind : Kind} {text : String} {asked : Description} :
    readFor kind text = .ok asked ↔ read text = .ok asked ∧ asked.kind = kind := by
  rw [readFor, Except.bind_eq_ok_iff]
  constructor
  · rintro ⟨read, hread, h⟩
    split at h
    · cases h
      exact ⟨hread, ‹_›⟩
    · cases h
  · rintro ⟨hread, hkind⟩
    exact ⟨asked, hread, if_pos hkind⟩

/-- The numbers of a description that was read suit their roles. -/
theorem takes_of_readFor {kind : Kind} {text : String} {asked : Description}
    (h : readFor kind text = .ok asked) : asked.shape.Each CountRole.Takes :=
  readChars_takes (readFor_eq_ok_iff.1 h).1

/-- The settings of an index of the description that nothing was asked of. -/
def settings (d : IndexDefaults) (asked : Description) : Settings :=
  if asked.refined then .composite .one (asked.shape.settings d) else asked.shape.settings d

end Description

/-! ## Dimensions -/

/-- The dimensions that vectors of a kind can have. -/
def Kind.Admits (dimension : Nat) : Kind → Prop
  | .float => 0 < dimension
  | .binary => 0 < dimension ∧ 8 ∣ dimension

theorem Kind.unitLength_cases (kind : Kind) (dimension : Nat) :
    (kind.Admits dimension ∧ ∃ unitLength, kind.unitLength dimension = .ok unitLength) ∨
      (¬ kind.Admits dimension ∧ ∃ fault, kind.unitLength dimension = .error fault) := by
  cases kind with
  | float =>
      by_cases hnone : dimension = 0
      · exact .inr ⟨fun hpos => absurd hnone (Nat.ne_of_gt hpos), _, if_pos hnone⟩
      · exact .inl ⟨Nat.pos_of_ne_zero hnone, _, if_neg hnone⟩
  | binary =>
      by_cases hnone : dimension = 0 ∨ dimension % 8 ≠ 0
      · refine .inr ⟨fun ⟨hpos, hbytes⟩ => ?_, _, if_pos hnone⟩
        exact hnone.elim (Nat.ne_of_gt hpos) (absurd (Nat.mod_eq_zero_of_dvd hbytes))
      · refine .inl ⟨?_, _, if_neg hnone⟩
        exact ⟨by omega, by omega⟩

/-! ## Blank indexes -/

namespace IndexDefaults

variable {S E : Type} (d : IndexDefaults) (space : S) (dimension unitLength : Nat)

/-- A blank graph. -/
def blankGraph (degree : Nat) : Index S E :=
  .graph ⟨⟨space, dimension, unitLength, #[]⟩, degree, max d.graph.buildWidth 1,
    max d.graph.searchWidth 1, .empty, Graph.scaleFor degree, Graph.standardSeed⟩

/-- A blank index of a shape. -/
def blankShape : Shape → Index S E
  | .flat => .flat ⟨space, dimension, unitLength, #[]⟩
  | .graph degree => d.blankGraph space dimension unitLength degree
  | .invertedFile lists none =>
    .invertedFile (.empty space dimension unitLength lists d.clustering)
      (.flat ⟨space, dimension, unitLength, #[]⟩)
  | .invertedFile lists (some degree) =>
    .invertedFile (.empty space dimension unitLength lists d.clustering)
      (d.blankGraph space dimension unitLength degree)

/-- A blank index of a description. -/
def blank (asked : Description) : Index S E :=
  if asked.refined then
    .composite (d.blankShape space dimension unitLength asked.shape)
      ⟨space, dimension, unitLength, #[]⟩ .one
  else d.blankShape space dimension unitLength asked.shape

variable {d space dimension unitLength} {asked : Description}

/-! ### What it is like -/

variable (d space dimension unitLength) in
theorem blankShape_sameWidth (shape : Shape) :
    Index.SameWidth (.flat ⟨space, dimension, unitLength, #[]⟩)
      (d.blankShape (E := E) space dimension unitLength shape) := by
  cases shape with
  | flat => exact .refl _
  | graph degree => exact ⟨rfl, rfl, rfl⟩
  | invertedFile lists quantizerDegree => cases quantizerDegree <;> exact ⟨rfl, rfl, rfl⟩

variable (d space dimension unitLength) in
/-- A blank index has the space and the widths it was asked to have. -/
theorem blank_sameWidth (asked : Description) :
    Index.SameWidth (.flat ⟨space, dimension, unitLength, #[]⟩)
      (d.blank (E := E) space dimension unitLength asked) := by
  have hshape := blankShape_sameWidth (E := E) d space dimension unitLength asked.shape
  rw [blank]
  split
  · exact ⟨hshape.space, hshape.dimension, hshape.unitLength⟩
  · exact hshape

variable (d space dimension unitLength) in
/-- A blank index has the settings that its description names. -/
theorem blank_settings (asked : Description) :
    (d.blank (E := E) space dimension unitLength asked).settings = asked.settings d := by
  have hshape : ∀ shape, (d.blankShape (E := E) space dimension unitLength shape).settings =
      shape.settings d := by
    intro shape
    cases shape with
    | flat => rfl
    | graph degree => rfl
    | invertedFile lists quantizerDegree => cases quantizerDegree <;> rfl
  rw [blank, Description.settings]
  split
  · exact congrArg (Settings.composite .one) (hshape asked.shape)
  · exact hshape asked.shape

variable (d space dimension unitLength) in
/-- The root of a blank index is a composite exactly if one was asked for. -/
theorem blank_topology (asked : Description) :
    (d.blank (E := E) space dimension unitLength asked).topology = .composite ↔
      asked.refined = true := by
  rw [blank]
  split
  · exact iff_of_true rfl ‹_›
  · refine iff_of_false ?_ ‹_›
    rcases asked with ⟨-, shape, -⟩
    cases shape with
    | flat => exact nofun
    | graph degree => exact nofun
    | invertedFile lists quantizerDegree => cases quantizerDegree <;> exact nofun

/-- A blank index has to be trained exactly if it has lists. -/
theorem blank_isTrained (hcounts : asked.shape.Each CountRole.Takes) :
    (d.blank (E := E) space dimension unitLength asked).isTrained = !asked.shape.hasLists := by
  have hshape : (d.blankShape (E := E) space dimension unitLength asked.shape).isTrained =
      !asked.shape.hasLists := by
    cases hasked : asked.shape with
    | flat => rfl
    | graph degree => rfl
    | invertedFile lists quantizerDegree =>
        rw [hasked] at hcounts
        have hlists : 0 ≠ lists := Nat.ne_of_lt hcounts.1.1
        have hnone : 0 / unitLength = 0 := Nat.zero_div unitLength
        cases quantizerDegree <;>
          simpa [blankShape, blankGraph, Index.isTrained, Index.total, Flat.total, Shape.hasLists,
            InvertedFile.empty, hnone] using hlists
  rw [blank]
  split <;> exact hshape

private theorem blankGraph_holds (hpos : 0 < unitLength) (degree : Nat) :
    (d.blankGraph (E := E) space dimension unitLength degree).Holds [] :=
  ⟨Flat.empty_holds _ _ hpos, rfl⟩

variable (d space dimension) in
theorem blankShape_holds (hpos : 0 < unitLength) {shape : Shape}
    (hcounts : shape.Each CountRole.Takes) :
    (d.blankShape (E := E) space dimension unitLength shape).Holds [] := by
  cases shape with
  | flat => exact Flat.empty_holds _ _ hpos
  | graph degree => exact blankGraph_holds hpos degree
  | invertedFile lists quantizerDegree =>
      have hlists := InvertedFile.empty_holds (E := E) space dimension d.clustering hpos hcounts.1.1
      cases quantizerDegree with
      | none => exact ⟨hlists, [], Flat.empty_holds _ _ hpos⟩
      | some degree => exact ⟨hlists, [], blankGraph_holds hpos degree⟩

variable (d space dimension) in
/-- A blank index holds nothing. -/
theorem blank_holds (hpos : 0 < unitLength) (hcounts : asked.shape.Each CountRole.Takes) :
    (d.blank (E := E) space dimension unitLength asked).Holds [] := by
  have hshape := blankShape_holds (E := E) d space dimension hpos hcounts
  have hsame := blankShape_sameWidth (E := E) d space dimension unitLength asked.shape
  rw [blank]
  split
  · exact ⟨hshape, Flat.empty_holds _ _ hpos, hsame.space.symm, hsame.unitLength.symm⟩
  · exact hshape

/-! ### How it is built -/

variable [Space S E]

private theorem empty_eq (hwidth : (Space.kind space).unitLength dimension = .ok unitLength) :
    Flat.empty (E := E) space dimension = .ok ⟨space, dimension, unitLength, #[]⟩ :=
  Flat.empty_eq_ok_iff.2 ⟨unitLength, hwidth, rfl⟩

private theorem graphIndex_eq (hwidth : (Space.kind space).unitLength dimension = .ok unitLength)
    {degree : Nat} (hdegree : 2 ≤ degree) :
    d.graphIndex (E := E) space dimension degree =
      .ok (d.blankGraph space dimension unitLength degree) :=
  Except.map_eq_ok_iff.2
    ⟨_, Graph.empty_eq_ok_iff.2 ⟨hdegree, _, empty_eq hwidth, rfl⟩, rfl⟩

private theorem shapeIndex_eq (hwidth : (Space.kind space).unitLength dimension = .ok unitLength)
    {shape : Shape} (hcounts : shape.Each CountRole.Takes) :
    d.shapeIndex (E := E) space dimension shape =
      .ok (d.blankShape space dimension unitLength shape) := by
  have hnone : 0 / unitLength = 0 := Nat.zero_div unitLength
  cases shape with
  | flat => exact Except.map_eq_ok_iff.2 ⟨_, empty_eq hwidth, rfl⟩
  | graph degree => exact graphIndex_eq hwidth hcounts.1
  | invertedFile lists quantizerDegree =>
      have hlists : lists ≠ 0 := Nat.ne_of_gt hcounts.1.1
      cases quantizerDegree with
      | none =>
          refine Except.bind_eq_ok_iff.2
            ⟨_, Except.map_eq_ok_iff.2 ⟨_, empty_eq hwidth, rfl⟩, ?_⟩
          exact Index.invertedFileOver_eq_ok_iff.2 ⟨hlists, hnone, unitLength, hwidth, rfl⟩
      | some degree =>
          refine Except.bind_eq_ok_iff.2 ⟨_, graphIndex_eq hwidth (hcounts.2 degree rfl).1, ?_⟩
          exact Index.invertedFileOver_eq_ok_iff.2 ⟨hlists, hnone, unitLength, hwidth, rfl⟩

private theorem describedIndex_eq (d : IndexDefaults)
    (hwidth : (Space.kind space).unitLength dimension = .ok unitLength)
    (hcounts : asked.shape.Each CountRole.Takes) :
    d.describedIndex (E := E) space dimension asked =
      .ok (d.blank space dimension unitLength asked) := by
  refine Except.bind_eq_ok_iff.2 ⟨_, shapeIndex_eq hwidth hcounts, ?_⟩
  rw [blank]
  split
  · have hsame := blankShape_sameWidth (E := E) d space dimension unitLength asked.shape
    refine Index.compositeOver_eq_ok_iff.2 ⟨?_, _, ?_, rfl⟩
    · exact (blankShape_holds d space dimension (Kind.unitLength_bounds hwidth).1 hcounts).total
    · rw [hsame.space, hsame.dimension]
      exact empty_eq hwidth
  · rfl

/-- **What a text builds.**  If the dimension is right, a text that asks for an
index over vectors of the right kind builds a blank one, and any other text is
refused, with what is wrong with it. -/
theorem build_eq (hwidth : (Space.kind space).unitLength dimension = .ok unitLength)
    (text : String) :
    d.build (E := E) space dimension text =
      (match Description.readFor (Space.kind space) text with
        | .error fault => .error (.unsupportedTopology text fault)
        | .ok asked => .ok (d.blank space dimension unitLength asked)) := by
  have hdimension : (Space.kind space).width dimension = .ok unitLength :=
    Kind.width_eq_ok_iff.2 hwidth
  rw [build, hdimension, Description.readFor]
  cases hread : Description.read text with
  | error fault => rfl
  | ok asked =>
      by_cases hkind : asked.kind = Space.kind space
      · have hblank := describedIndex_eq (E := E) d hwidth (Description.readChars_takes hread)
        simp [bind, Except.bind, hkind, hblank, pure, Except.pure]
      · simp [bind, Except.bind, hkind, throw, throwThe, MonadExceptOf.throw]

/-- **Which texts build an index, and which one.**  A dimension that vectors of the space
cannot have is refused before the text is looked at.  Otherwise a text builds an index
exactly if it asks for one over vectors of the kind of the space.  That index is the blank
one of the description: it holds nothing, has the settings that the table gives it, is a
composite exactly if the suffix was there, and has to be trained exactly if it has lists.
Any other text is refused as unsupported, and the refusal carries the text as it was
given. -/
theorem build_grammar (d : IndexDefaults) (space : S) (dimension : Nat) (text : String) :
    (¬ (Space.kind space).Admits dimension →
      ∃ fault, d.build (E := E) space dimension text = .error (.invalidDimension fault)) ∧
    ((Space.kind space).Admits dimension →
      (∀ asked, Description.Asks text.toList asked → asked.kind = Space.kind space →
        ∃ index : Index S E, d.build space dimension text = .ok index ∧
          (∃ unitLength, (Space.kind space).unitLength dimension = .ok unitLength ∧
            index = d.blank space dimension unitLength asked) ∧
          index.total = 0 ∧ index.Holds [] ∧ index.settings = asked.settings d ∧
          (index.topology = .composite ↔ asked.refined = true) ∧
          (index.isTrained = true ↔ asked.shape.hasLists = false)) ∧
      ((¬ ∃ asked, Description.Asks text.toList asked ∧ asked.kind = Space.kind space) →
        ∃ fault,
          d.build (E := E) space dimension text = .error (.unsupportedTopology text fault))) := by
  rcases Kind.unitLength_cases (Space.kind space) dimension with
    ⟨hadmits, unitLength, hwidth⟩ | ⟨hnot, fault, hfault⟩
  · refine ⟨absurd hadmits, fun _ => ?_⟩
    have hbuild := d.build_eq (E := E) hwidth text
    constructor
    · intro asked hasks hkind
      have hread : Description.readFor (Space.kind space) text = .ok asked :=
        Description.readFor_eq_ok_iff.2 ⟨Description.readChars_eq_ok_iff.2 hasks, hkind⟩
      have hcounts := Description.takes_of_readFor hread
      have hholds :=
        blank_holds (E := E) d space dimension (Kind.unitLength_bounds hwidth).1 hcounts
      rw [hread] at hbuild
      refine ⟨_, hbuild, ⟨unitLength, hwidth, rfl⟩, hholds.total, hholds,
        blank_settings d space dimension unitLength asked,
        blank_topology d space dimension unitLength asked, ?_⟩
      rw [blank_isTrained hcounts, Bool.not_eq_true']
    · intro hnone
      cases hread : Description.readFor (Space.kind space) text with
      | error fault =>
          rw [hread] at hbuild
          exact ⟨fault, hbuild⟩
      | ok asked =>
          obtain ⟨hasks, hkind⟩ := Description.readFor_eq_ok_iff.1 hread
          exact absurd ⟨asked, Description.readChars_eq_ok_iff.1 hasks, hkind⟩ hnone
  · refine ⟨fun _ => ⟨fault, ?_⟩, fun hadmits => absurd hadmits hnot⟩
    rw [build, Kind.width, hfault]
    rfl

/-- A text with blanks, a sign and a suffix builds a composite over two lists over a graph.
Two suffixes, and a dimension of part of a byte, build nothing. -/
theorem build_grammar_refinedLists :
    let d : IndexDefaults := ⟨⟨0, 16⟩, .standard⟩
    (∃ index : Index BinarySpace UInt8,
      d.build BinarySpace.mk 8 " BIVF2_HNSW+03 ,\tRFlat" = .ok index ∧
        index.settings = .composite .one (.invertedFile 2 1 (.graph 3 1 16)) ∧
        index.isTrained = false) ∧
      (∃ fault, d.build (E := UInt8) BinarySpace.mk 8 "BFlat,RFlat,RFlat" =
        .error (.unsupportedTopology "BFlat,RFlat,RFlat" fault)) ∧
      ∃ fault, d.build (E := UInt8) BinarySpace.mk 7 "BFlat" = .error (.invalidDimension fault) := by
  intro d
  have height : Kind.binary.Admits 8 := ⟨by decide, by decide⟩
  have hseven : ¬ Kind.binary.Admits 7 := fun h => absurd h.2 (by decide)
  have hlists : Description.Asks " BIVF2_HNSW+03 ,\tRFlat".toList
      ⟨.binary, .invertedFile 2 (some 3), true⟩ := Description.readChars_eq_ok_iff.1 (by decide)
  have hnone : ¬ ∃ asked, Description.Asks "BFlat,RFlat,RFlat".toList asked ∧
      asked.kind = Space.kind BinarySpace.mk := by
    rintro ⟨asked, hasks, -⟩
    have hread : Description.readChars "BFlat,RFlat,RFlat".toList =
        .error (.unsupportedPayload "RFlat") := by decide
    rw [Description.readChars_eq_ok_iff.2 hasks] at hread
    cases hread
  obtain ⟨-, hbuilds⟩ := build_grammar d BinarySpace.mk 8 " BIVF2_HNSW+03 ,\tRFlat"
  obtain ⟨index, hbuild, -, -, -, hsettings, -, htrained⟩ := (hbuilds height).1 _ hlists rfl
  refine ⟨⟨index, hbuild, hsettings, ?_⟩,
    ((build_grammar d BinarySpace.mk 8 "BFlat,RFlat,RFlat").2 height).2 hnone,
    (build_grammar d BinarySpace.mk 7 "BFlat").1 hseven⟩
  rw [← Bool.not_eq_true, htrained]
  exact Bool.noConfusion

end IndexDefaults

end Proximity

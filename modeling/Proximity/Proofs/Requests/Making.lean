import Proximity.Proofs.Descriptions
import Proximity.Proofs.Filling

/-!
# The steps of a request

Each of the ways to make an artifact is a sequence of steps that may stop it, so
each comes down to one equation that says where it stops, with which calls made,
and what it makes otherwise.  The three share the construction of an index,
whose equation comes first.

## Main results

* `Request.construct_eq` — a built and tuned index.
* `Request.newMap_eq`, `Request.of_newMap` — a new index, filled.
* `Request.filledMap_eq`, `Request.of_filledMap` — a template, filled.
* `Request.of_trainedIndex` — a new index, trained.
-/

namespace Proximity

/-! ## Traced steps -/

namespace Traced

variable {A B : Type}

@[simp] theorem quiet_ok_bind (a : A) (f : A → Traced B) : (quiet (.ok a) >>= f) = f a := rfl

@[simp] theorem call_ok_bind (c : Call) (a : A) (f : A → Traced B) :
    (call c (.ok a) >>= f) = ⟨c :: (f a).calls, (f a).outcome⟩ := rfl

@[simp] theorem mk_ok_bind (calls : List Call) (a : A) (f : A → Traced B) :
    ((⟨calls, .ok a⟩ : Traced A) >>= f) = ⟨calls ++ (f a).calls, (f a).outcome⟩ := rfl

@[simp] theorem mk_error_bind (calls : List Call) (e : Error) (f : A → Traced B) :
    ((⟨calls, .error e⟩ : Traced A) >>= f) = ⟨calls, .error e⟩ := rfl

/-- A sequence of steps has a result if each of them has. -/
theorem bind_outcome_eq_ok_iff {x : Traced A} {f : A → Traced B} {b : B} :
    (x >>= f).outcome = .ok b ↔ ∃ a, x.outcome = .ok a ∧ (f a).outcome = .ok b := by
  obtain ⟨calls, outcome⟩ := x
  cases outcome with
  | error e => simp
  | ok a => simp

end Traced

/-- A space type is either of float vectors under a metric or of binary ones. -/
theorem SpaceType.kind_eq (spaceType : SpaceType) :
    spaceType.kind = if spaceType.metric?.isSome then .float else .binary := by
  cases spaceType <;> rfl

theorem SpaceType.eq_of_metric? {spaceType : SpaceType} {metric : Metric}
    (h : spaceType.metric? = some metric) : .ofMetric metric = spaceType := by
  cases spaceType <;> cases h <;> rfl

theorem SpaceType.eq_hamming_of_metric? {spaceType : SpaceType} (h : spaceType.metric? = none) :
    .hamming = spaceType := by
  cases spaceType <;> cases h
  rfl

namespace Request

variable {S E : Type}

/-! ## Constructions -/

/-- The blank index of a request, tuned. -/
def tunedBlank (defaults : IndexDefaults) (space : S) (r : IndexRequest) (unitLength : Nat)
    (asked : Description) : Index S E :=
  ((defaults.blank space r.dimension unitLength asked).tune r.parameters).1

section TunedBlank

variable {defaults : IndexDefaults} {space : S} {r : IndexRequest} {unitLength : Nat}
  {asked : Description}

/-- Tuning leaves the space and the widths of a blank index alone. -/
theorem tunedBlank_sameWidth (defaults : IndexDefaults) (space : S) (r : IndexRequest)
    (unitLength : Nat) (asked : Description) :
    Index.SameWidth (.flat ⟨space, r.dimension, unitLength, #[]⟩)
      (tunedBlank (E := E) defaults space r unitLength asked) := by
  have hblank := IndexDefaults.blank_sameWidth (E := E) defaults space r.dimension unitLength asked
  have htune := Index.tune_sameStock
    (defaults.blank (E := E) space r.dimension unitLength asked) r.parameters
  exact ⟨htune.space.trans hblank.space, htune.dimension.trans hblank.dimension,
    htune.unitLength.trans hblank.unitLength⟩

variable (defaults space r) in
/-- A tuned blank index holds nothing. -/
theorem tunedBlank_holds (hpos : 0 < unitLength) (hcounts : asked.shape.Each CountRole.Takes) :
    (tunedBlank (E := E) defaults space r unitLength asked).Holds [] :=
  (IndexDefaults.blank_holds defaults space r.dimension hpos hcounts).tune r.parameters

variable (defaults space r unitLength) in
/-- A tuned blank index has to be trained exactly if it has lists. -/
theorem tunedBlank_isTrained (hcounts : asked.shape.Each CountRole.Takes) :
    (tunedBlank (E := E) defaults space r unitLength asked).isTrained = !asked.shape.hasLists :=
  (Index.tune_isTrained _ _).trans (IndexDefaults.blank_isTrained hcounts)

/-- A tuned blank index has the settings of its description, overlaid. -/
theorem tunedBlank_settings {settings : Settings}
    (h : (asked.settings defaults).tuned r.parameters = .ok settings) :
    (tunedBlank (E := E) defaults space r unitLength asked).settings = settings := by
  have htune := Index.tune_settings
    (defaults.blank (E := E) space r.dimension unitLength asked) r.parameters
  rw [IndexDefaults.blank_settings, h] at htune
  cases houtcome : ((defaults.blank (E := E) space r.dimension unitLength asked).tune
      r.parameters).2 with
  | error e =>
      rw [houtcome] at htune
      cases htune
  | ok u =>
      rw [houtcome] at htune
      exact Except.ok.inj htune

end TunedBlank

variable [Space S E] (defaults : IndexDefaults) (space : S) (r : IndexRequest) {unitLength : Nat}

/-- A tuned blank index is vacant. -/
theorem tunedBlank_vacant {asked : Description}
    (hwidth : (Space.kind space).unitLength r.dimension = .ok unitLength)
    (hcounts : asked.shape.Each CountRole.Takes) :
    (tunedBlank (E := E) defaults space r unitLength asked).Vacant := by
  have hholds := tunedBlank_holds (E := E) defaults space r (Kind.unitLength_bounds hwidth).1
    hcounts
  have hsame := tunedBlank_sameWidth (E := E) defaults space r unitLength asked
  refine hholds.vacant ?_
  rw [hsame.space, hsame.dimension, hsame.unitLength]
  exact hwidth

/-- **A built and tuned index.**  If the dimension is right, a text or parameters
may be refused, and otherwise the index is the tuned blank one. -/
theorem construct_eq (hwidth : (Space.kind space).unitLength r.dimension = .ok unitLength) :
    construct (E := E) defaults space r =
      (match Description.readFor (Space.kind space) r.description with
        | .error fault =>
          ⟨[.construct (Space.kind space)], .error (.unsupportedTopology r.description fault)⟩
        | .ok asked =>
          ⟨[.construct (Space.kind space), .tune (Space.kind space)],
            ((asked.settings defaults).tuned r.parameters).map fun _ =>
              tunedBlank defaults space r unitLength asked⟩) := by
  rw [construct, IndexDefaults.build_eq hwidth]
  cases hread : Description.readFor (Space.kind space) r.description with
  | error fault => rfl
  | ok asked =>
      have htune := Index.tune_settings
        (defaults.blank (E := E) space r.dimension unitLength asked) r.parameters
      rw [IndexDefaults.blank_settings] at htune
      dsimp only
      rw [← htune, Traced.call_ok_bind, tunedBlank]
      cases (defaults.blank (E := E) space r.dimension unitLength asked).tune r.parameters with
      | mk index outcome => cases outcome <;> rfl

/-- What was constructed is the tuned blank index of a description. -/
theorem of_construct {index : Index S E}
    (hwidth : (Space.kind space).unitLength r.dimension = .ok unitLength)
    (h : (construct defaults space r).outcome = .ok index) :
    ∃ asked settings, Description.readFor (Space.kind space) r.description = .ok asked ∧
      (asked.settings defaults).tuned r.parameters = .ok settings ∧
      tunedBlank defaults space r unitLength asked = index := by
  rw [construct_eq defaults space r hwidth] at h
  cases hread : Description.readFor (Space.kind space) r.description with
  | error fault =>
      rw [hread] at h
      cases h
  | ok asked =>
      rw [hread] at h
      obtain ⟨settings, htuned, hindex⟩ := Except.map_eq_ok_iff.1 h
      exact ⟨asked, settings, rfl, htuned, hindex⟩

/-! ## New artifacts -/

/-- Nothing is constructed for a buffer that is no batch. -/
theorem newMap_of_error {buffer : Buffer E} {ids : Array Int64} {e : Error}
    (h : Batch.withIds (Space.kind space) buffer r.dimension ids.size = .error e) :
    newMap defaults space r buffer ids = .quiet (.error e) := by
  rw [newMap, h]
  rfl

/-- **A new index, filled.**  What was constructed for a batch either has to be
trained or takes the batch. -/
theorem newMap_eq (hwidth : (Space.kind space).unitLength r.dimension = .ok unitLength)
    {buffer : Buffer E} {ids : Array Int64} (hsome : buffer.data.size / unitLength ≠ 0)
    (hids : ids.size = buffer.data.size / unitLength) :
    newMap defaults space r buffer ids =
      (match Description.readFor (Space.kind space) r.description with
        | .error fault =>
          ⟨[.construct (Space.kind space)], .error (.unsupportedTopology r.description fault)⟩
        | .ok asked =>
          ⟨[.construct (Space.kind space), .tune (Space.kind space)],
            ((asked.settings defaults).tuned r.parameters).bind fun _ =>
              if asked.shape.hasLists then .error (.notTrained r.description)
              else
                .ok ⟨(tunedBlank defaults space r unitLength asked).filledWith buffer, ids⟩⟩) := by
  rw [newMap, Batch.withIds_eq hwidth, if_neg hsome, if_pos hids, Traced.quiet_ok_bind,
    construct_eq defaults space r hwidth]
  cases hread : Description.readFor (Space.kind space) r.description with
  | error fault => rfl
  | ok asked =>
      dsimp only
      cases htuned : (asked.settings defaults).tuned r.parameters with
      | error e => rfl
      | ok settings =>
          have hcounts := Description.takes_of_readFor hread
          have hvacant := tunedBlank_vacant (E := E) defaults space r hwidth hcounts
          have hsame := tunedBlank_sameWidth (E := E) defaults space r unitLength asked
          have htrained := tunedBlank_isTrained (E := E) defaults space r unitLength hcounts
          simp only [Except.map, Traced.mk_ok_bind, htrained]
          cases hlists : asked.shape.hasLists with
          | true => rfl
          | false =>
              rw [hlists] at htrained
              have hunit : (tunedBlank (E := E) defaults space r unitLength asked).unitLength =
                  unitLength := hsame.unitLength
              have hdimension : (tunedBlank (E := E) defaults space r unitLength asked).dimension =
                  r.dimension := hsame.dimension
              have hfill := fill_eq hvacant htrained (hunit.symm ▸ hsome) (hunit.symm ▸ hids)
              rw [hdimension, hunit] at hfill
              simp only [Bool.not_false, if_true, hfill]
              rfl

/-- What a new filled index was made of. -/
theorem of_newMap {buffer : Buffer E} {ids : Array Int64} {map : IdMap S E}
    (h : (newMap defaults space r buffer ids).outcome = .ok map) :
    ∃ unitLength asked settings,
      (Space.kind space).unitLength r.dimension = .ok unitLength ∧
      ids.size = buffer.data.size / unitLength ∧
      Description.readFor (Space.kind space) r.description = .ok asked ∧
      (asked.settings defaults).tuned r.parameters = .ok settings ∧
      asked.shape.hasLists = false ∧
      ⟨(tunedBlank defaults space r unitLength asked).filledWith buffer, ids⟩ = map := by
  obtain ⟨batch, hbatch, hrest⟩ := Traced.bind_outcome_eq_ok_iff.1 h
  have hwithIds : Batch.withIds (Space.kind space) buffer r.dimension ids.size = .ok batch := hbatch
  cases hwidth : (Space.kind space).unitLength r.dimension with
  | error fault =>
      rw [Batch.withIds_of_error hwidth] at hwithIds
      cases hwithIds
  | ok unitLength =>
      rw [Batch.withIds_eq hwidth, Except.ite_throw_eq_ok_iff] at hwithIds
      obtain ⟨hsome, hwithIds⟩ := hwithIds
      split at hwithIds
      · rename_i hids
        rw [newMap_eq defaults space r hwidth hsome hids] at h
        cases hread : Description.readFor (Space.kind space) r.description with
        | error fault =>
            rw [hread] at h
            cases h
        | ok asked =>
            rw [hread] at h
            obtain ⟨settings, htuned, hfilled⟩ := Except.bind_eq_ok_iff.1 h
            rw [Except.ite_throw_eq_ok_iff, Except.ok.injEq, Bool.not_eq_true] at hfilled
            exact ⟨unitLength, asked, settings, rfl, hids, rfl, htuned, hfilled⟩
      · cases hwithIds

section Kinds

variable (defaults : IndexDefaults) {r : IndexRequest} (ids : Array Int64) (path : String)

/-- Vectors of the kind of a space type are float ones under its metric, or binary
ones if it has none. -/
theorem cases_of_kind {vectors : HostVectors} (h : vectors.kind = r.spaceType.kind) :
    (∃ metric buffer, r.spaceType.metric? = some metric ∧ vectors = .float buffer) ∨
      ∃ buffer, r.spaceType.metric? = none ∧ vectors = .binary buffer := by
  rw [SpaceType.kind_eq] at h
  cases vectors with
  | float buffer =>
      cases hmetric : r.spaceType.metric? with
      | some metric => exact .inl ⟨metric, buffer, rfl, rfl⟩
      | none =>
          rw [hmetric] at h
          cases h
  | binary buffer =>
      cases hmetric : r.spaceType.metric? with
      | some metric =>
          rw [hmetric] at h
          cases h
      | none => exact .inr ⟨buffer, rfl, rfl⟩

/-- Float vectors are put into an index under the metric of the request. -/
theorem makeNew_float {metric : Metric} (h : r.spaceType.metric? = some metric)
    (buffer : Buffer Single) :
    makeNew defaults r (.float buffer) ids path = (do
      let map ← newMap defaults (FloatSpace.mk metric) r buffer ids
      return (.float (.mapped map), summarize path map buffer.ownership)) := by
  rw [makeNew.eq_def, h]

/-- Binary vectors are put into an index if the request has no metric. -/
theorem makeNew_binary (h : r.spaceType.metric? = none) (buffer : Buffer UInt8) :
    makeNew defaults r (.binary buffer) ids path = (do
      let map ← newMap defaults BinarySpace.mk r buffer ids
      return (.binary (.mapped map), summarize path map buffer.ownership)) := by
  rw [makeNew.eq_def, h]

/-- Vectors of the other kind are put nowhere. -/
theorem makeNew_other {vectors : HostVectors} (h : vectors.kind ≠ r.spaceType.kind) :
    makeNew defaults r vectors ids path = otherVectors r vectors := by
  obtain ⟨description, dimension, spaceType, parameters⟩ := r
  cases spaceType <;> cases vectors <;> first | rfl | exact absurd rfl h

end Kinds

/-! ## Templates -/

/-- **A template, filled.**  A consistent index without ids is refused if it holds
vectors, and then only a buffer that is no batch, or a missing training, can keep
it from being filled. -/
theorem filledMap_eq [Space.OneKind S] {index : Index S E} (h : index.Consistent)
    (buffer : Buffer E) (ids : Array Int64) :
    filledMap (.bare index) buffer ids =
      if index.total ≠ 0 then .error (.malformedTemplate (.notEmpty index.total))
      else if buffer.data.size / index.unitLength = 0 then .error .emptyInput
      else if ids.size ≠ buffer.data.size / index.unitLength then
        .error (.idCountMismatch ids.size (buffer.data.size / index.unitLength))
      else if index.isTrained then .ok ⟨index.filledWith buffer, ids⟩
      else .error .untrainedIndex := by
  by_cases hempty : index.total = 0
  · have htemplate : template (.bare index) = .ok index := if_pos hempty
    rw [filledMap, htemplate, if_neg (not_not_intro hempty)]
    show (Batch.withIds (Space.kind index.space) buffer index.dimension ids.size >>= fun batch =>
      fill index batch ids) = _
    rw [Batch.withIds_eq h.width]
    by_cases hnone : buffer.data.size / index.unitLength = 0
    · rw [if_pos hnone, if_pos hnone]
      rfl
    · rw [if_neg hnone, if_neg hnone]
      by_cases hids : ids.size = buffer.data.size / index.unitLength
      · rw [if_pos hids, if_neg (not_not_intro hids)]
        show fill index (Batch.cut buffer index.dimension index.unitLength) ids = _
        by_cases htrained : index.isTrained = true
        · rw [if_pos htrained, fill_eq (h.vacant hempty) htrained hnone hids]
        · have huntrained : index.isTrained = false := Bool.eq_false_iff.2 htrained
          rw [if_neg htrained, fill_eq_of_not_trained hempty rfl huntrained]
      · rw [if_neg hids, if_pos hids]
        rfl
  · have htemplate : template (.bare index) = .error (.notEmpty index.total) := if_neg hempty
    rw [filledMap, htemplate, if_pos hempty]
    rfl

/-- What a filled template was made of. -/
theorem of_filledMap [Space.OneKind S] {stored : Stored S E} (h : stored.Consistent)
    {buffer : Buffer E} {ids : Array Int64} {map : IdMap S E}
    (hfilled : filledMap stored buffer ids = .ok map) :
    ∃ index, stored = .bare index ∧ index.total = 0 ∧ index.isTrained = true ∧
      ids.size = buffer.data.size / index.unitLength ∧ ⟨index.filledWith buffer, ids⟩ = map := by
  cases stored with
  | mapped map => cases hfilled
  | bare index =>
      have hindex : index.Consistent := h
      simp only [filledMap_eq hindex, ne_eq, Except.ite_throw_eq_ok_iff, Decidable.not_not]
        at hfilled
      obtain ⟨hempty, -, hids, hfilled⟩ := hfilled
      split at hfilled
      · exact ⟨index, rfl, hempty, ‹_›, hids, Except.ok.inj hfilled⟩
      · cases hfilled

section Kinds

variable {template : List UInt8} (ids : Array Int64) (path : String)

/-- Float vectors are put into a float template. -/
theorem fillTemplate_float {stored : Stored FloatSpace Single}
    (h : Artifact.ofBytes template = .ok (.float stored)) (buffer : Buffer Single) :
    fillTemplate template (.float buffer) ids path = (do
      let map ← ⟨[.readTemplate], filledMap stored buffer ids⟩
      return (.float (.mapped map), summarize path map buffer.ownership)) := by
  have hread : readTemplate template = .ok (.float stored) := Except.mapError_eq_ok_iff.2 h
  rw [fillTemplate, hread, Traced.call_ok_bind]
  dsimp only
  cases filledMap stored buffer ids <;> rfl

/-- Binary vectors are put into a binary template. -/
theorem fillTemplate_binary {stored : Stored BinarySpace UInt8}
    (h : Artifact.ofBytes template = .ok (.binary stored)) (buffer : Buffer UInt8) :
    fillTemplate template (.binary buffer) ids path = (do
      let map ← ⟨[.readTemplate], filledMap stored buffer ids⟩
      return (.binary (.mapped map), summarize path map buffer.ownership)) := by
  have hread : readTemplate template = .ok (.binary stored) := Except.mapError_eq_ok_iff.2 h
  rw [fillTemplate, hread, Traced.call_ok_bind]
  dsimp only
  cases filledMap stored buffer ids <;> rfl

end Kinds

end Request

end Proximity

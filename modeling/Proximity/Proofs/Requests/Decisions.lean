import Proximity.Host.Engine
import Proximity.Proofs.Files
import Proximity.Proofs.Persistence
import Proximity.Proofs.Requests.Making

/-!
# What decides over a request

A request for an artifact goes through stages.  Each of them could stop it for
one reason, which is looked for here on its own, whatever the other stages say;
and each has calls that have been made when it is reached.  The stage that
counts is the first one that has a reason: the request fails for it, with the
calls made by then.  If no stage has a reason the request makes all its calls
and succeeds.

Behind this is that filling cannot fail once the checks before it passed, so
nothing but a lack of room can stop a request between the question whether the
index is trained and the write.

## Main results

* `Stage`, `Traced.Follows` — stages, and a step that goes through them.
* `Request.newStages`, `Request.templateStages` — what could stop a request.
* `Engine.build_follows`, `Engine.buildFromTemplate_follows` — a request goes
  through its stages.
-/

namespace Proximity

/-! ## Stages -/

/-- A stage of a request: the calls made when it is reached, and what would stop
the request there. -/
structure Stage where
  calls : List Call
  fault? : Option Error

/-- A stage at which something has to hold. -/
def Stage.check (calls : List Call) (holds : Bool) (failure : Error) : Stage :=
  ⟨calls, if holds then none else some failure⟩

/-- The first stage that stops a request: the calls made by then, and why. -/
def Stage.first? (stages : List Stage) : Option (List Call × Error) :=
  stages.findSome? fun stage => stage.fault?.map (stage.calls, ·)

/-- Stages that stop nothing leave it to the stages after them. -/
theorem Stage.first?_append (stages more : List Stage) :
    Stage.first? (stages ++ more) = (Stage.first? stages).or (Stage.first? more) :=
  List.findSome?_append

theorem Stage.first?_eq_none_iff {stages : List Stage} :
    Stage.first? stages = none ↔ ∀ stage ∈ stages, stage.fault? = none := by
  simp [first?]

/-- What stops a request stops it at a stage. -/
theorem Stage.of_first? {stages : List Stage} {stop : List Call × Error}
    (h : Stage.first? stages = some stop) :
    ∃ stage ∈ stages, stage.calls = stop.1 ∧ stage.fault? = some stop.2 := by
  obtain ⟨stage, hstage, hfault⟩ := List.exists_of_findSome?_eq_some h
  obtain ⟨failure, hfailure, rfl⟩ := Option.map_eq_some_iff.1 hfault
  exact ⟨stage, hstage, rfl, hfailure⟩

/-- A traced step goes through stages: it fails at the first one that stops it,
with the calls made by then, and otherwise makes all calls and has a result of
some kind. -/
def Traced.Follows {A : Type} (x : Traced A) (stages : List Stage) (calls : List Call)
    (result : A → Prop) : Prop :=
  match Stage.first? stages with
  | some (made, failure) => x = ⟨made, .error failure⟩
  | none => ∃ a, x = ⟨calls, .ok a⟩ ∧ result a

namespace Traced

variable {A B : Type} {x : Traced A} {stages : List Stage} {calls : List Call} {result : A → Prop}

@[simp] theorem follows_nil : x.Follows [] calls result ↔ ∃ a, x = ⟨calls, .ok a⟩ ∧ result a :=
  Iff.rfl

@[simp] theorem follows_cons_none (made : List Call) :
    x.Follows (⟨made, none⟩ :: stages) calls result ↔ x.Follows stages calls result := Iff.rfl

@[simp] theorem follows_cons_some (made : List Call) (failure : Error) :
    x.Follows (⟨made, some failure⟩ :: stages) calls result ↔ x = ⟨made, .error failure⟩ := Iff.rfl

@[simp] theorem follows_check_true (made : List Call) (failure : Error) :
    x.Follows (.check made true failure :: stages) calls result ↔ x.Follows stages calls result :=
  Iff.rfl

@[simp] theorem follows_check_false (made : List Call) (failure : Error) :
    x.Follows (.check made false failure :: stages) calls result ↔ x = ⟨made, .error failure⟩ :=
  Iff.rfl

/-- What is done with a result adds nothing to the stages. -/
theorem Follows.map {f : A → B} {image : B → Prop} (h : x.Follows stages calls result)
    (hf : ∀ a, result a → image (f a)) :
    (x >>= fun a => pure (f a)).Follows stages calls image := by
  rw [Follows] at h ⊢
  cases hfirst : Stage.first? stages with
  | some stop =>
      rw [hfirst] at h
      rw [show x = ⟨stop.1, .error stop.2⟩ from h]
      rfl
  | none =>
      rw [hfirst] at h
      obtain ⟨a, rfl, ha⟩ := h
      refine ⟨f a, ?_, hf a ha⟩
      rw [mk_ok_bind]
      exact congrArg (Traced.mk · _) (List.append_nil calls)

/-- A result of a step that goes through stages is of its kind. -/
theorem Follows.of_outcome (h : x.Follows stages calls result) {a : A} (ha : x.outcome = .ok a) :
    result a := by
  rw [Follows] at h
  split at h
  · rw [h] at ha
    cases ha
  · obtain ⟨b, rfl, hb⟩ := h
    exact Except.ok.inj ha ▸ hb

/-- Nothing stops a step that goes through stages and has a result. -/
theorem Follows.fault?_of_outcome (h : x.Follows stages calls result) {a : A}
    (ha : x.outcome = .ok a) : ∀ stage ∈ stages, stage.fault? = none := by
  rw [Follows] at h
  cases hfirst : Stage.first? stages with
  | some stop =>
      rw [hfirst] at h
      rw [show x = ⟨stop.1, .error stop.2⟩ from h] at ha
      cases ha
  | none => exact Stage.first?_eq_none_iff.1 hfirst

/-- The calls of a step that goes through stages are the first ones of all
calls. -/
theorem Follows.calls_isPrefix (h : x.Follows stages calls result)
    (hcalls : ∀ stage ∈ stages, stage.calls <+: calls) : x.calls <+: calls := by
  rw [Follows] at h
  cases hfirst : Stage.first? stages with
  | some stop =>
      rw [hfirst] at h
      obtain rfl : x = ⟨stop.1, .error stop.2⟩ := h
      obtain ⟨stage, hstage, hmade, -⟩ := Stage.of_first? hfirst
      exact hmade ▸ hcalls stage hstage
  | none =>
      rw [hfirst] at h
      obtain ⟨a, rfl, -⟩ := h
      exact List.prefix_rfl

/-- A call that is only made from the last stage on is made exactly if nothing
stops the step before that. -/
theorem Follows.mem_calls_iff {last : Stage} {c : Call}
    (h : x.Follows (stages ++ [last]) calls result) (hstages : ∀ stage ∈ stages, c ∉ stage.calls)
    (hlast : c ∈ last.calls) (hcalls : c ∈ calls) :
    c ∈ x.calls ↔ ∀ stage ∈ stages, stage.fault? = none := by
  rw [Follows, Stage.first?_append] at h
  rw [← Stage.first?_eq_none_iff]
  cases hfirst : Stage.first? stages with
  | some stop =>
      rw [hfirst] at h
      obtain rfl : x = ⟨stop.1, .error stop.2⟩ := h
      obtain ⟨stage, hstage, hmade, -⟩ := Stage.of_first? hfirst
      have hnot : c ∉ stop.1 := hmade ▸ hstages stage hstage
      simp [hnot]
  | none =>
      rw [hfirst, Option.none_or] at h
      simp only [iff_true]
      cases hwrite : Stage.first? [last] with
      | some stop =>
          rw [hwrite] at h
          obtain rfl : x = ⟨stop.1, .error stop.2⟩ := h
          obtain ⟨stage, hstage, hmade, -⟩ := Stage.of_first? hwrite
          obtain rfl := List.mem_singleton.1 hstage
          exact hmade ▸ hlast
      | none =>
          rw [hwrite] at h
          obtain ⟨a, rfl, -⟩ := h
          exact hcalls

end Traced

/-! ## What could stop a request -/

/-- What a computation fails with. -/
def fault? {F A : Type} : Except F A → Option F
  | .ok _ => none
  | .error fault => some fault

/-- The number of elements. -/
def HostVectors.size : HostVectors → Nat
  | .float buffer => buffer.data.size
  | .binary buffer => buffer.data.size

/-- How many whole vectors some elements hold.  A dimension that no vector has
gives none. -/
def Kind.wholeVectors (kind : Kind) (dimension elements : Nat) : Nat :=
  match kind.unitLength dimension with
  | .ok unitLength => elements / unitLength
  | .error _ => 0

namespace Request

/-- A batch holds a vector, and there is an id for each. -/
def batchStages (calls : List Call) (count ids : Nat) : List Stage :=
  [.check calls (count ≠ 0) .emptyInput, .check calls (ids = count) (.idCountMismatch ids count)]

/-- The description that a request spells. -/
def asked (r : IndexRequest) : Except DescriptionFault Description :=
  Description.readFor r.spaceType.kind r.description

/-- An index is described, tuned and needs no training. -/
def indexStages (defaults : IndexDefaults) (r : IndexRequest) : List Stage :=
  let kind := r.spaceType.kind
  [⟨[.construct kind], (fault? (asked r)).map (.unsupportedTopology r.description)⟩,
    ⟨[.construct kind, .tune kind],
      ((asked r).toOption.bind fun asked => (asked.settings defaults).refused? r.parameters).map
        fun refused => .invalidParameter refused.1 refused.2⟩,
    .check [.construct kind, .tune kind] (!(asked r).toOption.any (·.shape.hasLists))
      (.notTrained r.description)]

/-- What could stop a request for a new artifact before it is written: vectors of
the other kind, the dimension, the number of vectors, the number of ids, the
description, the parameters, and a missing training. -/
def newStages (defaults : IndexDefaults) (r : IndexRequest) (vectors : HostVectors) (ids : Nat) :
    List Stage :=
  let kind := r.spaceType.kind
  [.check [] (vectors.kind = kind)
      (.unsupportedTopology r.description (.otherVectors r.spaceType vectors.kind)),
    ⟨[], (fault? (kind.unitLength r.dimension)).map .invalidDimension⟩] ++
  batchStages [] (kind.wholeVectors r.dimension vectors.size) ids ++
  indexStages defaults r

/-- Why some bytes are no template for vectors of some kind. -/
def templateFault? (template : List UInt8) (kind : Kind) : Option TemplateFault :=
  match Artifact.ofBytes template with
  | .error fault => some (.format fault)
  | .ok a =>
    if a.kind ≠ kind then some (.otherKind a.kind kind)
    else if a.ids?.isSome then some .hasIds
    else if a.total ≠ 0 then some (.notEmpty a.total)
    else none

/-- What could stop a request to fill a template before it is written: the
template, the number of vectors, the number of ids, and a missing training. -/
def templateStages (template : List UInt8) (vectors : HostVectors) (ids : Nat) : List Stage :=
  let held? := (Artifact.ofBytes template).toOption
  [⟨[.readTemplate], (templateFault? template vectors.kind).map .malformedTemplate⟩] ++
  batchStages [.readTemplate]
    (held?.elim 0 fun held => held.kind.wholeVectors held.dimension vectors.size) ids ++
  [.check [.readTemplate] (held?.all (·.isTrained)) .untrainedIndex]

/-! ## Making -/

section Space

variable {S E : Type} [Space S E] (defaults : IndexDefaults) {space : S} {r : IndexRequest}
  (buffer : Buffer E) (ids : Array Int64)

theorem newMap_follows (hkind : Space.kind space = r.spaceType.kind) :
    (newMap defaults space r buffer ids).Follows
      (⟨[], (fault? (r.spaceType.kind.unitLength r.dimension)).map .invalidDimension⟩ ::
        (batchStages [] (r.spaceType.kind.wholeVectors r.dimension buffer.data.size) ids.size ++
          indexStages defaults r))
      [.construct r.spaceType.kind, .tune r.spaceType.kind] (·.ids = ids) := by
  have hasked : asked r = Description.readFor (Space.kind space) r.description :=
    congrArg (Description.readFor · r.description) hkind.symm
  rw [indexStages, hasked, ← hkind]
  cases hwidth : (Space.kind space).unitLength r.dimension with
  | error fault =>
      rw [newMap_of_error defaults space r (Batch.withIds_of_error hwidth buffer ids.size)]
      rfl
  | ok unitLength =>
      simp only [fault?, Option.map_none, Traced.follows_cons_none, batchStages,
        Kind.wholeVectors, hwidth]
      have hbatch := Batch.withIds_eq hwidth buffer ids.size
      by_cases hnone : buffer.data.size / unitLength = 0
      · rw [if_pos hnone] at hbatch
        rw [newMap_of_error defaults space r hbatch]
        simp [hnone, Traced.quiet]
      · by_cases hids : ids.size = buffer.data.size / unitLength
        · rw [newMap_eq defaults space r hwidth hnone hids]
          cases hread : Description.readFor (Space.kind space) r.description with
          | error fault => simp [hnone, hids]
          | ok description =>
              cases htuned : (description.settings defaults).tuned r.parameters with
              | error e =>
                  have hrefused := Settings.refused?_of_error htuned
                  simp [hnone, hids, htuned, Except.toOption, hrefused, Except.bind]
              | ok settings =>
                  have hrefused := Settings.refused?_of_ok htuned
                  cases hlists : description.shape.hasLists
                  all_goals simp [hnone, hids, htuned, Except.toOption, hrefused, Except.bind,
                    hlists]
        · rw [if_neg hnone, if_neg hids] at hbatch
          rw [newMap_of_error defaults space r hbatch]
          simp [hnone, hids, Traced.quiet]

/-- A stored index that is no template. -/
def storedFault? (stored : Stored S E) : Option TemplateFault :=
  if stored.ids?.isSome then some .hasIds
  else if stored.index.total ≠ 0 then some (.notEmpty stored.index.total)
  else none

/-- A consistent stored index is filled unless it is no template, the batch is
wrong, or it has to be trained. -/
theorem filledMap_follows [Space.OneKind S] {stored : Stored S E} (h : stored.Consistent)
    (calls : List Call) :
    (⟨calls, filledMap stored buffer ids⟩ : Traced (IdMap S E)).Follows
      (⟨calls, (storedFault? stored).map .malformedTemplate⟩ ::
        (batchStages calls ((Space.kind stored.index.space).wholeVectors stored.index.dimension
          buffer.data.size) ids.size ++ [.check calls stored.index.isTrained .untrainedIndex]))
      calls (·.ids = ids) := by
  cases stored with
  | mapped map => rfl
  | bare index =>
      have hindex : index.Consistent := h
      have hcount : (Space.kind index.space).wholeVectors index.dimension buffer.data.size =
          buffer.data.size / index.unitLength := by
        rw [Kind.wholeVectors, hindex.width]
      have hbare : storedFault? (.bare index) =
          if index.total ≠ 0 then some (.notEmpty index.total) else none := rfl
      rw [filledMap_eq hindex, hbare]
      dsimp only [Stored.index]
      rw [hcount, batchStages]
      by_cases hempty : index.total ≠ 0
      · simp [hempty]
      · by_cases hnone : buffer.data.size / index.unitLength = 0
        · simp [hempty, hnone]
        · by_cases hids : ids.size = buffer.data.size / index.unitLength
          · cases htrained : index.isTrained with
            | true => simp [hempty, hnone, hids]
            | false => simp [hempty, hnone, hids]
          · simp [hempty, hnone, hids]

end Space

/-! ## Requests -/

variable (defaults : IndexDefaults) (r : IndexRequest) (template : List UInt8)
  (vectors : HostVectors) (ids : Array Int64) (path : String)

/-- What was made is for a path and has an id for each vector. -/
def MadeFor (made : Artifact × Summary) : Prop :=
  made.2.path = path ∧ made.2.total = ids.size

theorem makeNew_follows :
    (makeNew defaults r vectors ids path).Follows (newStages defaults r vectors ids.size)
      [.construct r.spaceType.kind, .tune r.spaceType.kind] (MadeFor ids path) := by
  by_cases hkind : vectors.kind = r.spaceType.kind
  · simp only [newStages, hkind, decide_true, List.cons_append, List.nil_append,
      Traced.follows_check_true]
    rcases cases_of_kind hkind with ⟨metric, buffer, hmetric, rfl⟩ | ⟨buffer, hmetric, rfl⟩
    · rw [makeNew_float defaults ids path hmetric]
      refine (newMap_follows defaults buffer ids ?_).map fun map hids =>
        ⟨rfl, congrArg Array.size hids⟩
      rw [FloatSpace.kind_eq]
      exact hkind
    · rw [makeNew_binary defaults ids path hmetric]
      refine (newMap_follows defaults buffer ids ?_).map fun map hids =>
        ⟨rfl, congrArg Array.size hids⟩
      exact hkind
  · rw [makeNew_other defaults ids path hkind]
    simp [newStages, hkind, otherVectors, Traced.quiet]

theorem fillTemplate_follows :
    (fillTemplate template vectors ids path).Follows (templateStages template vectors ids.size)
      [.readTemplate] (MadeFor ids path) := by
  cases hread : Artifact.ofBytes template with
  | error fault =>
      have hrefused : readTemplate template = .error (.malformedTemplate (.format fault)) := by
        rw [readTemplate, hread]
        rfl
      rw [fillTemplate, hrefused, templateStages, templateFault?, hread]
      rfl
  | ok a =>
      have hconsistent := (Artifact.of_ofBytes hread).1
      have hdecoded : readTemplate template = .ok a := Except.mapError_eq_ok_iff.2 hread
      rw [templateStages, templateFault?, hread]
      cases a with
      | float stored =>
          cases vectors with
          | float buffer =>
              have hstored : stored.Consistent := hconsistent
              have hfilled := filledMap_follows buffer ids hstored [.readTemplate]
              rw [FloatSpace.kind_eq] at hfilled
              rw [fillTemplate_float ids path hread]
              exact hfilled.map fun map hids => ⟨rfl, congrArg Array.size hids⟩
          | binary buffer =>
              rw [fillTemplate, hdecoded]
              rfl
      | binary stored =>
          cases vectors with
          | float buffer =>
              rw [fillTemplate, hdecoded]
              rfl
          | binary buffer =>
              have hstored : stored.Consistent := hconsistent
              have hfilled := filledMap_follows buffer ids hstored [.readTemplate]
              rw [fillTemplate_binary ids path hread]
              exact hfilled.map fun map hids => ⟨rfl, congrArg Array.size hids⟩

end Request

namespace Engine

/-! ## Storing -/

/-- The stage at which an artifact is written. -/
def writeStage (e : Engine) (files : FileTree) (path : String) (refused : Option WriteStage)
    (calls : List Call) : Stage :=
  ⟨calls ++ [.write e.config.syncWrites],
    (files.failsAt? path e.config.syncWrites refused).map .persistence⟩

/-- What was made is written, under its calls. -/
theorem storeMade_of_ok (e : Engine) (files : FileTree) {made : Traced (Artifact × Summary)}
    {a : Artifact} {summary : Summary} (h : made.outcome = .ok (a, summary))
    (refused : Option WriteStage) :
    e.storeMade files made refused =
      ((files.store summary.path a.toBytes e.config.syncWrites refused).1,
        ⟨made.calls ++ [.write e.config.syncWrites],
          (files.store summary.path a.toBytes e.config.syncWrites refused).2.map fun _ =>
            summary⟩) := by
  rw [storeMade, h]

/-- What was not made is not written. -/
theorem storeMade_of_error (e : Engine) (files : FileTree) {made : Traced (Artifact × Summary)}
    {failure : Error} (h : made.outcome = .error failure) (refused : Option WriteStage) :
    e.storeMade files made refused = (files, ⟨made.calls, .error failure⟩) := by
  rw [storeMade, h]

/-- An artifact that was made goes through the stage at which it is written. -/
theorem storeMade_follows (e : Engine) (files : FileTree) {made : Traced (Artifact × Summary)}
    {stages : List Stage} {calls : List Call} {ids : Array Int64} {path : String}
    (h : made.Follows stages calls (Request.MadeFor ids path)) (refused : Option WriteStage) :
    (e.storeMade files made refused).2.Follows (stages ++ [e.writeStage files path refused calls])
      (calls ++ [.write e.config.syncWrites]) fun s => s.path = path ∧ s.total = ids.size := by
  rw [Traced.Follows] at h ⊢
  rw [Stage.first?_append]
  cases hfirst : Stage.first? stages with
  | some stop =>
      rw [hfirst] at h
      obtain rfl : made = ⟨stop.1, .error stop.2⟩ := h
      rw [storeMade_of_error e files rfl]
      rfl
  | none =>
      rw [hfirst] at h
      obtain ⟨⟨a, summary⟩, rfl, rfl, hids⟩ := h
      rw [storeMade_of_ok e files rfl, FileTree.store_outcome_eq]
      dsimp only [writeStage]
      cases files.failsAt? summary.path e.config.syncWrites refused with
      | some failed => rfl
      | none => exact ⟨summary, rfl, rfl, hids⟩

/-- The stage at which a call gets its workers. -/
def workersStage (e : Engine) (threads : Nat) (refused : Option String) : Stage :=
  ⟨[], fault? (e.workers threads refused).2⟩

/-- Nothing is amiss with the workers of a machine that refuses none. -/
theorem workersStage_none (e : Engine) (threads : Nat) :
    (e.workersStage threads none).fault? = none := by
  have hgot : ∀ (c : PoolCache) (hint : Nat), fault? (c.request hint none).2 = none := by
    intro c hint
    rw [PoolCache.request]
    split <;> rfl
  exact hgot e.pools _

/-- What is made on workers is made if they were got. -/
theorem onWorkers_of_fault? {A : Type} {workers : Except Error Workers} (h : fault? workers = none)
    (make : Traced A) : onWorkers workers make = make := by
  cases workers with
  | error failure => cases h
  | ok workers => rfl

/-- What was made on workers was made once they were got. -/
theorem outcome_of_onWorkers {A : Type} {workers : Except Error Workers} {make : Traced A} {a : A}
    (h : (onWorkers workers make).outcome = .ok a) : make.outcome = .ok a := by
  obtain ⟨_, -, hmade⟩ := Traced.bind_outcome_eq_ok_iff.1 h
  exact hmade

/-- What is made on workers goes through the stage at which they are got. -/
theorem onWorkers_follows {A : Type} {workers : Except Error Workers} {make : Traced A}
    {stages : List Stage} {calls : List Call} {result : A → Prop}
    (h : make.Follows stages calls result) :
    (onWorkers workers make).Follows (⟨[], fault? workers⟩ :: stages) calls result := by
  cases workers with
  | error failure => rfl
  | ok workers => exact h

/-- A request for a new artifact gets its workers, goes through the stages of what is made,
and writes it. -/
theorem build_follows (e : Engine) (files : FileTree) (r : IndexRequest) (vectors : HostVectors)
    (ids : Array Int64) (path : String) (threads : Nat) (refused : Refused) :
    (e.build files r vectors ids path threads refused).2.2.Follows
      (e.workersStage threads refused.workers ::
          Request.newStages e.config.indexes r vectors ids.size ++
        [e.writeStage files path refused.write
          [.construct r.spaceType.kind, .tune r.spaceType.kind]])
      ([.construct r.spaceType.kind, .tune r.spaceType.kind] ++ [.write e.config.syncWrites])
      (fun s => s.path = path ∧ s.total = ids.size) :=
  (e.workers threads refused.workers).1.storeMade_follows files
    (onWorkers_follows (Request.makeNew_follows e.config.indexes r vectors ids path)) refused.write

/-- So does a request to fill a template. -/
theorem buildFromTemplate_follows (e : Engine) (files : FileTree) (template : List UInt8)
    (vectors : HostVectors) (ids : Array Int64) (path : String) (threads : Nat)
    (refused : Refused) :
    (e.buildFromTemplate files template vectors ids path threads refused).2.2.Follows
      (e.workersStage threads refused.workers ::
          Request.templateStages template vectors ids.size ++
        [e.writeStage files path refused.write [.readTemplate]])
      ([.readTemplate] ++ [.write e.config.syncWrites])
      (fun s => s.path = path ∧ s.total = ids.size) :=
  (e.workers threads refused.workers).1.storeMade_follows files
    (onWorkers_follows (Request.fillTemplate_follows template vectors ids path)) refused.write

end Engine

end Proximity

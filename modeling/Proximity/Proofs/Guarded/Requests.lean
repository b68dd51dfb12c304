import Proximity.Guarded.Requests
import Proximity.Proofs.AllOrNothing
import Proximity.Proofs.Requests.Durability

/-!
# When guarded requests answer

A request comes to two places where a machine may lack room.  The lists of an inverted file
are made before anything else is known of the index, so there has to be room for them as
soon as the description is read.  The vectors are put into the index last of all, after
everything that could stop the request has been looked at, so room for them matters only if
nothing does.

Whatever a request answers is what it answers on a machine that lacks no room.

## Main definitions

* `Shape.roomForLists`, `Request.roomToConstruct`, `Request.roomToMake`,
  `Request.roomToFill` — room for the parts of a request.
* `Artifact.canSearch`, `Artifact.canSearchRange` — room to search what is loaded.

## Main results

* `IndexDefaults.build?_agrees`, `Request.makeNew?_agrees`, `Request.fillTemplate?_agrees` —
  what a request makes.
* `Engine.build?_agrees`, `Engine.buildFromTemplate?_agrees`, `Engine.train?_agrees` — requests.
* `Engine.query?_agrees`, `Engine.queryRange?_agrees` — queries.
* `Engine.build_decided` — what decides over a request.
-/

namespace Proximity

variable {A B S E : Type}

open Guarded

/-! ## Steps -/

/-- What is gone on with has to agree only from a result. -/
theorem Guarded.goOn?_agrees {F : Type} {room : Prop} {x : Except F A}
    {f? : A → Option (Except F B)} {f : A → Except F B}
    (h : ∀ a, x = .ok a → Agrees room (f? a) (f a)) : Agrees room (goOn? x f?) (x >>= f) := by
  cases x with
  | error e => exact .some _ _
  | ok a => exact h a rfl

/-- So has a second step. -/
theorem Traced.andThen?_agrees {room : Prop} {x : Traced A} {f? : A → Option (Traced B)}
    {f : A → Traced B} (h : ∀ a, x.outcome = .ok a → Agrees room (f? a) (f a)) :
    Agrees room (x.andThen? f?) (x >>= f) := by
  obtain ⟨calls, outcome⟩ := x
  cases outcome with
  | error e => exact .some _ _
  | ok a => exact (h a rfl).map _

/-- What is made of a result is made exactly if there is one, so it needs no room of its own. -/
theorem Traced.made_agrees {lists rest : Prop} {x? : Option (Traced A)} {x : Traced A}
    (h : Agrees (lists ∧ ((∃ a, x.outcome = .ok a) → rest)) x? x) (f : A → B) :
    Agrees (lists ∧ ((∃ b, (x >>= fun a => pure (f a)).outcome = .ok b) → rest))
      (x?.map (· >>= fun a => pure (f a))) (x >>= fun a => pure (f a)) := by
  refine (h.mono fun hroom => ⟨hroom.1, fun hresult => hroom.2 ?_⟩).map _
  obtain ⟨a, ha⟩ := hresult
  exact ⟨f a, Traced.bind_outcome_eq_ok_iff.2 ⟨a, ha, rfl⟩⟩

/-! ## Constructions -/

/-- Whether there is room for the lists of an index. -/
def Shape.roomForLists (machine : Machine) : Shape → Bool
  | .flat | .graph _ => true
  | .invertedFile lists _ => machine.grantsLists lists

section Construction

variable [Space S E] {machine : Machine}

theorem Index.invertedFileOver?_agrees (quantizer : Index S E) (listCount : Nat)
    (clustering : ClusteringSettings) :
    Agrees (machine.grantsLists listCount = true)
      (Index.invertedFileOver? machine quantizer listCount clustering)
      (Index.invertedFileOver quantizer listCount clustering) := by
  have hgranted : Agrees (machine.grantsLists listCount = true)
      (need (machine.grantsLists listCount = true)) () := ⟨fun _ _ => rfl, need_eq⟩
  have hagrees := goOn?_agrees (x := Index.invertedFileOver quantizer listCount clustering)
    (f := pure) fun index _ => hgranted.map fun _ => (.ok index : Except Error (Index S E))
  rwa [bind_pure] at hagrees

namespace IndexDefaults

variable (d : IndexDefaults) (space : S) (dimension : Nat)

theorem shapeIndex?_agrees (shape : Shape) :
    Agrees (shape.roomForLists machine = true)
      (d.shapeIndex? (E := E) machine space dimension shape)
      (d.shapeIndex space dimension shape) := by
  cases shape with
  | flat => exact .some _ _
  | graph degree => exact .some _ _
  | invertedFile lists quantizerDegree =>
      have htotal : d.shapeIndex (E := E) space dimension (.invertedFile lists quantizerDegree) =
          d.quantizerIndex space dimension quantizerDegree >>= fun quantizer =>
            Index.invertedFileOver quantizer lists d.clustering := by
        cases quantizerDegree <;> rfl
      rw [shapeIndex?, htotal]
      exact goOn?_agrees fun quantizer _ =>
        Index.invertedFileOver?_agrees quantizer lists d.clustering

theorem describedIndex?_agrees (asked : Description) :
    Agrees (asked.shape.roomForLists machine = true)
      (d.describedIndex? (E := E) machine space dimension asked)
      (d.describedIndex space dimension asked) :=
  (d.shapeIndex?_agrees space dimension asked.shape).map _

/-- A construction answers if there is room for the lists that the description asks for. -/
theorem build?_agrees (text : String) :
    Agrees ((Description.readFor (Space.kind space) text).toOption.all
        (·.shape.roomForLists machine) = true)
      (d.build? (E := E) machine space dimension text) (d.build space dimension text) := by
  refine goOn?_agrees fun unitLength _ => goOn?_agrees fun asked hread => ?_
  have hread : Description.read text = .ok asked := Except.mapError_eq_ok_iff.1 hread
  by_cases hkind : asked.kind = Space.kind space
  · have hreadFor : Description.readFor (Space.kind space) text = .ok asked :=
      Description.readFor_eq_ok_iff.2 ⟨hread, hkind⟩
    rw [hreadFor, if_neg (not_not_intro hkind), if_neg (not_not_intro hkind)]
    exact d.describedIndex?_agrees space dimension asked
  · rw [if_pos hkind, if_pos hkind]
    exact .some _ _

end IndexDefaults

end Construction

/-! ## Blank indexes -/

namespace IndexDefaults

variable [Space S E] {d : IndexDefaults} {space : S} {dimension unitLength : Nat}

private theorem blankShape_consistent
    (hwidth : (Space.kind space).unitLength dimension = .ok unitLength) {shape : Shape}
    (hcounts : shape.Each CountRole.Takes) :
    (d.blankShape (E := E) space dimension unitLength shape).Consistent := by
  have hempty : (⟨space, dimension, unitLength, #[]⟩ : Flat S E).Consistent :=
    Index.empty_consistent hwidth
  have hnone : (⟨space, dimension, unitLength, #[]⟩ : Flat S E).total = 0 := Nat.zero_div _
  have hgraph : ∀ degree, 2 ≤ degree →
      (d.blankGraph (E := E) space dimension unitLength degree).Consistent := fun degree hdegree =>
    ⟨hempty, hdegree, Nat.ne_of_gt (Nat.le_max_right _ 1), Nat.ne_of_gt (Nat.le_max_right _ 1),
      hnone.symm ▸ Links.empty_consistent⟩
  have hlists : ∀ lists centroids, 1 ≤ lists → centroids = 0 →
      (InvertedFile.empty (E := E) space dimension unitLength lists
        d.clustering).Consistent centroids := fun lists centroids hpos hzero =>
    hzero ▸ Index.emptyLists_consistent (Nat.ne_of_gt hpos)
  cases shape with
  | flat => exact hempty
  | graph degree => exact hgraph degree hcounts.1
  | invertedFile lists quantizerDegree =>
      cases quantizerDegree with
      | none => exact ⟨hempty, rfl, rfl, hlists lists _ hcounts.1.1 hnone⟩
      | some degree =>
          exact ⟨hgraph degree (hcounts.2 degree rfl).1, rfl, rfl,
            hlists lists _ hcounts.1.1 hnone⟩

/-- A blank index is consistent. -/
theorem blank_consistent (hwidth : (Space.kind space).unitLength dimension = .ok unitLength)
    {asked : Description} (hcounts : asked.shape.Each CountRole.Takes) :
    (d.blank (E := E) space dimension unitLength asked).Consistent := by
  have hshape := blankShape_consistent (d := d) (E := E) hwidth hcounts
  have hunit := (blankShape_sameWidth (E := E) d space dimension unitLength asked.shape).unitLength
  have htotal := (blankShape_holds (E := E) d space dimension (Kind.unitLength_bounds hwidth).1
    hcounts).total
  rw [blank]
  split
  · refine ⟨hshape, Index.empty_consistent hwidth, hunit.symm, ?_, by decide, by decide⟩
    rw [htotal]
    exact Nat.zero_div _
  · exact hshape

end IndexDefaults

namespace Request

/-! ## Room -/

/-- Whether there is room for the lists of an index that is asked for. -/
def roomToConstruct (machine : Machine) (r : IndexRequest) : Bool :=
  (asked r).toOption.all (·.shape.roomForLists machine)

/-- Whether there is room for so many vectors in an index that is asked for, as it is tuned. -/
def roomToMake (machine : Machine) (defaults : IndexDefaults) (r : IndexRequest) (count : Nat) :
    Bool :=
  ((asked r).toOption.bind fun asked =>
    ((asked.settings defaults).tuned r.parameters).toOption).all (·.roomToAppend machine 0 count)

/-- Whether there is room for the centroids of an index that is asked for, as it is tuned. -/
def roomToTeach (machine : Machine) (defaults : IndexDefaults) (r : IndexRequest) : Bool :=
  ((asked r).toOption.bind fun asked =>
    ((asked.settings defaults).tuned r.parameters).toOption).all (·.roomToTrain machine)

/-- Whether there is room for so many vectors in a template. -/
def roomToFill (machine : Machine) (template : List UInt8) (count : Nat) : Bool :=
  (Artifact.ofBytes template).toOption.all (·.settings.roomToAppend machine 0 count)

section Space

variable [Space S E] {machine : Machine}

/-! ## Making -/

/-- An empty index is filled by an append to a map without ids. -/
private theorem fill_of_empty {index : Index S E} (hempty : index.total = 0) (batch : Batch E)
    (ids : Array Int64) :
    fill index batch ids =
      ((⟨index, #[]⟩ : IdMap S E).appendBatch batch ids).2.map fun _ =>
        ((⟨index, #[]⟩ : IdMap S E).appendBatch batch ids).1 := by
  have hwrap : IdMap.wrap index = .ok ⟨index, #[]⟩ := IdMap.wrap_eq_ok_iff.2 ⟨hempty, rfl⟩
  rw [fill, hwrap]
  dsimp only [bind, Except.bind]
  cases (⟨index, #[]⟩ : IdMap S E).appendBatch batch ids with
  | mk map outcome => cases outcome <;> rfl

/-- A consistent index is filled if it is refused or there is room for a vector to each id. -/
theorem fill?_agrees {index : Index S E} (h : index.Consistent) (batch : Batch E)
    (ids : Array Int64) :
    Agrees ((∃ map, fill index batch ids = .ok map) →
        index.settings.roomToAppend machine 0 ids.size = true)
      (fill? machine index batch ids) (fill index batch ids) := by
  cases hwrap : IdMap.wrap index with
  | error e =>
      rw [fill?, fill, hwrap]
      exact .some _ _
  | ok map =>
      obtain ⟨hempty, rfl⟩ := IdMap.wrap_eq_ok_iff.1 hwrap
      rw [fill?, hwrap, fill_of_empty hempty]
      have hmap : (⟨index, #[]⟩ : IdMap S E).index.Consistent := h
      refine ((IdMap.appendBatch?_agrees machine hmap batch ids).mono fun hroom haccepted => ?_).map
        fun r : IdMap S E × Except Error Unit => r.2.map fun _ => r.1
      have hcan := ((IdMap.appendBatch_allOrNothing (m := ⟨index, #[]⟩) h.aligned batch
        ids).accepted.1 haccepted).2
      show index.settings.roomToAppend machine index.total _ = true
      rw [hempty, ← hcan.ids]
      exact hroom ⟨_, congrArg (Except.map _) haccepted⟩

variable (defaults : IndexDefaults) (space : S) (r : IndexRequest)

/-- An index is constructed if there is room for its lists. -/
theorem construct?_agrees (hkind : Space.kind space = r.spaceType.kind) :
    Agrees (roomToConstruct machine r = true) (construct? (E := E) machine defaults space r)
      (construct defaults space r) := by
  rw [roomToConstruct, asked, ← hkind]
  exact (defaults.build?_agrees space r.dimension r.description).bind (.some _ _)

/-- What was constructed is consistent, and room for what was asked for is room in it. -/
theorem of_constructed (machine : Machine) (hkind : Space.kind space = r.spaceType.kind)
    {index : Index S E} (h : (construct defaults space r).outcome = .ok index) :
    index.Consistent ∧
      (∀ count, roomToMake machine defaults r count =
        index.settings.roomToAppend machine 0 count) ∧
      roomToTeach machine defaults r = index.settings.roomToTrain machine := by
  obtain ⟨built, hbuilt, -⟩ := Traced.bind_outcome_eq_ok_iff.1 h
  have hbuilt : defaults.build space r.dimension r.description = .ok built := hbuilt
  obtain ⟨unitLength, hwidth, -⟩ := Except.bind_eq_ok_iff.1 hbuilt
  have hwidth := Kind.width_eq_ok_iff.1 hwidth
  obtain ⟨description, settings, hread, htuned, rfl⟩ := of_construct defaults space r hwidth h
  have hasked : asked r = .ok description :=
    (congrArg (Description.readFor · r.description) hkind.symm).trans hread
  have hsettings : (tunedBlank (E := E) defaults space r unitLength description).settings =
      settings := tunedBlank_settings htuned
  refine ⟨(IndexDefaults.blank_consistent hwidth (Description.takes_of_readFor hread)).tune _,
    fun count => ?_, ?_⟩
  · rw [roomToMake, hasked, hsettings]
    simp [Except.toOption, htuned]
  · rw [roomToTeach, hasked, hsettings]
    simp [Except.toOption, htuned]

/-- A new index is made if there is room for its lists, and for a vector to each id unless it
is refused. -/
theorem newMap?_agrees (hkind : Space.kind space = r.spaceType.kind) (buffer : Buffer E)
    (ids : Array Int64) :
    Agrees (roomToConstruct machine r = true ∧
        ((∃ map, (newMap defaults space r buffer ids).outcome = .ok map) →
          roomToMake machine defaults r ids.size = true))
      (newMap? machine defaults space r buffer ids) (newMap defaults space r buffer ids) := by
  refine Traced.andThen?_agrees fun batch hbatch => ?_
  refine ((construct?_agrees defaults space r hkind).mono fun hroom => hroom.1).bind
    (Traced.andThen?_agrees fun index hindex => ?_)
  obtain ⟨hconsistent, hmake, -⟩ := of_constructed defaults space r machine hkind hindex
  split
  · rename_i htrained
    refine ((fill?_agrees hconsistent batch ids).mono fun hroom hfilled => ?_).map _
    obtain ⟨map, hfilled⟩ := hfilled
    rw [← hmake]
    refine hroom.2 ⟨map, Traced.bind_outcome_eq_ok_iff.2 ⟨batch, hbatch, ?_⟩⟩
    refine Traced.bind_outcome_eq_ok_iff.2 ⟨index, hindex, ?_⟩
    rw [if_pos htrained]
    exact hfilled
  · exact .some _ _

/-- An index is trained if there is room for its lists, and for its centroids unless it is
refused. -/
theorem trainedIndex?_agrees [Space.GuardsCentroid S] [Space.KeepsWidth S]
    (hkind : Space.kind space = r.spaceType.kind) (buffer : Buffer E) :
    Agrees (roomToConstruct machine r = true ∧
        ((∃ index, (trainedIndex defaults space r buffer).outcome = .ok index) →
          roomToTeach machine defaults r = true))
      (trainedIndex? machine defaults space r buffer) (trainedIndex defaults space r buffer) := by
  refine Traced.andThen?_agrees fun batch hbatch => ?_
  refine ((construct?_agrees defaults space r hkind).mono fun hroom => hroom.1).bind
    (Traced.andThen?_agrees fun index hindex => ?_)
  obtain ⟨hconsistent, -, hteach⟩ := of_constructed defaults space r machine hkind hindex
  have htrained : Agrees (roomToConstruct machine r = true ∧
      ((∃ index, (trainedIndex defaults space r buffer).outcome = .ok index) →
        roomToTeach machine defaults r = true))
      (index.train? machine batch.whole) (index.train batch.whole) := by
    refine (Index.train?_agrees machine hconsistent batch.whole).mono fun hroom haccepted => ?_
    have hmade : (trainedIndex defaults space r buffer).outcome =
        .ok (index.train batch.whole).1 := by
      refine Traced.bind_outcome_eq_ok_iff.2 ⟨batch, hbatch, ?_⟩
      refine Traced.bind_outcome_eq_ok_iff.2 ⟨index, hindex, ?_⟩
      exact Traced.bind_outcome_eq_ok_iff.2 ⟨(), haccepted, rfl⟩
    rw [Index.canTrain, ← hteach, hroom.2 ⟨_, hmade⟩, Bool.or_true]
  have htotal : (Traced.quiet (index.train batch.whole).2 >>= fun _ =>
      (pure (index.train batch.whole).1 : Traced (Index S E))) =
        Traced.quiet ((index.train batch.whole).2.map fun _ => (index.train batch.whole).1) := by
    cases (index.train batch.whole).2 <;> rfl
  refine Eq.subst (motive := Agrees _ _) htotal.symm ?_
  exact htrained.map fun trained => Traced.quiet (trained.2.map fun _ => trained.1)

/-- A template is filled if it is refused or there is room for a vector to each id. -/
theorem filledMap?_agrees {stored : Stored S E} (h : stored.Consistent) (buffer : Buffer E)
    (ids : Array Int64) :
    Agrees ((∃ map, filledMap stored buffer ids = .ok map) →
        stored.index.settings.roomToAppend machine 0 ids.size = true)
      (filledMap? machine stored buffer ids) (filledMap stored buffer ids) := by
  have hfilled : ∀ {index : Index S E} {batch : Batch E} {map : IdMap S E},
      (template stored).mapError Error.malformedTemplate = .ok index →
      Batch.withIds (Space.kind index.space) buffer index.dimension ids.size = .ok batch →
      fill index batch ids = .ok map → filledMap stored buffer ids = .ok map :=
    fun hindex hbatch hmap => Except.bind_eq_ok_iff.2
      ⟨_, hindex, Except.bind_eq_ok_iff.2 ⟨_, hbatch, hmap⟩⟩
  refine goOn?_agrees fun index hindex => goOn?_agrees fun batch hbatch => ?_
  have htemplate : template stored = .ok index := Except.mapError_eq_ok_iff.1 hindex
  obtain rfl : stored = .bare index := by
    cases stored with
    | mapped map => cases htemplate
    | bare held =>
        rw [template] at htemplate
        split at htemplate
        · rw [Except.ok.inj htemplate]
        · cases htemplate
  refine (fill?_agrees h batch ids).mono fun hroom hmade => hroom ?_
  obtain ⟨map, hmap⟩ := hmade
  exact ⟨map, hfilled hindex hbatch hmap⟩

end Space

/-! ## Artifacts -/

variable {machine : Machine} (defaults : IndexDefaults) (r : IndexRequest)
  (vectors : HostVectors) (ids : Array Int64) (path : String)

/-- A new artifact is made if there is room for its lists, and for the vectors unless the
request is refused. -/
theorem makeNew?_agrees :
    Agrees (roomToConstruct machine r = true ∧
        ((∃ made, (makeNew defaults r vectors ids path).outcome = .ok made) →
          roomToMake machine defaults r ids.size = true))
      (makeNew? machine defaults r vectors ids path) (makeNew defaults r vectors ids path) := by
  by_cases hkind : vectors.kind = r.spaceType.kind
  · rcases cases_of_kind hkind with ⟨metric, buffer, hmetric, rfl⟩ | ⟨buffer, hmetric, rfl⟩
    · rw [makeNew_float defaults ids path hmetric, makeNew?.eq_def, hmetric]
      have hspace : Space.kind (FloatSpace.mk metric) = r.spaceType.kind := by
        rw [FloatSpace.kind_eq]
        exact hkind
      exact Traced.made_agrees (newMap?_agrees defaults _ r hspace buffer ids) _
    · rw [makeNew_binary defaults ids path hmetric, makeNew?.eq_def, hmetric]
      have hspace : Space.kind BinarySpace.mk = r.spaceType.kind := hkind
      exact Traced.made_agrees (newMap?_agrees defaults _ r hspace buffer ids) _
  · have hrefused : makeNew? machine defaults r vectors ids path =
        some (otherVectors r vectors) := by
      obtain ⟨description, dimension, spaceType, parameters⟩ := r
      cases spaceType <;> cases vectors <;> first | rfl | exact absurd rfl hkind
    rw [makeNew_other defaults ids path hkind, hrefused]
    exact .some _ _

/-- A template is made if there is room for its lists, and for its centroids unless the request
is refused. -/
theorem makeTemplate?_agrees :
    Agrees (roomToConstruct machine r = true ∧
        ((∃ made, (makeTemplate defaults r vectors).outcome = .ok made) →
          roomToTeach machine defaults r = true))
      (makeTemplate? machine defaults r vectors) (makeTemplate defaults r vectors) := by
  by_cases hkind : vectors.kind = r.spaceType.kind
  · rcases cases_of_kind hkind with ⟨metric, buffer, hmetric, rfl⟩ | ⟨buffer, hmetric, rfl⟩
    · rw [makeTemplate.eq_def, makeTemplate?.eq_def, hmetric]
      have hspace : Space.kind (FloatSpace.mk metric) = r.spaceType.kind := by
        rw [FloatSpace.kind_eq]
        exact hkind
      exact Traced.made_agrees (trainedIndex?_agrees defaults _ r hspace buffer) _
    · rw [makeTemplate.eq_def, makeTemplate?.eq_def, hmetric]
      have hspace : Space.kind BinarySpace.mk = r.spaceType.kind := hkind
      exact Traced.made_agrees (trainedIndex?_agrees defaults _ r hspace buffer) _
  · have hrefused : makeTemplate defaults r vectors = otherVectors r vectors ∧
        makeTemplate? machine defaults r vectors = some (otherVectors r vectors) := by
      obtain ⟨description, dimension, spaceType, parameters⟩ := r
      cases spaceType <;> cases vectors <;> first | exact ⟨rfl, rfl⟩ | exact absurd rfl hkind
    rw [hrefused.1, hrefused.2]
    exact .some _ _

/-- A template is filled if the request is refused or there is room for the vectors. -/
theorem fillTemplate?_agrees (template : List UInt8) :
    Agrees ((∃ made, (fillTemplate template vectors ids path).outcome = .ok made) →
        roomToFill machine template ids.size = true)
      (fillTemplate? machine template vectors ids path)
      (fillTemplate template vectors ids path) := by
  refine Traced.andThen?_agrees fun artifact hread => ?_
  have hdecoded : Artifact.ofBytes template = .ok artifact := Except.mapError_eq_ok_iff.1 hread
  have hconsistent := (Artifact.of_ofBytes hdecoded).1
  cases artifact with
  | float stored =>
      cases vectors with
      | float buffer =>
          refine ((filledMap?_agrees hconsistent buffer ids).mono fun hroom hfilled => ?_).map
            fun filled => Traced.quiet filled >>= fun map =>
              pure (Artifact.float (.mapped map), summarize path map buffer.ownership)
          obtain ⟨map, hmap⟩ := hfilled
          have hneeded := hroom ⟨_, Traced.bind_outcome_eq_ok_iff.2
            ⟨_, hread, Traced.bind_outcome_eq_ok_iff.2 ⟨map, hmap, rfl⟩⟩⟩
          rw [roomToFill, hdecoded] at hneeded
          exact hneeded
      | binary buffer => exact .some _ _
  | binary stored =>
      cases vectors with
      | float buffer => exact .some _ _
      | binary buffer =>
          refine ((filledMap?_agrees hconsistent buffer ids).mono fun hroom hfilled => ?_).map
            fun filled => Traced.quiet filled >>= fun map =>
              pure (Artifact.binary (.mapped map), summarize path map buffer.ownership)
          obtain ⟨map, hmap⟩ := hfilled
          have hneeded := hroom ⟨_, Traced.bind_outcome_eq_ok_iff.2
            ⟨_, hread, Traced.bind_outcome_eq_ok_iff.2 ⟨map, hmap, rfl⟩⟩⟩
          rw [roomToFill, hdecoded] at hneeded
          exact hneeded

end Request

/-! ## Engines -/

/-- Whether there is room to search an artifact for `k` results. -/
def Artifact.canSearch (machine : Machine) (k : Nat) : Artifact → Bool
  | .float stored => stored.index.canSearch machine k
  | .binary stored => stored.index.canSearch machine k

/-- Whether there is room to search an artifact within a distance. -/
def Artifact.canSearchRange (machine : Machine) : Artifact → Bool
  | .float stored => stored.index.canSearchRange machine
  | .binary stored => stored.index.canSearchRange machine

namespace Engine

variable (machine : Machine) (e : Engine) (files : FileTree) (vectors : HostVectors)
  (ids : Array Int64) (path : String) (threads : Nat)

/-- A request for a new artifact answers if there is room for its lists, and for the vectors
unless it is stopped before it writes. -/
theorem build?_agrees (r : IndexRequest) (refused : Refused) :
    Agrees (Request.roomToConstruct machine r = true ∧
        ((∀ stage ∈ e.workersStage threads refused.workers ::
            Request.newStages e.config.indexes r vectors ids.size, stage.fault? = none) →
          Request.roomToMake machine e.config.indexes r ids.size = true))
      (e.build? machine files r vectors ids path threads refused)
      (e.build files r vectors ids path threads refused) := by
  refine (Traced.andThen?_agrees fun workers hworkers => ?_).bind (.some _ _)
  refine (Request.makeNew?_agrees e.config.indexes r vectors ids path).mono fun hroom => ?_
  refine ⟨hroom.1, fun hmade => hroom.2 fun stage hstage => ?_⟩
  obtain ⟨made, hmade⟩ := hmade
  rcases List.mem_cons.1 hstage with rfl | hstage
  · exact congrArg fault? hworkers
  · exact (Request.makeNew_follows _ r vectors ids path).fault?_of_outcome hmade stage hstage

/-- A request to fill a template answers if there is room for the vectors or it is stopped
before it writes. -/
theorem buildFromTemplate?_agrees (template : List UInt8) (refused : Refused) :
    Agrees ((∀ stage ∈ e.workersStage threads refused.workers ::
            Request.templateStages template vectors ids.size, stage.fault? = none) →
          Request.roomToFill machine template ids.size = true)
      (e.buildFromTemplate? machine files template vectors ids path threads refused)
      (e.buildFromTemplate files template vectors ids path threads refused) := by
  refine (Traced.andThen?_agrees fun workers hworkers => ?_).bind (.some _ _)
  refine (Request.fillTemplate?_agrees vectors ids path template).mono fun hroom => ?_
  refine fun hmade => hroom fun stage hstage => ?_
  obtain ⟨made, hmade⟩ := hmade
  rcases List.mem_cons.1 hstage with rfl | hstage
  · exact congrArg fault? hworkers
  · exact (Request.fillTemplate_follows template vectors ids path).fault?_of_outcome hmade stage
      hstage

/-- A training on request answers if there is room for the lists, and for the centroids unless
it is refused. -/
theorem train?_agrees (r : IndexRequest) (refused : Option String) :
    Agrees (Request.roomToConstruct machine r = true ∧
        ((∃ bytes, (e.train r vectors threads refused).2.outcome = .ok bytes) →
          Request.roomToTeach machine e.config.indexes r = true))
      (e.train? machine r vectors threads refused) (e.train r vectors threads refused) := by
  refine (Traced.andThen?_agrees fun workers hworkers => ?_).bind (.some _ _)
  refine (Request.makeTemplate?_agrees e.config.indexes r vectors).mono fun hroom => ?_
  refine ⟨hroom.1, fun hmade => hroom.2 ?_⟩
  obtain ⟨made, hmade⟩ := hmade
  refine ⟨_, Except.map_eq_ok_iff.2 ⟨made, ?_, rfl⟩⟩
  exact Traced.bind_outcome_eq_ok_iff.2 ⟨workers, hworkers, hmade⟩

/-! ## Queries -/

section Space

variable [Space S E] {stored : Stored S E}

theorem searchStored?_agrees (h : stored.Consistent) (query : Array E) (k : Nat)
    (accept : Int64 → Bool) :
    Agrees (query.size = stored.index.unitLength → stored.index.canSearch machine k = true)
      (searchStored? machine stored query k accept) (searchStored stored query k accept) := by
  cases stored with
  | bare index =>
      have hindex : index.Consistent := h
      exact (Index.search?_agrees machine hindex.searchable query k (below_some _ _)).map _
  | mapped map =>
      have hmap : map.Consistent := h
      exact IdMap.search?_agrees machine hmap.index.searchable hmap.ids query k accept

theorem searchStoredRange?_agrees (h : stored.Consistent) (query : Array E) (radius : Single)
    (accept : Int64 → Bool) :
    Agrees (stored.index.canSearchRange machine = true)
      (searchStoredRange? machine stored query radius accept)
      (searchStoredRange stored query radius accept) := by
  cases stored with
  | bare index =>
      have hindex : index.Consistent := h
      exact (Index.searchRange?_agrees machine hindex.searchable query radius
        (below_some _ _)).map _
  | mapped map =>
      have hmap : map.Consistent := h
      exact IdMap.searchRange?_agrees machine hmap.index.searchable hmap.ids query radius accept

end Space

/-- The results that hits are shown as. -/
private theorem shown_agrees {H R : Type} {room : Prop} {hits? : Option (Except Error H)}
    {hits : Except Error H} (h : Agrees room hits? hits) (show' : H → R) :
    Agrees room (hits?.map (show' <$> ·)) (hits >>= fun found => pure (show' found)) := by
  rw [bind_pure_comp]
  exact h.map _

variable {e}

/-- A query answers if there is room to search the artifact that it asks. -/
theorem query?_agrees (he : e.Reached) (handle : Nat) (vector : QueryVector) (k : Nat)
    (filter : Option (List Int64)) :
    Agrees (∀ artifact, e.registry.get handle = .ok artifact →
        artifact.canSearch machine k = true)
      (e.query? machine handle vector k filter) (e.query handle vector k filter) := by
  refine goOn?_agrees fun artifact hget => ?_
  have hconsistent := he.sound.loaded.get hget
  rcases artifact with stored | stored <;> rcases vector with v | v
  case float.float | binary.binary =>
    refine shown_agrees ?_ _
    exact (searchStored?_agrees machine hconsistent v k _).mono fun hroom _ => hroom _ hget
  case float.binary | binary.float => exact .some _ _

/-- So does a query within a distance. -/
theorem queryRange?_agrees (he : e.Reached) (handle : Nat) (vector : QueryVector)
    (radius : Single) (most : Nat) (filter : Option (List Int64)) :
    Agrees (∀ artifact, e.registry.get handle = .ok artifact →
        artifact.canSearchRange machine = true)
      (e.queryRange? machine handle vector radius most filter)
      (e.queryRange handle vector radius most filter) := by
  refine goOn?_agrees fun artifact hget => ?_
  have hconsistent := he.sound.loaded.get hget
  rcases artifact with stored | stored <;> rcases vector with v | v
  case float.float | binary.binary =>
    refine shown_agrees ?_ fun hits : List (Hit Int64) =>
      results (Space.spaceType stored.index.space) (hits.take most)
    exact (searchStoredRange?_agrees machine hconsistent v radius _).mono
      fun hroom => hroom _ hget
  case float.binary | binary.float => exact .some _ _

/-- **What decides over a request**, on any machine.  What a request for a new artifact answers
is its failure for the first reason in the list of its stages, and a success if there is none;
its calls are the first ones of a construction, a tuning and a write, as far as the stage it
fails at; and it comes to the write exactly if nothing before that stops it.  The same holds of
a request to fill a template, whose only calls are those that decode the template and write the
artifact.  A request answers if there is room for the lists that it describes and, unless a
stage stops it, for its vectors in the graphs of the index. -/
theorem build_decided (machine : Machine) (e : Engine) (files : FileTree) (vectors : HostVectors)
    (ids : Array Int64) (path : String) (threads : Nat) (refused : Refused) :
    (∀ r : IndexRequest,
      let made := [Call.construct r.spaceType.kind, .tune r.spaceType.kind]
      let write := Call.write e.config.syncWrites
      let stages := e.workersStage threads refused.workers ::
        Request.newStages e.config.indexes r vectors ids.size
      let answer? := e.build? machine files r vectors ids path threads refused
      (∀ after, answer? = some after →
        after.2.2.Follows (stages ++ [e.writeStage files path refused.write made])
            (made ++ [write]) (fun s => s.path = path ∧ s.total = ids.size) ∧
          after.2.2.calls <+: made ++ [write] ∧
          (write ∈ after.2.2.calls ↔ ∀ stage ∈ stages, stage.fault? = none)) ∧
      (Request.roomToConstruct machine r = true →
        ((∀ stage ∈ stages, stage.fault? = none) →
          Request.roomToMake machine e.config.indexes r ids.size = true) →
        ∃ after, answer? = some after)) ∧
    ∀ template : List UInt8,
      let made := [Call.readTemplate]
      let write := Call.write e.config.syncWrites
      let stages := e.workersStage threads refused.workers ::
        Request.templateStages template vectors ids.size
      let answer? := e.buildFromTemplate? machine files template vectors ids path threads refused
      (∀ after, answer? = some after →
        after.2.2.Follows (stages ++ [e.writeStage files path refused.write made])
            (made ++ [write]) (fun s => s.path = path ∧ s.total = ids.size) ∧
          after.2.2.calls <+: made ++ [write] ∧
          (write ∈ after.2.2.calls ↔ ∀ stage ∈ stages, stage.fault? = none)) ∧
      (((∀ stage ∈ stages, stage.fault? = none) →
          Request.roomToFill machine template ids.size = true) →
        ∃ after, answer? = some after) := by
  constructor
  · intro r made write stages answer?
    have hagrees := build?_agrees machine e files vectors ids path threads r refused
    refine ⟨fun after hafter => ?_, fun hlists hroom => ⟨_, hagrees.answered ⟨hlists, hroom⟩⟩⟩
    obtain rfl := hagrees.same after hafter
    have hfollows := e.build_follows files r vectors ids path threads refused
    refine ⟨hfollows, hfollows.calls_isPrefix ?_, hfollows.mem_calls_iff ?_ ?_ ?_⟩
    · simp [workersStage, Request.newStages, Request.batchStages, Request.indexStages, Stage.check,
        writeStage]
    · simp [write, workersStage, Request.newStages, Request.batchStages, Request.indexStages,
        Stage.check]
    · simp [writeStage, write]
    · simp [write]
  · intro template made write stages answer?
    have hagrees := buildFromTemplate?_agrees machine e files vectors ids path threads template
      refused
    refine ⟨fun after hafter => ?_, fun hroom => ⟨_, hagrees.answered hroom⟩⟩
    obtain rfl := hagrees.same after hafter
    have hfollows := e.buildFromTemplate_follows files template vectors ids path threads refused
    refine ⟨hfollows, hfollows.calls_isPrefix ?_, hfollows.mem_calls_iff ?_ ?_ ?_⟩
    · simp [workersStage, Request.templateStages, Request.batchStages, Stage.check, writeStage]
    · simp [write, workersStage, Request.templateStages, Request.batchStages, Stage.check]
    · simp [writeStage, write]
    · simp [write]

/-- Two vectors are stored on a machine with words of 64 bits, and a request for two vectors
under one id comes to no write. -/
theorem build_decided_fiveBytes :
    let e := start .standard 1
    (∃ after, e.build? .standard .empty plainRequest fiveBytes #[7, 7] "a" 0 .nothing = some after ∧
      ∃ summary, after.2.2 = ⟨[.construct .binary, .tune .binary, .write true], .ok summary⟩ ∧
        summary.total = 2) ∧
    ∃ after, e.build? .standard .empty plainRequest fiveBytes #[7] "a" 0 .nothing = some after ∧
      after.2.2 = ⟨[], .error (.idCountMismatch 1 2)⟩ := by
  intro e
  obtain ⟨hdecided, hanswered⟩ :=
    (build_decided .standard e .empty fiveBytes #[7, 7] "a" 0 .nothing).1 plainRequest
  obtain ⟨hshort, hshortAnswered⟩ :=
    (build_decided .standard e .empty fiveBytes #[7] "a" 0 .nothing).1 plainRequest
  obtain ⟨after, hafter⟩ := hanswered rfl fun _ => rfl
  obtain ⟨refused, hrefused⟩ := hshortAnswered rfl fun _ => rfl
  have hwrite : Stage.first? [e.writeStage .empty "a" none [.construct .binary, .tune .binary]] =
      none := by
    simp [Stage.first?, writeStage, e, start, Config.standard, failsAt?_empty]
  have hstages : Stage.first? (e.workersStage 0 none ::
      Request.newStages e.config.indexes plainRequest fiveBytes 2 ++
        [e.writeStage .empty "a" none [.construct .binary, .tune .binary]]) = none := by
    rw [Stage.first?_append, hwrite]
    rfl
  refine ⟨⟨after, hafter, ?_⟩, refused, hrefused, (hshort refused hrefused).1⟩
  have hfollows : after.2.2.Follows (e.workersStage 0 none ::
      Request.newStages e.config.indexes plainRequest fiveBytes 2 ++
        [e.writeStage .empty "a" none [.construct .binary, .tune .binary]])
      [.construct .binary, .tune .binary, .write true] (fun s => s.path = "a" ∧ s.total = 2) :=
    (hdecided after hafter).1
  rw [Traced.Follows, hstages] at hfollows
  obtain ⟨summary, hsummary, -, htotal⟩ := hfollows
  exact ⟨summary, hsummary, htotal⟩

/-- A request for a graph of bit vectors whose nodes are to have 2 ^ 60 neighbours. -/
def wideRequest : IndexRequest := ⟨"BHNSW1152921504606846976", 8, .hamming, []⟩

/-- Such a graph before it is filled. -/
def wideBlank : Graph BinarySpace UInt8 :=
  ⟨⟨⟨⟩, 8, 1, #[]⟩, Nat.pow 2 60, 40, 16, .empty, Graph.scaleFor (Nat.pow 2 60),
    Graph.standardSeed⟩

/-- Nothing stops it, and two vectors are not stored all the same: there is no room for the
beam that is to find neighbours of the second one. -/
theorem build_roomless_wideRequest :
    let e := start .standard 1
    let vectors := HostVectors.binary ⟨.lent, #[1, 2]⟩
    (∀ stage ∈ e.workersStage 0 none :: Request.newStages e.config.indexes wideRequest vectors 2,
      stage.fault? = none) ∧
      (e.writeStage .empty "a" none [.construct .binary, .tune .binary]).fault? = none ∧
      e.build? .standard .empty wideRequest vectors #[1, 2] "a" 0 .nothing = none := by
  intro e vectors
  have hwrite : (e.writeStage .empty "a" none [.construct .binary, .tune .binary]).fault? =
      none := by
    simp [writeStage, e, start, Config.standard, failsAt?_empty]
  have hconstruct : Request.construct? .standard e.config.indexes BinarySpace.mk wideRequest =
      some ⟨[.construct .binary, .tune .binary], .ok (.graph wideBlank)⟩ := rfl
  have hgraph : wideBlank.append? .standard #[1, 2] = none :=
    Graph.append?_eq_none (Graph.check_eq_ok_iff.1 rfl) rfl (by decide) (by decide)
      (.inl (by decide))
  have happend : (Index.graph wideBlank).append? .standard #[1, 2] = none := by
    rw [Index.append?, hgraph]
    rfl
  have hfill : Request.fill? .standard (.graph wideBlank) (.cut ⟨.lent, #[1, 2]⟩ 8 1) #[1, 2] =
      none := by
    show Option.map _ ((Index.append? .standard (.graph wideBlank) #[1, 2]).bind _) = none
    rw [happend]
    rfl
  have hnew : Request.newMap? .standard e.config.indexes BinarySpace.mk wideRequest
      ⟨.lent, #[1, 2]⟩ #[1, 2] = none := by
    rw [Request.newMap?, hconstruct]
    show Option.map _ (Option.map _ (Option.map _ (Request.fill? .standard (.graph wideBlank)
      (.cut ⟨.lent, #[1, 2]⟩ 8 1) #[1, 2]))) = none
    rw [hfill]
    rfl
  refine ⟨by decide, hwrite, ?_⟩
  show (Option.map _ (Option.map _ (Request.newMap? .standard e.config.indexes BinarySpace.mk
    wideRequest ⟨.lent, #[1, 2]⟩ #[1, 2]))) >>= _ = none
  rw [hnew]
  rfl

end Engine

end Proximity

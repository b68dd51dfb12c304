import Proximity.Proofs.Requests.Decisions

/-!
# What a request makes

A request for a new artifact and a request to fill a template end the same way:
a consistent tree that is trained and holds nothing takes the whole vectors of a
buffer under ids.  Everything about the artifact that comes out follows from
that, wherever the tree came from.  Its ids are those of the request, its index
stores the vectors in order, its settings are those of the tree, and it has a
stored form that is read back.

## Main results

* `Artifact.FilledFrom` — an artifact that another one was filled to.
* `Artifact.MadeOf` — an artifact of some vectors under ids.
* `Artifact.FilledFrom.madeOf`, `Artifact.FilledFrom.reload` — what was filled is
  made of the vectors, and comes back from its stored form.
* `Request.of_makeNew`, `Request.of_fillTemplate` — what is filled by a request.
-/

namespace Proximity

/-! ## Filled trees -/

section Space

variable {S E : Type} [Space S E] {index : Index S E} {map : IdMap S E} {buffer : Buffer E}
  {ids : Array Int64}

/-- A map that a consistent, trained and empty tree was filled to. -/
structure IdMap.FilledFrom (map : IdMap S E) (index : Index S E) (buffer : Buffer E)
    (ids : Array Int64) : Prop where
  consistent : index.Consistent
  settings : index.SettingsFit
  empty : index.total = 0
  trained : index.isTrained = true
  count : ids.size = buffer.data.size / index.unitLength
  filled : ⟨index.filledWith buffer, ids⟩ = map

namespace IdMap.FilledFrom

theorem stores [Space.OneKind S] (h : map.FilledFrom index buffer ids) :
    map.index.Stores (vectorsOf index.unitLength buffer.data) := by
  obtain rfl := h.filled
  exact (h.consistent.vacant h.empty).stores h.trained buffer

theorem sameWidth (h : map.FilledFrom index buffer ids) : Index.SameWidth index map.index := by
  obtain rfl := h.filled
  exact Index.append_sameWidth index _

theorem settings_eq (h : map.FilledFrom index buffer ids) :
    map.index.settings = index.settings := by
  obtain rfl := h.filled
  exact Index.append_settings index _

/-- A filled map has an id for each vector, and is as consistent as the tree. -/
theorem kept [Space.OneKind S] (h : map.FilledFrom index buffer ids)
    (hmemory : map.index.InMemory) : map.Consistent ∧ map.index.SettingsFit := by
  have htotal := h.stores.total
  rw [length_vectorsOf, ← h.count] at htotal
  obtain rfl := h.filled
  exact ⟨⟨h.consistent.append_fst _ hmemory, htotal.symm⟩, h.settings.append _⟩

end IdMap.FilledFrom

end Space

/-! ## Filled artifacts -/

namespace Artifact

/-- An artifact that another one was filled to. -/
inductive FilledFrom (ids : Array Int64) : Artifact → Artifact → HostVectors → Prop
  | float {index : Index FloatSpace Single} {map : IdMap FloatSpace Single}
      {buffer : Buffer Single} :
      map.FilledFrom index buffer ids →
      FilledFrom ids (.float (.mapped map)) (.float (.bare index)) (.float buffer)
  | binary {index : Index BinarySpace UInt8} {map : IdMap BinarySpace UInt8}
      {buffer : Buffer UInt8} :
      map.FilledFrom index buffer ids →
      FilledFrom ids (.binary (.mapped map)) (.binary (.bare index)) (.binary buffer)

/-- An artifact stores the whole vectors of some width under ids: it has the ids,
and its index stores the vectors in order. -/
def StoresUnder (a : Artifact) (ids : Array Int64) (unitLength : Nat) (vectors : HostVectors) :
    Prop :=
  match a, vectors with
  | .float (.mapped map), .float buffer =>
    map.ids = ids ∧ map.index.Stores (vectorsOf unitLength buffer.data)
  | .binary (.mapped map), .binary buffer =>
    map.ids = ids ∧ map.index.Stores (vectorsOf unitLength buffer.data)
  | _, _ => False

/-- An artifact with some settings that was made of vectors under ids. -/
structure MadeOf (a : Artifact) (spaceType : SpaceType) (dimension : Nat) (settings : Settings)
    (vectors : HostVectors) (ids : Array Int64) : Prop where
  spaceType : a.spaceType = spaceType
  dimension : a.dimension = dimension
  settings : a.settings = settings
  stores : ∃ unitLength, vectors.kind.unitLength a.dimension = .ok unitLength ∧
    ids.size = vectors.size / unitLength ∧ a.StoresUnder ids unitLength vectors

/-- An artifact that a machine holds, with a stored form whose length it can
count. -/
structure Storable (a : Artifact) : Prop where
  memory : a.InMemory
  length : (Codec.artifact.encode a).length < Count.bound

variable {a blank : Artifact} {vectors : HostVectors} {ids : Array Int64}

/-- What was filled is made of the vectors, and is otherwise as it was before. -/
theorem FilledFrom.madeOf (h : a.FilledFrom ids blank vectors) :
    a.MadeOf blank.spaceType blank.dimension blank.settings vectors ids := by
  cases h with
  | @float index map buffer h =>
      have hwidth := h.consistent.width
      rw [FloatSpace.kind_eq, ← h.sameWidth.dimension] at hwidth
      refine ⟨congrArg Space.spaceType h.sameWidth.space, h.sameWidth.dimension, h.settings_eq,
        index.unitLength, hwidth, h.count, ?_⟩
      exact ⟨congrArg IdMap.ids h.filled.symm, h.stores⟩
  | @binary index map buffer h =>
      have hwidth := h.consistent.width
      rw [BinarySpace.kind_eq, ← h.sameWidth.dimension] at hwidth
      refine ⟨congrArg Space.spaceType h.sameWidth.space, h.sameWidth.dimension, h.settings_eq,
        index.unitLength, hwidth, h.count, ?_⟩
      exact ⟨congrArg IdMap.ids h.filled.symm, h.stores⟩

/-- **What was filled comes back from its stored form.** -/
theorem FilledFrom.reload (h : a.FilledFrom ids blank vectors) (hstorable : a.Storable) :
    ofBytes (toBytes a) = .ok a := by
  have hkept : a.Kept := by
    cases h with
    | float h =>
        obtain ⟨hconsistent, hsettings⟩ := h.kept hstorable.memory.1
        exact ⟨hconsistent, hsettings, hstorable.memory⟩
    | binary h =>
        obtain ⟨hconsistent, hsettings⟩ := h.kept hstorable.memory.1
        exact ⟨hconsistent, hsettings, hstorable.memory⟩
  exact hkept.roundtrip hstorable.length

end Artifact

/-! ## Requests -/

namespace Request

section Space

variable {S E : Type} [Space S E] {defaults : IndexDefaults} {space : S} {r : IndexRequest}

/-- The tuned blank index of a request is consistent, with settings that are
counts of 64 bits. -/
theorem tunedBlank_kept (hdefaults : defaults.Fits) (hdimension : r.dimension < Count.bound)
    {unitLength : Nat} (hwidth : (Space.kind space).unitLength r.dimension = .ok unitLength)
    {asked : Description}
    (hread : Description.readFor (Space.kind space) r.description = .ok asked) :
    (tunedBlank (E := E) defaults space r unitLength asked).Consistent ∧
      (tunedBlank (E := E) defaults space r unitLength asked).SettingsFit := by
  have hbuild := IndexDefaults.build_eq (d := defaults) (E := E) hwidth r.description
  rw [hread] at hbuild
  obtain ⟨hconsistent, hsettings⟩ := (Index.Constructed.described hdefaults hdimension hbuild).kept
  exact ⟨hconsistent.tune _, hsettings.tune _⟩

/-- A new map was filled from the tuned blank index of its description. -/
theorem filledFrom_of_newMap (hdefaults : defaults.Fits) (hdimension : r.dimension < Count.bound)
    {buffer : Buffer E} {ids : Array Int64} {map : IdMap S E}
    (h : (newMap defaults space r buffer ids).outcome = .ok map) :
    ∃ asked settings index,
      Description.readFor (Space.kind space) r.description = .ok asked ∧
      (asked.settings defaults).tuned r.parameters = .ok settings ∧
      index.space = space ∧ index.dimension = r.dimension ∧ index.settings = settings ∧
      map.FilledFrom index buffer ids := by
  obtain ⟨unitLength, asked, settings, hwidth, hids, hread, htuned, hlists, hfilled⟩ :=
    of_newMap defaults space r h
  have hcounts := Description.takes_of_readFor hread
  have hsame := tunedBlank_sameWidth (E := E) defaults space r unitLength asked
  obtain ⟨hconsistent, hsettings⟩ := tunedBlank_kept hdefaults hdimension hwidth hread
  refine ⟨asked, settings, _, hread, htuned, hsame.space, hsame.dimension,
    tunedBlank_settings htuned, hconsistent, hsettings, ?_, ?_, ?_, hfilled⟩
  · exact (tunedBlank_vacant defaults space r hwidth hcounts).empty
  · rw [tunedBlank_isTrained defaults space r unitLength hcounts, hlists]
    rfl
  · rw [hsame.unitLength]
    exact hids

/-- A filled template was empty. -/
theorem filledFrom_of_filledMap [Space.OneKind S] {stored : Stored S E} (h : stored.Consistent)
    (hfits : stored.Fits) {buffer : Buffer E} {ids : Array Int64} {map : IdMap S E}
    (hfilled : filledMap stored buffer ids = .ok map) :
    ∃ index, stored = .bare index ∧ map.FilledFrom index buffer ids := by
  obtain ⟨index, rfl, hempty, htrained, hids, hmap⟩ := of_filledMap h hfilled
  exact ⟨index, rfl, h, Index.Fits.settingsFit hfits, hempty, htrained, hids, hmap⟩

end Space

variable {defaults : IndexDefaults} {r : IndexRequest} {vectors : HostVectors} {ids : Array Int64}
  {path : String} {a : Artifact} {summary : Summary}

/-- **What a request for a new artifact makes** was filled from an artifact of the
space and the dimension of the request, with the settings that its description
names and its parameters overlay. -/
theorem of_makeNew (hdefaults : defaults.Fits) (hdimension : r.dimension < Count.bound)
    (h : (makeNew defaults r vectors ids path).outcome = .ok (a, summary)) :
    ∃ description settings blank, asked r = .ok description ∧
      (description.settings defaults).tuned r.parameters = .ok settings ∧
      blank.spaceType = r.spaceType ∧ blank.dimension = r.dimension ∧
      blank.settings = settings ∧ a.FilledFrom ids blank vectors := by
  by_cases hkind : vectors.kind = r.spaceType.kind
  · rcases cases_of_kind hkind with ⟨metric, buffer, hmetric, rfl⟩ | ⟨buffer, hmetric, rfl⟩
    · rw [makeNew_float defaults ids path hmetric] at h
      obtain ⟨map, hmap, h⟩ := Traced.bind_outcome_eq_ok_iff.1 h
      obtain ⟨rfl, -⟩ := Prod.mk.inj (Except.ok.inj h)
      obtain ⟨description, settings, index, hread, htuned, hspace, hwidth, hsettings, hfilled⟩ :=
        filledFrom_of_newMap hdefaults hdimension hmap
      rw [FloatSpace.kind_eq, show Kind.float = r.spaceType.kind from hkind] at hread
      have hspaceType : Space.spaceType index.space = r.spaceType := by
        rw [hspace]
        exact SpaceType.eq_of_metric? hmetric
      exact ⟨description, settings, .float (.bare index), hread, htuned, hspaceType, hwidth,
        hsettings, .float hfilled⟩
    · rw [makeNew_binary defaults ids path hmetric] at h
      obtain ⟨map, hmap, h⟩ := Traced.bind_outcome_eq_ok_iff.1 h
      obtain ⟨rfl, -⟩ := Prod.mk.inj (Except.ok.inj h)
      obtain ⟨description, settings, index, hread, htuned, -, hwidth, hsettings, hfilled⟩ :=
        filledFrom_of_newMap hdefaults hdimension hmap
      rw [BinarySpace.kind_eq, show Kind.binary = r.spaceType.kind from hkind] at hread
      exact ⟨description, settings, .binary (.bare index), hread, htuned,
        SpaceType.eq_hamming_of_metric? hmetric, hwidth, hsettings, .binary hfilled⟩
  · rw [makeNew_other defaults ids path hkind] at h
    cases h

/-- **What a request to fill a template makes** was filled from the template. -/
theorem of_fillTemplate {template : List UInt8}
    (h : (fillTemplate template vectors ids path).outcome = .ok (a, summary)) :
    ∃ held, Artifact.ofBytes template = .ok held ∧ a.FilledFrom ids held vectors := by
  cases hread : Artifact.ofBytes template with
  | error fault =>
      have hrefused : readTemplate template = .error (.malformedTemplate (.format fault)) := by
        rw [readTemplate, hread]
        rfl
      rw [fillTemplate, hrefused] at h
      cases h
  | ok held =>
      obtain ⟨hconsistent, hfits⟩ := Artifact.of_ofBytes hread
      have hdecoded : readTemplate template = .ok held := Except.mapError_eq_ok_iff.2 hread
      cases held with
      | float stored =>
          cases vectors with
          | float buffer =>
              rw [fillTemplate_float ids path hread] at h
              obtain ⟨map, hmap, h⟩ := Traced.bind_outcome_eq_ok_iff.1 h
              obtain ⟨rfl, -⟩ := Prod.mk.inj (Except.ok.inj h)
              obtain ⟨index, rfl, hfilled⟩ := filledFrom_of_filledMap hconsistent hfits hmap
              exact ⟨_, rfl, .float hfilled⟩
          | binary buffer =>
              rw [fillTemplate, hdecoded] at h
              cases h
      | binary stored =>
          cases vectors with
          | float buffer =>
              rw [fillTemplate, hdecoded] at h
              cases h
          | binary buffer =>
              rw [fillTemplate_binary ids path hread] at h
              obtain ⟨map, hmap, h⟩ := Traced.bind_outcome_eq_ok_iff.1 h
              obtain ⟨rfl, -⟩ := Prod.mk.inj (Except.ok.inj h)
              obtain ⟨index, rfl, hfilled⟩ := filledFrom_of_filledMap hconsistent hfits hmap
              exact ⟨_, rfl, .binary hfilled⟩

end Request

end Proximity

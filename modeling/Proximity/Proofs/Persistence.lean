import Proximity.Proofs.Construction
import Proximity.Proofs.Container
import Proximity.Proofs.Preservation
import Proximity.Proofs.Settings

/-!
# Nothing that was built is lost when stored

An artifact that was built holds an index that was constructed and has since
been changed in whatever way callers can, with whatever success, put under ids
and taken out again, stored and loaded again.  Such an artifact is in order and
comes back from its stored form as it was, bit for bit.

Two things are to be kept by every change: the tree stays consistent, and all
settings stay counts of 64 bits.  Together with the sizes, which fit in
memory, that is what a stored form asks for.

## Main results

* `Index.Consistent.fits` — what has a stored form.
* `Index.Change`, `Stored.Change`, `Artifact.Built` — what can be built.
* `Artifact.Built.kept` — what every change keeps.
* `Artifact.built_roundtrip` — stored and loaded again.
-/

namespace Proximity

variable {S E : Type}

namespace Index

/-! ## Stored forms -/

private theorem fits_of_flat [Space S E] {f : Flat S E} (h : f.Consistent)
    (hdimension : f.dimension < Count.bound) (hmemory : f.InMemory) : f.Fits where
  dimension := hdimension
  unitLength := Nat.lt_of_le_of_lt (Kind.unitLength_bounds h.width).2 hdimension
  data := Nat.lt_trans hmemory (by decide)

private theorem fits_of_graph [Space S E] {g : Graph S E} (h : g.Consistent)
    (hsettings : (Index.graph g).SettingsFit) (hmemory : g.InMemory) : g.Fits := by
  obtain ⟨hdimension, hdegree, hbuild, hsearch⟩ := hsettings
  have hnodes : g.storage.total < Links.nodeBound := h.links.size ▸ hmemory.nodes
  refine ⟨fits_of_flat h.storage hdimension hmemory.storage, hdegree, hbuild, hsearch, ?_⟩
  exact
    { nodes := Nat.lt_trans hmemory.nodes (by decide)
      levels := fun levels hl => Nat.lt_of_le_of_lt (h.links.within.levels levels hl) (by decide)
      lists := fun levels hl list hlist =>
        Nat.lt_trans (hmemory.lists levels hl list hlist) (by decide)
      neighbours := fun levels hl list hlist n hn =>
        Nat.lt_trans (h.links.within.neighbours levels hl list hlist n hn) hnodes
      entry := fun e he => Nat.lt_trans (h.links.entry e he) hnodes
      topLevel := Nat.lt_of_le_of_lt h.links.topLevel (by decide) }

/-- A consistent tree in memory has a stored form if its settings have. -/
theorem Consistent.fits [Space S E] {index : Index S E} (h : index.Consistent)
    (hsettings : index.SettingsFit) (hmemory : index.InMemory) : index.Fits := by
  induction index with
  | flat f => exact fits_of_flat h hsettings hmemory
  | graph g => exact fits_of_graph h hsettings hmemory
  | invertedFile f quantizer ih =>
      obtain ⟨hq, hwidth, -, hf⟩ := h
      obtain ⟨hdimension, hlists, hprobes, hclustering, hqSettings⟩ := hsettings
      have hquantizer := ih hq hqSettings hmemory.2
      refine ⟨?_, hquantizer⟩
      exact
        { dimension := hdimension
          unitLength := hwidth ▸ hquantizer.unitLength_lt
          listCount := hlists
          probes := hprobes
          clustering := hclustering
          size := Nat.lt_trans hmemory.1.size (by decide)
          lists := fun l hl =>
            { size := Nat.lt_trans (hmemory.1.labels l hl) (by decide)
              labels := fun label hlabel =>
                Nat.lt_trans (hf.labels l hl label hlabel).1 (by decide)
              codes := Nat.lt_trans (hmemory.1.codes l hl) (by decide) }
          total := Nat.lt_trans hmemory.1.total (by decide) }
  | composite base copies factor ih =>
      exact ⟨ih h.1 hsettings.1 hmemory.1, fits_of_flat h.2.1 hsettings.2 hmemory.2⟩

/-- The settings of a tree that has a stored form are counts of 64 bits. -/
theorem Fits.settingsFit {index : Index S E} (h : index.Fits) : index.SettingsFit := by
  induction index with
  | flat f => exact Flat.Fits.dimension h
  | graph g => exact ⟨h.storage.dimension, h.degree, h.buildWidth, h.searchWidth⟩
  | invertedFile f quantizer ih =>
      obtain ⟨hf, hq⟩ := h
      exact ⟨hf.dimension, hf.listCount, hf.probes, hf.clustering, ih hq⟩
  | composite base copies factor ih => exact ⟨ih h.1, h.2.dimension⟩

/-! ## Constructions -/

/-- Flat storage that was just made is consistent. -/
theorem empty_consistent [Space S E] {space : S} {dimension unitLength : Nat}
    (hwidth : (Space.kind space).unitLength dimension = .ok unitLength) :
    (⟨space, dimension, unitLength, #[]⟩ : Flat S E).Consistent :=
  ⟨hwidth, Nat.zero_mod _⟩

private theorem foldr_add_replicate_zero (n : Nat) :
    (List.replicate n 0).foldr (· + ·) 0 = 0 := by
  induction n with
  | zero => rfl
  | succ n ih => rw [List.replicate_succ, List.foldr_cons, ih]

/-- Lists that were just made go with an empty quantizer. -/
theorem emptyLists_consistent {space : S} {dimension unitLength listCount : Nat}
    {clustering : ClusteringSettings} (hlists : listCount ≠ 0) :
    (InvertedFile.empty (E := E) space dimension unitLength listCount clustering).Consistent 0 where
  listCount := hlists
  size := Array.size_replicate
  full h := absurd rfl h
  untrained _ := rfl
  codes l hl := by
    obtain rfl := (Array.mem_replicate.1 hl).2
    simp [PostingList.empty]
  labels l hl label hlabel := by
    obtain rfl := (Array.mem_replicate.1 hl).2
    exact absurd hlabel (Array.not_mem_empty label)
  stored := by
    rw [InvertedFile.listSizes, InvertedFile.empty, Array.toList_replicate, List.map_replicate]
    exact foldr_add_replicate_zero listCount

/-- What was just constructed is consistent and has settings that are counts of
64 bits. -/
theorem Constructed.kept [Space S E] {index : Index S E} (h : index.Constructed) :
    index.Consistent ∧ index.SettingsFit := by
  apply h.steps (motive := fun index => index.Consistent ∧ index.SettingsFit)
  · intro space dimension f hdimension hf
    obtain ⟨unitLength, hwidth, rfl⟩ := Flat.empty_eq_ok_iff.1 hf
    exact ⟨empty_consistent hwidth, hdimension⟩
  · intro space dimension degree buildWidth searchWidth g hdimension hdegree hbuild hsearch hg
    obtain ⟨htwo, storage, hstorage, rfl⟩ := Graph.empty_eq_ok_iff.1 hg
    obtain ⟨unitLength, hwidth, rfl⟩ := Flat.empty_eq_ok_iff.1 hstorage
    have htotal : (⟨space, dimension, unitLength, #[]⟩ : Flat S E).total = 0 := Nat.zero_div _
    refine ⟨⟨empty_consistent hwidth, htwo, ?_, ?_, htotal.symm ▸ Links.empty_consistent⟩,
      hdimension, hdegree, ?_, ?_⟩
    · exact Nat.ne_of_gt (Nat.le_max_right searchWidth 1)
    · exact Nat.ne_of_gt (Nat.le_max_right buildWidth 1)
    · exact Nat.max_lt.2 ⟨hbuild, by decide⟩
    · exact Nat.max_lt.2 ⟨hsearch, by decide⟩
  · rintro quantizer index listCount clustering hconstructed ⟨hq, hqSettings⟩ hlists hclustering
      hover
    obtain ⟨hne, hempty, unitLength, hwidth, rfl⟩ := invertedFileOver_eq_ok_iff.1 hover
    obtain rfl : quantizer.unitLength = unitLength := by
      rw [hconstructed.width] at hwidth
      exact Except.ok.inj hwidth
    have hprobes : 1 < Count.bound := by decide
    refine ⟨⟨hq, rfl, rfl, ?_⟩, hqSettings.dimension_lt, hlists, hprobes, hclustering,
      hqSettings⟩
    rw [hempty]
    exact emptyLists_consistent hne
  · rintro base index hconstructed ⟨hbase, hbaseSettings⟩ hover
    obtain ⟨hempty, copies, hcopies, rfl⟩ := compositeOver_eq_ok_iff.1 hover
    obtain rfl := hconstructed.copies hcopies
    refine ⟨⟨hbase, empty_consistent hconstructed.width, rfl, ?_, by decide, by decide⟩,
      hbaseSettings, hbaseSettings.dimension_lt⟩
    rw [hempty]
    exact Nat.zero_div _

end Index

/-! ## Changes -/

section Changes

variable [Space S E]

/-- What a change of a bare index leaves behind: an append at the root, or a
training or a tuning of any node, accepted or not. -/
inductive Index.Change : Index S E → Index S E → Prop where
  | append (index : Index S E) (elements : Array E) : Change index (index.append elements).1
  | train {index : Index S E} {path : List Child} {sample : Array E}
      {r : Index S E × Except Error Unit} :
      index.changeAt (·.train sample) path = some r → Change index r.1
  | tune {index : Index S E} {path : List Child} {ps : Parameters}
      {r : Index S E × Except Error Unit} :
      index.changeAt (·.tune ps) path = some r → Change index r.1

/-- What a change of a stored index leaves behind: a change of a bare index, an
append under ids, or ids put on an empty index and taken off again. -/
inductive Stored.Change : Stored S E → Stored S E → Prop where
  | bare {index index' : Index S E} : index.Change index' → Change (.bare index) (.bare index')
  | wrap {index : Index S E} {m : IdMap S E} :
      IdMap.wrap index = .ok m → Change (.bare index) (.mapped m)
  | unwrap (m : IdMap S E) : Change (.mapped m) (.bare m.index)
  | append (m : IdMap S E) (elements : Array E) (ids : Array Int64) :
      Change (.mapped m) (.mapped (m.append elements ids).1)
  | appendBatch (m : IdMap S E) (batch : Batch E) (ids : Array Int64) :
      Change (.mapped m) (.mapped (m.appendBatch batch ids).1)

end Changes

/-- The parts of a stored index fit in memory. -/
def Stored.InMemory : Stored S E → Prop
  | .bare index => index.InMemory
  | .mapped m => m.index.InMemory ∧ m.ids.size < Count.signedBound

/-- The parts of an artifact fit in memory. -/
def Artifact.InMemory : Artifact → Prop
  | .float stored => stored.InMemory
  | .binary stored => stored.InMemory

/-- Whatever can be built: constructed indexes, and what changes make of them,
stored and loaded at any time.  Every state fits in memory. -/
inductive Artifact.Built : Artifact → Prop where
  | float {index : Index FloatSpace Single} :
      index.Constructed → (float (.bare index)).InMemory → Built (.float (.bare index))
  | binary {index : Index BinarySpace UInt8} :
      index.Constructed → (binary (.bare index)).InMemory → Built (.binary (.bare index))
  | changeFloat {stored stored' : Stored FloatSpace Single} :
      Built (.float stored) → stored.Change stored' → (float stored').InMemory →
      Built (.float stored')
  | changeBinary {stored stored' : Stored BinarySpace UInt8} :
      Built (.binary stored) → stored.Change stored' → (binary stored').InMemory →
      Built (.binary stored')
  | reload {a a' : Artifact} : Built a → ofBytes (toBytes a) = .ok a' → Built a'

/-! ## What changes keep -/

section Kept

variable [Space S E] [Space.KeepsWidth S]

theorem Index.Change.consistent {index index' : Index S E} (h : index.Change index')
    (hindex : index.Consistent) (hmemory : index'.InMemory) : index'.Consistent := by
  cases h with
  | append elements => exact hindex.append_fst elements hmemory
  | train hr =>
      exact hindex.changeAt (fun index => index.train_sameStock _)
        (fun index hindex hm => hindex.train _ hm) hr hmemory
  | tune hr =>
      exact hindex.changeAt (fun index => index.tune_sameStock _)
        (fun index hindex _ => hindex.tune _) hr hmemory

omit [Space.KeepsWidth S] in
theorem Index.Change.settingsFit {index index' : Index S E} (h : index.Change index')
    (hindex : index.SettingsFit) : index'.SettingsFit := by
  cases h with
  | append elements => exact hindex.append elements
  | train hr => exact hindex.changeAt (fun _ h => h.train _) hr
  | tune hr => exact hindex.changeAt (fun _ h => h.tune _) hr

omit [Space.KeepsWidth S] in
/-- An append under ids keeps one id to a vector. -/
theorem IdMap.Consistent.append {m : IdMap S E} (h : m.Consistent) (elements : Array E)
    (ids : Array Int64) (hmemory : (m.append elements ids).1.index.InMemory) :
    (m.append elements ids).1.Consistent := by
  cases happend : m.append elements ids with
  | mk m' outcome =>
      rw [happend] at hmemory
      rcases append_cases h.index.aligned happend with ⟨-, hcount, index', hindex, rfl⟩ | ⟨-, rfl⟩
      · obtain ⟨hnew, htotal⟩ := h.index.append hindex hmemory
        refine ⟨hnew, ?_⟩
        dsimp only
        rw [Array.size_append, h.ids, hcount, htotal]
      · exact h

omit [Space.KeepsWidth S] in
/-- A change of a stored index leaves the index alone or changes it. -/
theorem Stored.Change.index_cases {s s' : Stored S E} (h : s.Change s') :
    s'.index = s.index ∨ s.index.Change s'.index := by
  have happend : ∀ (m : IdMap S E) (elements : Array E) (ids : Array Int64),
      (m.append elements ids).1.index = m.index ∨
        m.index.Change (m.append elements ids).1.index := by
    intro m elements ids
    have hchange := Index.Change.append m.index elements
    rw [IdMap.append]
    split
    · exact .inl rfl
    · split
      · rename_i index' e heq
        rw [heq] at hchange
        exact .inr hchange
      · rename_i index' heq
        rw [heq] at hchange
        exact .inr hchange
  cases h with
  | bare hchange => exact .inr hchange
  | wrap hwrap =>
      obtain ⟨-, rfl⟩ := IdMap.wrap_eq_ok_iff.1 hwrap
      exact .inl rfl
  | unwrap m => exact .inl rfl
  | append m elements ids => exact happend m elements ids
  | appendBatch m batch ids =>
      by_cases hdimension : batch.dimension = m.index.dimension
      · have heq : m.appendBatch batch ids = m.append batch.whole ids := by
          rw [IdMap.appendBatch, if_pos hdimension]
        rw [heq]
        exact happend m _ ids
      · rw [IdMap.appendBatch, if_neg hdimension]
        exact .inl rfl

/-- Every change of a stored index keeps it consistent and its settings counts
of 64 bits. -/
theorem Stored.Change.kept {s s' : Stored S E} (h : s.Change s') (hmemory : s'.InMemory)
    (hconsistent : s.Consistent) (hsettings : s.index.SettingsFit) :
    s'.Consistent ∧ s'.index.SettingsFit := by
  have hfit : s'.index.SettingsFit := by
    rcases h.index_cases with heq | hchange
    · rw [heq]
      exact hsettings
    · exact hchange.settingsFit hsettings
  refine ⟨?_, hfit⟩
  cases h with
  | bare hchange => exact hchange.consistent hconsistent hmemory
  | wrap hwrap =>
      obtain ⟨hempty, rfl⟩ := IdMap.wrap_eq_ok_iff.1 hwrap
      exact ⟨hconsistent, hempty.symm⟩
  | unwrap m => exact IdMap.Consistent.index hconsistent
  | append m elements ids => exact IdMap.Consistent.append hconsistent elements ids hmemory.1
  | appendBatch m batch ids =>
      by_cases hdimension : batch.dimension = m.index.dimension
      · have heq : m.appendBatch batch ids = m.append batch.whole ids := by
          rw [IdMap.appendBatch, if_pos hdimension]
        rw [heq] at hmemory ⊢
        exact IdMap.Consistent.append hconsistent _ ids hmemory.1
      · rw [IdMap.appendBatch, if_neg hdimension]
        exact hconsistent

end Kept

namespace Artifact

/-- A consistent artifact in memory whose settings are counts of 64 bits. -/
structure Kept (a : Artifact) : Prop where
  consistent : a.Consistent
  settings : match a with
    | .float stored => stored.index.SettingsFit
    | .binary stored => stored.index.SettingsFit
  memory : a.InMemory

private theorem fits_of_stored [Space S E] {s : Stored S E} (hconsistent : s.Consistent)
    (hsettings : s.index.SettingsFit) (hmemory : s.InMemory) : s.Fits := by
  cases s with
  | bare index => exact Index.Consistent.fits hconsistent hsettings hmemory
  | mapped m =>
      have hindex := (IdMap.Consistent.index hconsistent).fits hsettings hmemory.1
      exact ⟨hindex, Nat.lt_trans hmemory.2 (by decide)⟩

/-- What is kept suffices for a stored form. -/
theorem Kept.fits {a : Artifact} (h : a.Kept) : a.Fits := by
  cases a with
  | float stored => exact fits_of_stored h.consistent h.settings h.memory
  | binary stored => exact fits_of_stored h.consistent h.settings h.memory

/-- What was read from a container is consistent and has a stored form. -/
theorem of_ofBytes {bytes : List UInt8} {a : Artifact} (h : ofBytes bytes = .ok a) :
    a.Consistent ∧ a.Fits := by
  obtain ⟨-, -, -, hfits, hcheck, -⟩ := (ofBytesWith_eq_ok_iff Blake3.length_hash).1 h
  exact ⟨check_eq_ok_iff.1 hcheck, hfits⟩

/-- What has a stored form and is in order comes back from its container. -/
theorem Kept.roundtrip {a : Artifact} (h : a.Kept)
    (hlength : (Codec.artifact.encode a).length < Count.bound) : ofBytes (toBytes a) = .ok a :=
  (ofBytesWith_eq_ok_iff Blake3.length_hash).2
    ⟨_, hlength, rfl, h.fits, check_eq_ok_iff.2 h.consistent, List.prefix_refl _⟩

/-- Whatever comes back from a container is what was put into it. -/
theorem Kept.eq_of_reload {a a' : Artifact} (h : a.Kept) (hreload : ofBytes (toBytes a) = .ok a') :
    a' = a := by
  obtain ⟨payload, -, hpack, hfits, -, trailing, htrailing⟩ :=
    (ofBytesWith_eq_ok_iff Blake3.length_hash).1 hreload
  have hpayload := Container.pack_injective Blake3.length_hash hpack
  have hread := Codec.artifact_exact.decode_encode a [] h.fits
  have hread' := Codec.artifact_exact.decode_encode a' trailing hfits
  rw [htrailing, ← hpayload] at hread'
  rw [List.append_nil, hread'] at hread
  exact congrArg Prod.fst (Option.some.inj hread)

/-- Whatever was built is consistent and has settings that are counts of 64
bits. -/
theorem Built.kept {a : Artifact} (h : a.Built) : a.Kept := by
  induction h with
  | float hindex hmemory =>
      obtain ⟨hconsistent, hsettings⟩ := hindex.kept
      exact ⟨hconsistent, hsettings, hmemory⟩
  | binary hindex hmemory =>
      obtain ⟨hconsistent, hsettings⟩ := hindex.kept
      exact ⟨hconsistent, hsettings, hmemory⟩
  | changeFloat _ hchange hmemory ih =>
      obtain ⟨hconsistent, hsettings⟩ := hchange.kept hmemory ih.consistent ih.settings
      exact ⟨hconsistent, hsettings, hmemory⟩
  | changeBinary _ hchange hmemory ih =>
      obtain ⟨hconsistent, hsettings⟩ := hchange.kept hmemory ih.consistent ih.settings
      exact ⟨hconsistent, hsettings, hmemory⟩
  | reload _ hreload ih => exact ih.eq_of_reload hreload ▸ ih

/-- What holds of every index that was constructed, and is kept by every change of an
index, holds of the index of whatever was built. -/
theorem Built.index_induction {P : Index FloatSpace Single → Prop}
    {Q : Index BinarySpace UInt8 → Prop} (hfloat : ∀ index, index.Constructed → P index)
    (hfloatChange : ∀ index index', index.Change index' → P index → P index')
    (hbinary : ∀ index, index.Constructed → Q index)
    (hbinaryChange : ∀ index index', index.Change index' → Q index → Q index') {a : Artifact}
    (h : a.Built) :
    match a with
    | .float stored => P stored.index
    | .binary stored => Q stored.index := by
  induction h with
  | float hindex _ => exact hfloat _ hindex
  | binary hindex _ => exact hbinary _ hindex
  | changeFloat _ hchange _ ih =>
      dsimp only at ih ⊢
      rcases hchange.index_cases with heq | hindex
      · rw [heq]
        exact ih
      · exact hfloatChange _ _ hindex ih
  | changeBinary _ hchange _ ih =>
      dsimp only at ih ⊢
      rcases hchange.index_cases with heq | hindex
      · rw [heq]
        exact ih
      · exact hbinaryChange _ _ hindex ih
  | reload hbuilt hreload ih => exact hbuilt.kept.eq_of_reload hreload ▸ ih

/-- **Nothing that was built is lost when stored.**  Whatever was built, by any
changes in any order, accepted or not, is in order, and as long as the length of
its stored form is a count of 64 bits it comes back from its container as it
was. -/
theorem built_roundtrip {a : Artifact} (h : a.Built) :
    a.check = .ok () ∧
      ((Codec.artifact.encode a).length < Count.bound → ofBytes (toBytes a) = .ok a) :=
  ⟨check_eq_ok_iff.2 h.kept.consistent, h.kept.roundtrip⟩

/-- Two binary vectors of eight dimensions under the same id. -/
def sharedId : Artifact := .binary (.mapped ⟨.flat ⟨⟨⟩, 8, 1, #[1, 2]⟩, #[5, 5]⟩)

/-- They are built by one append to a map that was just made. -/
theorem sharedId_built : sharedId.Built := by
  have hflat : (Index.flat (⟨⟨⟩, 8, 1, #[]⟩ : Flat BinarySpace UInt8)).Constructed :=
    .flat (by decide : 8 < Count.bound) rfl
  have hnone : 0 < Count.signedBound := by decide
  have htwo : 2 < Count.signedBound := by decide
  have hbare := Built.binary hflat hnone
  have hmapped := hbare.changeBinary (.wrap rfl) ⟨hnone, hnone⟩
  have happend : (⟨.flat ⟨⟨⟩, 8, 1, #[]⟩, #[]⟩ : IdMap BinarySpace UInt8).append #[1, 2] #[5, 5] =
      (⟨.flat ⟨⟨⟩, 8, 1, #[1, 2]⟩, #[5, 5]⟩, .ok ()) := rfl
  have hchange := Stored.Change.append
    (⟨.flat ⟨⟨⟩, 8, 1, #[]⟩, #[]⟩ : IdMap BinarySpace UInt8) #[1, 2] #[5, 5]
  rw [happend] at hchange
  exact hmapped.changeBinary hchange ⟨htwo, htwo⟩

/-- An append under ids that are not distinct is stored and loaded again. -/
theorem built_roundtrip_sharedId :
    sharedId.Built ∧ sharedId.check = .ok () ∧ ofBytes (toBytes sharedId) = .ok sharedId := by
  obtain ⟨hcheck, hread⟩ := built_roundtrip sharedId_built
  exact ⟨sharedId_built, hcheck, hread (by decide)⟩

end Artifact

end Proximity

import Proximity.Proofs.Requests.Results

/-!
# Success means that an artifact can be loaded

When a request for an artifact succeeds, the artifact that was made in memory is
in the file that its path leads to, and whoever loads the path has it again:
the same index, down to every setting and link, under the same ids.

An engine does not have to be a new one for that.  It may have gone through any
calls before, since they leave its configuration alone and hand out no handle
twice.

## Main results

* `Engine.Step`, `Engine.Reached` — calls, and the engines they lead to.
* `Engine.Reached.sound` — what holds of every engine.
* `Engine.Offers` — an artifact that can be loaded from a path.
* `Engine.build_durable` — what a request that succeeded leaves behind.
-/

namespace Proximity

/-! ## Registries -/

namespace Registry

variable {r : Registry}

/-- The next handle is not in use, nor is any after it. -/
def Fresh (r : Registry) : Prop := ∀ entry ∈ r.loaded, entry.1 < r.next

theorem Fresh.insert (h : r.Fresh) (a : Artifact) : (r.insert a).1.Fresh := by
  intro entry hentry
  rcases List.mem_append.1 hentry with hold | hnew
  · exact Nat.lt_succ_of_lt (h entry hold)
  · obtain rfl := List.mem_singleton.1 hnew
    exact Nat.lt_succ_self r.next

theorem Fresh.remove (h : r.Fresh) (handle : Nat) : (r.remove handle).1.Fresh := by
  rw [Registry.remove]
  split
  · exact fun entry hentry => h entry (List.mem_filter.1 hentry).1
  · exact h

/-- An artifact that was just registered is there. -/
theorem Fresh.get_insert (h : r.Fresh) (a : Artifact) :
    (r.insert a).1.get (r.insert a).2 = .ok a := by
  have hnone : r.loaded.lookup r.next = none := by
    refine List.lookup_eq_none_iff.2 fun entry hentry => ?_
    have hlt := h entry hentry
    simp only [bne_iff_ne, ne_eq]
    omega
  simp [Registry.insert, Registry.get, List.lookup_append, hnone]

/-- All artifacts in the registry are consistent. -/
def Consistent (r : Registry) : Prop := ∀ entry ∈ r.loaded, entry.2.Consistent

theorem Consistent.insert (h : r.Consistent) {a : Artifact} (ha : a.Consistent) :
    (r.insert a).1.Consistent := by
  intro entry hentry
  rcases List.mem_append.1 hentry with hold | hnew
  · exact h entry hold
  · obtain rfl := List.mem_singleton.1 hnew
    exact ha

theorem Consistent.remove (h : r.Consistent) (handle : Nat) : (r.remove handle).1.Consistent := by
  rw [Registry.remove]
  split
  · exact fun entry hentry => h entry (List.mem_filter.1 hentry).1
  · exact h

theorem Consistent.get (h : r.Consistent) {handle : Nat} {a : Artifact}
    (hget : r.get handle = .ok a) : a.Consistent := by
  rw [Registry.get] at hget
  split at hget
  · rename_i held hlookup
    obtain rfl := Except.ok.inj hget
    obtain ⟨before, after, hloaded, -⟩ := List.lookup_eq_some_iff.1 hlookup
    exact h (handle, held) (hloaded ▸ List.mem_append_right _ List.mem_cons_self)
  · cases hget

end Registry

/-! ## Loading -/

/-- What is loaded is consistent. -/
theorem FileTree.consistent_of_load {files : FileTree} {path : String} {a : Artifact}
    (h : files.load path = .ok a) : a.Consistent := by
  rw [load] at h
  split at h
  · cases h
  · cases h
  · exact (Artifact.of_ofBytes (Except.mapError_eq_ok_iff.1 h)).1

/-- What comes back from its stored form is loaded from where that lies. -/
theorem FileTree.load_of_bytes? {files : FileTree} {path : String} {a : Artifact}
    (hstored : files.bytes? path = some a.toBytes)
    (hreload : Artifact.ofBytes a.toBytes = .ok a) : files.load path = .ok a := by
  rw [load, find?_of_bytes? hstored]
  exact Except.mapError_eq_ok_iff.2 hreload

/-! ## Engines -/

namespace Engine

/-- What a call leaves of an engine. -/
inductive Step : Engine → Engine → Prop where
  | build (e : Engine) (files : FileTree) (r : IndexRequest) (vectors : HostVectors)
      (ids : Array Int64) (path : String) (threads : Nat) (refused : Refused) :
      Step e (e.build files r vectors ids path threads refused).1
  | buildFromTemplate (e : Engine) (files : FileTree) (template : List UInt8)
      (vectors : HostVectors) (ids : Array Int64) (path : String) (threads : Nat)
      (refused : Refused) :
      Step e (e.buildFromTemplate files template vectors ids path threads refused).1
  | train (e : Engine) (r : IndexRequest) (vectors : HostVectors) (threads : Nat)
      (refused : Option String) : Step e (e.train r vectors threads refused).1
  | load (e : Engine) (files : FileTree) (path : String) : Step e (e.load files path).1
  | free (e : Engine) (handle : Nat) : Step e (e.free handle).1

/-- The engines that calls lead to from a new one. -/
inductive Reached : Engine → Prop where
  | start (config : Config) (machineThreads : Nat) :
      config.indexes.Fits → Reached (.start config machineThreads)
  | step {e e' : Engine} : Reached e → Step e e' → Reached e'

/-- An engine whose descriptions leave counts of 64 bits open, whose next handle is not in use
and whose artifacts are consistent. -/
structure Sound (e : Engine) : Prop where
  fits : e.config.indexes.Fits
  fresh : e.registry.Fresh
  loaded : e.registry.Consistent

theorem Sound.record {A : Type} {e : Engine} (h : e.Sound) (operation : Operation)
    (outcome : Except Error A) : (e.record operation outcome).Sound := ⟨h.fits, h.fresh, h.loaded⟩

theorem Sound.countStored {e : Engine} (h : e.Sound) (operation : Operation)
    (outcome : Except Error Summary) : (e.countStored operation outcome).Sound := by
  cases outcome <;> exact ⟨h.fits, h.fresh, h.loaded⟩

/-- Every call keeps an engine sound. -/
theorem Step.sound {e e' : Engine} (h : e.Step e') (hsound : e.Sound) : e'.Sound := by
  have hworkers : ∀ threads refused, (e.workers threads refused).1.Sound :=
    fun _ _ => ⟨hsound.fits, hsound.fresh, hsound.loaded⟩
  cases h with
  | build files r vectors ids path threads refused => exact (hworkers threads _).countStored _ _
  | buildFromTemplate files template vectors ids path threads refused =>
      exact (hworkers threads _).countStored _ _
  | train r vectors threads refused => exact (hworkers threads _).record _ _
  | load files path =>
      rw [Engine.load]
      split
      · exact ⟨hsound.fits, hsound.fresh, hsound.loaded⟩
      · rename_i a hload
        exact ⟨hsound.fits, hsound.fresh.insert _,
          hsound.loaded.insert (FileTree.consistent_of_load hload)⟩
  | free handle => exact ⟨hsound.fits, hsound.fresh.remove handle, hsound.loaded.remove handle⟩

/-- Every engine is sound. -/
theorem Reached.sound {e : Engine} (h : e.Reached) : e.Sound := by
  induction h with
  | start config machineThreads hfits =>
      exact ⟨hfits, fun entry hentry => absurd hentry List.not_mem_nil,
        fun entry hentry => absurd hentry List.not_mem_nil⟩
  | step _ hstep ih => exact hstep.sound ih

/-- An artifact lies at a path, and loading the path gives it. -/
structure Offers (e : Engine) (files : FileTree) (path : String) (a : Artifact) : Prop where
  stored : files.bytes? path = some a.toBytes
  loaded : ∃ handle, (e.load files path).2 = .ok handle ∧
    (e.load files path).1.registry.get handle = .ok a

/-- A sound engine loads what comes back from its stored form. -/
theorem Sound.offers {e : Engine} (h : e.Sound) {files : FileTree} {path : String} {a : Artifact}
    (hstored : files.bytes? path = some a.toBytes)
    (hreload : Artifact.ofBytes a.toBytes = .ok a) : e.Offers files path a := by
  have hload := FileTree.load_of_bytes? hstored hreload
  refine ⟨hstored, e.registry.next, ?_, ?_⟩
  · rw [Engine.load, hload]
    rfl
  · rw [Engine.load, hload]
    exact h.fresh.get_insert a

theorem build_answer (e : Engine) (files : FileTree) (r : IndexRequest) (vectors : HostVectors)
    (ids : Array Int64) (path : String) (threads : Nat) (refused : Refused) :
    (e.build files r vectors ids path threads refused).2 =
      (e.workers threads refused.workers).1.storeMade files
        (onWorkers (e.workers threads refused.workers).2
          (Request.makeNew e.config.indexes r vectors ids path)) refused.write := rfl

theorem buildFromTemplate_answer (e : Engine) (files : FileTree) (template : List UInt8)
    (vectors : HostVectors) (ids : Array Int64) (path : String) (threads : Nat)
    (refused : Refused) :
    (e.buildFromTemplate files template vectors ids path threads refused).2 =
      (e.workers threads refused.workers).1.storeMade files
        (onWorkers (e.workers threads refused.workers).2
          (Request.fillTemplate template vectors ids path)) refused.write := rfl

/-- What was made is written where nothing keeps it from being written. -/
private theorem storeMade_outcome {e : Engine} {files : FileTree}
    {made : Traced (Artifact × Summary)} {refused : Option WriteStage} {a : Artifact}
    {summary : Summary}
    (hfree : files.failsAt? summary.path e.config.syncWrites refused = none)
    (hmade : made.outcome = .ok (a, summary)) :
    (e.storeMade files made refused).2.outcome = .ok summary := by
  rw [storeMade_of_ok e files hmade, FileTree.store_outcome_eq, hfree]
  rfl

/-- What was stored was made, and is at its path. -/
private theorem of_storeMade {e : Engine} {files : FileTree} {made : Traced (Artifact × Summary)}
    {refused : Option WriteStage} {summary : Summary}
    (h : (e.storeMade files made refused).2.outcome = .ok summary) :
    ∃ a, made.outcome = .ok (a, summary) ∧
      (e.storeMade files made refused).1.bytes? summary.path = some a.toBytes := by
  cases hmade : made.outcome with
  | error failure =>
      rw [storeMade_of_error e files hmade] at h
      cases h
  | ok result =>
      obtain ⟨a, found⟩ := result
      rw [storeMade_of_ok e files hmade] at h ⊢
      obtain ⟨u, hwritten, rfl⟩ := Except.map_eq_ok_iff.1 h
      exact ⟨a, rfl, FileTree.bytes?_store (Prod.ext rfl hwritten)⟩

section Success

variable {e : Engine} {files : FileTree} {vectors : HostVectors} {ids : Array Int64} {path : String}
  {threads : Nat} {refused : Refused} {summary : Summary}

/-- A request that succeeded left the artifact that it made at its path. -/
theorem of_build {r : IndexRequest}
    (h : (e.build files r vectors ids path threads refused).2.2.outcome = .ok summary) :
    ∃ a, (Request.makeNew e.config.indexes r vectors ids path).outcome = .ok (a, summary) ∧
      summary.total = ids.size ∧
      (e.build files r vectors ids path threads refused).2.1.bytes? path = some a.toBytes := by
  rw [build_answer] at h ⊢
  obtain ⟨a, hanswered, hstored⟩ := of_storeMade h
  have hmade := outcome_of_onWorkers hanswered
  obtain ⟨rfl, htotal⟩ := (Request.makeNew_follows _ r vectors ids path).of_outcome hmade
  exact ⟨a, hmade, htotal, hstored⟩

theorem of_buildFromTemplate {template : List UInt8}
    (h : (e.buildFromTemplate files template vectors ids path threads refused).2.2.outcome =
      .ok summary) :
    ∃ a, (Request.fillTemplate template vectors ids path).outcome = .ok (a, summary) ∧
      summary.total = ids.size ∧
      (e.buildFromTemplate files template vectors ids path threads refused).2.1.bytes? path =
        some a.toBytes := by
  rw [buildFromTemplate_answer] at h ⊢
  obtain ⟨a, hanswered, hstored⟩ := of_storeMade h
  have hmade := outcome_of_onWorkers hanswered
  obtain ⟨rfl, htotal⟩ := (Request.fillTemplate_follows template vectors ids path).of_outcome hmade
  exact ⟨a, hmade, htotal, hstored⟩

/-- What can be made and can be written is built. -/
theorem build_outcome {r : IndexRequest} {a : Artifact}
    (hmade : (Request.makeNew e.config.indexes r vectors ids path).outcome = .ok (a, summary))
    (hworkers : (e.workersStage threads refused.workers).fault? = none)
    (hfree : files.failsAt? path e.config.syncWrites refused.write = none) :
    (e.build files r vectors ids path threads refused).2.2.outcome = .ok summary := by
  obtain ⟨rfl, -⟩ := (Request.makeNew_follows _ r vectors ids path).of_outcome hmade
  rw [build_answer, onWorkers_of_fault? hworkers]
  exact storeMade_outcome hfree hmade

theorem buildFromTemplate_outcome {template : List UInt8} {a : Artifact}
    (hmade : (Request.fillTemplate template vectors ids path).outcome = .ok (a, summary))
    (hworkers : (e.workersStage threads refused.workers).fault? = none)
    (hfree : files.failsAt? path e.config.syncWrites refused.write = none) :
    (e.buildFromTemplate files template vectors ids path threads refused).2.2.outcome =
      .ok summary := by
  obtain ⟨rfl, -⟩ := (Request.fillTemplate_follows template vectors ids path).of_outcome hmade
  rw [buildFromTemplate_answer, onWorkers_of_fault? hworkers]
  exact storeMade_outcome hfree hmade

end Success

/-- **Success means that an artifact can be loaded.**  When a request for a new
artifact succeeds, on any engine and over any files, an artifact was made in
memory: it stores the whole vectors of the request in order, under its ids in
order, and has the settings that the description names and the parameters
overlay.  Its stored form is in the file that the path leads to, and loading the
path gives the very same artifact, if a machine can hold it.  The same holds of a
request to fill a template, whose settings are those of the template. -/
theorem build_durable {e : Engine} (he : e.Reached) (files : FileTree) (vectors : HostVectors)
    (ids : Array Int64) (path : String) (threads : Nat) (refused : Refused) :
    (∀ (r : IndexRequest) (summary : Summary), r.dimension < Count.bound →
      let after := e.build files r vectors ids path threads refused
      after.2.2.outcome = .ok summary →
      summary.total = ids.size ∧ ∃ a description settings,
        (Request.makeNew e.config.indexes r vectors ids path).outcome = .ok (a, summary) ∧
        Request.asked r = .ok description ∧
        (description.settings e.config.indexes).tuned r.parameters = .ok settings ∧
        a.MadeOf r.spaceType r.dimension settings vectors ids ∧
        after.2.1.bytes? path = some a.toBytes ∧
        (a.Storable → after.1.Offers after.2.1 path a)) ∧
    ∀ (template : List UInt8) (summary : Summary),
      let after := e.buildFromTemplate files template vectors ids path threads refused
      after.2.2.outcome = .ok summary →
      summary.total = ids.size ∧ ∃ a held,
        (Request.fillTemplate template vectors ids path).outcome = .ok (a, summary) ∧
        Artifact.ofBytes template = .ok held ∧
        a.MadeOf held.spaceType held.dimension held.settings vectors ids ∧
        after.2.1.bytes? path = some a.toBytes ∧
        (a.Storable → after.1.Offers after.2.1 path a) := by
  constructor
  · intro r summary hdimension after hok
    have hsound : after.1.Sound := (Step.build ..).sound he.sound
    obtain ⟨a, hmade, htotal, hstored⟩ := of_build hok
    obtain ⟨description, settings, blank, hread, htuned, hspaceType, hblank, hsettings, hfilled⟩ :=
      Request.of_makeNew he.sound.fits hdimension hmade
    have hof := hfilled.madeOf
    rw [hspaceType, hblank, hsettings] at hof
    exact ⟨htotal, a, description, settings, hmade, hread, htuned, hof, hstored,
      fun hstorable => hsound.offers hstored (hfilled.reload hstorable)⟩
  · intro template summary after hok
    have hsound : after.1.Sound := (Step.buildFromTemplate ..).sound he.sound
    obtain ⟨a, hmade, htotal, hstored⟩ := of_buildFromTemplate hok
    obtain ⟨held, hread, hfilled⟩ := Request.of_fillTemplate hmade
    exact ⟨htotal, a, held, hmade, hread, hfilled.madeOf, hstored,
      fun hstorable => hsound.offers hstored (hfilled.reload hstorable)⟩

/-- A request for plain storage of bit vectors with sixteen bits. -/
def plainRequest : IndexRequest := ⟨"BFlat", 16, .hamming, []⟩

/-- Two such vectors, and a byte that is left over. -/
def fiveBytes : HostVectors := .binary ⟨.lent, #[1, 2, 3, 4, 5]⟩

/-- The storage before it is filled. -/
def plainBlank : Artifact := .binary (.bare (.flat ⟨⟨⟩, 16, 2, #[]⟩))

/-- The storage of both vectors, under the same id. -/
def plainFilled : Artifact := .binary (.mapped ⟨.flat ⟨⟨⟩, 16, 2, #[1, 2, 3, 4]⟩, #[7, 7]⟩)

theorem reload_plainBlank : Artifact.ofBytes plainBlank.toBytes = .ok plainBlank := by
  have hdimension : 16 < Count.bound := by decide
  have hmemory : 0 < Count.signedBound := by decide
  have hkept : plainBlank.Kept := ⟨Artifact.check_eq_ok_iff.1 rfl, hdimension, hmemory⟩
  exact hkept.roundtrip (by decide)

theorem storable_plainFilled : plainFilled.Storable := by
  have hdata : 4 < Count.signedBound := by decide
  have hids : 2 < Count.signedBound := by decide
  exact ⟨⟨hdata, hids⟩, by decide⟩

theorem standard_reached : (start .standard 1).Reached :=
  .start _ _ ⟨by decide, by decide, by decide, by decide, by decide⟩

/-- Nothing keeps a file from being written to an empty tree. -/
theorem failsAt?_empty : FileTree.empty.failsAt? "a" true none = none := by
  refine FileTree.failsAt?_eq_none (p := ["a.tmp"]) (q := ["a"]) ?_ ?_ ?_ true
  all_goals simp +decide [FileTree.makeDirectories, FileTree.makeAlong, FileTree.placeForFile?,
    FileTree.place?, FileTree.follow?, FileTree.temporaryPath, Route.ofPath, Route.parentPath,
    Route.trimEnd, String.splitOn, String.splitOnAux]

/-- Two vectors are stored under one id in an empty tree, in a new index or in a
template, and found again.  The left-over byte is not. -/
theorem build_durable_fiveBytes :
    ∃ template, Artifact.ofBytes template = .ok plainBlank ∧
      let e := start .standard 1
      let built := e.build .empty plainRequest fiveBytes #[7, 7] "a" 0 .nothing
      let filled := e.buildFromTemplate .empty template fiveBytes #[7, 7] "a" 0 .nothing
      let summary := ⟨"a", .binary, .flat, 16, 2, .lent⟩
      e.Reached ∧ plainRequest.dimension < Count.bound ∧ built.2.2.outcome = .ok summary ∧
        filled.2.2.outcome = .ok summary ∧ plainFilled.Storable ∧
        plainFilled.MadeOf .hamming 16 .flat fiveBytes #[7, 7] ∧
        built.1.Offers built.2.1 "a" plainFilled ∧ filled.1.Offers filled.2.1 "a" plainFilled := by
  obtain ⟨template, hread⟩ : ∃ template, Artifact.ofBytes template = .ok plainBlank :=
    ⟨_, reload_plainBlank⟩
  refine ⟨template, hread, ?_⟩
  intro e built filled summary
  have hdimension : plainRequest.dimension < Count.bound := by decide
  have hnew : (Request.makeNew e.config.indexes plainRequest fiveBytes #[7, 7] "a").outcome =
      .ok (plainFilled, summary) := rfl
  have htemplate : (Request.fillTemplate template fiveBytes #[7, 7] "a").outcome =
      .ok (plainFilled, summary) := by
    rw [fiveBytes, Request.fillTemplate_binary _ _ hread]
    rfl
  have hbuilt : built.2.2.outcome = .ok summary :=
    build_outcome hnew (e.workersStage_none 0) failsAt?_empty
  have hfilled : filled.2.2.outcome = .ok summary :=
    buildFromTemplate_outcome htemplate (e.workersStage_none 0) failsAt?_empty
  obtain ⟨hbuild, hfill⟩ := build_durable standard_reached .empty fiveBytes #[7, 7] "a" 0 .nothing
  obtain ⟨-, a, -, settings, ha, -, -, hof, -, hbuiltOffers⟩ :=
    hbuild plainRequest summary hdimension hbuilt
  obtain rfl : plainFilled = a := (Prod.mk.inj (Except.ok.inj (hnew.symm.trans ha))).1
  obtain rfl : Settings.flat = settings := hof.settings
  obtain ⟨-, a, held, ha, -, -, -, hfilledOffers⟩ := hfill template summary hfilled
  obtain rfl : plainFilled = a := (Prod.mk.inj (Except.ok.inj (htemplate.symm.trans ha))).1
  exact ⟨standard_reached, hdimension, hbuilt, hfilled, storable_plainFilled, hof,
    hbuiltOffers storable_plainFilled, hfilledOffers storable_plainFilled⟩

end Engine

end Proximity

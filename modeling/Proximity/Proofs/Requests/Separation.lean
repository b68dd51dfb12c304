import Proximity.Proofs.Atomicity
import Proximity.Proofs.Requests.Durability

/-!
# Requests for different paths

A request that makes an artifact touches the file at its path and the temporary file
beside it, and no other file.  So in a run of requests, with whatever success, the
artifact of one of them can be loaded for as long as no later one is for the same
place or has its temporary file there.

## Main definitions

* `Order`, `Engine.carryOut`, `Engine.carryOutAll` — requests, and runs of them.
* `Order.Spares` — requests that do not touch the file at a path.

## Main results

* `Engine.bytes?_carryOut`, `Engine.bytes?_carryOutAll` — files that are not touched.
* `Engine.of_carryOut` — what a request that succeeded leaves behind.
* `Engine.orders_apart` — writes and requests for different places.
-/

namespace Proximity

/-! ## Runs of requests -/

/-- What an artifact is made of, besides vectors. -/
inductive Source where
  | described (r : IndexRequest)
  | template (bytes : List UInt8)

/-- A request for an artifact in a file, on a machine that may refuse workers or to write
it. -/
structure Order where
  source : Source
  vectors : HostVectors
  ids : Array Int64
  path : String
  threads : Nat
  refused : Refused

namespace Order

/-- Making the artifact. -/
def make (o : Order) (defaults : IndexDefaults) : Traced (Artifact × Summary) :=
  match o.source with
  | .described r => Request.makeNew defaults r o.vectors o.ids o.path
  | .template bytes => Request.fillTemplate bytes o.vectors o.ids o.path

/-- The dimension that is asked for is a count of 64 bits. -/
def Counts (o : Order) : Prop :=
  match o.source with
  | .described r => r.dimension < Count.bound
  | .template _ => True

/-- The request is for another place, and so is its temporary file. -/
structure Spares (o : Order) (path : String) : Prop where
  place : FileTree.destination path ≠ FileTree.destination o.path
  temporary : FileTree.destination path ≠ FileTree.destination (FileTree.temporaryPath o.path)

end Order

namespace Engine

/-- Carries out a request. -/
def carryOut (e : Engine) (files : FileTree) (o : Order) : Engine × FileTree × Traced Summary :=
  match o.source with
  | .described r => e.build files r o.vectors o.ids o.path o.threads o.refused
  | .template bytes => e.buildFromTemplate files bytes o.vectors o.ids o.path o.threads o.refused

/-- Carries out requests one after the other. -/
def carryOutAll : Engine → FileTree → List Order → Engine × FileTree
  | e, files, [] => (e, files)
  | e, files, o :: orders =>
    let after := e.carryOut files o
    carryOutAll after.1 after.2.1 orders

theorem carryOutAll_append (e : Engine) (files : FileTree) (before after : List Order) :
    e.carryOutAll files (before ++ after) =
      (e.carryOutAll files before).1.carryOutAll (e.carryOutAll files before).2 after := by
  induction before generalizing e files with
  | nil => rfl
  | cons o before ih => exact ih _ _

variable {e : Engine} {files : FileTree} {o : Order} {path : String}

theorem Reached.carryOut (h : e.Reached) (files : FileTree) (o : Order) :
    (e.carryOut files o).1.Reached := by
  rw [Engine.carryOut]
  cases o.source with
  | described r => exact h.step (.build ..)
  | template bytes => exact h.step (.buildFromTemplate ..)

theorem Reached.carryOutAll (h : e.Reached) (files : FileTree) (orders : List Order) :
    (e.carryOutAll files orders).1.Reached := by
  induction orders generalizing e files with
  | nil => exact h
  | cons o orders ih => exact ih (h.carryOut files o) _

/-! ## Files that are not touched -/

/-- A request makes its artifact and writes it, if it was made. -/
private theorem carryOut_answer (e : Engine) (files : FileTree) (o : Order) :
    (e.carryOut files o).2 =
      (e.workers o.threads o.refused.workers).1.storeMade files
        (onWorkers (e.workers o.threads o.refused.workers).2 (o.make e.config.indexes))
        o.refused.write := by
  rw [carryOut, Order.make]
  cases o.source <;> rfl

/-- The summary of what is made names the path. -/
private theorem path_of_make {defaults : IndexDefaults} {a : Artifact} {summary : Summary}
    (h : (o.make defaults).outcome = .ok (a, summary)) : summary.path = o.path := by
  rw [Order.make] at h
  split at h
  · rw [((Request.makeNew_follows _ _ _ _ _).of_outcome h).1]
  · rw [((Request.fillTemplate_follows _ _ _ _).of_outcome h).1]

/-- The only write of a request is one to its path. -/
theorem files_carryOut (e : Engine) (files : FileTree) (o : Order) :
    (e.carryOut files o).2.1 = files ∨
      ∃ bytes, (e.carryOut files o).2.1 =
        (files.store o.path bytes e.config.syncWrites o.refused.write).1 := by
  rw [carryOut_answer]
  cases hmade : (onWorkers (e.workers o.threads o.refused.workers).2
      (o.make e.config.indexes)).outcome with
  | error failure =>
      rw [storeMade_of_error _ files hmade]
      exact .inl rfl
  | ok result =>
      obtain ⟨a, summary⟩ := result
      rw [storeMade_of_ok _ files hmade, path_of_make (outcome_of_onWorkers hmade)]
      exact .inr ⟨a.toBytes, rfl⟩

/-- A request leaves the file at a path alone unless it is for the same place. -/
theorem bytes?_carryOut (hspares : o.Spares path) {content : List UInt8}
    (hbytes : files.bytes? path = some content) :
    (e.carryOut files o).2.1.bytes? path = some content := by
  rcases e.files_carryOut files o with hsame | ⟨bytes, hstore⟩
  · rw [hsame]
    exact hbytes
  · have hwritten := files.store_written o.path bytes e.config.syncWrites o.refused.write
    rw [← hstore] at hwritten
    exact hwritten.bytes? hspares.temporary (fun _ => hspares.place) hbytes

theorem bytes?_carryOutAll {orders : List Order} (hspare : ∀ o ∈ orders, o.Spares path)
    {content : List UInt8} (hbytes : files.bytes? path = some content) :
    (e.carryOutAll files orders).2.bytes? path = some content := by
  induction orders generalizing e files with
  | nil => exact hbytes
  | cons o orders ih =>
      have hfirst := bytes?_carryOut (e := e) (hspare o List.mem_cons_self) hbytes
      exact ih (fun other hother => hspare other (List.mem_cons_of_mem o hother)) hfirst

/-! ## Artifacts of runs -/

/-- A request that succeeded made an artifact and left it at its path. -/
theorem of_carryOut (he : e.Reached) (hcounts : o.Counts) {summary : Summary}
    (h : (e.carryOut files o).2.2.outcome = .ok summary) :
    ∃ a, (o.make e.config.indexes).outcome = .ok (a, summary) ∧
      (e.carryOut files o).2.1.bytes? o.path = some a.toBytes ∧
      (a.Storable → Artifact.ofBytes a.toBytes = .ok a) := by
  rw [carryOut, Order.Counts] at *
  rw [Order.make]
  cases hsource : o.source with
  | described r =>
      rw [hsource] at h hcounts
      obtain ⟨a, hmade, -, hstored⟩ := of_build h
      obtain ⟨_, _, _, _, _, _, _, _, hfilled⟩ :=
        Request.of_makeNew he.sound.fits hcounts hmade
      exact ⟨a, hmade, hstored, fun hstorable => hfilled.reload hstorable⟩
  | template bytes =>
      rw [hsource] at h
      obtain ⟨a, hmade, -, hstored⟩ := of_buildFromTemplate h
      obtain ⟨_, -, hfilled⟩ := Request.of_fillTemplate hmade
      exact ⟨a, hmade, hstored, fun hstorable => hfilled.reload hstorable⟩

/-- **Writes and requests for different places.**  Every write, whatever comes of it,
leaves all files alone but those at its temporary path and, if it succeeds, at its
path.  So in every run of requests, on any engine and over any files, the artifact of
one that succeeded can be loaded from its path at the end of the run, if no later one
is for the same place or has its temporary file there, and a machine can hold it. -/
theorem orders_apart :
    (∀ (t : FileTree) (path : String) (bytes : List UInt8) (sync : Bool)
        (refused : Option WriteStage),
      let after := t.store path bytes sync refused
      (∀ place content, t.entry? place = some (.file content) →
        place ≠ FileTree.destination (FileTree.temporaryPath path) →
        (after.2 = .ok () → place ≠ FileTree.destination path) →
        FileTree.entry? after.1 place = some (.file content)) ∧
      ∀ other content, t.bytes? other = some content →
        FileTree.destination other ≠ FileTree.destination (FileTree.temporaryPath path) →
        (after.2 = .ok () → FileTree.destination other ≠ FileTree.destination path) →
        after.1.bytes? other = some content) ∧
    ∀ (e : Engine) (files : FileTree) (before after : List Order) (o : Order) (summary : Summary),
      e.Reached → o.Counts →
      let ready := e.carryOutAll files before
      let final := e.carryOutAll files (before ++ o :: after)
      (ready.1.carryOut ready.2 o).2.2.outcome = .ok summary →
      (∀ later ∈ after, later.Spares o.path) →
      ∃ a, (o.make ready.1.config.indexes).outcome = .ok (a, summary) ∧
        final.2.bytes? o.path = some a.toBytes ∧
        (a.Storable → final.1.Offers final.2 o.path a) := by
  constructor
  · intro t path bytes sync refused after
    have hwritten := t.store_written path bytes sync refused
    exact ⟨fun _ _ hfile htemporary hpath => hwritten.entry?_eq_some htemporary hpath hfile,
      fun _ _ hbytes htemporary hpath => hwritten.bytes? htemporary hpath hbytes⟩
  · intro e files before after o summary he hcounts ready final hok hspare
    -- the artifact is there after its own request, and the later ones spare it
    have hready : ready.1.Reached := he.carryOutAll files before
    obtain ⟨a, hmade, hstored, hreload⟩ := of_carryOut hready hcounts hok
    have hfinal : final = (ready.1.carryOut ready.2 o).1.carryOutAll
        (ready.1.carryOut ready.2 o).2.1 after :=
      e.carryOutAll_append files before (o :: after)
    have hkept : final.2.bytes? o.path = some a.toBytes := by
      rw [hfinal]
      exact bytes?_carryOutAll hspare hstored
    have hsound : final.1.Sound := (he.carryOutAll files (before ++ o :: after)).sound
    exact ⟨a, hmade, hkept, fun hstorable => hsound.offers hkept (hreload hstorable)⟩

/-- A request for plain storage of two vectors under one id. -/
def plainOrder (path : String) : Order :=
  ⟨.described plainRequest, fiveBytes, #[7, 7], path, 0, .nothing⟩

/-- A request for another file does not touch the artifact of an earlier one. -/
theorem orders_apart_twoFiles :
    let e := start .standard 1
    let final := e.carryOutAll .empty [plainOrder "a", plainOrder "b"]
    e.Reached ∧ (plainOrder "a").Counts ∧
      (e.carryOut .empty (plainOrder "a")).2.2.outcome =
        .ok ⟨"a", .binary, .flat, 16, 2, .lent⟩ ∧
      (plainOrder "b").Spares "a" ∧ final.1.Offers final.2 "a" plainFilled := by
  intro e final
  have hdimension : (plainOrder "a").Counts := by
    show 16 < Count.bound
    decide
  have hnew : (Request.makeNew e.config.indexes plainRequest fiveBytes #[7, 7] "a").outcome =
      .ok (plainFilled, ⟨"a", .binary, .flat, 16, 2, .lent⟩) := rfl
  have hok : (e.carryOut .empty (plainOrder "a")).2.2.outcome =
      .ok ⟨"a", .binary, .flat, 16, 2, .lent⟩ :=
    build_outcome hnew (e.workersStage_none 0) failsAt?_empty
  have hspares : (plainOrder "b").Spares "a" := by
    have ha := FileTree.destination_name (by decide : Route.PlainName "a")
    have hb := FileTree.destination_name (by decide : Route.PlainName "b")
    have htemporary := FileTree.destination_name (by decide : Route.PlainName "b.tmp")
    refine ⟨?_, ?_⟩
    · show FileTree.destination "a" ≠ FileTree.destination "b"
      rw [ha, hb]
      decide
    · show FileTree.destination "a" ≠ FileTree.destination "b.tmp"
      rw [ha, htemporary]
      decide
  obtain ⟨a, hmade, -, hoffers⟩ := orders_apart.2 e .empty [] [plainOrder "b"] (plainOrder "a") _
    standard_reached hdimension hok (List.forall_mem_singleton.2 hspares)
  obtain rfl : plainFilled = a := (Prod.mk.inj (Except.ok.inj (hnew.symm.trans hmade))).1
  exact ⟨standard_reached, hdimension, hok, hspares, hoffers storable_plainFilled⟩

end Engine

/-- A write destroys the file of another path if that is its temporary path. -/
theorem FileTree.store_over_temporary :
    (⟨[(["a.tmp"], .file [7])]⟩ : FileTree).bytes? "a.tmp" = some [7] ∧
      (⟨[(["a.tmp"], .file [7])]⟩ : FileTree).store "a" [1] true none =
        (⟨[(["a"], .file [1])]⟩, .ok ()) ∧
      (⟨[(["a"], .file [1])]⟩ : FileTree).bytes? "a.tmp" = none := by
  have hplain : Route.PlainName "a" := by decide
  have hbeside : Route.PlainName "a.tmp" := by decide
  have hthere : (⟨[(["a.tmp"], .file [7])]⟩ : FileTree).placeForFile? "a.tmp" = some ["a.tmp"] :=
    placeForFile?_name hbeside rfl
  refine ⟨bytes?_eq_some_of_place hthere rfl, ?_, bytes?_eq_none ?_⟩
  · rw [store_eq (makeDirectories_parentPath_name hplain) hthere, placeForFile?_name hplain rfl]
    decide
  · rw [destination_name hbeside]
    decide

end Proximity

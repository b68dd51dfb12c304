import Proximity.Config
import Proximity.Files.Store
import Proximity.Host.Metrics
import Proximity.Host.Pools
import Proximity.Host.Registry
import Proximity.Host.Request

/-!
# The engine

The engine is what a host talks to.  It makes artifacts and stores them, loads
stored artifacts and answers queries about them, and counts what happened.
Every operation answers with the engine it leaves behind; files are those of
a tree that the host passes in and gets back.

## Main definitions

* `Engine.start` — an engine of a configuration.
* `Engine.build`, `Engine.buildFromTemplate`, `Engine.train` — making
  artifacts.
* `Engine.load`, `Engine.free` — loaded artifacts.
* `Engine.query`, `Engine.queryRange` — answers.
-/

namespace Proximity

/-- The state of an engine. -/
structure Engine where
  config : Config
  pools : PoolCache
  registry : Registry
  metrics : Metrics

/-- What a machine refuses a call. -/
structure Refused where
  /-- New workers, for some reason. -/
  workers : Option String
  write : Option WriteStage
deriving DecidableEq, Repr

/-- Nothing is refused. -/
def Refused.nothing : Refused := ⟨none, none⟩

/-- A query vector. -/
inductive QueryVector where
  | float (vector : Array Single)
  | binary (vector : Array UInt8)
deriving Repr

/-- A result of a query. -/
structure QueryResult where
  id : Int64
  distance : Single
  /-- Higher is better. -/
  score : Single
deriving DecidableEq, Repr

namespace Engine

/-- An engine of a configuration, on a machine with some threads. -/
def start (config : Config) (machineThreads : Nat) : Engine :=
  ⟨config, .empty (config.threadLimit machineThreads) config.maxPools, .empty, .empty⟩

/-- Gets the workers of a call; a call that asks for none gets the configured
ones. -/
def workers (e : Engine) (hint : Nat) (refused : Option String) :
    Engine × Except Error Workers :=
  let (pools, workers) := e.pools.request (if hint = 0 then e.config.threads else hint) refused
  ({ e with pools }, workers)

/-- Counts the outcome of an operation. -/
def record {A : Type} (e : Engine) (operation : Operation) (outcome : Except Error A) : Engine :=
  { e with
    metrics := e.metrics.record operation
      (match outcome with
        | .ok _ => none
        | .error failure => some failure) }

/-! ## Making artifacts -/

/-- Makes something on workers, if the call got them. -/
def onWorkers {A : Type} (workers : Except Error Workers) (make : Traced A) : Traced A := do
  let _ ← Traced.quiet workers
  make

/-- Stores an artifact that was made, if it was. -/
def storeMade (e : Engine) (files : FileTree) (made : Traced (Artifact × Summary))
    (refused : Option WriteStage) : FileTree × Traced Summary :=
  match made.outcome with
  | .error failure => (files, ⟨made.calls, .error failure⟩)
  | .ok (artifact, summary) =>
    let sync := e.config.syncWrites
    let (files, outcome) := files.store summary.path artifact.toBytes sync refused
    (files, ⟨made.calls ++ [.write sync], outcome.map fun _ => summary⟩)

/-- Counts an artifact that was stored. -/
def countStored (e : Engine) (operation : Operation) (outcome : Except Error Summary) : Engine :=
  let e := e.record operation outcome
  match outcome with
  | .ok summary =>
    { e with
      metrics :=
        { e.metrics with vectorsIndexed := e.metrics.vectorsIndexed + summary.total } }
  | .error _ => e

/-- Builds a new index and stores it. -/
def build (e : Engine) (files : FileTree) (r : IndexRequest) (vectors : HostVectors)
    (ids : Array Int64) (path : String) (threads : Nat) (refused : Refused) :
    Engine × FileTree × Traced Summary :=
  let (e, workers) := e.workers threads refused.workers
  let made := onWorkers workers (Request.makeNew e.config.indexes r vectors ids path)
  let (files, answer) := e.storeMade files made refused.write
  (e.countStored .build answer.outcome, files, answer)

/-- Fills a template and stores it. -/
def buildFromTemplate (e : Engine) (files : FileTree) (template : List UInt8)
    (vectors : HostVectors) (ids : Array Int64) (path : String) (threads : Nat)
    (refused : Refused) : Engine × FileTree × Traced Summary :=
  let (e, workers) := e.workers threads refused.workers
  let made := onWorkers workers (Request.fillTemplate template vectors ids path)
  let (files, answer) := e.storeMade files made refused.write
  (e.countStored .buildFromTemplate answer.outcome, files, answer)

/-- Makes a template and answers with its bytes. -/
def train (e : Engine) (r : IndexRequest) (vectors : HostVectors) (threads : Nat)
    (refused : Option String) : Engine × Traced (List UInt8) :=
  let (e, workers) := e.workers threads refused
  let made := onWorkers workers (Request.makeTemplate e.config.indexes r vectors)
  let answer : Traced (List UInt8) := ⟨made.calls, made.outcome.map Artifact.toBytes⟩
  (e.record .train answer.outcome, answer)

/-! ## Loaded artifacts -/

/-- Registers an artifact. -/
def register (e : Engine) (a : Artifact) : Engine × Nat :=
  let (registry, handle) := e.registry.insert a
  ({ e with
    registry
    metrics := { e.metrics with loaded := registry.loaded.length } }, handle)

/-- Loads the artifact at a path and answers with its handle. -/
def load (e : Engine) (files : FileTree) (path : String) : Engine × Except Error Nat :=
  match files.load path with
  | .error failure => (e.record .load (.error failure : Except Error Nat), .error failure)
  | .ok a =>
    let (e, handle) := e.register a
    (e.record .load (.ok handle), .ok handle)

/-- Forgets the artifact of a handle. -/
def free (e : Engine) (handle : Nat) : Engine × Except Error Unit :=
  let (registry, outcome) := e.registry.remove handle
  let e :=
    { e with
      registry
      metrics := { e.metrics with loaded := registry.loaded.length } }
  (e.record .free outcome, outcome)

/-! ## Answers -/

/-- Whether a filter, if there is one, has an id. -/
def accepts (filter : Option (List Int64)) (id : Int64) : Bool :=
  match filter with
  | none => true
  | some ids => ids.contains id

/-- Hits with their scores. -/
def results (spaceType : SpaceType) (hits : List (Hit Int64)) : List QueryResult :=
  hits.map fun h => ⟨h.label, h.distance, spaceType.score h.distance⟩

/-- Hits of a bare index, whose labels serve as ids. -/
def labelHits (hits : List (Hit Nat)) : List (Hit Int64) :=
  hits.map fun h => ⟨Int64.ofNat h.label, h.distance⟩

section Space

variable {S E : Type} [Space S E]

/-- The `k` nearest vectors of a stored index. -/
def searchStored (stored : Stored S E) (query : Array E) (k : Nat) (accept : Int64 → Bool) :
    Except Error (List (Hit Int64)) :=
  match stored with
  | .bare index => labelHits <$> index.search query k fun label => accept (Int64.ofNat label)
  | .mapped map => map.search query k accept

/-- The vectors of a stored index within a distance. -/
def searchStoredRange (stored : Stored S E) (query : Array E) (radius : Single)
    (accept : Int64 → Bool) : Except Error (List (Hit Int64)) :=
  match stored with
  | .bare index =>
    labelHits <$> index.searchRange query radius fun label => accept (Int64.ofNat label)
  | .mapped map => map.searchRange query radius accept

end Space

/-- Refuses a query of the other kind of vectors. -/
def otherQuery {A : Type} (a : Artifact) : Except Error A :=
  .error (.invalidParameter "query" (.otherKind a.kind))

/-- The `k` nearest vectors of a loaded artifact. -/
def query (e : Engine) (handle : Nat) (vector : QueryVector) (k : Nat)
    (filter : Option (List Int64)) : Except Error (List QueryResult) := do
  let artifact ← e.registry.get handle
  let hits ←
    match artifact, vector with
    | .float stored, .float v => searchStored stored v k (accepts filter)
    | .binary stored, .binary v => searchStored stored v k (accepts filter)
    | a, _ => otherQuery a
  return results artifact.spaceType hits

/-- The vectors of a loaded artifact within a distance, at most `most` of
them. -/
def queryRange (e : Engine) (handle : Nat) (vector : QueryVector) (radius : Single) (most : Nat)
    (filter : Option (List Int64)) : Except Error (List QueryResult) := do
  let artifact ← e.registry.get handle
  let hits ←
    match artifact, vector with
    | .float stored, .float v => searchStoredRange stored v radius (accepts filter)
    | .binary stored, .binary v => searchStoredRange stored v radius (accepts filter)
    | a, _ => otherQuery a
  return results artifact.spaceType (hits.take most)

end Engine

end Proximity

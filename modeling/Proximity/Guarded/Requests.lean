import Proximity.Guarded.Trees
import Proximity.Host.Engine

/-!
# Guarded requests

A request makes its artifact in memory, and may stop the machine there: the lists of an
inverted file are made when an index is described, and a graph makes room when vectors are
put into it.  Requests follow the total ones step by step.  A request that stops the
machine answers nothing, and writes nothing either.

## Main definitions

* `Guarded.goOn?`, `Traced.andThen?` — steps of which the second one may stop the machine.
* `Index.invertedFileOver?`, `IndexDefaults.build?` — guarded construction.
* `Request.makeNew?`, `Request.fillTemplate?`, `Request.makeTemplate?` — guarded ways to an
  artifact.
* `Engine.build?`, `Engine.buildFromTemplate?`, `Engine.train?`, `Engine.query?`,
  `Engine.queryRange?` — guarded calls.
-/

namespace Proximity

open Guarded

variable {A B S E : Type}

/-- Goes on from a result, if there is one. -/
def Guarded.goOn? {F : Type} (x : Except F A) (f? : A → Option (Except F B)) :
    Option (Except F B) :=
  match x with
  | .error e => some (.error e)
  | .ok a => f? a

/-- One step after the other; the second one may stop the machine. -/
def Traced.andThen? (x : Traced A) (f? : A → Option (Traced B)) : Option (Traced B) :=
  match x.outcome with
  | .error e => some ⟨x.calls, .error e⟩
  | .ok a => (f? a).map fun y => ⟨x.calls ++ y.calls, y.outcome⟩

/-! ## Construction -/

section Construction

variable [Space S E] (machine : Machine)

/-- Lists over an empty quantizer, for which a machine has to grant room. -/
def Index.invertedFileOver? (quantizer : Index S E) (listCount : Nat)
    (clustering : ClusteringSettings) : Option (Except Error (Index S E)) :=
  goOn? (Index.invertedFileOver quantizer listCount clustering) fun index =>
    (need (machine.grantsLists listCount = true)).map fun _ => .ok index

namespace IndexDefaults

/-- The quantizer of lists: a graph, if a degree is given, and otherwise flat storage. -/
def quantizerIndex (d : IndexDefaults) (space : S) (dimension : Nat) :
    Option Nat → Except Error (Index S E)
  | none => .flat <$> Flat.empty space dimension
  | some degree => d.graphIndex space dimension degree

/-- An empty index of a shape. -/
def shapeIndex? (d : IndexDefaults) (space : S) (dimension : Nat) :
    Shape → Option (Except Error (Index S E))
  | .invertedFile lists quantizerDegree =>
    goOn? (d.quantizerIndex space dimension quantizerDegree) fun quantizer =>
      Index.invertedFileOver? machine quantizer lists d.clustering
  | shape => some (d.shapeIndex space dimension shape)

/-- An empty index of a description that was read. -/
def describedIndex? (d : IndexDefaults) (space : S) (dimension : Nat) (asked : Description) :
    Option (Except Error (Index S E)) :=
  (d.shapeIndex? machine space dimension asked.shape).map fun made => do
    let index ← made
    if asked.refined then Index.compositeOver index else return index

/-- An empty index of a description. -/
def build? (d : IndexDefaults) (space : S) (dimension : Nat) (text : String) :
    Option (Except Error (Index S E)) :=
  goOn? ((Space.kind space).width dimension) fun _ =>
    goOn? ((Description.read text).mapError (Error.unsupportedTopology text)) fun asked =>
      if asked.kind ≠ Space.kind space then
        some (.error (.unsupportedTopology text (.otherKind asked.kind (Space.kind space))))
      else d.describedIndex? machine space dimension asked

end IndexDefaults

end Construction

/-! ## Making artifacts -/

namespace Request

section Space

variable [Space S E] (machine : Machine)

/-- Fills an index under ids. -/
def fill? (index : Index S E) (batch : Batch E) (ids : Array Int64) :
    Option (Except Error (IdMap S E)) :=
  goOn? (IdMap.wrap index) fun map =>
    (map.appendBatch? machine batch ids).map fun r => r.2.map fun _ => r.1

/-- Builds and tunes an empty index. -/
def construct? (defaults : IndexDefaults) (space : S) (r : IndexRequest) :
    Option (Traced (Index S E)) := do
  let kind := Space.kind space
  let built ← defaults.build? machine space r.dimension r.description
  return do
    let index ← Traced.call (.construct kind) built
    let (index, outcome) := index.tune r.parameters
    Traced.call (.tune kind) outcome
    return index

/-- A new index, filled under ids. -/
def newMap? (defaults : IndexDefaults) (space : S) (r : IndexRequest) (buffer : Buffer E)
    (ids : Array Int64) : Option (Traced (IdMap S E)) :=
  (Traced.quiet (Batch.withIds (Space.kind space) buffer r.dimension ids.size)).andThen?
    fun batch => do
      (← construct? machine defaults space r).andThen? fun index =>
        if index.isTrained then (fill? machine index batch ids).map Traced.quiet
        else some (Traced.quiet (.error (.notTrained r.description)))

/-- An empty index that is ready to be filled. -/
def trainedIndex? [Space.GuardsCentroid S] (defaults : IndexDefaults) (space : S)
    (r : IndexRequest) (buffer : Buffer E) : Option (Traced (Index S E)) :=
  (Traced.quiet (Batch.ofBuffer (Space.kind space) buffer r.dimension)).andThen? fun batch => do
    (← construct? machine defaults space r).andThen? fun index =>
      (index.train? machine batch.whole).map fun trained =>
        Traced.quiet (trained.2.map fun _ => trained.1)

/-- A template filled under ids. -/
def filledMap? (stored : Stored S E) (buffer : Buffer E) (ids : Array Int64) :
    Option (Except Error (IdMap S E)) :=
  goOn? ((template stored).mapError .malformedTemplate) fun index =>
    goOn? (Batch.withIds (Space.kind index.space) buffer index.dimension ids.size) fun batch =>
      fill? machine index batch ids

end Space

variable (machine : Machine)

/-- A new artifact, and what a host learns of it. -/
def makeNew? (defaults : IndexDefaults) (r : IndexRequest) (vectors : HostVectors)
    (ids : Array Int64) (path : String) : Option (Traced (Artifact × Summary)) :=
  match r.spaceType.metric?, vectors with
  | some metric, .float buffer =>
    (newMap? machine defaults (FloatSpace.mk metric) r buffer ids).map fun made => do
      let map ← made
      return (.float (.mapped map), summarize path map buffer.ownership)
  | none, .binary buffer =>
    (newMap? machine defaults BinarySpace.mk r buffer ids).map fun made => do
      let map ← made
      return (.binary (.mapped map), summarize path map buffer.ownership)
  | _, vectors => some (otherVectors r vectors)

/-- A template, as an artifact. -/
def makeTemplate? (defaults : IndexDefaults) (r : IndexRequest) (vectors : HostVectors) :
    Option (Traced Artifact) :=
  match r.spaceType.metric?, vectors with
  | some metric, .float buffer =>
    (trainedIndex? machine defaults (FloatSpace.mk metric) r buffer).map fun made => do
      return .float (.bare (← made))
  | none, .binary buffer =>
    (trainedIndex? machine defaults BinarySpace.mk r buffer).map fun made => do
      return .binary (.bare (← made))
  | _, vectors => some (otherVectors r vectors)

/-- An artifact from a template, and what a host learns of it. -/
def fillTemplate? (bytes : List UInt8) (vectors : HostVectors) (ids : Array Int64)
    (path : String) : Option (Traced (Artifact × Summary)) :=
  (Traced.call .readTemplate (readTemplate bytes)).andThen? fun artifact =>
    match artifact, vectors with
    | .float stored, .float buffer =>
      (filledMap? machine stored buffer ids).map fun filled => do
        let map ← Traced.quiet filled
        return (.float (.mapped map), summarize path map buffer.ownership)
    | .binary stored, .binary buffer =>
      (filledMap? machine stored buffer ids).map fun filled => do
        let map ← Traced.quiet filled
        return (.binary (.mapped map), summarize path map buffer.ownership)
    | artifact, vectors =>
      some (Traced.quiet (.error (.malformedTemplate (.otherKind artifact.kind vectors.kind))))

end Request

/-! ## Engines -/

namespace Engine

variable (machine : Machine)

/-- Builds a new index and stores it. -/
def build? (e : Engine) (files : FileTree) (r : IndexRequest) (vectors : HostVectors)
    (ids : Array Int64) (path : String) (threads : Nat) (refused : Refused) :
    Option (Engine × FileTree × Traced Summary) := do
  let (e, workers) := e.workers threads refused.workers
  let made ← (Traced.quiet workers).andThen? fun _ =>
    Request.makeNew? machine e.config.indexes r vectors ids path
  let (files, answer) := e.storeMade files made refused.write
  return (e.countStored .build answer.outcome, files, answer)

/-- Fills a template and stores it. -/
def buildFromTemplate? (e : Engine) (files : FileTree) (template : List UInt8)
    (vectors : HostVectors) (ids : Array Int64) (path : String) (threads : Nat)
    (refused : Refused) : Option (Engine × FileTree × Traced Summary) := do
  let (e, workers) := e.workers threads refused.workers
  let made ← (Traced.quiet workers).andThen? fun _ =>
    Request.fillTemplate? machine template vectors ids path
  let (files, answer) := e.storeMade files made refused.write
  return (e.countStored .buildFromTemplate answer.outcome, files, answer)

/-- Makes a template and answers with its bytes. -/
def train? (e : Engine) (r : IndexRequest) (vectors : HostVectors) (threads : Nat)
    (refused : Option String) : Option (Engine × Traced (List UInt8)) := do
  let (e, workers) := e.workers threads refused
  let made ← (Traced.quiet workers).andThen? fun _ =>
    Request.makeTemplate? machine e.config.indexes r vectors
  let answer : Traced (List UInt8) := ⟨made.calls, made.outcome.map Artifact.toBytes⟩
  return (e.record .train answer.outcome, answer)

/-- The `k` nearest vectors of a stored index. -/
def searchStored? [Space S E] (stored : Stored S E) (query : Array E) (k : Nat)
    (accept : Int64 → Bool) : Option (Except Error (List (Hit Int64))) :=
  match stored with
  | .bare index =>
    (index.search? machine query k fun label => some (accept (Int64.ofNat label))).map
      (labelHits <$> ·)
  | .mapped map => map.search? machine query k accept

/-- The vectors of a stored index within a distance. -/
def searchStoredRange? [Space S E] (stored : Stored S E) (query : Array E) (radius : Single)
    (accept : Int64 → Bool) : Option (Except Error (List (Hit Int64))) :=
  match stored with
  | .bare index =>
    (index.searchRange? machine query radius fun label => some (accept (Int64.ofNat label))).map
      (labelHits <$> ·)
  | .mapped map => map.searchRange? machine query radius accept

/-- The `k` nearest vectors of a loaded artifact. -/
def query? (e : Engine) (handle : Nat) (vector : QueryVector) (k : Nat)
    (filter : Option (List Int64)) : Option (Except Error (List QueryResult)) :=
  goOn? (e.registry.get handle) fun artifact =>
    let hits? :=
      match artifact, vector with
      | .float stored, .float v => searchStored? machine stored v k (accepts filter)
      | .binary stored, .binary v => searchStored? machine stored v k (accepts filter)
      | a, _ => some (otherQuery a)
    hits?.map (results artifact.spaceType <$> ·)

/-- The vectors of a loaded artifact within a distance, at most `most` of them. -/
def queryRange? (e : Engine) (handle : Nat) (vector : QueryVector) (radius : Single) (most : Nat)
    (filter : Option (List Int64)) : Option (Except Error (List QueryResult)) :=
  goOn? (e.registry.get handle) fun artifact =>
    let hits? :=
      match artifact, vector with
      | .float stored, .float v => searchStoredRange? machine stored v radius (accepts filter)
      | .binary stored, .binary v => searchStoredRange? machine stored v radius (accepts filter)
      | a, _ => some (otherQuery a)
    hits?.map fun hits => hits.map fun hits => results artifact.spaceType (hits.take most)

end Engine

end Proximity

import Proximity.Artifact.Container
import Proximity.Host.Trace
import Proximity.Index.Description
import Proximity.Index.Tuning

/-!
# Making artifacts on request

There are three ways to make an artifact.  A new index is built from its
description, tuned and filled; it has to be one that needs no training.  A
template is decoded and filled; neither descriptions nor parameters are
consulted.  And a template is made by building, tuning and training an index
that stays empty.

## Main definitions

* `HostVectors` — vectors as a host hands them over.
* `Request.makeNew`, `Request.fillTemplate`, `Request.makeTemplate` — the
  three ways, up to the artifact.
-/

namespace Proximity

/-- Vectors as a host hands them over. -/
inductive HostVectors where
  | float (buffer : Buffer Single)
  | binary (buffer : Buffer UInt8)
deriving Repr

def HostVectors.kind : HostVectors → Kind
  | .float _ => .float
  | .binary _ => .binary

/-- What a host learns of an artifact that was made for it. -/
structure Summary where
  path : String
  kind : Kind
  topology : Topology
  dimension : Nat
  total : Nat
  /-- Who owned the vectors. -/
  ownership : Ownership
deriving DecidableEq, Repr

/-- The kind of index that a request describes. -/
structure IndexRequest where
  description : String
  dimension : Nat
  spaceType : SpaceType
  parameters : Parameters
deriving Repr

namespace Request

section Space

variable {S E : Type} [Space S E]

/-- Fills an index under ids. -/
def fill (index : Index S E) (batch : Batch E) (ids : Array Int64) : Except Error (IdMap S E) := do
  let map ← IdMap.wrap index
  let (map, outcome) := map.appendBatch batch ids
  outcome
  return map

/-- What a host learns of a filled index. -/
def summarize (path : String) (map : IdMap S E) (ownership : Ownership) : Summary :=
  ⟨path, Space.kind map.index.space, map.index.topology, map.index.dimension, map.ids.size,
    ownership⟩

/-- Builds and tunes an empty index. -/
def construct (defaults : IndexDefaults) (space : S) (r : IndexRequest) : Traced (Index S E) := do
  let kind := Space.kind space
  let index ← Traced.call (.construct kind) (defaults.build space r.dimension r.description)
  let (index, outcome) := index.tune r.parameters
  Traced.call (.tune kind) outcome
  return index

/-- A new index, filled under ids. -/
def newMap (defaults : IndexDefaults) (space : S) (r : IndexRequest) (buffer : Buffer E)
    (ids : Array Int64) : Traced (IdMap S E) := do
  let batch ← Traced.quiet (Batch.withIds (Space.kind space) buffer r.dimension ids.size)
  let index ← construct defaults space r
  if index.isTrained then Traced.quiet (fill index batch ids)
  else Traced.quiet (.error (.notTrained r.description))

/-- An empty index that is ready to be filled. -/
def trainedIndex (defaults : IndexDefaults) (space : S) (r : IndexRequest) (buffer : Buffer E) :
    Traced (Index S E) := do
  let batch ← Traced.quiet (Batch.ofBuffer (Space.kind space) buffer r.dimension)
  let index ← construct defaults space r
  let (index, outcome) := index.train batch.whole
  Traced.quiet outcome
  return index

/-- The template in a stored index, which has to be bare and empty. -/
def template : Stored S E → Except TemplateFault (Index S E)
  | .mapped _ => .error .hasIds
  | .bare index => if index.total = 0 then .ok index else .error (.notEmpty index.total)

/-- A template filled under ids. -/
def filledMap (stored : Stored S E) (buffer : Buffer E) (ids : Array Int64) :
    Except Error (IdMap S E) := do
  let index ← (template stored).mapError .malformedTemplate
  let batch ← Batch.withIds (Space.kind index.space) buffer index.dimension ids.size
  fill index batch ids

end Space

/-- Refuses vectors that are not of the kind a space type asks for. -/
def otherVectors {A : Type} (r : IndexRequest) (vectors : HostVectors) : Traced A :=
  .quiet (.error (.unsupportedTopology r.description (.otherVectors r.spaceType vectors.kind)))

/-- A new artifact, and what a host learns of it. -/
def makeNew (defaults : IndexDefaults) (r : IndexRequest) (vectors : HostVectors)
    (ids : Array Int64) (path : String) : Traced (Artifact × Summary) :=
  match r.spaceType.metric?, vectors with
  | some metric, .float buffer => do
    let map ← newMap defaults (FloatSpace.mk metric) r buffer ids
    return (.float (.mapped map), summarize path map buffer.ownership)
  | none, .binary buffer => do
    let map ← newMap defaults BinarySpace.mk r buffer ids
    return (.binary (.mapped map), summarize path map buffer.ownership)
  | _, vectors => otherVectors r vectors

/-- A template, as an artifact. -/
def makeTemplate (defaults : IndexDefaults) (r : IndexRequest) (vectors : HostVectors) :
    Traced Artifact :=
  match r.spaceType.metric?, vectors with
  | some metric, .float buffer => do
    return .float (.bare (← trainedIndex defaults (FloatSpace.mk metric) r buffer))
  | none, .binary buffer => do
    return .binary (.bare (← trainedIndex defaults BinarySpace.mk r buffer))
  | _, vectors => otherVectors r vectors

/-- Decodes a template. -/
def readTemplate (bytes : List UInt8) : Except Error Artifact :=
  (Artifact.ofBytes bytes).mapError fun fault => .malformedTemplate (.format fault)

/-- An artifact from a template, and what a host learns of it. -/
def fillTemplate (bytes : List UInt8) (vectors : HostVectors) (ids : Array Int64)
    (path : String) : Traced (Artifact × Summary) := do
  let artifact ← Traced.call .readTemplate (readTemplate bytes)
  match artifact, vectors with
  | .float stored, .float buffer =>
    let map ← Traced.quiet (filledMap stored buffer ids)
    return (.float (.mapped map), summarize path map buffer.ownership)
  | .binary stored, .binary buffer =>
    let map ← Traced.quiet (filledMap stored buffer ids)
    return (.binary (.mapped map), summarize path map buffer.ownership)
  | artifact, vectors =>
    Traced.quiet (.error (.malformedTemplate (.otherKind artifact.kind vectors.kind)))

end Request

end Proximity

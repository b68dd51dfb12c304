import Proximity.Index.Basic
import Proximity.Number.Count
import Proximity.Text.Blank

/-!
# Descriptions

A description is a short text that says how an index is built: a shape, for
float vectors the payload of its lists, and at the end the suffix `RFlat` if a
composite is put on top.  Binary shapes start with a `B`.  Blanks around the
text and around its parts do not count.

| float                | binary        | index                                 |
| -------------------- | ------------- | ------------------------------------- |
| `Flat`               | `BFlat`       | flat storage                          |
| `HNSW<M>`, and `,Flat` | `BHNSW<M>`  | a graph of degree `M`                 |
| `IVF<n>,Flat`        | `BIVF<n>`     | `n` lists over a flat quantizer       |
| `IVF<n>_HNSW<M>,Flat` | `BIVF<n>_HNSW<M>` | `n` lists over a graph            |

## Main definitions

* `Description` — what a description asks for.
* `Description.read` — the reader.
* `IndexDefaults.build` — an empty index of a description.
-/

namespace Proximity

/-- The shape that a description names. -/
inductive Shape where
  | flat
  | graph (degree : Nat)
  /-- Lists over a flat quantizer, or over a graph of some degree. -/
  | invertedFile (lists : Nat) (quantizerDegree : Option Nat)
deriving DecidableEq, Repr

/-- What a description asks for. -/
structure Description where
  kind : Kind
  shape : Shape
  /-- Whether a composite is put on top. -/
  refined : Bool
deriving DecidableEq, Repr

namespace Description

/-- The suffix that asks for a composite. -/
def refinedMark : List Char := ['R', 'F', 'l', 'a', 't']

/-- The mark of flat storage, as a shape and as a payload. -/
def flatMark : List Char := ['F', 'l', 'a', 't']

/-- The mark of a graph. -/
def graphMark : List Char := ['H', 'N', 'S', 'W']

/-- The mark of an inverted file. -/
def listMark : List Char := ['I', 'V', 'F']

/-- A number of the description. -/
def readCount (role : CountRole) (text : List Char) : Except DescriptionFault Nat :=
  match Count.readChars text with
  | .error _ => .error (.notACount role (String.ofList text))
  | .ok value => if value < role.least then .error (.tooSmall role value) else .ok value

/-- The quantizer of an inverted file after the underscore. -/
def readQuantizer (text : List Char) : Except DescriptionFault Nat :=
  match graphMark.isPrefixOf? text with
  | some degree => readCount .graphDegree degree
  | none => .error (.unknownQuantizer (String.ofList text))

/-- An inverted file after its mark. -/
def readLists (text : List Char) : Except DescriptionFault Shape := do
  let lists := text.takeWhile (· != '_')
  let quantizerDegree ←
    match text.dropWhile (· != '_') with
    | [] => pure none
    | _ :: quantizer => some <$> readQuantizer quantizer
  return .invertedFile (← readCount .listCount lists) quantizerDegree

/-- A shape without the mark of its kind; `component` is it with the mark. -/
def readShape (component text : List Char) : Except DescriptionFault Shape :=
  if text = flatMark then .ok .flat
  else
    match graphMark.isPrefixOf? text with
    | some degree => .graph <$> readCount .graphDegree degree
    | none =>
      match listMark.isPrefixOf? text with
      | some lists => readLists lists
      | none => .error (.unknownComponent (String.ofList component))

/-- Whether a payload goes with a shape. -/
def payloadFits (kind : Kind) (shape : Shape) (payload : List (List Char)) : Bool :=
  match kind, shape with
  | .binary, _ | .float, .flat => payload.isEmpty
  | .float, .graph _ => payload.isEmpty || payload == [flatMark]
  | .float, .invertedFile .. => payload == [flatMark]

/-- The parts of a description without the suffix, and whether it was there. -/
def dropSuffix (parts : List (List Char)) : List (List Char) × Bool :=
  if 1 < parts.length ∧ parts.getLast? = some refinedMark then (parts.dropLast, true)
  else (parts, false)

/-- The kind that a component names, and the component without its mark. -/
def splitKind : List Char → Kind × List Char
  | 'B' :: rest => (.binary, rest)
  | text => (.float, text)

/-- What a text asks for. -/
def readChars (text : List Char) : Except DescriptionFault Description := do
  let trimmed := Text.trim text
  if trimmed.isEmpty then throw .empty
  let (parts, refined) := dropSuffix ((Text.split ',' trimmed).map Text.trim)
  let component := parts.headD []
  let payload := parts.tail
  let (kind, head) := splitKind component
  let shape ← readShape component head
  if payloadFits kind shape payload then return ⟨kind, shape, refined⟩
  else throw (.unsupportedPayload (String.ofList (Text.join ',' payload)))

/-- What a text asks for. -/
def read (text : String) : Except DescriptionFault Description := readChars text.toList

end Description

/-- The beam widths of a graph whose description and parameters leave them
open. -/
structure GraphDefaults where
  buildWidth : Nat
  searchWidth : Nat
deriving DecidableEq, Repr

/-- The beam widths of a host that asks for none. -/
def GraphDefaults.standard : GraphDefaults := ⟨40, 16⟩

instance : Inhabited GraphDefaults := ⟨.standard⟩

/-- What descriptions leave open. -/
structure IndexDefaults where
  graph : GraphDefaults
  clustering : ClusteringSettings
deriving DecidableEq, Inhabited, Repr

namespace IndexDefaults

variable {S E : Type} [Space S E]

/-- An empty graph index. -/
def graphIndex (d : IndexDefaults) (space : S) (dimension degree : Nat) :
    Except Error (Index S E) :=
  .graph <$> Graph.empty space dimension degree d.graph.buildWidth d.graph.searchWidth

/-- An empty index of a shape. -/
def shapeIndex (d : IndexDefaults) (space : S) (dimension : Nat) :
    Shape → Except Error (Index S E)
  | .flat => .flat <$> Flat.empty space dimension
  | .graph degree => d.graphIndex space dimension degree
  | .invertedFile lists quantizerDegree => do
    let quantizer ←
      match quantizerDegree with
      | none => .flat <$> Flat.empty space dimension
      | some degree => d.graphIndex space dimension degree
    Index.invertedFileOver quantizer lists d.clustering

/-- An empty index of a description that was read. -/
def describedIndex (d : IndexDefaults) (space : S) (dimension : Nat) (asked : Description) :
    Except Error (Index S E) := do
  let index ← d.shapeIndex space dimension asked.shape
  if asked.refined then Index.compositeOver index else return index

/-- An empty index of a description.  The dimension is checked first, then
the description, then whether it is meant for this kind of vectors. -/
def build (d : IndexDefaults) (space : S) (dimension : Nat) (text : String) :
    Except Error (Index S E) := do
  let _ ← (Space.kind space).width dimension
  let asked ← (Description.read text).mapError (Error.unsupportedTopology text)
  if asked.kind ≠ Space.kind space then
    throw (.unsupportedTopology text (.otherKind asked.kind (Space.kind space)))
  d.describedIndex space dimension asked

end IndexDefaults

end Proximity

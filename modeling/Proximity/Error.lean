import Proximity.Space.Measure
import Proximity.Number.Text
import Proximity.Number.Count

/-!
# Errors

An error names its cause; the wording is made from the cause in one place,
`Error.message`.  Causes that share a wording frame (`Unsupported topology`,
`Invalid parameter`, …) are grouped in a type of their own, so that a theorem
can say which cause arises without quoting a text.

## Main definitions

* `Error` — everything that can go wrong.
* `Error.message` — its wording.
* `Error.category` — the coarse grouping used in metrics.
-/

namespace Proximity

/-! ## Dimensions -/

/-- Why a dimension is refused. -/
inductive DimensionFault where
  | notPositive
  | notWholeBytes (dimension : Nat)
  | emptyVector
deriving DecidableEq, Repr

def DimensionFault.message : DimensionFault → String
  | .notPositive => "dimension must be positive"
  | .notWholeBytes d => s!"binary dimension {d} should be a positive multiple of 8"
  | .emptyVector => "cannot transfer an empty vector"

/-! ## Descriptions -/

/-- The numbers that occur in a description. -/
inductive CountRole where
  | graphDegree
  | listCount
deriving DecidableEq, Repr

namespace CountRole

def name : CountRole → String
  | .graphDegree => "graph degree"
  | .listCount => "list count"

/-- The least value the number may have. -/
def least : CountRole → Nat
  | .graphDegree => 2
  | .listCount => 1

end CountRole

/-- Why no index can be built from a description. -/
inductive DescriptionFault where
  | empty
  | notACount (role : CountRole) (text : String)
  | tooSmall (role : CountRole) (value : Nat)
  | unknownQuantizer (text : String)
  | unknownComponent (text : String)
  | unsupportedPayload (text : String)
  | otherKind (described wanted : Kind)
  | otherVectors (asked : SpaceType) (given : Kind)
deriving DecidableEq, Repr

def DescriptionFault.message : DescriptionFault → String
  | .empty => "description is empty"
  | .notACount role text => s!"'{text}' is not a valid {role.name}"
  | .tooSmall role value => s!"{role.name} must be at least {role.least}, got {value}"
  | .unknownQuantizer text => s!"unsupported coarse quantizer '{text}'"
  | .unknownComponent text => s!"unknown index component '{text}'"
  | .unsupportedPayload text => s!"unsupported payload '{text}'"
  | .otherKind described wanted =>
    s!"{described.name} description cannot build a {wanted.name} index"
  | .otherVectors asked given =>
    s!"space type {asked.name} requires {asked.kind.name} vectors, got {given.name}"

/-! ## Parameters -/

/-- Why a parameter is refused. -/
inductive ParameterFault where
  | notPositiveInteger (shown : String)
  | notNumber (shown : String)
  | belowLeast (value least : Single)
  | notMap (shown : String)
  | unknownSpaceType (text : String)
  | zero
  | degreeTooSmall (degree : Nat)
  | unreadable
  | otherKind (held : Kind)
deriving DecidableEq, Repr

def ParameterFault.message : ParameterFault → String
  | .notPositiveInteger shown => s!"expected a positive integer, got {shown}"
  | .notNumber shown => s!"expected a number, got {shown}"
  | .belowLeast value least =>
    s!"{value.display} must be a finite number >= {least.display}"
  | .notMap shown => s!"expected a nested parameter map, got {shown}"
  | .unknownSpaceType text => s!"unknown space type '{text}'"
  | .zero => "must be positive"
  | .degreeTooSmall degree => s!"graph degree must be at least 2, got {degree}"
  | .unreadable => "not an object of parameters"
  | .otherKind held => s!"index holds {held.name} vectors"

/-! ## Stored indexes -/

/-- What contradicts itself in a decoded index. -/
inductive Inconsistency where
  | dimension (fault : DimensionFault)
  | flatWidth (unitLength dimension : Nat)
  | flatRemainder (elements unitLength : Nat)
  | quantizerWidth
  | listCount (lists declared : Nat)
  | centroidCount (centroids lists : Nat)
  | untrainedLists
  | listLength (labels elements : Nat)
  | label (number : Int) (total : Nat)
  | listTotal (stored total : Nat)
  | graphParameters (degree efSearch efConstruction : Nat)
  | adjacencyCount (lists total : Nat)
  | graphLevel (level : Nat)
  | noEntryPoint
  | entryPoint (node total : Nat)
  | nodeLevels (node levels : Nat)
  | missingNeighbour (node neighbour : Nat)
  | copyWidth
  | copyTotal (copy base : Nat)
  | refineFactor (factor : Single)
  | idCount (ids total : Nat)
deriving DecidableEq, Repr

def Inconsistency.message : Inconsistency → String
  | .dimension fault => s!"Invalid dimension: {fault.message}"
  | .flatWidth width dim => s!"flat unit length {width} does not match dimension {dim}"
  | .flatRemainder elements width =>
    s!"flat storage holds {elements} elements, not a multiple of {width}"
  | .quantizerWidth => "quantizer width differs from inverted file"
  | .listCount lists declared => s!"{lists} inverted lists for nlist {declared}"
  | .centroidCount centroids lists => s!"quantizer holds {centroids} centroids for nlist {lists}"
  | .untrainedLists => "untrained inverted file holds vectors"
  | .listLength labels elements =>
    s!"inverted list has {labels} labels but {elements} code elements"
  | .label number total => s!"label {number} out of range for {total} vectors"
  | .listTotal stored total => s!"inverted lists hold {stored} vectors, expected {total}"
  | .graphParameters degree efSearch efConstruction =>
    s!"graph parameters M={degree} efSearch={efSearch} efConstruction={efConstruction}"
  | .adjacencyCount lists total => s!"graph has {lists} adjacency lists for {total} vectors"
  | .graphLevel level => s!"graph level {level} too high"
  | .noEntryPoint => "populated graph has no entry point"
  | .entryPoint node total => s!"entry point {node} out of range for {total} vectors"
  | .nodeLevels node levels => s!"node {node} has {levels} levels"
  | .missingNeighbour node neighbour => s!"node {node} links to missing node {neighbour}"
  | .copyWidth => "refine storage width differs from base"
  | .copyTotal copy base => s!"refine storage holds {copy} vectors, base holds {base}"
  | .refineFactor factor => s!"k_factor {factor.display}"
  | .idCount ids total => s!"{ids} external ids for {total} vectors"

/-- Why bytes are no stored index. -/
inductive FormatFault where
  | tooShort (bytes : Nat)
  | badMagic
  | version (found expected : Nat)
  | length (declared bytes : Nat)
  | checksum
  | undecodable
  | inconsistent (cause : Inconsistency)
deriving DecidableEq, Repr

def FormatFault.message : FormatFault → String
  | .tooShort bytes => s!"artifact is {bytes} bytes, shorter than its header"
  | .badMagic => "bad magic"
  | .version found expected => s!"unsupported format version {found} (expected {expected})"
  | .length declared bytes => s!"payload length {declared} does not match artifact size {bytes}"
  | .checksum => "checksum mismatch"
  | .undecodable => "failed to decode index"
  | .inconsistent cause => s!"inconsistent index: {cause.message}"

/-- Why a stored index is no template. -/
inductive TemplateFault where
  | format (fault : FormatFault)
  | hasIds
  | otherKind (held wanted : Kind)
  | notEmpty (total : Nat)
deriving DecidableEq, Repr

def TemplateFault.message : TemplateFault → String
  | .format fault => fault.message
  | .hasIds => "template already carries external ids"
  | .otherKind held wanted => s!"template holds a {held.name} index, expected {wanted.name}"
  | .notEmpty total => s!"template already holds {total} vectors"

/-! ## Configuration -/

/-- Why a configuration cannot be loaded. -/
inductive ConfigFault where
  | unreadableFile (path : String)
  /-- The text cannot be read; the first line it cannot be read with, which
  is counted from one. -/
  | invalidText (line : Nat) (excerpt : String)
  | environment (variableName value : String) (fault : CountFault)
deriving DecidableEq, Repr

def ConfigFault.message : ConfigFault → String
  | .unreadableFile path => s!"failed to read {path}"
  | .invalidText line excerpt =>
    s!"TOML parse error at line {line}\n  |\n{line} | {excerpt}\n  | ^\n" ++
      "no configuration can be read up to here"
  | .environment variableName value fault => s!"{variableName}={value}: {fault.message}"

/-! ## All errors -/

/-- What can go wrong. -/
inductive Error where
  | invalidDimension (fault : DimensionFault)
  | emptyInput
  | idCountMismatch (ids vectors : Nat)
  | dimensionMismatch (expected actual : Nat)
  | unsupportedTopology (description : String) (fault : DescriptionFault)
  | notTrained (description : String)
  | untrainedIndex
  | notEmpty (total : Nat)
  | invalidParameter (key : String) (fault : ParameterFault)
  | insufficientSample (required actual : Nat)
  | malformedTemplate (fault : TemplateFault)
  | formatMismatch (fault : FormatFault)
  | notFound (path : String)
  | persistence (path : String)
  | unknownHandle (handle : Nat)
  | execution (reason : String)
  | config (fault : ConfigFault)
deriving DecidableEq, Repr

/-- The coarse grouping of errors. -/
inductive ErrorCategory where
  /-- Dimension, count and identifier checks. -/
  | validation
  /-- Description, tuning and training state. -/
  | topology
  /-- Files and their format. -/
  | persistence
  /-- Handles, worker pools and configuration. -/
  | host
deriving DecidableEq, Repr

def ErrorCategory.name : ErrorCategory → String
  | .validation => "validation"
  | .topology => "topology"
  | .persistence => "persistence"
  | .host => "host"

namespace Error

/-- The wording of an error. -/
def message : Error → String
  | .invalidDimension fault => s!"Invalid dimension: {fault.message}"
  | .emptyInput => "Number of vectors cannot be 0"
  | .idCountMismatch ids vectors =>
    s!"Number of IDs ({ids}) does not match number of vectors ({vectors})"
  | .dimensionMismatch expected actual =>
    s!"Dimension mismatch: expected {expected} elements, got {actual}"
  | .unsupportedTopology description fault =>
    s!"Unsupported topology '{description}': {fault.message}"
  | .notTrained description =>
    s!"Index '{description}' is not trained; train it first and build from the template"
  | .untrainedIndex => "Cannot add vectors to an untrained index"
  | .notEmpty total => s!"Cannot wrap an index that already holds {total} vectors"
  | .invalidParameter key fault => s!"Invalid parameter '{key}': {fault.message}"
  | .insufficientSample required actual =>
    s!"Insufficient training sample: need at least {required} vectors, got {actual}"
  | .malformedTemplate fault => s!"Malformed template: {fault.message}"
  | .formatMismatch fault => s!"Index format mismatch: {fault.message}"
  | .notFound path => s!"Index file not found: {path}"
  | .persistence path => s!"Persistence error at {path}"
  | .unknownHandle handle => s!"Unknown index handle: {handle}"
  | .execution reason => s!"Execution error: {reason}"
  | .config fault => s!"Configuration error: {fault.message}"

/-- The group an error belongs to. -/
def category : Error → ErrorCategory
  | .invalidDimension _ | .emptyInput | .idCountMismatch .. | .dimensionMismatch .. => .validation
  | .unsupportedTopology .. | .notTrained _ | .untrainedIndex | .notEmpty _
  | .invalidParameter .. | .insufficientSample .. => .topology
  | .malformedTemplate _ | .formatMismatch _ | .notFound _ | .persistence _ => .persistence
  | .unknownHandle _ | .execution _ | .config _ => .host

end Error

/-- The number of elements of one vector of the given dimension. -/
def Kind.unitLength (kind : Kind) (dimension : Nat) : Except DimensionFault Nat :=
  match kind with
  | .float => if dimension = 0 then .error .notPositive else .ok dimension
  | .binary =>
    if dimension = 0 ∨ dimension % 8 ≠ 0 then .error (.notWholeBytes dimension)
    else .ok (dimension / 8)

/-- The space type of a name, a refusal being an error. -/
def SpaceType.read (text : String) : Except Error SpaceType :=
  match ofName? text with
  | some spaceType => .ok spaceType
  | none => .error (.invalidParameter "space_type" (.unknownSpaceType (text.map Char.toLower)))

/-- The number of elements of one vector, a refusal being an error. -/
def Kind.width (kind : Kind) (dimension : Nat) : Except Error Nat :=
  (kind.unitLength dimension).mapError .invalidDimension

end Proximity

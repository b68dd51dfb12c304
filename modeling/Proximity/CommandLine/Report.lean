import Proximity.CommandLine.Options
import Proximity.Host.Engine
import Proximity.Json.Basic
import Proximity.Text.Quoted

/-!
# What a command prints

A command that succeeds prints one text: a line on what was made, or JSON.  A
command that fails says what it was about to do, followed by the causes of
the failure, the nearest one first.

## Main definitions

* `Report` — the texts of success.
* `Failure` — the ways to fail, with `message` and `causes`.
* `Ending` — how a command line ends, with its exit status.
-/

namespace Proximity.CommandLine

/-! ## Success -/

/-- Settings as JSON, members in ascending order. -/
def settingsJson (s : Settings) : Json :=
  let topology := ("topology", Json.ofString s.topology.name)
  match s with
  | .flat => .ofMembers [topology]
  | .invertedFile lists probes quantizer =>
    .ofMembers [("nlist", .ofNat lists), ("nprobe", .ofNat probes),
      ("quantizer", settingsJson quantizer), topology]
  | .graph degree buildWidth searchWidth =>
    .ofMembers [("ef_construction", .ofNat buildWidth), ("ef_search", .ofNat searchWidth),
      ("m", .ofNat degree), topology]
  | .composite factor base =>
    .ofMembers [("base", settingsJson base), ("k_factor", .ofDouble factor.toDouble), topology]

/-- The description of an artifact as JSON, members in ascending order. -/
def artifactJson (a : Artifact) : Json :=
  .ofMembers [("dimension", .ofNat a.dimension), ("id_mapped", .bool a.ids?.isSome),
    ("ntotal", .ofNat a.total), ("settings", settingsJson a.settings),
    ("space", .ofString a.kind.name), ("space_type", .ofString a.spaceType.name),
    ("trained", .bool a.isTrained)]

/-- A result of a search as JSON. -/
def resultJson (r : QueryResult) : Json :=
  .ofMembers [("id", .ofInt r.id.toInt), ("distance", .ofSingle r.distance),
    ("score", .ofSingle r.score)]

/-- What a command has done. -/
inductive Report where
  | trained (description : String) (bytes : Nat) (path : String)
  | built (summary : Summary)
  | found (results : List QueryResult)
  | described (a : Artifact)

/-- The text of a report. -/
def Report.text : Report → String
  | .trained description bytes path =>
    s!"✓ Trained '{description}' ({bytes} bytes) -> {Text.quoted path}"
  | .built s =>
    s!"✓ {s.total} vectors (dimension {s.dimension}, {s.kind.name} {s.topology.name}) -> " ++
      Text.quoted s.path
  | .found results => (Json.array (results.map resultJson)).indented
  | .described a => (artifactJson a).indented

/-! ## Failure -/

/-- What a file is read for. -/
inductive Purpose where
  | parameters
  | vectors
  | template
  | description
deriving DecidableEq, Repr

/-- How a command fails. -/
inductive Failure where
  | configuration (cause : Error)
  | unreadable (purpose : Purpose) (path : String)
  | notVectors (path : String)
  /-- A vector cannot be staged; `place` counts from zero. -/
  | vector (place : Nat) (path : String) (cause : Error)
  | noDimension (path : String)
  | training (description : String) (cause : Error)
  | unwritable (path : String)
  | building (description : String) (cause : Error)
  | notTemplate (path : String) (fault : FormatFault)
  | filling (template : String) (cause : Error)
  | loading (path : String) (cause : Error)
  | notQuery
  | emptyQuery
  | notArtifact (path : String) (fault : FormatFault)
  /-- An error that speaks for itself. -/
  | plain (cause : Error)
deriving DecidableEq, Repr

namespace Failure

/-- What is said of a file that cannot be read or written. -/
def fileCause : String := "the file is not accessible"

/-- What is said of a text that cannot be read. -/
def textCause : String := "the text is not of the expected form"

/-- What a command was about to do. -/
def message : Failure → String
  | .configuration _ => "Failed to load configuration"
  | .unreadable .parameters path => s!"Failed to read parameters from {path}"
  | .unreadable .vectors path => s!"Failed to read vectors from {Text.quoted path}"
  | .unreadable .template path => s!"Failed to read template {Text.quoted path}"
  | .unreadable .description path => s!"Failed to read {Text.quoted path}"
  | .notVectors path => s!"Failed to parse vectors in {Text.quoted path}"
  | .vector place path _ => s!"Vector {place} in {Text.quoted path}"
  | .noDimension path => s!"No vectors in {Text.quoted path} and no --dimension given"
  | .training description _ => s!"Failed to train '{description}'"
  | .unwritable path => s!"Failed to write template to {Text.quoted path}"
  | .building description _ => s!"Failed to build '{description}'"
  | .notTemplate path _ => s!"Invalid template {Text.quoted path}"
  | .filling template _ => s!"Failed to build from template {Text.quoted template}"
  | .loading path _ => s!"Failed to load {Text.quoted path}"
  | .notQuery => "Query must be a JSON array"
  | .emptyQuery => "Query vector is empty"
  | .notArtifact path _ => s!"Invalid index file {Text.quoted path}"
  | .plain cause => cause.message

/-- What lies behind an error. -/
def behind : Error → List String
  | .persistence _ => [fileCause]
  | _ => []

/-- An error and what lies behind it. -/
def chain (e : Error) : List String := e.message :: behind e

/-- The causes, the nearest one first. -/
def causes : Failure → List String
  | .configuration cause | .vector _ _ cause | .training _ cause | .building _ cause
  | .filling _ cause | .loading _ cause => chain cause
  | .notTemplate _ fault | .notArtifact _ fault => chain (.formatMismatch fault)
  | .unreadable .. | .unwritable _ => [fileCause]
  | .notVectors _ | .notQuery => [textCause]
  | .noDimension _ | .emptyQuery => []
  | .plain cause => behind cause

/-- The lines of a cause, set in; of several causes each has a number. -/
def causeLines (numbered : Bool) (number : Nat) (cause : String) : List String :=
  let start := if numbered then s!"    {number}: " else "    "
  let indent := if numbered then "       " else "    "
  match cause.splitOn "\n" with
  | [] => [start]
  | first :: rest => (start ++ first) :: rest.map (indent ++ ·)

/-- The failure as it is printed. -/
def text (f : Failure) : String :=
  let causes := f.causes
  let numbered := decide (1 < causes.length)
  let listed := (causes.zipIdx.map fun (cause, i) => causeLines numbered i cause).flatten
  "\n".intercalate
    (("Error: " ++ f.message) :: if listed.isEmpty then [] else "" :: "Caused by:" :: listed)

end Failure

/-! ## Endings -/

/-- How a command line ends. -/
inductive Ending where
  | done (report : Report)
  | failed (failure : Failure)
  /-- The arguments ask for help or are refused. -/
  | stopped (stop : Stop)

/-- The exit status of an ending. -/
def Ending.status : Ending → Nat
  | .done _ | .stopped .help => 0
  | .failed _ => 1
  | .stopped (.refused _) => 2

end Proximity.CommandLine

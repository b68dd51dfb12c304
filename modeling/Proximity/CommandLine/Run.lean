import Proximity.CommandLine.Command
import Proximity.CommandLine.Report
import Proximity.Host.VectorFile

/-!
# Running a command

A command runs against a file tree under an environment, with an engine of
its own.  It reads its files in a fixed order, and the first thing that goes
wrong decides the failure; only the last step of a command writes.

## Main definitions

* `Invocation.run` — runs a command.
* `run` — reads arguments and runs what they ask for.
-/

namespace Proximity.CommandLine

/-! ## Reading files -/

/-- A file as text. -/
def readText (files : FileTree) (purpose : Purpose) (path : String) : Except Failure String :=
  match files.text? path with
  | some text => .ok text
  | none => .error (.unreadable purpose path)

/-- A file as bytes. -/
def readBytes (files : FileTree) (purpose : Purpose) (path : String) :
    Except Failure (List UInt8) :=
  match files.bytes? path with
  | some bytes => .ok bytes
  | none => .error (.unreadable purpose path)

/-- The parameters of a job. -/
def readParameters (files : FileTree) : Option String → Except Failure Parameters
  | none => .ok []
  | some text => do
    let text ← match parametersPath? text with
      | some path => readText files .parameters path
      | none => pure text
    (Parameters.read text).mapError .plain

/-- The vectors of a file, with elements of a given type. -/
def stageFile (E : Type) [HostElement E] (memoryLimit : Nat) (path text : String) :
    Except Failure StagedVectors := do
  match (VectorFile.read? text : Option (VectorFile E)) with
  | none => throw (.notVectors path)
  | some file => (file.stage memoryLimit).mapError fun (place, cause) => .vector place path cause

/-- The vectors of a file, of a given kind. -/
def readVectors (files : FileTree) (memoryLimit : Nat) (kind : Kind) (path : String) :
    Except Failure StagedVectors := do
  let text ← readText files .vectors path
  match kind with
  | .float => stageFile Single memoryLimit path text
  | .binary => stageFile UInt8 memoryLimit path text

/-- What a job asks of an engine, and the vectors it hands over. -/
def Job.prepare (job : Job) (files : FileTree) (memoryLimit : Nat) :
    Except Failure (IndexRequest × StagedVectors) := do
  let parameters ← readParameters files job.parameters?
  let staged ← readVectors files memoryLimit job.spaceType.kind job.input
  match job.dimension? <|> staged.dimension? with
  | none => throw (.noDimension job.input)
  | some dimension => return (⟨job.description, dimension, job.spaceType, parameters⟩, staged)

/-- The template of a job and its vectors. -/
def FillJob.prepare (job : FillJob) (files : FileTree) (memoryLimit : Nat) :
    Except Failure (List UInt8 × StagedVectors) := do
  let bytes ← readBytes files .template job.template
  let template ← (Artifact.ofBytes bytes).mapError (.notTemplate job.template)
  return (bytes, ← readVectors files memoryLimit template.kind job.input)

/-! ## Commands -/

/-- Trains a template and writes it. -/
def train (e : Engine) (files : FileTree) (job : Job) : FileTree × Except Failure Report :=
  match job.prepare files e.config.transferLimit with
  | .error failure => (files, .error failure)
  | .ok (request, staged) =>
    match (e.train request staged.vectors job.threads none).2.outcome with
    | .error cause => (files, .error (.training job.description cause))
    | .ok bytes =>
      match files.put? job.output bytes with
      | none => (files, .error (.unwritable job.output))
      | some files => (files, .ok (.trained job.description bytes.length job.output))

/-- Builds an index and stores it. -/
def build (e : Engine) (files : FileTree) (job : Job) : FileTree × Except Failure Report :=
  match job.prepare files e.config.transferLimit with
  | .error failure => (files, .error failure)
  | .ok (request, staged) =>
    let (_, files, answer) :=
      e.build files request staged.vectors staged.ids job.output job.threads .nothing
    (files, (answer.outcome.mapError (.building job.description)).map .built)

/-- Fills a template and stores the index. -/
def fill (e : Engine) (files : FileTree) (job : FillJob) : FileTree × Except Failure Report :=
  match job.prepare files e.config.transferLimit with
  | .error failure => (files, .error failure)
  | .ok (template, staged) =>
    let (_, files, answer) :=
      e.buildFromTemplate files template staged.vectors staged.ids job.output job.threads .nothing
    (files, (answer.outcome.mapError (.filling job.template)).map .built)

/-- The vector that a query spells, which is not empty. -/
def queryOf (E : Type) [HostElement E] (text : String) : Except Failure (Array E) :=
  match (readQuery? text : Option (Array E)) with
  | none => .error .notQuery
  | some vector => if vector.isEmpty then .error .emptyQuery else .ok vector

/-- A query vector of a given kind. -/
def readQuery (kind : Kind) (text : String) : Except Failure QueryVector :=
  match kind with
  | .float => .float <$> queryOf Single text
  | .binary => .binary <$> queryOf UInt8 text

/-- Searches a stored index. -/
def search (e : Engine) (files : FileTree) (job : SearchJob) : Except Failure Report := do
  let (e, loaded) := e.load files job.index
  let handle ← loaded.mapError (.loading job.index)
  let artifact ← (e.registry.get handle).mapError .plain
  let query ← readQuery artifact.kind job.vector
  let results := match job.wanted with
    | .nearest k => e.query handle query k job.filter?
    | .within radius most => e.queryRange handle query radius most job.filter?
  return .found (← results.mapError .plain)

/-- Describes an index or a template. -/
def describe (files : FileTree) (path : String) : Except Failure Report := do
  let bytes ← readBytes files .description path
  return .described (← (Artifact.ofBytes bytes).mapError (.notArtifact path))

/-! ## Running -/

/-- The configuration under an environment.  A path that leads to nothing
leaves the defaults. -/
def readConfig (env : Config.Environment) (files : FileTree) (path? : Option String) :
    Except Error Config := do
  let config ← match path? with
    | none => pure .standard
    | some path =>
      if (files.find? path).isNone then pure .standard
      else
        match files.text? path with
        | none => throw (.config (.unreadableFile path))
        | some text => Config.ofText text
  config.override env

/-- Runs a command with an engine. -/
def Command.run (e : Engine) (files : FileTree) : Command → FileTree × Except Failure Report
  | .train job => CommandLine.train e files job
  | .build job => CommandLine.build e files job
  | .fill job => CommandLine.fill e files job
  | .search job => (files, CommandLine.search e files job)
  | .describe path => (files, CommandLine.describe files path)

/-- Runs a command under an environment, on a machine with some threads. -/
def Invocation.run (env : Config.Environment) (machineThreads : Nat) (files : FileTree)
    (i : Invocation) : FileTree × Except Failure Report :=
  match readConfig env files i.config? with
  | .error cause => (files, .error (.configuration cause))
  | .ok config => i.command.run (.start config machineThreads) files

/-- Runs what the arguments ask for. -/
def run (env : Config.Environment) (machineThreads : Nat) (files : FileTree)
    (arguments : List String) : FileTree × Ending :=
  match Invocation.ofArguments arguments with
  | .error stop => (files, .stopped stop)
  | .ok i =>
    match i.run env machineThreads files with
    | (files, .ok report) => (files, .done report)
    | (files, .error failure) => (files, .failed failure)

end Proximity.CommandLine

import Proximity.CommandLine.Options
import Proximity.Number.Count
import Proximity.Number.Decimal
import Proximity.Space.Measure
import Proximity.Text.Blank

/-!
# Commands

A command line asks for one of five commands: to train a template, to build an
index, to fill a template, to search an index, or to describe an index or a
template.  Options of the program stand before the name of the command, its
own options after it.

## Main definitions

* `Command` — the commands and their settings.
* `Invocation` — a command under the options of the program.
* `Invocation.ofArguments` — what some arguments ask for.
-/

namespace Proximity.CommandLine

/-! ## Settings -/

/-- An index to be made from the vectors of a file. -/
structure Job where
  description : String
  /-- Where it is absent, it follows from the first vector. -/
  dimension? : Option Nat
  spaceType : SpaceType
  input : String
  output : String
  /-- Parameters as JSON, or `@` and the path of a file that holds them. -/
  parameters? : Option String
  /-- Zero asks for none in particular. -/
  threads : Nat
deriving DecidableEq, Repr

/-- A template to be filled with the vectors of a file. -/
structure FillJob where
  template : String
  input : String
  output : String
  threads : Nat
deriving DecidableEq, Repr

/-- Which results a search asks for. -/
inductive Wanted where
  | nearest (k : Nat)
  | within (radius : Single) (most : Nat)
deriving DecidableEq, Repr

/-- A search in a stored index. -/
structure SearchJob where
  index : String
  /-- The query as JSON. -/
  vector : String
  wanted : Wanted
  /-- The ids that may be found, if not all. -/
  filter? : Option (List Int64)
deriving DecidableEq, Repr

/-- What can be asked for. -/
inductive Command where
  | train (job : Job)
  | build (job : Job)
  | fill (job : FillJob)
  | search (job : SearchJob)
  | describe (path : String)
deriving DecidableEq, Repr

/-! ## Paths -/

/-- The path of the file that holds parameters, if they are not given as
such. -/
def parametersPath? (text : String) : Option String :=
  match text.toList with
  | '@' :: path => some (String.ofList path)
  | _ => none

/-- The paths that a job reads or writes. -/
def Job.paths (job : Job) : List String :=
  (job.parameters?.bind parametersPath?).toList ++ [job.input, job.output]

/-- The paths that a command reads or writes. -/
def Command.paths : Command → List String
  | .train job | .build job => job.paths
  | .fill job => [job.template, job.input, job.output]
  | .search job => [job.index]
  | .describe path => [path]

/-! ## Values of options -/

/-- A path, which is not empty. -/
def path? (text : String) : Option String := if text.isEmpty then none else some text

/-- A count. -/
def count? (text : String) : Option Nat := (Count.read text).toOption

/-- Ids between commas. -/
def ids? (text : String) : Option (List Int64) :=
  (Text.split ',' text.toList).mapM fun part => Count.readSigned (String.ofList part)

/-! ## Making indexes -/

/-- What options have said of an index to be made. -/
structure JobOptions where
  description : Option String := none
  dimension : Option Nat := none
  spaceType : Option SpaceType := none
  template : Option String := none
  input : Option String := none
  output : Option String := none
  parameters : Option String := none
  threads : Option Nat := none

namespace JobOptions

def inputFlag : Flag JobOptions := .once "input" none path? (·.input) ({ · with input := some · })

def outputFlag : Flag JobOptions :=
  .once "output" none path? (·.output) ({ · with output := some · })

def threadsFlag : Flag JobOptions :=
  .once "threads" none count? (·.threads) ({ · with threads := some · })

def templateFlag : Flag JobOptions :=
  .once "template" none path? (·.template) ({ · with template := some · })

/-- The options of a new index. -/
def newFlags : List (Flag JobOptions) :=
  [.help, inputFlag, outputFlag, threadsFlag,
    .once "description" none some (·.description) ({ · with description := some · }),
    .once "dimension" none count? (·.dimension) ({ · with dimension := some · }),
    .once "space-type" none SpaceType.ofName? (·.spaceType) ({ · with spaceType := some · }),
    .once "params" none some (·.parameters) ({ · with parameters := some · })]

/-- The options of a template to be filled. -/
def fillFlags : List (Flag JobOptions) :=
  [.help, inputFlag, outputFlag, threadsFlag, templateFlag]

end JobOptions

/-- An option that may not be absent. -/
def need {A : Type} (name : String) : Option A → Except Stop A
  | some value => .ok value
  | none => .error (.refused (.missingOption name))

/-- A new index. -/
def Job.ofArguments (arguments : List String) : Except Stop Job := do
  let o ← readOnlyOptions JobOptions.newFlags {} arguments
  return {
    description := ← need "description" o.description
    dimension? := o.dimension
    spaceType := o.spaceType.getD .l2
    input := ← need "input" o.input
    output := ← need "output" o.output
    parameters? := o.parameters
    threads := o.threads.getD 0 }

/-- A template to be filled. -/
def FillJob.ofArguments (arguments : List String) : Except Stop FillJob := do
  let o ← readOnlyOptions JobOptions.fillFlags {} arguments
  return {
    template := ← need "template" o.template
    input := ← need "input" o.input
    output := ← need "output" o.output
    threads := o.threads.getD 0 }

/-! ## Searching -/

/-- What options have said of a search. -/
structure SearchOptions where
  index : Option String := none
  vector : Option String := none
  k : Option Nat := none
  filter : Option (List Int64) := none
  radius : Option Single := none
  most : Option Nat := none

namespace SearchOptions

/-- The ids that may be found.  The option adds to what it said before. -/
def filterFlag : Flag SearchOptions :=
  ⟨"filter", none, .value fun text o =>
    match ids? text with
    | none => .error (.badValue "filter" text)
    | some ids => .ok { o with filter := some (o.filter.getD [] ++ ids) }⟩

def flags : List (Flag SearchOptions) :=
  [.help, filterFlag,
    .once "index" none path? (·.index) ({ · with index := some · }),
    .once "vector" none some (·.vector) ({ · with vector := some · }),
    .once "k" (some 'k') count? (·.k) ({ · with k := some · }),
    .once "radius" none Single.read? (·.radius) ({ · with radius := some · }),
    .once "max-results" none count? (·.most) ({ · with most := some · })]

/-- A search within a radius, if there is one, and else one for the nearest
vectors. -/
def wanted (o : SearchOptions) : Wanted :=
  match o.radius with
  | some radius => .within radius (o.most.getD 100)
  | none => .nearest (o.k.getD 10)

end SearchOptions

/-- A search. -/
def SearchJob.ofArguments (arguments : List String) : Except Stop SearchJob := do
  let o ← readOnlyOptions SearchOptions.flags {} arguments
  return {
    index := ← need "index" o.index
    vector := ← need "vector" o.vector
    wanted := o.wanted
    filter? := o.filter }

/-! ## Commands -/

/-- The one path that is asked about; options may stand on both sides. -/
def pathOfArguments (arguments : List String) : Except Stop String := do
  let before ← readOptions [Flag.help] () arguments
  match before.arguments with
  | [] => throw (.refused (.missingArgument "the path"))
  | text :: rest =>
    match path? text with
    | none => throw (.refused (.unexpected text))
    | some path =>
      match before.closed, rest with
      | true, argument :: _ => throw (.refused (.unexpected argument))
      | true, [] => return path
      | false, rest =>
        readOnlyOptions [Flag.help] () rest
        return path

namespace Command

/-- The names of the commands. -/
def names : List String := ["train", "build", "build-from-template", "search", "info"]

/-- What is no topic of help.  One command is a topic, and none has another
below it. -/
def unknownTopic? : List String → Option String
  | [] => none
  | topic :: below => if topic = "help" ∨ topic ∈ names then below.head? else some topic

/-- A command by its name and its arguments. -/
def ofArguments (name : String) (arguments : List String) : Except Stop Command :=
  match name with
  | "train" => .train <$> Job.ofArguments arguments
  | "build" => .build <$> Job.ofArguments arguments
  | "build-from-template" => .fill <$> FillJob.ofArguments arguments
  | "search" => .search <$> SearchJob.ofArguments arguments
  | "info" => .describe <$> pathOfArguments arguments
  | "help" =>
    match unknownTopic? arguments with
    | none => .error .help
    | some topic => .error (.refused (.unknownCommand topic))
  | _ => .error (.refused (.unknownCommand name))

end Command

/-- A command under the options of the program. -/
structure Invocation where
  /-- The path of a configuration, if one is to be read. -/
  config? : Option String
  /-- Whether to say more about the progress of the command. -/
  verbose : Bool
  command : Command
deriving DecidableEq, Repr

namespace Invocation

/-- The paths that a command and its configuration read or write. -/
def paths (i : Invocation) : List String := i.config?.toList ++ i.command.paths

/-- What options have said of the program as a whole. -/
structure Options where
  config : Option String := none
  verbose : Bool := false

/-- The options of the program. -/
def flags : List (Flag Options) :=
  [.help,
    .once "config" (some 'c') path? (·.config) ({ · with config := some · }),
    ⟨"verbose", some 'v', .mark fun o =>
      if o.verbose then .error (.repeated "verbose") else .ok { o with verbose := true }⟩]

/-- What some arguments ask for. -/
def ofArguments (arguments : List String) : Except Stop Invocation := do
  let rest ← readOptions flags {} arguments
  match rest.closed, rest.arguments with
  | _, [] => throw (.refused .missingCommand)
  | true, argument :: _ => throw (.refused (.unexpected argument))
  | false, name :: arguments =>
    return ⟨rest.collected.config, rest.collected.verbose, ← Command.ofArguments name arguments⟩

end Invocation

end Proximity.CommandLine

import Proximity.CommandLine.Run

/-!
# The program

The program takes the files that a command names into a tree, runs the command
on the tree, and writes back what changed in it.
-/

namespace Proximity.CommandLine

/-- What is meant by asking for help. -/
def usage : String :=
  "\n".intercalate
    ["Usage: proximity [OPTIONS] <COMMAND>",
      "",
      "Commands:",
      "  train                Train an index on sample vectors and write a template",
      "  build                Build an index from vectors and ids",
      "  build-from-template  Fill a trained template with vectors and ids",
      "  search               Query a persisted index",
      "  info                 Describe a persisted index or template",
      "",
      "Options:",
      "  -c, --config <CONFIG>  Build configuration file (TOML)",
      "  -v, --verbose          Verbose mode",
      "  -h, --help             Print help"]

namespace Disk

/-- What is at a place; what is neither a readable file nor absent counts as
a directory. -/
def entry? (p : Place) : IO (Option Entry) := do
  try
    let bytes ← IO.FS.readBinFile p.path
    return some (.file bytes.toList)
  catch
    | .noFileOrDirectory .. => return none
    | _ => return some .directory

/-- Takes what some steps lead to, and what is on the way, into a tree. -/
def take (files : FileTree) (p : Place) : List String → IO FileTree
  | [] => return files
  | step :: rest => do
    if step = Place.upward then take files p.around rest
    else
      let next := p ++ [step]
      match ← entry? next with
      | none => return files
      | some found => take (files.set next found) next rest

/-- Takes what some paths lead to, and the temporary files beside them, into a
tree. -/
def takeAll (paths : List String) : IO FileTree :=
  (paths ++ paths.map FileTree.temporaryPath).foldlM
    (fun files path => take files (Route.ofPath path).origin (Route.ofPath path).steps) .empty

/-- Removes the files that a tree has lost and writes the entries that are
new in it, directories first. -/
def giveBack (before after : FileTree) : IO Unit := do
  for e in before.entries do
    if (after.entry? e.1).isNone then IO.FS.removeFile e.1.path
  let changed := after.entries.filter fun e => !before.entries.contains e
  for e in changed.reverse do
    if e.2 = .directory then IO.FS.createDirAll e.1.path
  for e in changed do
    match e.2 with
    | .directory => pure ()
    | .file bytes =>
      let path := e.1.path
      let temporary := FileTree.temporaryPath path
      IO.FS.writeBinFile temporary ⟨bytes.toArray⟩
      IO.FS.rename temporary path

end Disk

/-- The environment as a configuration sees it. -/
def environment : IO Config.Environment := do
  let values ← Config.Variable.all.mapM fun name => return (name, ← IO.getEnv name)
  return fun name => (values.lookup name).join

/-- Shows how a command line ended and answers with its status. -/
def showEnding (ending : Ending) : IO UInt32 := do
  match ending with
  | .done report => IO.println report.text
  | .failed failure => IO.eprintln failure.text
  | .stopped .help => IO.println usage
  | .stopped (.refused fault) => IO.eprintln ("error: " ++ fault.message ++ "\n\n" ++ usage)
  return UInt32.ofNat ending.status

end Proximity.CommandLine

open Proximity Proximity.CommandLine in
def main (arguments : List String) : IO UInt32 := do
  let paths := match Invocation.ofArguments arguments with
    | .ok i => i.paths
    | .error _ => []
  let before ← Disk.takeAll paths
  let (after, ending) := run (← environment) 1 before arguments
  try
    Disk.giveBack before after
    showEnding ending
  catch cause =>
    IO.eprintln s!"Error: {cause}"
    return 1

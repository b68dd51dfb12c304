import Proximity.Artifact.Container
import Proximity.Files.Tree

/-!
# Artifacts in files

An artifact is written to a temporary file beside its path, which is then
renamed to the path, so that the path never holds half an artifact.  A write
can fail at each of its stages, because of what is in the tree or because the
machine refuses; what it leaves of the temporary file is removed again.

## Main definitions

* `WriteStage` — where a machine may refuse.
* `FileTree.store` — writes bytes by way of a temporary file.
* `FileTree.load` — reads an artifact.
-/

namespace Proximity

/-- A stage at which a machine may refuse to go on. -/
inductive WriteStage where
  | makeParents
  | create
  /-- After some of the bytes were written. -/
  | write (written : Nat)
  | flush
  | sync
  | rename
deriving DecidableEq, Repr

namespace FileTree

/-- The path of the temporary file beside a path. -/
def temporaryPath (path : String) : String := path ++ ".tmp"

/-- Writes the temporary file and renames it. -/
def writeAndRename (t : FileTree) (path : String) (bytes : List UInt8) (sync : Bool)
    (refused : Option WriteStage) : FileTree × Except Error Unit :=
  let failed := Except.error (.persistence (temporaryPath path))
  if refused = some .create then (t, failed)
  else
    match t.placeForFile? (temporaryPath path) with
    | none => (t, failed)
    | some temporary =>
      match refused with
      | some (.write written) => (t.set temporary (.file (bytes.take written)), failed)
      | refused =>
        let t := t.set temporary (.file bytes)
        if refused = some .flush ∨ (sync ∧ refused = some .sync) then (t, failed)
        else if refused = some .rename then (t, .error (.persistence path))
        else
          match t.move? temporary path with
          | none => (t, .error (.persistence path))
          | some t => (t, .ok ())

/-- Writes bytes to a path by way of a temporary file, making the directories
around it. -/
def store (t : FileTree) (path : String) (bytes : List UInt8) (sync : Bool)
    (refused : Option WriteStage) : FileTree × Except Error Unit :=
  let parent := Route.parentPath path
  if refused = some .makeParents then (t, .error (.persistence parent))
  else
    match t.makeDirectories parent with
    | (t, false) => (t, .error (.persistence parent))
    | (t, true) =>
      match t.writeAndRename path bytes sync refused with
      | (t, .ok ()) => (t, .ok ())
      | (t, .error e) => (t.removeFile (temporaryPath path), .error e)

/-- The artifact at a path. -/
def load (t : FileTree) (path : String) : Except Error Artifact :=
  match t.find? path with
  | none => .error (.notFound path)
  | some .directory => .error (.persistence path)
  | some (.file bytes) => (Artifact.ofBytes bytes).mapError .formatMismatch

end FileTree

end Proximity

/-!
# File trees

A file tree maps places to files and directories.  A place is the list of
names that lead to it from the directory that relative paths start from.  A
path is followed step by step: a name leads into a directory, a dot nowhere,
and two dots to the directory around, so that each step but the last has to
reach a directory that exists.

## Main definitions

* `Route` — the steps of a path.
* `FileTree.place?` — where a path leads.
* `FileTree.find?` — what is there.
* `FileTree.makeDirectories`, `FileTree.put?`, `FileTree.move?`,
  `FileTree.removeFile` — changes.
* `FileTree.listing` — everything below the start, in order.
-/

namespace Proximity

/-! ## Places -/

/-- The names on the way to a file or directory. -/
abbrev Place := List String

namespace Place

/-- Where relative paths start. -/
def start : Place := []

/-- The name that all absolute places begin with. -/
def rootName : String := "/"

/-- Where absolute paths start. -/
def root : Place := [rootName]

/-- The step to the directory around. -/
def upward : String := ".."

/-- Whether a place is the start or a directory around it. -/
def isAbove (p : Place) : Bool := p.all (· == upward)

/-- The directory around a place.  Nothing is around the root. -/
def around (p : Place) : Place :=
  if p.isAbove then p ++ [upward] else if p = root then root else p.dropLast

/-- The path of a place. -/
def path (p : Place) : String :=
  match p with
  | [] => "."
  | first :: rest =>
    if first = rootName then rootName ++ "/".intercalate rest else "/".intercalate p

end Place

/-! ## Paths -/

/-- The longest name, in bytes. -/
def nameLimit : Nat := 255

/-- The longest path, in bytes. -/
def pathLimit : Nat := 4095

/-- Whether something can have a name. -/
def isName (text : String) : Bool := decide (text.utf8ByteSize ≤ nameLimit)

/-- Whether a text can be a path: it is not too long and holds no null. -/
def isPath (text : String) : Bool :=
  decide (text.utf8ByteSize ≤ pathLimit) && text.toList.all fun c => c.toNat != 0

/-- The steps of a path. -/
structure Route where
  origin : Place
  steps : List String
  /-- Whether the path ends in a slash or a dot, and so can only mean a
  directory. -/
  asDirectory : Bool
deriving DecidableEq, Repr

namespace Route

/-- Whether a part of a path leads nowhere. -/
def isIdle (part : String) : Bool := part == "" || part == "."

/-- The route of a path. -/
def ofPath (path : String) : Route :=
  let parts := path.splitOn "/"
  { origin := if path.startsWith "/" then Place.root else Place.start
    steps := parts.filter fun part => !isIdle part
    asDirectory := isIdle (parts.getLastD "") }

/-- The parts of a path without those at its end that lead nowhere. -/
def trimEnd (parts : List String) : List String := (parts.reverse.dropWhile isIdle).reverse

/-- A path without its last step. -/
def parentPath (path : String) : String :=
  "/".intercalate (trimEnd (trimEnd (path.splitOn "/")).dropLast)

end Route

/-! ## Trees -/

/-- What is at a place. -/
inductive Entry where
  | file (bytes : List UInt8)
  | directory
deriving DecidableEq, Repr

/-- The files and directories; those above the start are not among them. -/
structure FileTree where
  entries : List (Place × Entry)
deriving DecidableEq, Repr

namespace FileTree

/-- A tree that holds nothing. -/
def empty : FileTree := ⟨[]⟩

/-- What is at a place. -/
def entry? (t : FileTree) (p : Place) : Option Entry :=
  if p.isAbove ∨ p = Place.root then some .directory else t.entries.lookup p

/-- Whether there is a directory at a place. -/
def isDirectory (t : FileTree) (p : Place) : Bool := t.entry? p == some .directory

/-- Where some steps lead from a place. -/
def follow? (t : FileTree) (p : Place) : List String → Option Place
  | [] => some p
  | step :: rest =>
    if !t.isDirectory p then none
    else if step = Place.upward then follow? t p.around rest
    else if isName step then follow? t (p ++ [step]) rest
    else none

/-- Where a path leads.  Nothing need be there. -/
def place? (t : FileTree) (path : String) : Option Place :=
  let r := Route.ofPath path
  if isPath path then t.follow? r.origin r.steps else none

/-- What a path leads to. -/
def find? (t : FileTree) (path : String) : Option Entry :=
  match (t.place? path).bind t.entry? with
  | some (.file bytes) => if (Route.ofPath path).asDirectory then none else some (.file bytes)
  | other => other

/-- The bytes of the file that a path leads to. -/
def bytes? (t : FileTree) (path : String) : Option (List UInt8) :=
  match t.find? path with
  | some (.file bytes) => some bytes
  | _ => none

/-- The text of the file that a path leads to. -/
def text? (t : FileTree) (path : String) : Option String :=
  (t.bytes? path).bind fun bytes => String.fromUTF8? ⟨bytes.toArray⟩

/-! ## Changes -/

/-- The tree without what is at a place. -/
def erase (t : FileTree) (p : Place) : FileTree := ⟨t.entries.filter fun e => e.1 != p⟩

/-- Puts something at a place, instead of what is there. -/
def set (t : FileTree) (p : Place) (entry : Entry) : FileTree :=
  ⟨(p, entry) :: (t.erase p).entries⟩

/-- Follows some steps from a directory and makes the directories that are
missing on the way.  Says whether all steps could be taken. -/
def makeAlong (t : FileTree) (p : Place) : List String → FileTree × Bool
  | [] => (t, true)
  | step :: rest =>
    if step = Place.upward then makeAlong t p.around rest
    else
      let next := p ++ [step]
      match t.entry? next with
      | some .directory => makeAlong t next rest
      | some (.file _) => (t, false)
      | none => if isName step then makeAlong (t.set next .directory) next rest else (t, false)

/-- Makes a directory and the missing ones around it, and says whether the
path leads to a directory now. -/
def makeDirectories (t : FileTree) (path : String) : FileTree × Bool :=
  let r := Route.ofPath path
  if isPath path then t.makeAlong r.origin r.steps else (t, false)

/-- Where a file can be put by a path: in a directory, but not in place of
one. -/
def placeForFile? (t : FileTree) (path : String) : Option Place :=
  if (Route.ofPath path).asDirectory then none
  else (t.place? path).filter fun p => !t.isDirectory p

/-- Puts a file where a path leads. -/
def put? (t : FileTree) (path : String) (bytes : List UInt8) : Option FileTree :=
  (t.placeForFile? path).map fun p => t.set p (.file bytes)

/-- Moves the file at a place to where a path leads, instead of a file
there. -/
def move? (t : FileTree) (source : Place) (path : String) : Option FileTree :=
  match t.entry? source, t.placeForFile? path with
  | some (.file bytes), some target => some ((t.erase source).set target (.file bytes))
  | _, _ => none

/-- Removes the file that a path leads to; anything else stays. -/
def removeFile (t : FileTree) (path : String) : FileTree :=
  match t.place? path, t.find? path with
  | some p, some (.file _) => t.erase p
  | _, _ => t

/-! ## Listing -/

/-- Whether a place is below the start. -/
def isBelowStart (p : Place) : Bool :=
  match p.head? with
  | none => false
  | some first => first != Place.upward && first != Place.rootName

/-- The path of an entry; that of a directory ends in a slash. -/
def pathOf (e : Place × Entry) : String :=
  e.1.path ++
    match e.2 with
    | .directory => "/"
    | .file _ => ""

/-- The paths of everything below the start, in order. -/
def listing (t : FileTree) : List String :=
  ((t.entries.filter fun e => isBelowStart e.1).map pathOf).mergeSort fun a b => !(b < a)

end FileTree

end Proximity

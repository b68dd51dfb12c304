import Proximity.Host.Request
import Proximity.Json.Number
import Proximity.Json.Reader
import Proximity.Transfer

/-!
# Vector files

A vector file is a JSON text with ids and the rows of the vectors, by name in
an object or by place in an array.  Ids may be absent from an object.  The
rows are staged one by one, so that the first row fixes the width of all
others.

## Main definitions

* `VectorFile` — ids and rows.
* `VectorFile.read?` — a vector file from a text.
* `VectorFile.stage` — its vectors in one buffer.
* `readQuery?` — a single vector from a text.
-/

namespace Proximity

/-- Elements of vectors that can be read from JSON. -/
class HostElement (E : Type) where
  kind : Kind
  /-- The element that a number stands for. -/
  ofNumeral? : Numeral → Option E
  /-- Vectors of such elements, as a host hands them over. -/
  vectors : Buffer E → HostVectors

/-- Every number stands for the nearest single-precision one. -/
instance : HostElement Single := ⟨.float, fun n => some n.toSingle, .float⟩

/-- A byte, written as an integer. -/
def byte? : Numeral → Option UInt8
  | .integer i => if 0 ≤ i ∧ i < 256 then some (UInt8.ofNat i.toNat) else none
  | .real _ => none

instance : HostElement UInt8 := ⟨.binary, byte?, .binary⟩

/-- The items of an array. -/
def Json.arrayOf? {A : Type} (read? : Json → Option A) : Json → Option (List A)
  | .array items => items.mapM read?
  | _ => none

/-- The meaning of a number. -/
def Json.numeral? : Json → Option Numeral
  | .number spelling => Numeral.read? spelling
  | _ => none

/-- Vectors and their ids, as a file lists them. -/
structure VectorFile (E : Type) where
  ids : List Int64
  rows : List (Array E)
deriving DecidableEq, Repr

section Reading

variable {E : Type} [HostElement E]

/-- One vector. -/
def readRow? (value : Json) : Option (Array E) :=
  (Json.arrayOf? (fun item => item.numeral?.bind HostElement.ofNumeral?) value).map List.toArray

/-- A query, from its text. -/
def readQuery? (text : String) : Option (Array E) := (Json.read? text).bind readRow?

end Reading

namespace VectorFile

variable {E : Type} [HostElement E]

/-- A list of ids. -/
def readIds? : Json → Option (List Int64) :=
  Json.arrayOf? fun item => item.numeral?.bind (·.toInt64?)

/-- The value of a name that may be given at most once. -/
def once (name : String) (members : List (Option String × Json)) : Option (Option Json) :=
  match members.filter (·.1 == some name) with
  | [] => some none
  | [(_, value)] => some (some value)
  | _ => none

/-- A vector file from its JSON value.  Members of other names are ignored,
but every name has to be readable. -/
def ofJson? : Json → Option (VectorFile E)
  | .array [ids, rows] => do return ⟨← readIds? ids, ← Json.arrayOf? readRow? rows⟩
  | .object members => do
    if members.any (·.1.isNone) then none
    let ids ← once "ids" members
    let rows ← once "vectors" members
    let ids ← match ids with
      | some ids => readIds? ids
      | none => some []
    return ⟨ids, ← Json.arrayOf? readRow? (← rows)⟩
  | _ => none

/-- A vector file from its text. -/
def read? (text : String) : Option (VectorFile E) := (Json.read? text).bind ofJson?

end VectorFile

/-- The vectors of a file in one buffer, with their ids. -/
structure StagedVectors where
  ids : Array Int64
  vectors : HostVectors
  /-- The dimension of the first vector, if there is one. -/
  dimension? : Option Nat
deriving Repr

namespace VectorFile

variable {E : Type} [HostElement E]

/-- Stages rows in turn; `place` is the place of the first of them.  A refused
row is reported with its place. -/
def stageRows (t : Transfer E) (place : Nat) : List (Array E) → Except (Nat × Error) (Transfer E)
  | [] => .ok t
  | row :: rest =>
    match t.add row with
    | (_, .error e) => .error (place, e)
    | (t, .ok ()) => stageRows t (place + 1) rest

/-- Stages the rows of a file under a memory limit. -/
def stage (memoryLimit : Nat) (file : VectorFile E) : Except (Nat × Error) StagedVectors := do
  let empty : Transfer E := .start (HostElement.kind E) memoryLimit
  let t ← stageRows (empty.announce file.rows.length) 0 file.rows
  let (buffer, dimension?) := t.toBuffer
  return ⟨file.ids.toArray, HostElement.vectors buffer, dimension?⟩

end VectorFile

end Proximity

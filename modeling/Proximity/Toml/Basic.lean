/-!
# TOML values and tables

A TOML document is a table that grows statement by statement.  Where a table
came from decides how it may still grow: a table with a header of its own may
not get a second one, a table that a longer header implied may get its header
later, and a table made by dotted keys grows by dotted keys only.  Tables in
braces and arrays in brackets are closed.

Settings are counts and switches, so strings keep their text and integers
their value, while real numbers and moments are only told apart from them.

## Main definitions

* `Toml` — the values.
* `Toml.define`, `Toml.extend`, `Toml.assign` — the statements.
-/

namespace Proximity

/-- Where a table came from. -/
inductive TableOrigin where
  /-- A header of its own. -/
  | header
  /-- The header of a table inside it. -/
  | implied
  /-- Dotted keys. -/
  | dotted
deriving DecidableEq, Repr

/-- A TOML value. -/
inductive Toml where
  | text (value : String)
  | integer (value : Int)
  | real
  | boolean (value : Bool)
  /-- A date, a time, or both. -/
  | moment
  | array (items : List Toml)
  /-- A table in braces. -/
  | inline (members : List (String × Toml))
  | table (origin : TableOrigin) (members : List (String × Toml))
  /-- Tables under one repeated header. -/
  | tables (elements : List (List (String × Toml)))
deriving Inhabited, Repr

namespace Toml

/-- The members of a table. -/
abbrev Members := List (String × Toml)

/-- A table that may still grow. -/
abbrev Open := TableOrigin × Members

/-- Gives a key a value, in place of any other it has. -/
def set (key : String) (value : Toml) : Members → Members
  | [] => [(key, value)]
  | (k, v) :: rest => if k = key then (key, value) :: rest else (k, v) :: set key value rest

/--
Changes the table that a path leads to.  Missing tables on the way are made
with the given origin.  A path leads into the last of several tables under one
header.  Dotted keys do not lead into a table with a header of its own.
-/
def alter (made : TableOrigin) (change : Open → Option Members) :
    List String → Open → Option Members
  | [], t => change t
  | key :: path, (_, members) =>
    match members.lookup key with
    | none =>
      (alter made change path (made, [])).map fun inner => set key (.table made inner) members
    | some (.table origin inner) =>
      if made = .dotted ∧ origin = .header then none
      else
        (alter made change path (origin, inner)).map fun inner =>
          set key (.table origin inner) members
    | some (.tables elements) =>
      match elements.getLast? with
      | none => none
      | some last =>
        (alter made change path (.header, last)).map fun inner =>
          set key (.tables (elements.dropLast ++ [inner])) members
    | some _ => none

/-- Gives a table its header. -/
def defineHere (key : String) : Open → Option Members
  | (_, members) =>
    match members.lookup key with
    | none => some (set key (.table .header []) members)
    | some (.table .implied inner) => some (set key (.table .header inner) members)
    | some _ => none

/-- Adds a table under a repeated header. -/
def extendHere (key : String) : Open → Option Members
  | (_, members) =>
    match members.lookup key with
    | none => some (set key (.tables [[]]) members)
    | some (.tables elements) => some (set key (.tables (elements ++ [[]])) members)
    | some _ => none

/-- Gives a fresh key a value; dotted keys and plain keys do not mix in one
table. -/
def assignHere (plain : Bool) (key : String) (value : Toml) : Open → Option Members
  | (origin, members) =>
    if (origin == .dotted) == plain then none
    else if (members.lookup key).isSome then none
    else some (members ++ [(key, value)])

/-- Assigns a value to a dotted key of a table, whose last part is `key`. -/
def assignDotted (path : List String) (key : String) (value : Toml) (t : Open) : Option Members :=
  alter .dotted (assignHere path.isEmpty key value) path t

/-- The document after a table header. -/
def define (path : List String) (key : String) (root : Members) : Option Members :=
  alter .implied (defineHere key) path (.header, root)

/-- The document after a repeated table header. -/
def extend (path : List String) (key : String) (root : Members) : Option Members :=
  alter .implied (extendHere key) path (.header, root)

/-- The document after an assignment below the header `current`. -/
def assign (current path : List String) (key : String) (value : Toml) (root : Members) :
    Option Members :=
  alter .implied (assignDotted path key value) current (.header, root)

end Toml

end Proximity

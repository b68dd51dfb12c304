import Proximity.Error
import Proximity.Json.Number
import Proximity.Json.Reader

/-!
# Tuning parameters

Parameters are a bag of knobs that a description cannot express: keys with
loosely typed values, some of them bags themselves.  Whoever consumes a key
reads it through an accessor that checks its shape; keys that nobody consumes
are never looked at.

Keys are kept in ascending order, each once.

## Main definitions

* `Parameter`, `Parameters` — a value, and a bag.
* `Parameters.get?`, `Parameters.insert` — the bag as a map.
* `Parameters.count?`, `Parameters.atLeast?`, `Parameters.map?` — checked
  accessors.
* `Parameters.read` — a bag from a JSON text.
-/

namespace Proximity

/-- A tuning value. -/
inductive Parameter where
  | bool (value : Bool)
  | int (value : Int64)
  | real (value : Double)
  | text (value : String)
  /-- A nested bag, its keys in ascending order. -/
  | map (entries : List (String × Parameter))
deriving Inhabited, Repr

/-- A bag of tuning values, its keys in ascending order. -/
abbrev Parameters := List (String × Parameter)

namespace Parameter

/-- The value in a message. -/
def display : Parameter → String
  | .bool value => if value then "true" else "false"
  | .int value => toString value.toInt
  | .real value => value.display
  | .text value => "\"" ++ value ++ "\""
  | .map entries => "\x7b" ++ toString entries.length ++ " keys\x7d"

mutual

/-- The value as JSON. -/
def json : Parameter → Json
  | .bool value => .bool value
  | .int value => .ofInt value.toInt
  | .real value => .ofDouble value
  | .text value => .ofString value
  | .map entries => .object (jsonEntries entries)

def jsonEntries : List (String × Parameter) → List (Option String × Json)
  | [] => []
  | (key, value) :: rest => (some key, json value) :: jsonEntries rest

end

end Parameter

namespace Parameters

/-! ## The bag as a map -/

/-- The value of a key. -/
def get? (ps : Parameters) (key : String) : Option Parameter := ps.lookup key

/-- Whether a key has a value. -/
def contains (ps : Parameters) (key : String) : Bool := (ps.get? key).isSome

/-- The keys in ascending order. -/
def keys (ps : Parameters) : List String := ps.map (·.1)

/-- Gives a key a value, in place of any other it has. -/
def insert (key : String) (value : Parameter) : Parameters → Parameters
  | [] => [(key, value)]
  | (k, v) :: rest =>
    if key < k then (key, value) :: (k, v) :: rest
    else if key = k then (key, value) :: rest
    else (k, v) :: insert key value rest

/-- The bag as JSON. -/
def json (ps : Parameters) : Json := (Parameter.map ps).json

/-! ## Accessors -/

/-- A positive integer. -/
def count? (ps : Parameters) (key : String) : Except Error (Option Nat) :=
  match ps.get? key with
  | none => .ok none
  | some (.int value) =>
    if 0 < value.toInt then .ok (some value.toInt.toNat)
    else .error (.invalidParameter key (.notPositiveInteger (Parameter.int value).display))
  | some other => .error (.invalidParameter key (.notPositiveInteger other.display))

/-- The single-precision number that a value stands for. -/
def number? : Parameter → Option Single
  | .int value => some (.ofInt value.toInt)
  | .real value => some value.toSingle
  | _ => none

/-- A finite number that is not below a bound. -/
def atLeast? (ps : Parameters) (key : String) (least : Single) : Except Error (Option Single) :=
  match ps.get? key with
  | none => .ok none
  | some value =>
    match number? value with
    | none => .error (.invalidParameter key (.notNumber value.display))
    | some x =>
      if x.isFinite && !x.lt least then .ok (some x)
      else .error (.invalidParameter key (.belowLeast x least))

/-- A nested bag. -/
def map? (ps : Parameters) (key : String) : Except Error (Option Parameters) :=
  match ps.get? key with
  | none => .ok none
  | some (.map entries) => .ok (some entries)
  | some other => .error (.invalidParameter key (.notMap other.display))

/-! ## Reading -/

mutual

/-- The value that JSON stands for, nested at most `depth` objects deep.
Nulls and arrays stand for nothing, and an integer that does not fit 64 bits
with a sign becomes a number of double precision. -/
def ofJson? (depth : Nat) : Json → Option Parameter
  | .null => none
  | .array _ => none
  | .bool value => some (.bool value)
  | .string text => text.map .text
  | .number spelling =>
    match Numeral.read? spelling with
    | none => none
    | some (.real x) => some (.real x)
    | some (.integer i) =>
      match (Numeral.integer i).toInt64? with
      | some value => some (.int value)
      | none => some (.real (.ofNat i.toNat))
  | .object members =>
    match depth with
    | 0 => none
    | depth + 1 => (ofMembers? depth [] members).map .map

/-- The bag that members stand for; of equal keys the last one counts. -/
def ofMembers? (depth : Nat) (ps : Parameters) : List (Option String × Json) → Option Parameters
  | [] => some ps
  | (key, value) :: rest =>
    match key, ofJson? depth value with
    | some key, some value => ofMembers? depth (ps.insert key value) rest
    | _, _ => none

end

/-- The deepest nesting of objects that is read. -/
def depthLimit : Nat := 127

/-- The key under which a bag as a whole is refused. -/
def wholeKey : String := "parameters"

/-- The bag that a JSON value stands for. -/
def fromJson (value : Json) : Except Error Parameters :=
  match ofJson? depthLimit value with
  | some (.map entries) => .ok entries
  | _ => .error (.invalidParameter wholeKey .unreadable)

/-- The bag that a JSON text stands for. -/
def read (text : String) : Except Error Parameters :=
  match Json.read? text with
  | some value => fromJson value
  | none => .error (.invalidParameter wholeKey .unreadable)

end Parameters

end Proximity

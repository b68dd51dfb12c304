import Proximity.Number.Text

/-!
# JSON values and their written form

Hosts hand over parameters and vectors as JSON, and summaries are printed as
JSON.  Numbers keep their spelling, since what a spelling means depends on who
reads it.  A text is absent where its escapes name half a surrogate pair: such
a string can be skipped but not read.

Two layouts are written: compact, without any blanks, and indented, with one
member or item to a line.

## Main definitions

* `Json` — the values.
* `Json.compact`, `Json.indented` — the two layouts.
* `Json.ofNat`, `Json.ofInt`, `Json.ofSingle`, `Json.ofDouble` — numbers.
-/

namespace Proximity

/-- A JSON value. -/
inductive Json where
  | null
  | bool (value : Bool)
  /-- A number as it is spelled. -/
  | number (spelling : String)
  | string (text : Option String)
  | array (items : List Json)
  | object (members : List (Option String × Json))
deriving Inhabited, Repr

namespace Json

/-! ## Construction -/

def ofString (text : String) : Json := .string (some text)

def ofNat (n : Nat) : Json := .number (toString n)

def ofInt (i : Int) : Json := .number (toString i)

/-- Infinities and NaN have no written form and become `null`. -/
def ofSingle (x : Single) : Json := (x.json?.map number).getD .null

/-- Infinities and NaN have no written form and become `null`. -/
def ofDouble (x : Double) : Json := (x.json?.map number).getD .null

/-- An object whose keys are all texts. -/
def ofMembers (members : List (String × Json)) : Json :=
  .object (members.map fun m => (some m.1, m.2))

/-! ## Strings -/

/-- A hexadecimal digit in lower case. -/
def hexDigit (n : Nat) : Char := (Nat.toDigits 16 (n % 16)).headD '0'

/-- A character inside quotes.  Quotes, backslashes and control characters
are escaped, and nothing else. -/
def escapeChar (c : Char) : List Char :=
  if c = '"' then ['\\', '"']
  else if c = '\\' then ['\\', '\\']
  else if c = '\n' then ['\\', 'n']
  else if c = '\r' then ['\\', 'r']
  else if c = '\t' then ['\\', 't']
  else if c.toNat = 8 then ['\\', 'b']
  else if c.toNat = 12 then ['\\', 'f']
  else if c.toNat < 32 then ['\\', 'u', '0', '0', hexDigit (c.toNat / 16), hexDigit c.toNat]
  else [c]

/-- A text in quotes. -/
def quote (text : String) : String :=
  String.ofList ('"' :: text.toList.flatMap escapeChar ++ ['"'])

/-! ## Layouts -/

mutual

/-- The value without any blanks. -/
def compact : Json → String
  | .null => "null"
  | .bool value => if value then "true" else "false"
  | .number spelling => spelling
  | .string text => quote (text.getD "")
  | .array items => "[" ++ ",".intercalate (compactItems items) ++ "]"
  | .object members => "\x7b" ++ ",".intercalate (compactMembers members) ++ "\x7d"

def compactItems : List Json → List String
  | [] => []
  | item :: rest => compact item :: compactItems rest

def compactMembers : List (Option String × Json) → List String
  | [] => []
  | (key, value) :: rest => (quote (key.getD "") ++ ":" ++ compact value) :: compactMembers rest

end

/-- The lines of a bracketed list, which is written in one piece if it is
empty. -/
def block (start stop indent : String) (lines : List String) : String :=
  if lines.isEmpty then start ++ stop
  else
    let inner := "\n" ++ indent ++ "  "
    start ++ inner ++ ("," ++ inner).intercalate lines ++ "\n" ++ indent ++ stop

mutual

/-- The value with one item or member to a line, each level two blanks
further in; `indent` is that of the value itself. -/
def indentedAt (indent : String) : Json → String
  | .null => "null"
  | .bool value => if value then "true" else "false"
  | .number spelling => spelling
  | .string text => quote (text.getD "")
  | .array items => block "[" "]" indent (indentedItems (indent ++ "  ") items)
  | .object members => block "\x7b" "\x7d" indent (indentedMembers (indent ++ "  ") members)

def indentedItems (indent : String) : List Json → List String
  | [] => []
  | item :: rest => indentedAt indent item :: indentedItems indent rest

def indentedMembers (indent : String) : List (Option String × Json) → List String
  | [] => []
  | (key, value) :: rest =>
    (quote (key.getD "") ++ ": " ++ indentedAt indent value) :: indentedMembers indent rest

end

/-- The value with one item or member to a line. -/
def indented (value : Json) : String := indentedAt "" value

end Json

end Proximity

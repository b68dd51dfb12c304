import Proximity.Toml.Basic
import Proximity.Toml.Scalar

/-!
# Reading TOML

The reader takes a document line by line: a header, a repeated header or an
assignment, each at the end of its line but for a comment.  Values in brackets
may run over several lines, values in braces may not.

## Main definitions

* `Toml.value?` — one value.
* `Toml.read?` — the members of the document's table.
-/

namespace Proximity.Toml

/-! ## Blanks, comments and line ends -/

/-- Drops blanks within a line. -/
def skipBlanks : List Char → List Char
  | c :: rest => if c = ' ' ∨ c = '\t' then skipBlanks rest else c :: rest
  | [] => []

/-- Whether a character may stand in a comment or, unescaped, in a string. -/
def isPrintable (c : Char) : Bool :=
  c == '\t' || decide (0x20 ≤ c.toNat) && c.toNat != 0x7f

/-- Drops a comment, if there is one. -/
def skipComment : List Char → List Char
  | '#' :: rest => rest.dropWhile isPrintable
  | cs => cs

/-- The rest after a line end. -/
def lineEnd? : List Char → Option (List Char)
  | '\n' :: rest => some rest
  | '\r' :: '\n' :: rest => some rest
  | _ => none

/-- The rest after the end of a statement's line. -/
def statementEnd? (cs : List Char) : Option (List Char) :=
  match skipComment (skipBlanks cs) with
  | [] => some []
  | cs => lineEnd? cs

/-- Drops blanks, comments and line ends.  Each round takes a character. -/
def skipLines : Nat → List Char → List Char
  | 0, cs => cs
  | fuel + 1, cs =>
    match skipComment (skipBlanks cs) with
    | '\n' :: rest => skipLines fuel rest
    | '\r' :: '\n' :: rest => skipLines fuel rest
    | rest => rest

/-- Drops blanks, comments and line ends. -/
def skipSpace (cs : List Char) : List Char := skipLines cs.length cs

/-! ## Strings -/

/-- The character with a number, surrogates apart. -/
def scalarChar? (n : Nat) : Option Char :=
  if n < 0xd800 ∨ (0xe000 ≤ n ∧ n < 0x110000) then some (Char.ofNat n) else none

/-- The character of an escape and the number of characters after its mark
that spell it. -/
def escape? : List Char → Option (Char × Nat)
  | 'b' :: _ => some (Char.ofNat 8, 1)
  | 't' :: _ => some ('\t', 1)
  | 'n' :: _ => some ('\n', 1)
  | 'f' :: _ => some (Char.ofNat 12, 1)
  | 'r' :: _ => some ('\r', 1)
  | '"' :: _ => some ('"', 1)
  | '\\' :: _ => some ('\\', 1)
  | 'u' :: rest => spelled 4 rest
  | 'U' :: rest => spelled 8 rest
  | _ => none
where
  /-- A character named by `count` hexadecimal digits. -/
  spelled (count : Nat) (rest : List Char) : Option (Char × Nat) :=
    if (rest.take count).length = count then
      ((Digits.read? 16 (rest.take count)).bind scalarChar?).map fun c => (c, count + 1)
    else none

/-- A string in double quotes, after the opening quote. -/
def basic? (done : List Char) : Nat → List Char → Option (String × List Char)
  | 0, _ => none
  | _ + 1, [] => none
  | fuel + 1, c :: rest =>
    if c = '"' then some (String.ofList done.reverse, rest)
    else if c = '\\' then
      match escape? rest with
      | some (e, count) => basic? (e :: done) fuel (rest.drop count)
      | none => none
    else if isPrintable c then basic? (c :: done) fuel rest
    else none

/-- A string in single quotes, after the opening quote. -/
def literal? (done : List Char) : List Char → Option (String × List Char)
  | [] => none
  | c :: rest =>
    if c = '\'' then some (String.ofList done.reverse, rest)
    else if isPrintable c then literal? (c :: done) rest
    else none

/-- How many of the first characters are `c`. -/
def runLength (c : Char) (cs : List Char) : Nat := (cs.takeWhile (· == c)).length

/-- Drops blanks and line ends. -/
def skipBlankLines : List Char → List Char
  | '\r' :: '\n' :: rest => skipBlankLines rest
  | c :: rest => if c = ' ' ∨ c = '\t' ∨ c = '\n' then skipBlankLines rest else c :: rest
  | [] => []

/-- The rest after a backslash that joins lines: blanks, a line end, and all
blanks and line ends after it. -/
def joinedLines? (cs : List Char) : Option (List Char) :=
  (lineEnd? (skipBlanks cs)).map skipBlankLines

/-- A string over several lines, after its opening quotes.  Up to two quotes
may stand anywhere in it, also in front of the closing ones. -/
def lines? (quote : Char) (done : List Char) : Nat → List Char → Option (String × List Char)
  | 0, _ => none
  | _ + 1, [] => none
  | fuel + 1, c :: rest =>
    if c = quote then
      let count := runLength quote (c :: rest)
      if count < 3 then lines? quote (quote :: done) fuel rest
      else
        let extra := min (count - 3) 2
        some (String.ofList (List.replicate extra quote ++ done).reverse, rest.drop (extra + 2))
    else if c = '\\' ∧ quote = '"' then
      match escape? rest with
      | some (e, count) => lines? quote (e :: done) fuel (rest.drop count)
      | none =>
        match joinedLines? rest with
        | some rest => lines? quote done fuel rest
        | none => none
    else if isPrintable c then lines? quote (c :: done) fuel rest
    else
      match lineEnd? (c :: rest) with
      | some rest => lines? quote ('\n' :: done) fuel rest
      | none => none

/-- A line end directly after opening quotes does not count. -/
def skipLineEnd (cs : List Char) : List Char := (lineEnd? cs).getD cs

/-- A string of any form. -/
def string? (cs : List Char) : Option (String × List Char) :=
  match cs with
  | '"' :: '"' :: '"' :: rest => lines? '"' [] (rest.length + 1) (skipLineEnd rest)
  | '\'' :: '\'' :: '\'' :: rest => lines? '\'' [] (rest.length + 1) (skipLineEnd rest)
  | '"' :: rest => basic? [] (rest.length + 1) rest
  | '\'' :: rest => literal? [] rest
  | _ => none

/-! ## Keys -/

/-- Whether a character may stand in a key without quotes. -/
def isBareKey (c : Char) : Bool := c.isAlphanum || c == '_' || c == '-'

/-- One part of a key. -/
def keyPart? : List Char → Option (String × List Char)
  | '"' :: rest => basic? [] (rest.length + 1) rest
  | '\'' :: rest => literal? [] rest
  | cs =>
    let part := cs.takeWhile isBareKey
    if part.isEmpty then none else some (String.ofList part, cs.dropWhile isBareKey)

/-- The parts of a dotted key; blanks may stand around each. -/
def keyParts? : Nat → List String → List Char → Option (List String × List Char)
  | 0, _, _ => none
  | fuel + 1, done, cs =>
    match keyPart? (skipBlanks cs) with
    | none => none
    | some (part, rest) =>
      match skipBlanks rest with
      | '.' :: rest => keyParts? fuel (part :: done) rest
      | rest => some ((part :: done).reverse, rest)

/-- Keys with this many parts, and values nested this deep, are refused. -/
def depthLimit : Nat := 80

/-- A dotted key, as its path and its last part. -/
def key? (cs : List Char) : Option (List String × String × List Char) := do
  let (parts, rest) ← keyParts? (cs.length + 1) [] cs
  if depthLimit ≤ parts.length then none
  else return (parts.dropLast, ← parts.getLast?, rest)

/-! ## Values -/

mutual

/-- One value, nested in `depth` others. -/
def value? : Nat → Nat → List Char → Option (Toml × List Char)
  | 0, _, _ => none
  | fuel + 1, depth, cs =>
    match cs with
    | '[' :: rest =>
      if depth + 1 < depthLimit then items? fuel (depth + 1) [] rest else none
    | '\x7b' :: rest =>
      if depth + 1 < depthLimit then
        match skipBlanks rest with
        | '\x7d' :: rest => some (.inline [], rest)
        | rest => members? fuel (depth + 1) [] rest
      else none
    | 't' :: 'r' :: 'u' :: 'e' :: rest => some (.boolean true, rest)
    | 'f' :: 'a' :: 'l' :: 's' :: 'e' :: rest => some (.boolean false, rest)
    | cs =>
      match string? cs with
      | some (content, rest) => some (.text content, rest)
      | none =>
        (Scalar.read? cs).map fun (scalar, rest) =>
          (match scalar with
            | .integer value => .integer value
            | .real => .real
            | .moment => .moment, rest)

/-- The items of an array from the next one on, if there is one. -/
def items? : Nat → Nat → List Toml → List Char → Option (Toml × List Char)
  | 0, _, _, _ => none
  | fuel + 1, depth, done, cs =>
    match skipSpace cs with
    | ']' :: rest => some (.array done.reverse, rest)
    | cs =>
      match value? fuel depth cs with
      | none => none
      | some (item, rest) =>
        match skipSpace rest with
        | ',' :: rest => items? fuel depth (item :: done) rest
        | ']' :: rest => some (.array (item :: done).reverse, rest)
        | _ => none

/-- The members of a table in braces from the next one on. -/
def members? : Nat → Nat → Members → List Char → Option (Toml × List Char)
  | 0, _, _, _ => none
  | fuel + 1, depth, done, cs =>
    match key? cs with
    | some (path, key, '=' :: rest) =>
      match value? fuel depth (skipBlanks rest) with
      | none => none
      | some (value, rest) =>
        match assignDotted path key value (.header, done) with
        | none => none
        | some done =>
          match skipBlanks rest with
          | ',' :: rest => members? fuel depth done rest
          | '\x7d' :: rest => some (.inline done, rest)
          | _ => none
    | _ => none

end

/-! ## Documents -/

/-- A header between its brackets, and the rest of its line. -/
def header? (cs : List Char) : Option (List String × String × List Char) := do
  match ← key? cs with
  | (path, key, ']' :: rest) => return (path, key, ← statementEnd? rest)
  | _ => none

/-- A repeated header between its brackets, and the rest of its line. -/
def repeatedHeader? (cs : List Char) : Option (List String × String × List Char) := do
  match ← key? cs with
  | (path, key, ']' :: ']' :: rest) => return (path, key, ← statementEnd? rest)
  | _ => none

/-- An assignment, and the rest of its line. -/
def assignment? (cs : List Char) : Option (List String × String × Toml × List Char) := do
  match ← key? cs with
  | (path, key, '=' :: rest) =>
    let rest := skipBlanks rest
    let (value, rest) ← value? (2 * rest.length + 2) 0 rest
    return (path, key, value, ← statementEnd? rest)
  | _ => none

/-- Reads statements below the header `current`.  Each takes a character. -/
def statements? : Nat → List String → Members → List Char → Option Members
  | 0, _, _, _ => none
  | fuel + 1, current, root, cs =>
    match skipSpace cs with
    | [] => some root
    | '[' :: '[' :: rest => do
      let (path, key, rest) ← repeatedHeader? rest
      statements? fuel (path ++ [key]) (← extend path key root) rest
    | '[' :: rest => do
      let (path, key, rest) ← header? rest
      statements? fuel (path ++ [key]) (← define path key root) rest
    | cs => do
      let (path, key, value, rest) ← assignment? cs
      statements? fuel current (← assign current path key value root) rest

/-- Drops a byte order mark. -/
def skipMark : List Char → List Char
  | c :: rest => if c.toNat = 0xfeff then rest else c :: rest
  | [] => []

/-- The members of a document's table. -/
def read? (text : String) : Option Members :=
  let cs := skipMark text.toList
  statements? (cs.length + 1) [] [] cs

end Proximity.Toml

/-!
# Options on a command line

Options are named by a word after two dashes or by a letter after one.  A
value stands in the argument itself, after an equals sign or right behind the
letter, or in the next argument, which then has to look like none of these.
Letters of options without values can be joined in one argument.  Two dashes
alone end the options.

What an option means is left to its `Flag`, which changes a collection of the
settings given so far.

## Main definitions

* `Flag` — an option and what it does.
* `Argument` — what an argument looks like.
* `readOptions` — collects the options up to the first other argument.
-/

namespace Proximity.CommandLine

/-- Why arguments are refused. -/
inductive ArgumentFault where
  | unknownOption (argument : String)
  | missingValue (option : String)
  | needlessValue (option : String)
  | repeated (option : String)
  | badValue (option value : String)
  | missingOption (option : String)
  | missingArgument (meaning : String)
  | unexpected (argument : String)
  | missingCommand
  | unknownCommand (name : String)
deriving DecidableEq, Repr

def ArgumentFault.message : ArgumentFault → String
  | .unknownOption argument => s!"unknown option '{argument}'"
  | .missingValue option => s!"option '--{option}' needs a value"
  | .needlessValue option => s!"option '--{option}' takes no value"
  | .repeated option => s!"option '--{option}' is given twice"
  | .badValue option value => s!"'{value}' is no value of option '--{option}'"
  | .missingOption option => s!"option '--{option}' is missing"
  | .missingArgument meaning => s!"{meaning} is missing"
  | .unexpected argument => s!"unexpected argument '{argument}'"
  | .missingCommand => "no command is given"
  | .unknownCommand name => s!"unknown command '{name}'"

/-- Why arguments are not read to their end. -/
inductive Stop where
  /-- Help is asked for. -/
  | help
  | refused (fault : ArgumentFault)
deriving DecidableEq, Repr

/-! ## Options -/

/-- Takes the value of an option into a collection. -/
abbrev Setter (D : Type) := String → D → Except ArgumentFault D

/-- What an option does. -/
inductive Effect (D : Type) where
  | help
  /-- An option without a value. -/
  | mark (set : D → Except ArgumentFault D)
  | value (set : Setter D)

/-- An option of a command that collects its settings in a `D`. -/
structure Flag (D : Type) where
  name : String
  letter : Option Char
  effect : Effect D

namespace Flag

variable {D A : Type}

/-- Asks for help. -/
def help : Flag D := ⟨"help", some 'h', .help⟩

/-- An option whose value can be given once. -/
def once (name : String) (letter : Option Char) (read? : String → Option A)
    (held : D → Option A) (hold : D → A → D) : Flag D :=
  ⟨name, letter, .value fun text d =>
    if (held d).isSome then .error (.repeated name)
    else
      match read? text with
      | none => .error (.badValue name text)
      | some value => .ok (hold d value)⟩

end Flag

/-! ## Arguments -/

/-- What an argument looks like. -/
inductive Argument where
  /-- No option; a lone dash is none either. -/
  | plain
  /-- The end of the options. -/
  | close
  | word (name : String) (value : Option String)
  | letters (cs : List Char)
deriving DecidableEq, Repr

namespace Argument

/-- The value after an equals sign, if there is one. -/
def valueAfter : List Char → Option String
  | [] => none
  | _ :: value => some (String.ofList value)

/-- What an argument looks like. -/
def ofString (text : String) : Argument :=
  match text.toList with
  | ['-', '-'] => .close
  | '-' :: '-' :: cs =>
    .word (String.ofList (cs.takeWhile (· != '='))) (valueAfter (cs.dropWhile (· != '=')))
  | '-' :: c :: cs => .letters (c :: cs)
  | _ => .plain

/-- Whether an argument can be the value of the option before it. -/
def isPlain (text : String) : Bool := ofString text == .plain

end Argument

/-! ## Reading -/

/-- What one argument comes to. -/
inductive Step (D : Type) where
  | plain
  | close
  | taken (collected : D)
  /-- The next argument is the value of an option. -/
  | awaits (option : String) (set : Setter D) (collected : D)

section Reading

variable {D : Type}

/-- Gives an option the value that stands in its own argument. -/
def takeValue (set : Setter D) (value : String) (d : D) : Except Stop (Step D) :=
  ((set value d).mapError .refused).map .taken

/-- Reads the letters of one argument. -/
def readLetters (flags : List (Flag D)) : D → List Char → Except Stop (Step D)
  | d, [] => .ok (.taken d)
  | d, c :: rest =>
    match flags.find? (·.letter == some c) with
    | none => .error (.refused (.unknownOption (String.ofList ['-', c])))
    | some flag =>
      match flag.effect, rest with
      | .help, _ => .error .help
      | .mark set, rest =>
        match set d with
        | .error fault => .error (.refused fault)
        | .ok d => readLetters flags d rest
      | .value set, [] => .ok (.awaits flag.name set d)
      | .value set, '=' :: value => takeValue set (String.ofList value) d
      | .value set, value => takeValue set (String.ofList value) d

/-- Reads an option that is named by a word. -/
def readWord (flags : List (Flag D)) (d : D) (name : String) (value : Option String) :
    Except Stop (Step D) :=
  match flags.find? (·.name == name) with
  | none => .error (.refused (.unknownOption ("--" ++ name)))
  | some flag =>
    match flag.effect, value with
    | .help, none => .error .help
    | .mark set, none => ((set d).mapError .refused).map .taken
    | .value set, none => .ok (.awaits name set d)
    | .value set, some value => takeValue set value d
    | _, some _ => .error (.refused (.needlessValue name))

/-- Reads one argument. -/
def readArgument (flags : List (Flag D)) (d : D) (argument : String) : Except Stop (Step D) :=
  match Argument.ofString argument with
  | .plain => .ok .plain
  | .close => .ok .close
  | .word name value => readWord flags d name value
  | .letters cs => readLetters flags d cs

/-- What is left when the options are read. -/
structure Rest (D : Type) where
  collected : D
  /-- Whether the options were ended, so that no more can follow. -/
  closed : Bool
  arguments : List String

/-- Collects the options up to the first other argument. -/
def readOptions (flags : List (Flag D)) : D → List String → Except Stop (Rest D)
  | d, [] => .ok ⟨d, false, []⟩
  | d, argument :: rest =>
    match readArgument flags d argument with
    | .error stop => .error stop
    | .ok .plain => .ok ⟨d, false, argument :: rest⟩
    | .ok .close => .ok ⟨d, true, rest⟩
    | .ok (.taken d) => readOptions flags d rest
    | .ok (.awaits option set d) =>
      match rest with
      | [] => .error (.refused (.missingValue option))
      | value :: rest =>
        if Argument.isPlain value then
          match set value d with
          | .error fault => .error (.refused fault)
          | .ok d => readOptions flags d rest
        else .error (.refused (.missingValue option))

/-- Collects options where no other argument may stand. -/
def readOnlyOptions (flags : List (Flag D)) (d : D) (arguments : List String) : Except Stop D := do
  let rest ← readOptions flags d arguments
  match rest.arguments with
  | [] => return rest.collected
  | argument :: _ => throw (.refused (.unexpected argument))

end Reading

end Proximity.CommandLine

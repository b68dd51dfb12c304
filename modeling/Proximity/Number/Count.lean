import Proximity.Number.Digits

/-!
# Counts written in decimal

A count is a natural number below `2 ^ 64`, written as decimal digits after
an optional `+`.  Digits are taken from the left, and the first thing wrong
decides the fault: a character that is no digit, or a digit that takes the
number out of range.  Signed integers of 64 bits follow the same rule with a
`-` allowed in front.

## Main definitions

* `Count.read` — a count, or what is wrong with the text.
* `Count.readSigned` — a signed integer, if the text is one.
-/

namespace Proximity

/-- Why a text is no count. -/
inductive CountFault where
  | empty
  | invalidDigit
  | tooLarge
deriving DecidableEq, Repr

/-- The wording of a fault. -/
def CountFault.message : CountFault → String
  | .empty => "cannot parse integer from empty string"
  | .invalidDigit => "invalid digit found in string"
  | .tooLarge => "number too large to fit in target type"

namespace Count

/-- Counts are below this bound. -/
def bound : Nat := 0x10000000000000000

/-- Signed integers are below this bound, and its opposite is the least of
them. -/
def signedBound : Nat := 0x8000000000000000

/-- Extends `value` by the digits in turn, staying below `limit`. -/
def digits (limit : Nat) : Nat → List Char → Except CountFault Nat
  | value, [] => .ok value
  | value, c :: rest =>
    match Digits.value? 10 c with
    | none => .error .invalidDigit
    | some d =>
      let value := value * 10 + d
      if value < limit then digits limit value rest else .error .tooLarge

/-- Digits, of which there must be at least one. -/
def digits1 (limit : Nat) (cs : List Char) : Except CountFault Nat :=
  if cs.isEmpty then .error .invalidDigit else digits limit 0 cs

/-- The count that `cs` spells. -/
def readChars : List Char → Except CountFault Nat
  | [] => .error .empty
  | '+' :: rest => digits1 bound rest
  | cs => digits bound 0 cs

/-- The count that `text` spells. -/
def read (text : String) : Except CountFault Nat := readChars text.toList

/-- The signed 64-bit integer that `text` spells. -/
def readSigned (text : String) : Option Int64 :=
  match text.toList with
  | [] => none
  | '-' :: rest => (digits1 (signedBound + 1) rest).toOption.map fun n => Int64.ofInt (-n)
  | '+' :: rest => (digits1 signedBound rest).toOption.map fun n => Int64.ofNat n
  | cs => (digits signedBound 0 cs).toOption.map fun n => Int64.ofNat n

end Count

end Proximity

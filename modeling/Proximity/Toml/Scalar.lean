import Proximity.Number.Count
import Proximity.Number.Format

/-!
# Numbers and moments in TOML

Numbers and moments start with a digit or a sign.  Four digits and a dash
begin a date, two digits and a colon a time; everything else is a number.
Underscores may stand between digits.  Integers fit 64 bits with a sign and
may be written with base 16, 8 or 2; a positive real number has to be within
the range of double precision.

## Main definitions

* `Toml.Scalar.read?` — a number or a moment and what follows it.
-/

namespace Proximity.Toml

/-- A number or a moment. -/
inductive Scalar where
  | integer (value : Int)
  | real
  | moment
deriving DecidableEq, Repr

namespace Scalar

/-! ## Digits -/

/-- Digits with single underscores between them, after a digit.  An
underscore has to be followed by a digit. -/
def moreDigits (base : Nat) (done : List Nat) : List Char → Option (List Nat × List Char)
  | [] => some (done.reverse, [])
  | '_' :: c :: rest =>
    match Digits.value? base c with
    | some d => moreDigits base (d :: done) rest
    | none => none
  | ['_'] => none
  | c :: rest =>
    match Digits.value? base c with
    | some d => moreDigits base (d :: done) rest
    | none => some (done.reverse, c :: rest)

/-- Digits with single underscores between them. -/
def digits? (base : Nat) : List Char → Option (List Nat × List Char)
  | [] => none
  | c :: rest =>
    match Digits.value? base c with
    | some d => moreDigits base [d] rest
    | none => none

/-- Digits without a leading zero. -/
def wholeDigits? : List Char → Option (List Nat × List Char)
  | '0' :: rest => some ([0], rest)
  | cs => digits? 10 cs

/-! ## Moments -/

/-- A number of exactly `count` digits within bounds. -/
def field? (count least most : Nat) (cs : List Char) : Option (Nat × List Char) :=
  let head := cs.take count
  if head.length = count ∧ head.all Char.isDigit then
    let n := head.foldl (fun n c => n * 10 + (c.toNat - '0'.toNat)) 0
    if least ≤ n ∧ n ≤ most then some (n, cs.drop count) else none
  else none

/-- The given character. -/
def char? (c : Char) : List Char → Option (List Char)
  | d :: rest => if d = c then some rest else none
  | [] => none

/-- The number of days of a month. -/
def daysIn (year month : Nat) : Nat :=
  if month = 2 then
    if year % 4 = 0 ∧ (year % 100 ≠ 0 ∨ year % 400 = 0) then 29 else 28
  else if month = 4 ∨ month = 6 ∨ month = 9 ∨ month = 11 then 30
  else 31

/-- A date. -/
def date? (cs : List Char) : Option (List Char) := do
  let (year, cs) ← field? 4 0 9999 cs
  let cs ← char? '-' cs
  let (month, cs) ← field? 2 1 12 cs
  let cs ← char? '-' cs
  let (_, cs) ← field? 2 1 (daysIn year month) cs
  return cs

/-- A fraction of a second, if there is one. -/
def skipFraction : List Char → List Char
  | '.' :: c :: rest => if c.isDigit then rest.dropWhile Char.isDigit else '.' :: c :: rest
  | cs => cs

/-- A time of day. -/
def time? (cs : List Char) : Option (List Char) := do
  let (_, cs) ← field? 2 0 23 cs
  let cs ← char? ':' cs
  let (_, cs) ← field? 2 0 59 cs
  let cs ← char? ':' cs
  let (_, cs) ← field? 2 0 60 cs
  return skipFraction cs

/-- An offset from universal time, if there is one. -/
def offset? : List Char → Option (List Char)
  | [] => some []
  | c :: rest =>
    if c = 'Z' ∨ c = 'z' then some rest
    else if c = '+' ∨ c = '-' then do
      let (_, rest) ← field? 2 0 23 rest
      let rest ← char? ':' rest
      let (_, rest) ← field? 2 0 59 rest
      return rest
    else some (c :: rest)

/-- Whether a time of day begins here. -/
def startsTime : List Char → Bool
  | a :: b :: c :: _ => a.isDigit && b.isDigit && c == ':'
  | _ => false

/-- Whether a date begins here. -/
def startsDate : List Char → Bool
  | a :: b :: c :: d :: e :: _ => a.isDigit && b.isDigit && c.isDigit && d.isDigit && e == '-'
  | _ => false

/-- A date, with a time of day and an offset after it if there are any. -/
def dateAndTime? (cs : List Char) : Option (List Char) := do
  match ← date? cs with
  | c :: rest =>
    if (c = 'T' ∨ c = 't' ∨ c = ' ') ∧ startsTime rest then offset? (← time? rest)
    else return c :: rest
  | [] => return []

/-! ## Numbers -/

/-- Whether digits times a power of ten exceed the range of double
precision. -/
def exceeds (ds : List Nat) (exponent : Int) : Bool :=
  let significand := Digits.number 10 ds
  let point : Int := (Nat.toDigits 10 significand).length + exponent
  if significand = 0 ∨ point < -400 then false
  else if 400 < point then true
  else BinaryFormat.double.ofDecimal significand exponent == BinaryFormat.double.infinity

/-- The digits of a fraction, if there is a point. -/
def fraction? : List Char → Option (List Nat × List Char)
  | '.' :: rest => digits? 10 rest
  | cs => some ([], cs)

/-- An exponent, if there is a mark. -/
def exponent? : List Char → Option (Option Int × List Char)
  | [] => some (none, [])
  | c :: rest =>
    if c = 'e' ∨ c = 'E' then
      let (down, rest) := match rest with
        | '-' :: rest => (true, rest)
        | '+' :: rest => (false, rest)
        | rest => (false, rest)
      (digits? 10 rest).map fun (ds, rest) =>
        (some (if down then -(Digits.number 10 ds : Int) else Digits.number 10 ds), rest)
    else some (none, c :: rest)

/-- An integer of some base, within 64 bits with a sign. -/
def bounded? (negative : Bool) (n : Nat) : Option Scalar :=
  if negative then if n ≤ Count.signedBound then some (.integer (-n)) else none
  else if n < Count.signedBound then some (.integer n) else none

/-- A number in base ten after its sign. -/
def decimal? (negative : Bool) (cs : List Char) : Option (Scalar × List Char) := do
  let (whole, cs) ← wholeDigits? cs
  let (fraction, afterFraction) ← fraction? cs
  let (exponent, rest) ← exponent? afterFraction
  if fraction.isEmpty && exponent.isNone then
    return (← bounded? negative (Digits.number 10 whole), rest)
  else if !negative && exceeds (whole ++ fraction) (exponent.getD 0 - fraction.length) then none
  else return (.real, rest)

/-- An integer after the mark of its base. -/
def based? (base : Nat) (cs : List Char) : Option (Scalar × List Char) := do
  let (ds, rest) ← digits? base cs
  return (← bounded? false (Digits.number base ds), rest)

/-- A number after its sign: `inf` and `nan` are numbers, too. -/
def signed? (negative : Bool) : List Char → Option (Scalar × List Char)
  | 'i' :: 'n' :: 'f' :: rest => some (.real, rest)
  | 'n' :: 'a' :: 'n' :: rest => some (.real, rest)
  | cs => decimal? negative cs

/-- A number or a moment and what follows it. -/
def read? (cs : List Char) : Option (Scalar × List Char) :=
  if startsDate cs then (dateAndTime? cs).map fun rest => (.moment, rest)
  else if startsTime cs then (time? cs).map fun rest => (.moment, rest)
  else
    match cs with
    | '+' :: rest => signed? false rest
    | '-' :: rest => signed? true rest
    | '0' :: 'x' :: rest => based? 16 rest
    | '0' :: 'o' :: rest => based? 8 rest
    | '0' :: 'b' :: rest => based? 2 rest
    | cs => signed? false cs

end Scalar

end Proximity.Toml

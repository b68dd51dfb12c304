/-!
# Digits

Digits have values, and digits in a row spell a natural number, the highest
digit first.

## Main definitions

* `Digits.value?` — the value of a digit of some base.
* `Digits.number`, `Digits.decimal` — the number that digits spell.
-/

namespace Proximity.Digits

/-- The value of a digit of a base up to sixteen.  Letters, in either case,
are the digits from ten on. -/
def value? (base : Nat) (c : Char) : Option Nat :=
  let value? :=
    if '0' ≤ c ∧ c ≤ '9' then some (c.toNat - '0'.toNat)
    else if 'a' ≤ c ∧ c ≤ 'f' then some (c.toNat - 'a'.toNat + 10)
    else if 'A' ≤ c ∧ c ≤ 'F' then some (c.toNat - 'A'.toNat + 10)
    else none
  value?.filter (· < base)

/-- The number that digits spell, from their values. -/
def number (base : Nat) (ds : List Nat) : Nat := ds.foldl (fun n d => n * base + d) 0

/-- The number that characters spell, if all of them are digits. -/
def read? (base : Nat) (cs : List Char) : Option Nat :=
  (cs.mapM (value? base)).map (number base)

/-- The value of a character that is known to be a decimal digit. -/
def decimalValue (c : Char) : Nat := c.toNat - '0'.toNat

/-- The number that characters spell that are known to be decimal digits. -/
def decimal (cs : List Char) : Nat := number 10 (cs.map decimalValue)

end Proximity.Digits

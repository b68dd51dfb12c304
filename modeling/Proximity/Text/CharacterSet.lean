/-!
# Sets of characters

A set of characters is written down as ranges of their numbers, both ends of a
range included.  The ranges ascend and do not touch, so that a search can stop
at the first range above a character.

## Main definitions

* `CharacterSet` — the ranges of a set.
* `CharacterSet.holds` — membership.
-/

namespace Proximity.Text

/-- The ranges of a set, in ascending order. -/
abbrev CharacterSet := List (Nat × Nat)

namespace CharacterSet

/-- Whether a number lies in one of some ascending ranges. -/
def covers : CharacterSet → Nat → Bool
  | [], _ => false
  | (first, last) :: rest, n =>
    if n < first then false else decide (n ≤ last) || covers rest n

/-- Whether a character is in a set. -/
def holds (s : CharacterSet) (c : Char) : Bool := s.covers c.toNat

end CharacterSet

end Proximity.Text

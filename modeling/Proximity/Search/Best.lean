import Proximity.Search.Candidate

/-!
# The best of many candidates

A scan meets candidates one after the other and has to keep the best `k` of
them.  `Best` holds at most `k`, the worst at the head: while there is room a
newcomer is inserted, afterwards it has to beat the head and takes its place.

## Main definitions

* `Best.offer` — meets one candidate.
* `Best.collect` — the best of a list, best first.
-/

namespace Proximity

/-- The best candidates met so far, worst first, and how many may be kept. -/
structure Best where
  capacity : Nat
  kept : List Candidate
deriving Repr

namespace Best

/-- Room for `capacity` candidates, none met yet. -/
def empty (capacity : Nat) : Best := ⟨capacity, []⟩

/-- Meets one candidate. -/
def offer (b : Best) (c : Candidate) : Best :=
  if b.kept.length < b.capacity then { b with kept := c.insertWorst b.kept }
  else
    match b.kept with
    | [] => b
    | worst :: rest => if worst.le c then b else { b with kept := c.insertWorst rest }

/-- What was kept, best first. -/
def toList (b : Best) : List Candidate := b.kept.reverse

/-- The best `capacity` of some candidates, best first. -/
def collect (capacity : Nat) (cs : List Candidate) : List Candidate :=
  (cs.foldl offer (empty capacity)).toList

end Best

end Proximity

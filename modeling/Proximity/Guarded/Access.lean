import Proximity.Index.Clustering
import Proximity.Index.Flat
import Proximity.Number.Count

/-!
# Guarded accesses

The operations of the library are total: a place outside an array reads as empty, a
division by zero is zero, and there is room for everything.  A machine stops there.
Here every access is guarded, and so is every demand for room that depends on a number
from outside: it answers `none` where a machine would stop, and otherwise what the total
operation answers.  This is how programs run.

## Main definitions

* `Machine` — how much room there is.
* `Guarded.quotient?`, `Guarded.remainder?`, `Guarded.slice?`, `Guarded.chunks?` —
  the accesses.
* `Guarded.reserve?` — a demand for room.
* `Guarded.scan?` — the acceptable ones of some vectors with their costs.
* `Flat.total?`, `Flat.vector?`, `Flat.costTo?`, `Flat.nearest?`, `Flat.within?` —
  guarded flat storage.
-/

namespace Proximity

/-! ## Machines -/

/-- How much room there is on a machine. -/
structure Machine where
  /-- Whether there can be room for so many candidates at once. -/
  grants : Nat → Bool
  /-- Whether there can be room for so many inverted lists at once. -/
  grantsLists : Nat → Bool
  /-- There is room for the two that a walk of width one meets. -/
  two : grants 2 = true

namespace Machine

/-- A machine that never lacks room. -/
def unlimited : Machine := ⟨fun _ => true, fun _ => true, rfl⟩

/-- The bytes of one candidate. -/
def candidateBytes : Nat := 16

/-- The bytes of one empty inverted list. -/
def listBytes : Nat := 48

/-- A machine with words of 64 bits.  Numbers wrap around there, and a block of memory has
fewer bytes than the signed numbers have room for. -/
def standard : Machine where
  grants count := decide (count % Count.bound * candidateBytes < Count.signedBound)
  grantsLists count := decide (count * listBytes < Count.signedBound)
  two := by decide

end Machine

namespace Guarded

variable {E A B : Type}

/-! ## Single accesses -/

/-- A quotient; nothing is divided by zero. -/
def quotient? (m n : Nat) : Option Nat := if n = 0 then none else some (m / n)

/-- A remainder; nothing is divided by zero. -/
def remainder? (m n : Nat) : Option Nat := if n = 0 then none else some (m % n)

/-- The elements from `start` to `stop`, both of which have to be in range. -/
def slice? (xs : Array E) (start stop : Nat) : Option (Array E) :=
  if start ≤ stop ∧ stop ≤ xs.size then some (xs.extract start stop) else none

/-- The whole vectors of some width, which must not be zero. -/
def chunks? (unitLength : Nat) (xs : Array E) : Option (List (Array E)) :=
  if unitLength = 0 then none else some (vectorsOf unitLength xs)

/-- A condition that has to hold. -/
def need (p : Prop) [Decidable p] : Option Unit := if p then some () else none

/-- Room for some candidates, which a machine has to grant. -/
def reserve? (machine : Machine) (count : Nat) : Option Unit := need (machine.grants count = true)

theorem need_eq {p : Prop} [Decidable p] (h : p) : need p = some () := if_pos h

theorem forM_eq_some {f? : A → Option Unit} {as : List A} (h : ∀ a ∈ as, f? a = some ()) :
    as.forM f? = some () := by
  induction as with
  | nil => rfl
  | cons a as ih =>
      have hrest := ih fun b hb => h b (List.mem_cons_of_mem a hb)
      rw [List.forM, h a List.mem_cons_self]
      exact hrest

/-! ## Scans -/

/-- The acceptable ones of some labelled vectors as candidates, in order. -/
def scan? (accept? : Nat → Option Bool) (cost : Array E → Single) :
    List (Nat × Array E) → Option (List Candidate)
  | [] => some []
  | e :: rest => do
    if ← accept? e.1 then
      let found ← scan? accept? cost rest
      return ⟨cost e.2, e.1⟩ :: found
    else scan? accept? cost rest

end Guarded

open Guarded

/-! ## Flat storage -/

namespace Flat

variable {S E : Type}

/-- The number of stored vectors. -/
def total? (f : Flat S E) : Option Nat := quotient? f.data.size f.unitLength

/-- The vector with label `i`. -/
def vector? (f : Flat S E) (i : Nat) : Option (Array E) :=
  slice? f.data (i * f.unitLength) (i * f.unitLength + f.unitLength)

/-- Appends whole vectors. -/
def append? (f : Flat S E) (elements : Array E) : Option (Flat S E × Except Error Unit) := do
  let rest ← remainder? elements.size f.unitLength
  if rest ≠ 0 then return (f, .error (.dimensionMismatch f.unitLength rest))
  return ({ f with data := f.data ++ elements }, .ok ())

variable [Space S E]

/-- The cost of the vector with label `i` for a query. -/
def costTo? (f : Flat S E) (query : Array E) (i : Nat) : Option Single :=
  (f.vector? i).map fun v => Space.cost f.space v query

/-- The acceptable vectors as candidates, in order of labels. -/
def candidates? (f : Flat S E) (query : Array E) (accept? : Nat → Option Bool) :
    Option (List Candidate) := do
  let vs ← chunks? f.unitLength f.data
  scan? accept? (fun v => Space.cost f.space v query) ((List.range vs.length).zip vs)

/-- The best `k` acceptable vectors, best first.  A bounded collection makes room for a
few candidates beforehand, however many are asked for. -/
def nearest? (f : Flat S E) (query : Array E) (k : Nat) (accept? : Nat → Option Bool) :
    Option (List Candidate) :=
  (f.candidates? query accept?).map (Best.collect k)

/-- The acceptable vectors with a cost strictly below `bound`, best first. -/
def within? (f : Flat S E) (query : Array E) (bound : Single) (accept? : Nat → Option Bool) :
    Option (List Candidate) :=
  (f.candidates? query accept?).map fun cs =>
    Candidate.ranked (cs.filter fun c => c.cost.lt bound)

end Flat

end Proximity

import Proximity.Random.Generator
import Proximity.Number.Single

/-!
# Samples without replacement

Draws `amount` distinct positions out of `length`.  Few positions out of many
are drawn by Floyd's method, which costs one draw per position whatever the
length.  Of more positions, a prefix of a shuffle is taken if they are a good
part of all, and otherwise positions are drawn until so many different ones
have come.  The methods draw different words, so which one runs is part of the
result.

## Main definitions

* `Draw.methodFor` — which method runs.
* `Draw.sample` — the sample, in ascending order.
-/

namespace Proximity.Draw

/-- Swaps each of the first positions with a later one or itself. -/
def shufflePrefix (length : Nat) : Nat → Nat → Array Nat → Draw (Array Nat)
  | 0, _, positions => return positions
  | left + 1, i, positions => do
    let j := i + (← below32 (length - i))
    shufflePrefix length left (i + 1) (positions.swapIfInBounds i j)

/-- A prefix of a shuffle of all positions. -/
def byShuffle (length amount : Nat) : Draw (Array Nat) := do
  let positions ← shufflePrefix length amount 0 (Array.range length)
  return positions.extract 0 amount

/-- Floyd's method on the positions from `j` on: a drawn position that is
taken already is replaced by `j` itself, which cannot be.  In a `small`
sample the newcomer goes in front of the position it collided with. -/
def floyd (small : Bool) : Nat → Nat → Array Nat → Draw (Array Nat)
  | 0, _, taken => return taken
  | left + 1, j, taken => do
    let t ← below32 (j + 1)
    let taken :=
      match taken.findIdx? (· == t) with
      | none => taken.push t
      | some place => if small then taken.insertIdxIfInBounds place j else taken.push j
    floyd small left (j + 1) taken

/-- Swaps the positions from the last to the second with an earlier one or
itself. -/
def shuffleBack : Nat → Array Nat → Draw (Array Nat)
  | 0, positions => return positions
  | i + 1, positions => do
    let j ← below32 (i + 2)
    shuffleBack i (positions.swapIfInBounds (i + 1) j)

/-- Floyd's method; a large sample is shuffled afterwards. -/
def byFloyd (length amount : Nat) : Draw (Array Nat) := do
  let small := decide (amount < 50)
  let taken ← floyd small amount (length - amount) #[]
  if small then return taken else shuffleBack (amount - 1) taken

/-- The least position that is not taken. -/
def leastFree (taken : Array Nat) : Nat :=
  ((List.range (taken.size + 1)).find? fun p => !taken.contains p).getD 0

/-- How often a position that is taken is drawn again.  No run comes to the end of this. -/
def redraws : Nat := UInt64.size

/-- Draws until a position comes that is not taken. -/
def untaken (position : Draw Nat) (taken : Array Nat) : Nat → Draw Nat
  | 0 => return leastFree taken
  | left + 1 => do
    let p ← position
    if taken.contains p then untaken position taken left else return p

/-- Draws positions one by one. -/
def reject (position : Draw Nat) : Nat → Array Nat → Draw (Array Nat)
  | 0, taken => return taken
  | left + 1, taken => do
    let p ← untaken position taken redraws
    reject position left (taken.push p)

/-- Different positions by rejection.  Words of 32 bits do as long as they can name every
position. -/
def byRejection (length amount : Nat) : Draw (Array Nat) :=
  reject (if length < UInt32.size then uniform32 length else uniform64 length) amount #[]

/-- The ways to draw a sample. -/
inductive Method where
  | shuffle
  | floyd
  | rejection
deriving DecidableEq, Repr

/-- The method that is taken to be the cheapest.  The estimates are made in single
precision. -/
def methodFor (length amount : Nat) : Method :=
  let all := Single.ofNat length
  let count := Single.ofNat amount
  if UInt32.size ≤ length then .rejection
  else if amount < 163 then
    let slope : Single := if length < 500000 then ⟨0x3fcccccd⟩ else ⟨0x3e360b61⟩
    let offset : Single := if length < 500000 then ⟨0x41200000⟩ else ⟨0x40f8e38e⟩
    if 11 < amount ∧ all.lt ((offset + slope * count) * count) = true then .shuffle else .floyd
  else
    let slope : Single := if length < 500000 then ⟨0x43870000⟩ else ⟨0x4212aaab⟩
    if all.lt (slope * count) = true then .shuffle else .rejection

/-- Distinct positions in the order in which they were drawn. -/
def drawnBy (length amount : Nat) : Method → Draw (Array Nat)
  | .shuffle => byShuffle length amount
  | .floyd => byFloyd length amount
  | .rejection => byRejection length amount

/-- `amount` distinct positions below `length`, in ascending order. -/
def sample (length amount : Nat) : Draw (Array Nat) := do
  let positions ← drawnBy length amount (methodFor length amount)
  return (positions.toList.mergeSort (· ≤ ·)).toArray

end Proximity.Draw

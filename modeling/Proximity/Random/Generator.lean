import Proximity.Words

/-!
# A seeded random generator

The generator is the ChaCha stream cipher with twelve rounds run on an empty
message: its key is stretched from a 64-bit seed, its 64-bit block counter
starts at zero, and the words of successive blocks are handed out in order.
Everything random in this library is drawn from such a generator, so equal
seeds give equal results.

## Main definitions

* `Generator.ofSeed` — the generator of a seed.
* `Draw` — a computation that draws from a generator.
* `Draw.word32`, `Draw.word64`, `Draw.unit` — single draws.
* `Draw.below32`, `Draw.below64` — unbiased draws below a bound.
* `Draw.uniform32`, `Draw.uniform64` — draws below a bound that refuse fewer words.
-/

namespace Proximity

/-! ## The block function -/

namespace ChaCha

/-- Rotates a word to the left. -/
@[inline] def rotate (x : UInt32) (n : UInt32) : UInt32 := (x <<< n) ||| (x >>> (32 - n))

/-- The block that adds nothing. -/
def nothing : Block := Vector.replicate 16 0

/-- Mixes columns and diagonals `n` times. -/
def rounds : Nat → Block → Block
  | 0, s => s
  | n + 1, s => rounds n (Block.round rotate s nothing)

/-- The block of a key at a counter: twelve rounds, then the start added. -/
def block (key : Vector UInt32 8) (counter : UInt64) : Block :=
  let constants : Vector UInt32 4 := #v[0x61707865, 0x3320646e, 0x79622d32, 0x6b206574]
  let position : Vector UInt32 4 := #v[counter.toUInt32, (counter >>> 32).toUInt32, 0, 0]
  let start : Block := constants ++ key ++ position
  Vector.zipWith (· + ·) (rounds 6 start) start

end ChaCha

/-! ## The generator -/

/-- A position in the word stream of a key. -/
structure Generator where
  key : Vector UInt32 8
  /-- The number of the next block. -/
  counter : UInt64
  /-- Words of the last block that are still to be handed out. -/
  pending : List UInt32

namespace Generator

/-- The multiplier of the seed's own recurrence. -/
def seedMultiplier : UInt64 := 6364136223846793005

/-- The increment of the seed's own recurrence. -/
def seedIncrement : UInt64 := 11634580027462260723

/-- One step of the seed's recurrence and the key word it gives: the high
bits are folded onto the low ones and rotated by an amount taken from the
top. -/
def keyWord (state : UInt64) : UInt32 × UInt64 :=
  let state := state * seedMultiplier + seedIncrement
  let folded := (((state >>> 18) ^^^ state) >>> 27).toUInt32
  let amount := (state >>> 59).toUInt32
  (if amount = 0 then folded else (folded >>> amount) ||| (folded <<< (32 - amount)), state)

/-- The generator of a seed. -/
def ofSeed (seed : UInt64) : Generator :=
  let (k0, s) := keyWord seed
  let (k1, s) := keyWord s
  let (k2, s) := keyWord s
  let (k3, s) := keyWord s
  let (k4, s) := keyWord s
  let (k5, s) := keyWord s
  let (k6, s) := keyWord s
  let (k7, _) := keyWord s
  ⟨#v[k0, k1, k2, k3, k4, k5, k6, k7], 0, []⟩

/-- The next word of the stream. -/
def next (g : Generator) : UInt32 × Generator :=
  match g.pending with
  | w :: rest => (w, { g with pending := rest })
  | [] =>
    match (ChaCha.block g.key g.counter).toList with
    | w :: rest => (w, { g with counter := g.counter + 1, pending := rest })
    | [] => (0, g)

end Generator

/-- A computation that draws from a generator. -/
abbrev Draw := StateM Generator

namespace Draw

/-- One word of the stream. -/
def word32 : Draw UInt32 := fun g => g.next

/-- Two words of the stream, the lower half first. -/
def word64 : Draw UInt64 := do
  let low ← word32
  let high ← word32
  return high.toUInt64 <<< 32 ||| low.toUInt64

/-- A number in `[0, 1)`: the top 53 bits of a double word, scaled. -/
def unit : Draw Float := do
  let word ← word64
  return (word >>> 11).toFloat * (1.0 / 9007199254740992.0)

/--
A draw below `bound` from words of `width` bits.  A word `v` gives the high
half of `v * bound`; it is refused when the low half exceeds `zone`, the end
of a multiple of the bound, since such words would favour some results.  A
refusal happens at most every other time, and after `tries` of them the last
word is used as it is.
-/
def belowBy (width : Nat) (word : Draw Nat) (zone bound : Nat) : Nat → Draw Nat
  | 0 => do
    let v ← word
    return (v * bound) >>> width
  | tries + 1 => do
    let v ← word
    let product := v * bound
    if product % Nat.pow 2 width ≤ zone then return product >>> width
    else belowBy width word zone bound tries

/-- The end of the bound shifted as far up as a word has room for.  It costs no
division. -/
def shiftedZone (width bound : Nat) : Nat := bound <<< (width - 1 - bound.log2) - 1

/-- The end of the largest multiple of the bound that a word has room for. -/
def widestZone (width bound : Nat) : Nat := Nat.pow 2 width - 1 - Nat.pow 2 width % bound

/-- How often a refused word is replaced. -/
def tries : Nat := 256

/-- A natural number below `bound`, from 32-bit words. -/
def below32 (bound : Nat) : Draw Nat :=
  belowBy 32 (UInt32.toNat <$> word32) (shiftedZone 32 bound) bound tries

/-- A natural number below `bound`, from 64-bit words. -/
def below64 (bound : Nat) : Draw Nat :=
  belowBy 64 (UInt64.toNat <$> word64) (shiftedZone 64 bound) bound tries

/-- A natural number below a `bound` that is drawn below many times, from 32-bit words. -/
def uniform32 (bound : Nat) : Draw Nat :=
  belowBy 32 (UInt32.toNat <$> word32) (widestZone 32 bound) bound tries

/-- A natural number below a `bound` that is drawn below many times, from 64-bit words. -/
def uniform64 (bound : Nat) : Draw Nat :=
  belowBy 64 (UInt64.toNat <$> word64) (widestZone 64 bound) bound tries

end Draw

end Proximity

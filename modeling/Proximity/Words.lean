/-!
# Blocks of sixteen words

The hash and the random generator both work on blocks of sixteen 32-bit words,
seen as a square of four rows, and mix its columns and its diagonals by the
same steps: additions, and exclusive ors followed by rotations.

## Main definitions

* `Block` — the blocks, with `Block.word` and `Block.put`.
* `Block.mix` — mixes four words of a block.
-/

namespace Proximity

/-- Sixteen words. -/
abbrev Block := Vector UInt32 16

namespace Block

/-- A place in a block; places repeat after sixteen. -/
@[inline] def place (i : Nat) : Fin 16 := ⟨i % 16, Nat.mod_lt i (by decide)⟩

/-- The word at a place. -/
@[inline] def word (s : Block) (i : Nat) : UInt32 := s.get (place i)

/-- Puts a word at a place. -/
@[inline] def put (s : Block) (i : Nat) (w : UInt32) : Block :=
  s.set (place i).val w (place i).isLt

/-- Mixes the words at four places and adds two further words on the way;
`turn` rotates a word by a number of bits. -/
def mix (turn : UInt32 → UInt32 → UInt32) (s : Block) (a b c d : Nat) (x y : UInt32) : Block :=
  let s := put s a (word s a + word s b + x)
  let s := put s d (turn (word s d ^^^ word s a) 16)
  let s := put s c (word s c + word s d)
  let s := put s b (turn (word s b ^^^ word s c) 12)
  let s := put s a (word s a + word s b + y)
  let s := put s d (turn (word s d ^^^ word s a) 8)
  let s := put s c (word s c + word s d)
  put s b (turn (word s b ^^^ word s c) 7)

/-- Mixes the columns and then the diagonals, adding the words of a block of
their own in order. -/
def round (turn : UInt32 → UInt32 → UInt32) (s m : Block) : Block :=
  let s := mix turn s 0 4 8 12 (word m 0) (word m 1)
  let s := mix turn s 1 5 9 13 (word m 2) (word m 3)
  let s := mix turn s 2 6 10 14 (word m 4) (word m 5)
  let s := mix turn s 3 7 11 15 (word m 6) (word m 7)
  let s := mix turn s 0 5 10 15 (word m 8) (word m 9)
  let s := mix turn s 1 6 11 12 (word m 10) (word m 11)
  let s := mix turn s 2 7 8 13 (word m 12) (word m 13)
  mix turn s 3 4 9 14 (word m 14) (word m 15)

end Block

end Proximity

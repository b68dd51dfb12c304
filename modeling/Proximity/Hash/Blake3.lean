import Proximity.Words

/-!
# BLAKE3

The BLAKE3 hash of a byte list: chunks of 1024 bytes are compressed block by
block into chaining values, and the chaining values are paired up in a binary
tree whose left subtrees are complete.  Only the root compression sees the
root flag, so each node is first described by its `Node`, the input of its
last compression, and compressed when it is known whether it is the root.

## Main definitions

* `Blake3.hash` — the 32 bytes of the default output.
-/

namespace Proximity.Blake3

/-- The eight words that chain one compression to the next. -/
abbrev Chaining := Vector UInt32 8

/-- The initial chaining value. -/
def initial : Chaining :=
  #v[0x6a09e667, 0xbb67ae85, 0x3c6ef372, 0xa54ff53a, 0x510e527f, 0x9b05688c, 0x1f83d9ab, 0x5be0cd19]

/-! ## Flags -/

def chunkStart : UInt32 := 1
def chunkEnd : UInt32 := 2
def parentNode : UInt32 := 4
def rootNode : UInt32 := 8

/-! ## The compression function -/

/-- Rotates a word to the right. -/
@[inline] def rotate (x : UInt32) (n : UInt32) : UInt32 := (x >>> n) ||| (x <<< (32 - n))

/-- The order in which a round leaves the message words for the next one. -/
def permute (m : Block) : Block :=
  #v[m.word 2, m.word 6, m.word 3, m.word 10, m.word 7, m.word 0, m.word 4, m.word 13,
    m.word 1, m.word 11, m.word 12, m.word 5, m.word 9, m.word 14, m.word 15, m.word 8]

/-- Applies `n` rounds, permuting the message in between. -/
def rounds : Nat → Block → Block → Block
  | 0, s, _ => s
  | n + 1, s, m => rounds n (Block.round rotate s m) (permute m)

/-- The compression function, cut to the words that chain onwards. -/
def compress (cv : Chaining) (m : Block) (counter : UInt64) (length flags : UInt32) :
    Chaining :=
  let constants : Vector UInt32 4 := #v[0x6a09e667, 0xbb67ae85, 0x3c6ef372, 0xa54ff53a]
  let position : Vector UInt32 4 :=
    #v[counter.toUInt32, (counter >>> 32).toUInt32, length, flags]
  let start : Block := cv ++ constants ++ position
  let s := rounds 7 start m
  Vector.ofFn fun i => s.word i.val ^^^ s.word (i.val + 8)

/-! ## Words and bytes -/

/-- Four bytes as a word, the lowest first. -/
def wordOf (b0 b1 b2 b3 : UInt8) : UInt32 :=
  b0.toUInt32 ||| (b1.toUInt32 <<< 8) ||| (b2.toUInt32 <<< 16) ||| (b3.toUInt32 <<< 24)

/-- The words of a byte list, the last one filled up with zero bytes. -/
def words : List UInt8 → List UInt32
  | [] => []
  | [b0] => [wordOf b0 0 0 0]
  | [b0, b1] => [wordOf b0 b1 0 0]
  | [b0, b1, b2] => [wordOf b0 b1 b2 0]
  | b0 :: b1 :: b2 :: b3 :: rest => wordOf b0 b1 b2 b3 :: words rest

/-- A block of at most 64 bytes as a message, filled up with zeros. -/
def message (block : List UInt8) : Block :=
  let ws := (words block).toArray
  Vector.ofFn fun i => ws[i.val]?.getD 0

/-- The bytes of a word, the lowest first. -/
def bytesOf (w : UInt32) : List UInt8 :=
  [w.toUInt8, (w >>> 8).toUInt8, (w >>> 16).toUInt8, (w >>> 24).toUInt8]

/-! ## The tree -/

/-- The last compression of a node, short of the root flag. -/
structure Node where
  chaining : Chaining
  message : Block
  counter : UInt64
  length : UInt32
  flags : UInt32

/-- The chaining value of a node that is not the root. -/
def Node.value (n : Node) : Chaining :=
  compress n.chaining n.message n.counter n.length n.flags

/-- The 32 bytes of a node that is the root. -/
def Node.root (n : Node) : List UInt8 :=
  (compress n.chaining n.message 0 n.length (n.flags ||| rootNode)).toList.flatMap bytesOf

/-- The node of a chunk whose bytes so far gave `cv`; `flags` marks the first
block of the chunk. -/
def chunkFrom (counter : UInt64) (cv : Chaining) (flags : UInt32) (bytes : List UInt8) : Node :=
  if 64 < bytes.length then
    let cv := compress cv (message (bytes.take 64)) counter 64 flags
    chunkFrom counter cv 0 (bytes.drop 64)
  else ⟨cv, message bytes, counter, UInt32.ofNat bytes.length, flags ||| chunkEnd⟩
termination_by bytes.length
decreasing_by simp only [List.length_drop]; omega

/-- The node of a chunk. -/
def chunk (counter : UInt64) (bytes : List UInt8) : Node :=
  chunkFrom counter initial chunkStart bytes

/-- The node above two others. -/
def parent (left right : Node) : Node :=
  let l := left.value
  let r := right.value
  ⟨initial, Vector.ofFn fun i => (l.toArray ++ r.toArray)[i.val]?.getD 0, 0, 64, parentNode⟩

/-- How many of `count` chunks the left subtree takes: the largest power of
two that leaves some for the right one. -/
def leftCount (count : Nat) : Nat := Nat.pow 2 (count - 1).log2

theorem leftCount_pos (count : Nat) : 0 < leftCount count := Nat.two_pow_pos _

theorem leftCount_lt {count : Nat} (h : 2 ≤ count) : leftCount count < count := by
  have : Nat.pow 2 (count - 1).log2 ≤ count - 1 := Nat.log2_self_le (by omega)
  unfold leftCount
  omega

/-- The node over `count` chunks of `bytes`, the first with number
`counter`. -/
def tree (counter count : Nat) (bytes : List UInt8) : Node :=
  if 2 ≤ count then
    let left := leftCount count
    parent (tree counter left (bytes.take (1024 * left)))
      (tree (counter + left) (count - left) (bytes.drop (1024 * left)))
  else chunk (UInt64.ofNat counter) bytes
termination_by count
decreasing_by
  · exact leftCount_lt (by assumption)
  · have := leftCount_pos count; omega

/-- The hash of a byte list.  No bytes still make one chunk. -/
def hash (bytes : List UInt8) : List UInt8 :=
  (tree 0 (max 1 ((bytes.length + 1023) / 1024)) bytes).root

end Proximity.Blake3

import Mathlib.Algebra.Order.BigOperators.Group.List
import Mathlib.Algebra.Order.Ring.Nat
import Proximity.Space.Basic

/-!
# Hamming distances and medians

The bitwise majority of some bit vectors is a median of theirs: no vector has a smaller sum
of Hamming distances to them.  The sum is taken apart into one count for each bit, which is
the number of members that have the other value there; a majority makes each of these counts
as small as it can be, whether their number is odd or even.

## Main results

* `BinarySpace.sum_hamming` — the sum of distances as counts for each bit.
* `BinarySpace.median_least` — the majority is a median.
-/

namespace Proximity

/-! ## Sums -/

/-- Sums over two lists can be taken in either order. -/
theorem sum_map_sum_comm {A B : Type} (as : List A) (bs : List B) (f : A → B → Nat) :
    (as.map fun a => (bs.map (f a)).sum).sum = (bs.map fun b => (as.map (f · b)).sum).sum := by
  induction as with
  | nil => simp
  | cons a as ih => simp [ih, List.sum_map_add]

theorem countP_eq_sum {A : Type} (p : A → Bool) (as : List A) :
    as.countP p = (as.map fun a => (p a).toNat).sum := by
  induction as with
  | nil => rfl
  | cons a as ih =>
      rw [List.countP_cons, List.map_cons, List.sum_cons, ih]
      cases p a <;> simp [Nat.add_comm]

namespace BinarySpace

/-! ## Bits -/

/-- The number with the given low bits. -/
def lowBits (bits : Nat → Bool) (n : Nat) : Nat :=
  (List.range n).foldl (fun value j => if bits j then value + Nat.pow 2 j else value) 0

theorem lowBits_succ (bits : Nat → Bool) (n : Nat) :
    lowBits bits (n + 1) = if bits n then 2 ^ n + lowBits bits n else lowBits bits n := by
  rw [Nat.add_comm (2 ^ n), lowBits, List.range_succ, List.foldl_append]
  rfl

theorem lowBits_lt (bits : Nat → Bool) (n : Nat) : lowBits bits n < 2 ^ n := by
  induction n with
  | zero => exact Nat.one_pos
  | succ n ih =>
      rw [lowBits_succ, Nat.pow_succ]
      split <;> omega

theorem testBit_lowBits (bits : Nat → Bool) {n j : Nat} (hj : j < n) :
    (lowBits bits n).testBit j = bits j := by
  induction n with
  | zero => omega
  | succ n ih =>
      have hlow : (lowBits bits n).testBit n = false := Nat.testBit_lt_two_pow (lowBits_lt bits n)
      rw [lowBits_succ]
      by_cases hlast : j = n
      · subst hlast
        cases hbit : bits j with
        | true => rw [if_pos rfl, Nat.testBit_two_pow_add_eq, hlow, Bool.not_false]
        | false => rw [if_neg Bool.false_ne_true, hlow]
      · have hlt : j < n := by omega
        split
        · rw [Nat.testBit_two_pow_add_gt hlt, ih hlt]
        · exact ih hlt

/-- A byte has the bits that it was made of. -/
theorem bit_byteOf (bits : Nat → Bool) {j : Nat} (hj : j < 8) : bit (byteOf bits) j = bits j := by
  have hlt : lowBits bits 8 < 2 ^ 8 := lowBits_lt bits 8
  show (UInt8.ofNat (lowBits bits 8)).toNat.testBit j = bits j
  rw [UInt8.toNat_ofNat', Nat.mod_eq_of_lt hlt, testBit_lowBits bits hj]

/-- Bytes differ in the bits of which one is set and the other is not. -/
theorem weight_xor (a b : UInt8) :
    weight (a ^^^ b) = ((List.range 8).map fun j => (bit a j != bit b j).toNat).sum := by
  have hbit : ∀ j, bit (a ^^^ b) j = (bit a j != bit b j) := by
    intro j
    rw [bit, UInt8.toNat_xor, Nat.testBit_xor]
    rfl
  rw [weight, countP_eq_sum]
  simp only [hbit]

/-! ## Distances -/

/-- Byte `i` of a vector. -/
def byteAt (v : Array UInt8) (i : Nat) : UInt8 := v[i]?.getD 0

/-- The distance of vectors of one width is the sum over their bytes. -/
theorem hamming_eq {a b : Array UInt8} {width : Nat} (ha : a.size = width) (hb : b.size = width) :
    hamming a b = ((List.range width).map fun i => weight (byteAt a i ^^^ byteAt b i)).sum := by
  have hbytes : (Array.zipWith (fun x y => weight (x ^^^ y)) a b).toList =
      (List.range width).map fun i => weight (byteAt a i ^^^ byteAt b i) := by
    refine List.ext_getElem (by simp [ha, hb]) fun i hleft hright => ?_
    simp at hleft
    simp [byteAt, hleft.1, hleft.2]
  rw [hamming, ← Array.foldl_toList, hbytes, List.sum_eq_foldl]

theorem weight_le (byte : UInt8) : weight byte ≤ 8 := List.countP_le_length

/-- Vectors differ in at most all of their bits. -/
theorem hamming_le {a b : Array UInt8} {width : Nat} (ha : a.size = width) (hb : b.size = width) :
    hamming a b ≤ 8 * width := by
  rw [hamming_eq ha hb]
  calc ((List.range width).map fun i => weight (byteAt a i ^^^ byteAt b i)).sum
      ≤ ((List.range width).map fun _ => 8).sum :=
        List.sum_le_sum fun i _ => weight_le _
    _ = 8 * width := by simp [Nat.mul_comm]

/-! ## Medians -/

/-- How many of some bytes have another bit `j` than the given one. -/
def against (members : List (Array UInt8)) (i j : Nat) (value : Bool) : Nat :=
  members.countP fun m => value != bit (byteAt m i) j

/-- The distances of a vector to some others, counted bit by bit. -/
theorem sum_hamming {members : List (Array UInt8)} {c : Array UInt8} {width : Nat}
    (hmembers : ∀ m ∈ members, m.size = width) (hc : c.size = width) :
    (members.map (hamming c)).sum =
      ((List.range width).map fun i =>
        ((List.range 8).map fun j => against members i j (bit (byteAt c i) j)).sum).sum := by
  have hbytes : members.map (hamming c) = members.map fun m =>
      ((List.range width).map fun i => weight (byteAt c i ^^^ byteAt m i)).sum :=
    List.map_congr_left fun m hm => hamming_eq hc (hmembers m hm)
  rw [hbytes, sum_map_sum_comm]
  refine congrArg List.sum (List.map_congr_left fun i _ => ?_)
  simp only [weight_xor, against, countP_eq_sum]
  exact sum_map_sum_comm _ _ _

/-- The value that most members have is not the value of most against it. -/
theorem against_majority_le (members : List (Array UInt8)) (i j : Nat) (value : Bool) :
    against members i j (majority members.toArray i j) ≤ against members i j value := by
  have hset : against members i j false = members.countP fun m => bit (byteAt m i) j := by
    simp [against]
  have hclear : against members i j true =
      members.length - members.countP fun m => bit (byteAt m i) j := by
    have hsplit : members.length = (members.countP fun m => bit (byteAt m i) j) +
        members.countP fun m => !bit (byteAt m i) j := by
      simpa using List.length_eq_countP_add_countP (fun m => bit (byteAt m i) j)
    have hflip : against members i j true = members.countP fun m => !bit (byteAt m i) j := by
      simp [against]
    omega
  have hmajority : majority members.toArray i j =
      decide (members.length / 2 < members.countP fun m => bit (byteAt m i) j) := by
    rw [majority, List.size_toArray, List.countP_toArray]
    rfl
  have hle : (members.countP fun m => bit (byteAt m i) j) ≤ members.length :=
    List.countP_le_length
  -- Half of the members, rounded down, is enough for a clear bit and too few for a set one.
  rw [hmajority]
  by_cases hmost : members.length / 2 < members.countP fun m => bit (byteAt m i) j
  · rw [decide_eq_true hmost]
    cases value with
    | true => exact Nat.le_refl _
    | false =>
        rw [hset, hclear]
        omega
  · rw [decide_eq_false hmost]
    cases value with
    | true =>
        rw [hset, hclear]
        omega
    | false => exact Nat.le_refl _

theorem size_median (members : Array (Array UInt8)) (width : Nat) :
    (median members width).size = width := by
  rw [median, Array.size_map, Array.size_range]

theorem bit_median (members : Array (Array UInt8)) {width i j : Nat} (hi : i < width)
    (hj : j < 8) : bit (byteAt (median members width) i) j = majority members i j := by
  have hbyte : byteAt (median members width) i = byteOf (majority members i) := by
    simp [byteAt, median, hi]
  rw [hbyte, bit_byteOf _ hj]

/-- **The majority is a median**: no vector has a smaller sum of distances. -/
theorem median_least {members : List (Array UInt8)} {c : Array UInt8} {width : Nat}
    (hmembers : ∀ m ∈ members, m.size = width) (hc : c.size = width) :
    (members.map (hamming (median members.toArray width))).sum ≤ (members.map (hamming c)).sum := by
  rw [sum_hamming hmembers (size_median _ _), sum_hamming hmembers hc]
  refine List.sum_le_sum fun i hi => List.sum_le_sum fun j hj => ?_
  rw [bit_median _ (List.mem_range.1 hi) (List.mem_range.1 hj)]
  exact against_majority_le _ _ _ _

end BinarySpace

end Proximity

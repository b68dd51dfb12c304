import Proximity.Number.Single

/-!
# Numbers that are not rounded

Up to `2 ^ 24` every natural number is a single-precision number, so that as numbers they
rank just as they are ordered.  Below that bound the leading bit of a number can be moved to
the place of the hidden bit without losing any other, and the exponent counts the moves.

## Main results

* `BinaryFormat.ofRatio_of_lt` — the magnitude of a number below the bound.
* `Single.rank_ofNat_lt`, `Single.rank_ofNat_le_iff` — the order of such numbers.
-/

namespace Proximity

/-- Up to here, which is `2 ^ 24`, every natural number is a single-precision number. -/
def Single.exactLimit : Nat := 0x1000000

namespace BinaryFormat

/-! ## Magnitudes -/

theorem floorLog_one {n : Nat} (hn : n ≠ 0) : floorLog n 1 = n.log2 := by
  have hself := Nat.log2_self_le hn
  have hguess : (n.log2 : Int) - ((1 : Nat).log2 : Int) = n.log2 := by
    rw [show (1 : Nat).log2 = 0 from rfl]
    omega
  rw [floorLog, hguess, scaleRatio]
  by_cases hone : n.log2 = 0
  · have hlarge : ¬ n < 1 := by omega
    rw [hone, if_pos (by decide)]
    exact if_neg hlarge
  · have hlarge : ¬ n < 1 <<< n.log2 := by
      rw [Nat.one_shiftLeft]
      exact Nat.not_lt.2 hself
    rw [if_neg (by omega), Int.neg_neg, Int.toNat_natCast]
    exact if_neg hlarge

theorem roundRatio_one (n : Nat) : roundRatio n 1 = n := by
  rw [roundRatio, Nat.div_one, Nat.mod_one]
  simp

/-- A number below the limit with its leading bit moved to place 23. -/
theorem leading_bit {n : Nat} (hn : n ≠ 0) (hlt : n < Single.exactLimit) :
    n.log2 ≤ 23 ∧ 0x800000 ≤ n <<< (23 - n.log2) ∧ n <<< (23 - n.log2) < 0x1000000 := by
  have hlog : n.log2 < 24 := (Nat.log2_lt hn).2 hlt
  have hpow : 2 ^ n.log2 * 2 ^ (23 - n.log2) = 0x800000 := by
    rw [← Nat.pow_add, Nat.add_sub_cancel' (Nat.le_of_lt_succ hlog)]
  rw [Nat.shiftLeft_eq]
  refine ⟨Nat.le_of_lt_succ hlog, ?_, ?_⟩
  · rw [← hpow]
    exact Nat.mul_le_mul_right _ (Nat.log2_self_le hn)
  · have hnext : 2 ^ (n.log2 + 1) * 2 ^ (23 - n.log2) = 0x1000000 := by
      rw [Nat.pow_succ, Nat.mul_right_comm, hpow]
    rw [← hnext]
    exact Nat.mul_lt_mul_of_pos_right Nat.lt_log2_self (Nat.two_pow_pos _)

/-- Below the limit a number needs no rounding. -/
theorem ofRatio_of_lt {n : Nat} (hn : n ≠ 0) (hlt : n < Single.exactLimit) :
    single.ofRatio n 1 = n.log2 * 0x800000 + 0x3f000000 + n <<< (23 - n.log2) := by
  obtain ⟨hlog, -, htop⟩ := leading_bit hn hlt
  have hleast : single.leastQuantum = -149 := rfl
  have hquantum : max ((n.log2 : Int) - single.fractionBits) single.leastQuantum =
      (n.log2 : Int) - 23 := by
    rw [hleast, show single.fractionBits = 23 from rfl]
    omega
  have hshift : -((n.log2 : Int) - 23) = (23 - n.log2 : Nat) := by omega
  have hscale : scaleRatio n 1 ((23 - n.log2 : Nat) : Int) = (n <<< (23 - n.log2), 1) := by
    rw [scaleRatio, if_pos (Int.natCast_nonneg _), Int.toNat_natCast]
  have hsteps : ((n.log2 : Int) - 23 - single.leastQuantum).toNat = n.log2 + 126 := by
    rw [hleast]
    omega
  have hfields : (n.log2 + 126) * Nat.pow 2 single.fractionBits =
      n.log2 * 0x800000 + 0x3f000000 := Nat.add_mul _ _ _
  rw [ofRatio, if_neg (by omega), floorLog_one hn, hquantum]
  simp only [hshift, hscale, hsteps, hfields, roundRatio_one]
  refine Nat.min_eq_right ?_
  show _ ≤ 0x7f800000
  omega

theorem ofRatio_zero : single.ofRatio 0 1 = 0 := if_pos (.inl rfl)

theorem ofRatio_exactLimit : single.ofRatio 0x1000000 1 = 0x4b800000 := by decide +kernel

/-- Up to the limit larger numbers have larger magnitudes. -/
theorem ofRatio_lt {m n : Nat} (hlt : m < n) (hn : n ≤ Single.exactLimit) :
    single.ofRatio m 1 < single.ofRatio n 1 ∧ single.ofRatio n 1 ≤ 0x4b800000 := by
  replace hn : n ≤ 0x1000000 := hn
  have hlow : m ≠ 0 → single.ofRatio m 1 < m.log2 * 0x800000 + 0x40000000 ∧ m.log2 ≤ 23 := by
    intro hm
    have hmlt : m < 0x1000000 := Nat.lt_of_lt_of_le hlt hn
    obtain ⟨hlog, -, htop⟩ := leading_bit hm hmlt
    rw [ofRatio_of_lt hm hmlt]
    omega
  by_cases hlast : n = 0x1000000
  · subst hlast
    rw [ofRatio_exactLimit]
    refine ⟨?_, Nat.le_refl _⟩
    by_cases hm : m = 0
    · rw [hm, ofRatio_zero]
      decide
    · obtain ⟨hbound, hlog⟩ := hlow hm
      omega
  · have hn0 : n ≠ 0 := by omega
    have hnlt : n < 0x1000000 := Nat.lt_of_le_of_ne hn hlast
    obtain ⟨hlog, hbot, htop⟩ := leading_bit hn0 hnlt
    rw [ofRatio_of_lt hn0 hnlt]
    refine ⟨?_, by omega⟩
    by_cases hm : m = 0
    · rw [hm, ofRatio_zero]
      omega
    · obtain ⟨hbound, -⟩ := hlow hm
      have hle : m.log2 ≤ n.log2 :=
        (Nat.le_log2 hn0).2 (Nat.le_trans (Nat.log2_self_le hm) (Nat.le_of_lt hlt))
      -- Either the exponents are equal, or the larger one makes up for any fraction.
      by_cases hsame : m.log2 = n.log2
      · have hscaled : m <<< (23 - n.log2) < n <<< (23 - n.log2) := by
          rw [Nat.shiftLeft_eq, Nat.shiftLeft_eq]
          exact Nat.mul_lt_mul_of_pos_right hlt (Nat.two_pow_pos _)
        rw [ofRatio_of_lt hm (Nat.lt_trans hlt hnlt), hsame]
        exact Nat.add_lt_add_left hscaled _
      · have hstep : (m.log2 + 1) * 0x800000 ≤ n.log2 * 0x800000 :=
          Nat.mul_le_mul_right _ (Nat.lt_of_le_of_ne hle hsame)
        calc single.ofRatio m 1
            < m.log2 * 0x800000 + 0x40000000 := hbound
          _ = (m.log2 + 1) * 0x800000 + 0x3f800000 := by rw [Nat.add_mul, Nat.add_assoc]
          _ ≤ n.log2 * 0x800000 + 0x3f800000 := Nat.add_le_add_right hstep _
          _ = n.log2 * 0x800000 + 0x3f000000 + 0x800000 := by rw [Nat.add_assoc]
          _ ≤ n.log2 * 0x800000 + 0x3f000000 + n <<< (23 - n.log2) := Nat.add_le_add_left hbot _

end BinaryFormat

/-! ## Ranks -/

namespace Single

/-- Numbers without a sign rank by their magnitude. -/
theorem rank_ofMagnitude {magnitude : Nat} (h : magnitude < signBit) :
    (ofMagnitude false magnitude).rank = signBit + magnitude := by
  have hbits : (ofMagnitude false magnitude).bits.toNat = magnitude := by
    show (UInt32.ofNat magnitude).toNat = magnitude
    rw [UInt32.toNat_ofNat', Nat.mod_eq_of_lt (Nat.lt_trans h (by decide))]
  rw [rank, hbits, if_pos h]

/-- Up to the limit natural numbers rank as they are ordered. -/
theorem rank_ofNat_lt {m n : Nat} (hlt : m < n) (hn : n ≤ exactLimit) :
    (ofNat m).rank < (ofNat n).rank := by
  obtain ⟨hless, hbound⟩ := BinaryFormat.ofRatio_lt hlt hn
  have hsign : BinaryFormat.single.ofRatio n 1 < signBit := Nat.lt_of_le_of_lt hbound (by decide)
  rw [ofNat, ofNat, rank_ofMagnitude hsign, rank_ofMagnitude (Nat.lt_trans hless hsign)]
  exact Nat.add_lt_add_left hless _

/-- Up to the limit the order of ranks is that of the numbers. -/
theorem rank_ofNat_le_iff {m n : Nat} (hm : m ≤ exactLimit) (hn : n ≤ exactLimit) :
    (ofNat m).rank ≤ (ofNat n).rank ↔ m ≤ n := by
  constructor
  · intro h
    refine Nat.le_of_not_lt fun hlt => ?_
    have hless := rank_ofNat_lt hlt hm
    omega
  · intro h
    obtain hlt | rfl := Nat.lt_or_eq_of_le h
    · exact Nat.le_of_lt (rank_ofNat_lt hlt hn)
    · exact Nat.le_refl _

end Single

end Proximity

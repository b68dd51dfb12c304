import Proximity.Random.Sample

/-!
# What can be drawn

A drawn number is below its bound whatever the generator is, and a sample holds
as many positions as were asked for, all of which exist.  Nothing is said about
how likely a draw is.

## Main results

* `Draw.Always` — what holds of every result of a draw.
* `Draw.below32_lt`, `Draw.below64_lt` — bounded draws.
* `Draw.sample_positions` — samples.
-/

namespace Proximity.Draw

variable {A B : Type}

/-! ## Results of draws -/

/-- Every result of a draw has a property. -/
def Always (P : A → Prop) (d : Draw A) : Prop := ∀ g, P (d.run g).1

theorem always_pure {P : A → Prop} {a : A} (h : P a) : Always P (pure a : Draw A) :=
  fun _ => h

/-- A draw that goes on with what another drew. -/
theorem Always.bind {P : A → Prop} {Q : B → Prop} {d : Draw A} {f : A → Draw B}
    (h : Always P d) (hf : ∀ a, P a → Always Q (f a)) : Always Q (d >>= f) :=
  fun g => hf _ (h g) (d.run g).2

theorem Always.map {P : A → Prop} {Q : B → Prop} {d : Draw A} {f : A → B} (h : Always P d)
    (hf : ∀ a, P a → Q (f a)) : Always Q (f <$> d) :=
  fun g => hf _ (h g)

/-- Something is drawn, whatever it is. -/
theorem always_true (d : Draw A) : Always (fun _ => True) d := fun _ => trivial

/-- A draw that goes on with what it drew unless that will do. -/
theorem run_bind_unless (d : Draw A) (done : A → Bool) (f : A → Draw A) (g : Generator) :
    (d >>= fun a => if done a then pure a else f a).run g =
      if done (d.run g).1 then d.run g else (f (d.run g).1).run (d.run g).2 := by
  show (if done (d.run g).1 then pure (d.run g).1 else f (d.run g).1).run (d.run g).2 = _
  split <;> rfl

/-! ## Bounded draws -/

/-- The high half of a product of a word and a bound is below the bound. -/
private theorem mul_shiftRight_lt {v width bound : Nat} (hv : v < Nat.pow 2 width)
    (hpos : 0 < bound) :
    (v * bound) >>> width < bound := by
  rw [Nat.shiftRight_eq_div_pow]
  apply Nat.div_lt_of_lt_mul
  exact Nat.mul_lt_mul_of_pos_right hv hpos

private theorem belowBy_lt {width zone bound : Nat} {word : Draw Nat}
    (hword : Always (· < Nat.pow 2 width) word) (hpos : 0 < bound) (tries : Nat) :
    Always (· < bound) (belowBy width word zone bound tries) := by
  induction tries with
  | zero => exact hword.bind fun v hv => always_pure (mul_shiftRight_lt hv hpos)
  | succ tries ih =>
      refine hword.bind fun v hv => ?_
      dsimp only
      split
      · exact always_pure (mul_shiftRight_lt hv hpos)
      · exact ih

private theorem toNat_word32_lt : Always (· < Nat.pow 2 32) (UInt32.toNat <$> word32) :=
  (always_true word32).map fun w _ => w.toNat_lt

private theorem toNat_word64_lt : Always (· < Nat.pow 2 64) (UInt64.toNat <$> word64) :=
  (always_true word64).map fun w _ => w.toNat_lt

theorem below32_lt {bound : Nat} (hpos : 0 < bound) : Always (· < bound) (below32 bound) :=
  belowBy_lt toNat_word32_lt hpos tries

theorem below64_lt {bound : Nat} (hpos : 0 < bound) : Always (· < bound) (below64 bound) :=
  belowBy_lt toNat_word64_lt hpos tries

theorem uniform32_lt {bound : Nat} (hpos : 0 < bound) : Always (· < bound) (uniform32 bound) :=
  belowBy_lt toNat_word32_lt hpos tries

theorem uniform64_lt {bound : Nat} (hpos : 0 < bound) : Always (· < bound) (uniform64 bound) :=
  belowBy_lt toNat_word64_lt hpos tries

/-! ## Samples -/

/-- Some positions, as many as were asked for, all of which exist. -/
structure Positions (length amount : Nat) (positions : Array Nat) : Prop where
  size : positions.size = amount
  lt : ∀ p ∈ positions, p < length

variable {length amount : Nat} {positions : Array Nat}

private theorem no_positions : Positions length 0 #[] :=
  ⟨rfl, fun p hp => absurd hp (Array.not_mem_empty p)⟩

theorem Positions.swap (h : Positions length amount positions) (i j : Nat) :
    Positions length amount (positions.swapIfInBounds i j) where
  size := by rw [Array.size_swapIfInBounds, h.size]
  lt p hp := by
    rw [Array.swapIfInBounds_def] at hp
    split at hp
    · split at hp
      · exact h.lt p ((Array.swap_perm _ _).mem_iff.1 hp)
      · exact h.lt p hp
    · exact h.lt p hp

private theorem shufflePrefix_positions {i left : Nat} (h : Positions length amount positions)
    (hleft : i + left ≤ length) :
    Always (Positions length amount) (shufflePrefix length left i positions) := by
  induction left generalizing i positions with
  | zero => exact always_pure h
  | succ left ih =>
      rw [shufflePrefix]
      refine (always_true _).bind fun k _ => ih (h.swap _ _) (by omega)

private theorem byShuffle_positions (hamount : amount ≤ length) :
    Always (Positions length amount) (byShuffle length amount) := by
  have hall : Positions length length (Array.range length) :=
    ⟨Array.size_range, fun p hp => Array.mem_range.1 hp⟩
  refine (shufflePrefix_positions hall (by omega)).bind fun positions hpositions => always_pure ?_
  constructor
  · rw [Array.size_extract, hpositions.size]
    omega
  · intro p hp
    obtain ⟨k, hk, rfl⟩ := Array.mem_extract_iff_getElem.1 hp
    exact hpositions.lt _ (Array.getElem_mem _)

theorem Positions.push (h : Positions length amount positions) {p : Nat} (hp : p < length) :
    Positions length (amount + 1) (positions.push p) where
  size := by rw [Array.size_push, h.size]
  lt q hq := by
    rcases Array.mem_push.1 hq with hq | rfl
    · exact h.lt q hq
    · exact hp

theorem Positions.insert (h : Positions length amount positions) {place p : Nat}
    (hplace : place < positions.size) (hp : p < length) :
    Positions length (amount + 1) (positions.insertIdxIfInBounds place p) := by
  have hle : place ≤ positions.toList.length := Nat.le_of_lt (by simpa using hplace)
  have hlist : (positions.insertIdxIfInBounds place p).toList =
      positions.toList.insertIdx place p := by
    cases positions with
    | mk positions => simp
  constructor
  · rw [← Array.length_toList, hlist, List.length_insertIdx_of_le_length hle, Array.length_toList,
      h.size]
  · intro q hq
    rw [← Array.mem_toList_iff, hlist, List.mem_insertIdx hle] at hq
    rcases hq with rfl | hq
    · exact hp
    · exact h.lt q (Array.mem_toList_iff.1 hq)

private theorem floyd_positions (small : Bool) {j left : Nat}
    (h : Positions length amount positions) (hj : j + left ≤ length) :
    Always (Positions length (amount + left)) (floyd small left j positions) := by
  induction left generalizing j amount positions with
  | zero => exact always_pure h
  | succ left ih =>
      rw [floyd]
      refine (below32_lt (Nat.succ_pos j)).bind fun t ht => ?_
      have hcount : amount + (left + 1) = amount + 1 + left := by omega
      rw [hcount]
      refine ih ?_ (by omega)
      split
      · exact h.push (by omega)
      · rename_i place hplace
        have hlt : place < positions.size := by
          have hfound := Array.findIdx?_eq_some_iff_getElem.1 hplace
          exact hfound.1
        split
        · exact h.insert hlt (by omega)
        · exact h.push (by omega)

private theorem shuffleBack_positions {i : Nat} (h : Positions length amount positions) :
    Always (Positions length amount) (shuffleBack i positions) := by
  induction i generalizing positions with
  | zero => exact always_pure h
  | succ i ih =>
      rw [shuffleBack]
      exact (always_true _).bind fun j _ => ih (h.swap _ _)

private theorem byFloyd_positions (hamount : amount ≤ length) :
    Always (Positions length amount) (byFloyd length amount) := by
  have htaken : Always (Positions length (0 + amount))
      (floyd (decide (amount < 50)) amount (length - amount) #[]) :=
    floyd_positions _ no_positions (by omega)
  rw [Nat.zero_add] at htaken
  refine htaken.bind fun taken htaken => ?_
  split
  · exact always_pure htaken
  · exact shuffleBack_positions htaken

private theorem leastFree_lt {taken : Array Nat} (hroom : taken.size < length) :
    leastFree taken < length := by
  rw [leastFree]
  cases hfound : (List.range (taken.size + 1)).find? fun p => !taken.contains p with
  | none => exact Nat.zero_lt_of_lt hroom
  | some p =>
      have hp := List.mem_range.1 (List.mem_of_find?_eq_some hfound)
      exact Nat.lt_of_le_of_lt (Nat.le_of_lt_succ hp) hroom

private theorem untaken_lt {position : Draw Nat} (hposition : Always (· < length) position)
    {taken : Array Nat} (hroom : taken.size < length) (redraws : Nat) :
    Always (· < length) (untaken position taken redraws) := by
  induction redraws with
  | zero => exact always_pure (leastFree_lt hroom)
  | succ redraws ih =>
      refine hposition.bind fun p hp => ?_
      split
      · exact ih
      · exact always_pure hp

private theorem reject_positions {position : Draw Nat} (hposition : Always (· < length) position)
    {left : Nat} (h : Positions length amount positions) (hroom : amount + left ≤ length) :
    Always (Positions length (amount + left)) (reject position left positions) := by
  induction left generalizing amount positions with
  | zero => exact always_pure h
  | succ left ih =>
      have hfree : positions.size < length := by
        rw [h.size]
        omega
      rw [reject]
      refine (untaken_lt hposition hfree redraws).bind fun p hp => ?_
      have hcount : amount + (left + 1) = amount + 1 + left := by omega
      rw [hcount]
      exact ih (h.push hp) (by omega)

private theorem byRejection_positions (hamount : amount ≤ length) :
    Always (Positions length amount) (byRejection length amount) := by
  obtain rfl | hpos := Nat.eq_zero_or_pos amount
  · exact always_pure no_positions
  have hlength : 0 < length := Nat.lt_of_lt_of_le hpos hamount
  have hposition : Always (· < length)
      (if length < UInt32.size then uniform32 length else uniform64 length) := by
    split
    · exact uniform32_lt hlength
    · exact uniform64_lt hlength
  have htaken : Always (Positions length (0 + amount)) (byRejection length amount) :=
    reject_positions hposition no_positions (by omega)
  rwa [Nat.zero_add] at htaken

/-- Sorted positions are the same positions. -/
private theorem sorted_positions (h : Positions length amount positions) :
    Positions length amount (positions.toList.mergeSort (· ≤ ·)).toArray := by
  have hperm := List.mergeSort_perm positions.toList (· ≤ ·)
  constructor
  · rw [List.size_toArray, hperm.length_eq, Array.length_toList, h.size]
  · intro p hp
    exact h.lt p (Array.mem_toList_iff.1 (hperm.mem_iff.1 (List.mem_toArray.1 hp)))

/-- A sample holds as many positions as were asked for, and they exist. -/
theorem sample_positions (hamount : amount ≤ length) :
    Always (Positions length amount) (sample length amount) := by
  have hdrawn : ∀ method, Always (Positions length amount) (drawnBy length amount method)
    | .shuffle => byShuffle_positions hamount
    | .floyd => byFloyd_positions hamount
    | .rejection => byRejection_positions hamount
  exact (hdrawn (methodFor length amount)).bind fun _ h => always_pure (sorted_positions h)

end Proximity.Draw

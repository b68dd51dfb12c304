import Proximity.Proofs.Exhaustive

/-!
# What refining does

A composite asks its base for more candidates than it was asked for and ranks them by
what the copies say they cost.  The copies hold what the base holds, label by label,
however deep the base hides it, and they measure in the same space, so they say what
the base has said already.  What the base has found comes best first, so collecting it
anew changes nothing but its length.

How many candidates are fetched is computed with numbers that are rounded, and the
product of the number that was asked for and the factor can come out smaller than that
number.  So the number is a lower bound in its own right.

## Main results

* `Index.Holds.search_composite` — the hits of a composite.
* `Index.fetchCount_le` — what is fetched is a count of 64 bits.
* `refining_keeps_order` — what refining does after any history.
-/

namespace Proximity

variable {S E : Type} [Space S E]

namespace Index

omit [Space S E] in
/-- What is fetched for a count of 64 bits is a count of 64 bits. -/
theorem fetchCount_le (factor : Single) {k : Nat} (hk : k ≤ Single.maxCount) :
    fetchCount factor k ≤ Single.maxCount := by
  refine Nat.max_le.2 ⟨?_, hk⟩
  rw [Single.ceilCount]
  split
  · exact Nat.zero_le _
  · split
    · exact Nat.le_refl _
    · exact Nat.min_le_left _ _

/-- The product of a count and the factor one can be below the count, which is what is
fetched then. -/
example : (Single.ofNat 16777217 * .one).ceilCount = 16777216 ∧
    fetchCount .one 16777217 = 16777217 := by decide +kernel

variable {base : Index S E} {copies : Flat S E} {factor : Single} {vs : List (Array E)}

/-- A composite answers with the first of the hits of its base. -/
theorem Holds.search_composite (h : (Index.composite base copies factor).Holds vs)
    (query : Array E) (k : Nat) (accept : Nat → Bool) :
    (Index.composite base copies factor).search query k accept =
      (base.search query (fetchCount factor k) accept).map (List.take k) := by
  have hcheck : (Index.composite base copies factor).checkQuery query = base.checkQuery query :=
    rfl
  rw [h.search_eq, h.1.search_eq, h.nearest_composite, hcheck]
  cases base.checkQuery query with
  | error e => rfl
  | ok u => exact congrArg Except.ok List.map_take

end Index

/-- **Refining keeps what the base has found.**  After any history a composite answers
with the first of what its base finds when asked for the larger of two numbers, the
number of hits that are wanted and its rounded product with the factor: the same
labels at the same costs, in the same order.  That is no fewer than are wanted, and a
count of 64 bits if this is. -/
theorem refining_keeps_order :
    (∀ (base : Index S E) (copies : Flat S E) (factor : Single) (vs : List (Array E)),
      (Index.composite base copies factor).Evolved vs →
      ∀ (query : Array E) (k : Nat) (accept : Nat → Bool),
        (Index.composite base copies factor).nearest query k accept =
          (base.nearest query (Index.fetchCount factor k) accept).take k ∧
        (Index.composite base copies factor).search query k accept =
          (base.search query (Index.fetchCount factor k) accept).map (List.take k)) ∧
    ∀ (factor : Single) (k : Nat),
      Index.fetchCount factor k = max k (Single.ofNat k * factor).ceilCount ∧
      k ≤ Index.fetchCount factor k ∧
      (k ≤ Single.maxCount → Index.fetchCount factor k ≤ Single.maxCount) := by
  refine ⟨fun base copies factor vs h query k accept => ?_, fun factor k =>
    ⟨Nat.max_comm _ _, Index.le_fetchCount factor k, Index.fetchCount_le factor⟩⟩
  exact ⟨h.holds.nearest_composite query k accept, h.holds.search_composite query k accept⟩

/-- A composite over an inverted file finds the first two of what that finds. -/
theorem refining_keeps_order_oneList :
    (oneListComposite #[5] ⟨#[0, 1, 2], #[3, 1, 3]⟩ #[3, 1, 3]).Evolved [#[3], #[1], #[3]] ∧
      Index.fetchCount .one 2 = 2 ∧
      (oneListComposite #[5] ⟨#[0, 1, 2], #[3, 1, 3]⟩ #[3, 1, 3]).search #[1] 2
        (fun i => i != 0) = .ok [⟨1, .zero⟩, ⟨2, .one⟩] := by
  have htwo : Index.fetchCount .one 2 = 2 := by decide +kernel
  refine ⟨oneListComposite_evolved, htwo, ?_⟩
  have hrefined := (refining_keeps_order.1 _ _ _ _ oneListComposite_evolved #[1] 2
    fun i => i != 0).2
  rw [htwo] at hrefined
  refine hrefined.trans ?_
  with_unfolding_all rfl

end Proximity

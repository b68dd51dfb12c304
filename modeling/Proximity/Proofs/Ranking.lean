import Proximity.Search.Best

/-!
# Rankings

Two candidates are tied in the order of `Candidate.le` only if they are the
same, so the best-first arrangement of some candidates is unique: whatever is
best first and holds the same candidates is the ranking itself.  That settles
how a candidate is inserted, and the bounded collection comes down to a fact
about prefixes: inserting into a prefix of a ranking and cutting it off again
gives the same as inserting into the whole.

Candidates are ordered by the total order of numbers, which agrees with the numeric
one wherever that tells two numbers apart.

## Main results

* `Single.signed_le_of_rank_le` — the total order refines the numeric one.
* `Candidate.eq_ranked` — the ranking is unique.
* `Candidate.ranked_eq_of_perm`, `Candidate.ranked_filter` — the ranking does not
  depend on the order of its candidates, and goes with selections of them.
* `Candidate.ranked_append` — one more candidate is inserted.
* `Candidate.reverse_insertWorst` — insertion worst first mirrors insertion
  best first.
* `Best.collect_eq_take_ranked` — the bounded collection is a prefix of the
  ranking.
* `Candidate.Finds`, `Best.collect_finds` — what a search promises, and that a
  bounded collection keeps the promise.
* `Best.collect_arranged` — what a bounded collection keeps.
-/

namespace Proximity

/-! ## Numbers -/

namespace Single

/-- The upper half of the total order holds the numbers without a sign, the lower half those
with one, each in their numeric order. -/
private theorem signed_cases (x : Single) :
    signBit ≤ x.rank ∧ x.signed = x.rank - signBit ∨
      x.rank < signBit ∧ x.signed = x.rank - signBit + 1 := by
  have hx := x.bits.toNat_lt
  rw [rank, signed, isNegative, magnitude]
  by_cases hsign : x.bits.toNat < signBit
  · have hplain : ¬ signBit ≤ x.bits.toNat := Nat.not_le.2 hsign
    simp only [hsign, hplain, if_true, decide_false, Bool.false_eq_true, if_false]
    simp only [signBit] at *
    omega
  · have hnegative : signBit ≤ x.bits.toNat := Nat.not_lt.1 hsign
    simp only [hsign, hnegative, if_true, decide_true, if_false]
    simp only [signBit] at *
    omega

/-- The total order refines the numeric one. -/
theorem signed_le_of_rank_le {x y : Single} (h : x.rank ≤ y.rank) : x.signed ≤ y.signed := by
  have hx := signed_cases x
  have hy := signed_cases y
  omega

theorem signed_lt_of_lt {x y : Single} (h : x.lt y = true) : x.signed < y.signed := by
  rw [lt, Bool.and_eq_true, decide_eq_true_eq] at h
  exact h.2

/-- Numbers that are not NaN compare like their signed magnitudes. -/
theorem lt_eq_false_iff {x y : Single} (hx : x.isNaN = false) (hy : y.isNaN = false) :
    x.lt y = false ↔ y.signed ≤ x.signed := by
  rw [lt, hx, hy, Bool.not_false, Bool.true_and, Bool.true_and, decide_eq_false_iff_not,
    Int.not_lt]

theorem le_iff {x y : Single} (hx : x.isNaN = false) (hy : y.isNaN = false) :
    x.le y = true ↔ x.signed ≤ y.signed := by
  rw [le, hx, hy, Bool.not_false, Bool.true_and, Bool.true_and, decide_eq_true_eq]

/-- A finite number is at least as great as another exactly if it is not below it. -/
theorem isFinite_and_not_lt {x y : Single} (hy : y.isNaN = false) :
    (x.isFinite && !x.lt y) = (x.isFinite && y.le x) := by
  cases hx : x.isFinite with
  | false => rfl
  | true =>
      have hnumber : x.isNaN = false := by
        simp only [isFinite, decide_eq_true_eq] at hx
        simp only [isNaN, decide_eq_false_iff_not]
        omega
      rw [Bool.true_and, Bool.true_and, Bool.eq_iff_iff, Bool.not_eq_true',
        lt_eq_false_iff hnumber hy, le_iff hy hnumber]

end Single

namespace Candidate

/-- What ranks no later costs no more. -/
theorem signed_le_of_le {a b : Candidate} (h : a.le b = true) :
    a.cost.signed ≤ b.cost.signed := by
  rw [le, decide_eq_true_eq] at h
  exact Single.signed_le_of_rank_le (by omega)

/-- No candidate ranks before one that stands further left. -/
def BestFirst (cs : List Candidate) : Prop := cs.Pairwise fun a b => a.le b = true

theorem le_of_not_le {a b : Candidate} (h : ¬ a.le b = true) : b.le a = true := by
  have htotal := le_total a b
  rw [Bool.or_eq_true] at htotal
  rcases htotal with hab | hba
  · exact absurd hab h
  · exact hba

/-- Best-first lists of the same candidates are equal. -/
theorem BestFirst.eq_of_perm {cs ds : List Candidate} (hc : BestFirst cs)
    (hd : BestFirst ds) (h : cs.Perm ds) : cs = ds :=
  h.eq_of_pairwise (fun _ _ _ _ hab hba => le_antisymm hab hba) hc hd

/-! ## The ranking -/

theorem ranked_perm (cs : List Candidate) : (ranked cs).Perm cs :=
  List.mergeSort_perm cs le

theorem bestFirst_ranked (cs : List Candidate) : BestFirst (ranked cs) :=
  List.pairwise_mergeSort le_trans (fun a b => le_total a b) cs

/-- The ranking is the only best-first list of its candidates. -/
theorem eq_ranked {cs ds : List Candidate} (hc : BestFirst cs) (h : cs.Perm ds) :
    cs = ranked ds :=
  hc.eq_of_perm (bestFirst_ranked ds) (h.trans (ranked_perm ds).symm)

/-- The ranking depends only on which candidates there are. -/
theorem ranked_eq_of_perm {cs ds : List Candidate} (h : cs.Perm ds) : ranked cs = ranked ds :=
  eq_ranked (bestFirst_ranked cs) ((ranked_perm cs).trans h)

/-- What is best first already is its own ranking. -/
theorem BestFirst.ranked_eq {cs : List Candidate} (h : BestFirst cs) : ranked cs = cs :=
  (eq_ranked h (.refl cs)).symm

/-- The ranking of some of the candidates is what is left of the ranking of all. -/
theorem ranked_filter (p : Candidate → Bool) (cs : List Candidate) :
    ranked (cs.filter p) = (ranked cs).filter p := by
  refine (eq_ranked ?_ ((ranked_perm cs).filter p)).symm
  exact (bestFirst_ranked cs).sublist List.filter_sublist

/-! ## Insertion -/

theorem insertBest_perm (c : Candidate) (cs : List Candidate) :
    (c.insertBest cs).Perm (c :: cs) := by
  induction cs with
  | nil => exact .refl _
  | cons d cs ih =>
      rw [insertBest]
      split
      · exact .refl _
      · exact (ih.cons d).trans (.swap c d cs)

theorem insertWorst_perm (c : Candidate) (cs : List Candidate) :
    (c.insertWorst cs).Perm (c :: cs) := by
  induction cs with
  | nil => exact .refl _
  | cons d cs ih =>
      rw [insertWorst]
      split
      · exact .refl _
      · exact (ih.cons d).trans (.swap c d cs)

@[simp] theorem mem_insertBest {a c : Candidate} {cs : List Candidate} :
    a ∈ c.insertBest cs ↔ a = c ∨ a ∈ cs := by
  rw [(insertBest_perm c cs).mem_iff, List.mem_cons]

@[simp] theorem mem_insertWorst {a c : Candidate} {cs : List Candidate} :
    a ∈ c.insertWorst cs ↔ a = c ∨ a ∈ cs := by
  rw [(insertWorst_perm c cs).mem_iff, List.mem_cons]

@[simp] theorem length_insertWorst (c : Candidate) (cs : List Candidate) :
    (c.insertWorst cs).length = cs.length + 1 :=
  (insertWorst_perm c cs).length_eq

theorem BestFirst.insertBest {cs : List Candidate} (h : BestFirst cs) (c : Candidate) :
    BestFirst (c.insertBest cs) := by
  induction cs with
  | nil => exact List.pairwise_singleton _ c
  | cons d cs ih =>
      have hd := (List.pairwise_cons.1 h).1
      have htail := (List.pairwise_cons.1 h).2
      rw [Candidate.insertBest]
      split
      · rename_i hcd
        refine List.pairwise_cons.2 ⟨fun a ha => ?_, h⟩
        rcases List.mem_cons.1 ha with rfl | ha
        · exact hcd
        · exact le_trans c d a hcd (hd a ha)
      · rename_i hcd
        refine List.pairwise_cons.2 ⟨fun a ha => ?_, ih htail⟩
        rcases mem_insertBest.1 ha with rfl | ha
        · exact le_of_not_le hcd
        · exact hd a ha

theorem bestFirst_reverse_insertWorst {cs : List Candidate} (h : BestFirst cs.reverse)
    (c : Candidate) : BestFirst (c.insertWorst cs).reverse := by
  rw [BestFirst, List.pairwise_reverse] at h ⊢
  induction cs with
  | nil => exact List.pairwise_singleton _ c
  | cons d cs ih =>
      have hd := (List.pairwise_cons.1 h).1
      have htail := (List.pairwise_cons.1 h).2
      rw [insertWorst]
      split
      · rename_i hdc
        refine List.pairwise_cons.2 ⟨fun a ha => ?_, h⟩
        rcases List.mem_cons.1 ha with rfl | ha
        · exact hdc
        · exact le_trans a d c (hd a ha) hdc
      · rename_i hdc
        refine List.pairwise_cons.2 ⟨fun a ha => ?_, ih htail⟩
        rcases mem_insertWorst.1 ha with rfl | ha
        · exact le_of_not_le hdc
        · exact hd a ha

/-- Insertion worst first is the mirror image of insertion best first. -/
theorem reverse_insertWorst {cs : List Candidate} (h : BestFirst cs.reverse) (c : Candidate) :
    (c.insertWorst cs).reverse = c.insertBest cs.reverse := by
  have hworst := (List.reverse_perm (c.insertWorst cs)).trans (insertWorst_perm c cs)
  have hbest := (insertBest_perm c cs.reverse).trans ((List.reverse_perm cs).cons c)
  exact (bestFirst_reverse_insertWorst h c).eq_of_perm (h.insertBest c)
    (hworst.trans hbest.symm)

/-- One more candidate takes its place in the ranking. -/
theorem ranked_append (cs : List Candidate) (c : Candidate) :
    ranked (cs ++ [c]) = c.insertBest (ranked cs) := by
  refine (eq_ranked ((bestFirst_ranked cs).insertBest c) ?_).symm
  have hinsert := (insertBest_perm c (ranked cs)).trans ((ranked_perm cs).cons c)
  exact hinsert.trans (List.perm_append_singleton c cs).symm

/-- A candidate that ranks no better than all others goes to the end. -/
theorem insertBest_of_forall_le {cs : List Candidate} {c : Candidate} (h : BestFirst cs)
    (hle : ∀ a ∈ cs, a.le c = true) : c.insertBest cs = cs ++ [c] := by
  refine (h.insertBest c).eq_of_perm ?_ ((insertBest_perm c cs).trans
    (List.perm_append_singleton c cs).symm)
  exact List.pairwise_append.2 ⟨h, List.pairwise_singleton _ c, fun a ha b hb => by
    rw [List.mem_singleton.1 hb]
    exact hle a ha⟩

/-- A candidate that ranks no worse than the last one goes before it. -/
theorem insertBest_append_singleton {cs : List Candidate} {c worst : Candidate}
    (h : BestFirst (cs ++ [worst])) (hc : c.le worst = true) :
    c.insertBest (cs ++ [worst]) = c.insertBest cs ++ [worst] := by
  obtain ⟨hcs, -, hworst⟩ := List.pairwise_append.1 h
  refine (h.insertBest c).eq_of_perm ?_ ((insertBest_perm c _).trans
    ((insertBest_perm c cs).append_right [worst]).symm)
  refine List.pairwise_append.2 ⟨BestFirst.insertBest hcs c, List.pairwise_singleton _ worst,
    fun a ha b hb => ?_⟩
  rw [List.mem_singleton.1 hb]
  rcases mem_insertBest.1 ha with rfl | ha
  · exact hc
  · exact hworst a ha worst (List.mem_singleton_self worst)

/-- Only the candidates of a prefix decide what an insertion leaves in it. -/
theorem take_insertBest (c : Candidate) (k : Nat) (cs : List Candidate) :
    (c.insertBest cs).take k = (c.insertBest (cs.take k)).take k := by
  induction cs generalizing k with
  | nil => rw [List.take_nil]
  | cons d cs ih =>
      cases k with
      | zero => rw [List.take_zero, List.take_zero]
      | succ k =>
          rw [List.take_succ_cons, insertBest, insertBest]
          split
          · rw [List.take_succ_cons, List.take_succ_cons]
            cases k with
            | zero => rw [List.take_zero, List.take_zero]
            | succ k =>
                rw [List.take_succ_cons, List.take_succ_cons, List.take_take,
                  Nat.min_eq_left (Nat.le_succ k)]
          · rw [List.take_succ_cons, List.take_succ_cons, ih k]

/-! ## What a search promises -/

/-- Some candidates are different acceptable labels below `size` at their
distance, best first. -/
structure Finds (size : Nat) (distance : Nat → Single) (accept : Nat → Bool)
    (cs : List Candidate) : Prop where
  sorted : BestFirst cs
  nodup : (cs.map (·.label)).Nodup
  size : ∀ c ∈ cs, c.label < size
  cost : ∀ c ∈ cs, c.cost = distance c.label
  accept : ∀ c ∈ cs, accept c.label = true

section Finds

variable {size : Nat} {distance : Nat → Single} {accept : Nat → Bool} {cs : List Candidate}

theorem finds_nil : Finds size distance accept [] where
  sorted := List.Pairwise.nil
  nodup := List.nodup_nil
  size _ hc := absurd hc List.not_mem_nil
  cost _ hc := absurd hc List.not_mem_nil
  accept _ hc := absurd hc List.not_mem_nil

/-- A shorter answer is an answer. -/
theorem Finds.sublist {ds : List Candidate} (h : Finds size distance accept cs)
    (hsub : ds.Sublist cs) : Finds size distance accept ds where
  sorted := h.sorted.sublist hsub
  nodup := h.nodup.sublist (hsub.map _)
  size c hc := h.size c (hsub.subset hc)
  cost c hc := h.cost c (hsub.subset hc)
  accept c hc := h.accept c (hsub.subset hc)

/-- An answer does not depend on what is said of labels that do not exist. -/
theorem Finds.congr {size' : Nat} {distance' : Nat → Single} (h : Finds size distance accept cs)
    (hsize : size = size') (hdistance : ∀ l < size', distance l = distance' l) :
    Finds size' distance' accept cs where
  sorted := h.sorted
  nodup := h.nodup
  size c hc := hsize ▸ h.size c hc
  cost c hc := (h.cost c hc).trans (hdistance c.label (hsize ▸ h.size c hc))
  accept := h.accept

/-- Ranking candidates of different labels gives an answer. -/
theorem ranked_finds (hnodup : (cs.map (·.label)).Nodup) (hsize : ∀ c ∈ cs, c.label < size)
    (hcost : ∀ c ∈ cs, c.cost = distance c.label)
    (haccept : ∀ c ∈ cs, accept c.label = true) :
    Finds size distance accept (ranked cs) where
  sorted := bestFirst_ranked cs
  nodup := ((ranked_perm cs).map _).nodup_iff.2 hnodup
  size c hc := hsize c ((ranked_perm cs).mem_iff.1 hc)
  cost c hc := hcost c ((ranked_perm cs).mem_iff.1 hc)
  accept c hc := haccept c ((ranked_perm cs).mem_iff.1 hc)

end Finds

end Candidate

namespace Best

open Candidate

/-- A collection that keeps the best of what it met goes on to do so. -/
theorem offer_kept {b : Best} {cs : List Candidate} (c : Candidate)
    (h : b.kept.reverse = (ranked cs).take b.capacity) :
    (b.offer c).kept.reverse = (ranked (cs ++ [c])).take b.capacity := by
  have hsorted : BestFirst b.kept.reverse := by
    rw [h]
    exact (bestFirst_ranked cs).sublist (List.take_sublist _ _)
  rw [ranked_append, take_insertBest, ← h]
  rw [offer]
  split
  · rename_i hroom
    rw [reverse_insertWorst hsorted, List.take_of_length_le]
    rw [(insertBest_perm c _).length_eq, List.length_cons, List.length_reverse]
    exact hroom
  · rename_i hfull
    have hlength : b.kept.length ≤ b.capacity := by
      rw [← List.length_reverse, h, List.length_take]
      exact Nat.min_le_left _ _
    cases hkept : b.kept with
    | nil =>
        have hzero : b.capacity = 0 := by
          rw [hkept, List.length_nil] at hfull
          omega
        rw [hzero, List.take_zero]
        simp [hkept]
    | cons worst rest =>
        have hcapacity : b.capacity = rest.length + 1 := by
          rw [hkept, List.length_cons] at hfull hlength
          omega
        rw [hkept, List.reverse_cons] at hsorted
        obtain ⟨hrest, -, hworst⟩ := List.pairwise_append.1 hsorted
        simp only [List.reverse_cons]
        split
        · rename_i hle
          have hall : ∀ a ∈ rest.reverse ++ [worst], a.le c = true := by
            intro a ha
            rcases List.mem_append.1 ha with ha | ha
            · exact le_trans a worst c (hworst a ha worst (List.mem_singleton_self worst)) hle
            · rw [List.mem_singleton.1 ha]
              exact hle
          rw [insertBest_of_forall_le hsorted hall, hkept, List.reverse_cons,
            List.take_left' (by simp [hcapacity])]
        · rename_i hle
          rw [insertBest_append_singleton hsorted (le_of_not_le hle), reverse_insertWorst hrest,
            List.take_left']
          rw [(insertBest_perm c _).length_eq, List.length_cons, List.length_reverse, hcapacity]

@[simp] theorem offer_capacity (b : Best) (c : Candidate) :
    (b.offer c).capacity = b.capacity := by
  rw [offer]
  split
  · rfl
  · split
    · rfl
    · split <;> rfl

private theorem foldl_offer_kept {b : Best} {seen : List Candidate} (cs : List Candidate)
    (h : b.kept.reverse = (ranked seen).take b.capacity) :
    (cs.foldl offer b).kept.reverse = (ranked (seen ++ cs)).take b.capacity := by
  induction cs generalizing b seen with
  | nil => rw [List.foldl_nil, List.append_nil, h]
  | cons c cs ih =>
      have hnext := @ih (b.offer c) (seen ++ [c])
      rw [offer_capacity, List.append_assoc, List.singleton_append] at hnext
      exact hnext (offer_kept c h)

/-- The bounded collection is a prefix of the ranking. -/
theorem collect_eq_take_ranked (k : Nat) (cs : List Candidate) :
    collect k cs = (ranked cs).take k := by
  have hempty : (empty k).kept.reverse = (ranked []).take (empty k).capacity := by
    simp [empty, ranked]
  exact foldl_offer_kept cs hempty

theorem mem_of_mem_collect {k : Nat} {cs : List Candidate} {c : Candidate}
    (h : c ∈ collect k cs) : c ∈ cs := by
  rw [collect_eq_take_ranked] at h
  exact (ranked_perm cs).mem_iff.1 (List.mem_of_mem_take h)

/-- The best of some candidates of different labels are an answer of at most
`k`. -/
theorem collect_finds {size : Nat} {distance : Nat → Single} {accept : Nat → Bool}
    {cs : List Candidate} (k : Nat) (hnodup : (cs.map (·.label)).Nodup)
    (hsize : ∀ c ∈ cs, c.label < size) (hcost : ∀ c ∈ cs, c.cost = distance c.label)
    (haccept : ∀ c ∈ cs, accept c.label = true) :
    Finds size distance accept (collect k cs) ∧ (collect k cs).length ≤ k := by
  rw [collect_eq_take_ranked]
  exact ⟨(ranked_finds hnodup hsize hcost haccept).sublist (List.take_sublist _ _),
    List.length_take_le _ _⟩

/-- **What a bounded collection keeps.**  Some candidates, the same ones more than once or tied
in their costs among them, have one arrangement by cost and label.  In whatever order they are
offered, what is kept is the beginning of that arrangement. -/
theorem collect_arranged (k : Nat) (cs : List Candidate) :
    ∃ arranged : List Candidate,
      (∀ ds : List Candidate, ds = arranged ↔ ds.Perm cs ∧ ds.Pairwise fun a b =>
        a.cost.rank < b.cost.rank ∨ a.cost.rank = b.cost.rank ∧ a.label ≤ b.label) ∧
      ∀ offered : List Candidate, offered.Perm cs →
        (offered.foldl offer (empty k)).toList = arranged.take k ∧
          collect k offered = collect k cs := by
  refine ⟨ranked cs, fun ds => ?_, fun offered hoffered => ?_⟩
  · have horder : BestFirst ds ↔ ds.Pairwise fun a b =>
        a.cost.rank < b.cost.rank ∨ a.cost.rank = b.cost.rank ∧ a.label ≤ b.label := by
      simp only [BestFirst, le, decide_eq_true_eq]
    rw [← horder]
    constructor
    · rintro rfl
      exact ⟨ranked_perm cs, bestFirst_ranked cs⟩
    · rintro ⟨hperm, hbest⟩
      exact eq_ranked hbest hperm
  · have hsame := ranked_eq_of_perm hoffered
    refine ⟨?_, ?_⟩
    · rw [← hsame]
      exact collect_eq_take_ranked k offered
    · rw [collect_eq_take_ranked, collect_eq_take_ranked, hsame]

/-- The zeros are told apart by their sign, and what costs the same by its label. -/
theorem collect_arranged_zeros :
    [⟨.zero, 3⟩, ⟨.negZero, 9⟩, ⟨.zero, 1⟩, ⟨.negZero, 9⟩].Perm
        [(⟨.negZero, 9⟩ : Candidate), ⟨.negZero, 9⟩, ⟨.zero, 1⟩, ⟨.zero, 3⟩] ∧
      collect 3 [⟨.zero, 3⟩, ⟨.negZero, 9⟩, ⟨.zero, 1⟩, ⟨.negZero, 9⟩] =
        [⟨.negZero, 9⟩, ⟨.negZero, 9⟩, ⟨.zero, 1⟩] := by
  have hperm : [⟨.zero, 3⟩, ⟨.negZero, 9⟩, ⟨.zero, 1⟩, ⟨.negZero, 9⟩].Perm
      [(⟨.negZero, 9⟩ : Candidate), ⟨.negZero, 9⟩, ⟨.zero, 1⟩, ⟨.zero, 3⟩] := by decide
  obtain ⟨arranged, hunique, hoffered⟩ :=
    collect_arranged 3 [⟨.negZero, 9⟩, ⟨.negZero, 9⟩, ⟨.zero, 1⟩, ⟨.zero, 3⟩]
  obtain rfl := (hunique [⟨.negZero, 9⟩, ⟨.negZero, 9⟩, ⟨.zero, 1⟩, ⟨.zero, 3⟩]).2
    ⟨.refl _, by decide⟩
  exact ⟨hperm, (hoffered _ hperm).1⟩

end Best

end Proximity

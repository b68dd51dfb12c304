import Proximity.Index.Clustering
import Proximity.Index.Flat
import Proximity.Proofs.Ranking

/-!
# Vectors back to back

Cutting elements into vectors is undone by appending whole vectors: the cut of
an append is the append of the cuts, as long as the first part is whole.  Flat
storage that holds some vectors is storage whose cut they are, and a search of
it is a search of that list, the label of a vector being its position.

## Main results

* `vectorsOf_append`, `vectorsOf_self` — cuts of appended elements.
* `Flat.Holds` — the vectors that flat storage holds.
* `Flat.Holds.append`, `Flat.Holds.nearest_finds`, `Flat.Holds.within_finds` — what
  the operations do to them.
-/

namespace Proximity

variable {S E : Type}

/-! ## Cuts -/

@[simp] theorem length_vectorsOf (unitLength : Nat) (xs : Array E) :
    (vectorsOf unitLength xs).length = xs.size / unitLength := by
  simp [vectorsOf]

@[simp] theorem vectorsOf_empty (unitLength : Nat) :
    vectorsOf unitLength (#[] : Array E) = [] := by
  simp [vectorsOf]

/-- The end of vector number `i` is in range. -/
theorem mul_add_le_of_lt_div {n unitLength i : Nat} (h : i < n / unitLength) :
    i * unitLength + unitLength ≤ n := by
  have hmul : (i + 1) * unitLength ≤ n / unitLength * unitLength :=
    Nat.mul_le_mul_right unitLength h
  rw [Nat.succ_mul] at hmul
  exact Nat.le_trans hmul (Nat.div_mul_le_self n unitLength)

theorem getElem?_vectorsOf {unitLength i : Nat} {xs : Array E} (h : i < xs.size / unitLength) :
    (vectorsOf unitLength xs)[i]? =
      some (xs.extract (i * unitLength) (i * unitLength + unitLength)) := by
  rw [vectorsOf, List.getElem?_map, List.getElem?_range h]
  rfl

/-- A vector of a cut has the width it was cut to. -/
theorem size_of_mem_vectorsOf {unitLength : Nat} {xs v : Array E}
    (h : v ∈ vectorsOf unitLength xs) : v.size = unitLength := by
  obtain ⟨i, hi, rfl⟩ := List.mem_map.1 h
  have hend := mul_add_le_of_lt_div (List.mem_range.1 hi)
  rw [Array.size_extract]
  omega

/-- Whole vectors are counted apart from what follows them. -/
theorem append_size_div {unitLength : Nat} (hpos : 0 < unitLength) {xs : Array E}
    (hwhole : xs.size % unitLength = 0) (ys : Array E) :
    (xs ++ ys).size / unitLength = xs.size / unitLength + ys.size / unitLength := by
  have hsize : xs.size = unitLength * (xs.size / unitLength) :=
    (Nat.mul_div_cancel' (Nat.dvd_of_mod_eq_zero hwhole)).symm
  rw [Array.size_append, hsize, Nat.mul_add_div hpos, Nat.mul_div_cancel_left _ hpos]

/-- Whole vectors after whole vectors are whole vectors. -/
theorem append_size_mod {unitLength : Nat} {xs ys : Array E} (hxs : xs.size % unitLength = 0)
    (hys : ys.size % unitLength = 0) : (xs ++ ys).size % unitLength = 0 := by
  rw [Array.size_append, Nat.add_mod, hxs, hys, Nat.zero_add, Nat.zero_mod]

/-- Elements after whole vectors are cut on their own. -/
theorem vectorsOf_append {unitLength : Nat} (hpos : 0 < unitLength) {xs : Array E}
    (hwhole : xs.size % unitLength = 0) (ys : Array E) :
    vectorsOf unitLength (xs ++ ys) = vectorsOf unitLength xs ++ vectorsOf unitLength ys := by
  have hsize : xs.size = unitLength * (xs.size / unitLength) :=
    (Nat.mul_div_cancel' (Nat.dvd_of_mod_eq_zero hwhole)).symm
  rw [vectorsOf, append_size_div hpos hwhole, List.range_add, List.map_append, List.map_map]
  congr 1
  · apply List.map_congr_left
    intro i hi
    have hend := mul_add_le_of_lt_div (List.mem_range.1 hi)
    have hrest : ys.extract (i * unitLength - xs.size)
        (i * unitLength + unitLength - xs.size) = #[] :=
      Array.extract_empty_of_stop_le_start (by omega)
    rw [Array.extract_append, hrest, Array.append_empty]
  · apply List.map_congr_left
    intro i _
    have hoffset : (xs.size / unitLength + i) * unitLength = xs.size + i * unitLength := by
      rw [Nat.add_mul, Nat.mul_comm (xs.size / unitLength), ← hsize]
    have hnone : xs.extract (xs.size + i * unitLength)
        (xs.size + i * unitLength + unitLength) = #[] :=
      Array.extract_empty_of_size_le_start (by omega)
    rw [Function.comp, hoffset, Array.extract_append, hnone, Array.empty_append]
    congr 1 <;> omega

/-- One vector is its own cut. -/
theorem vectorsOf_self {v : Array E} (hpos : 0 < v.size) : vectorsOf v.size v = [v] := by
  rw [vectorsOf, Nat.div_self hpos]
  simp

/-- The rest after the whole vectors does not count. -/
theorem vectorsOf_extract (unitLength : Nat) (xs : Array E) :
    vectorsOf unitLength (xs.extract 0 (xs.size / unitLength * unitLength)) =
      vectorsOf unitLength xs := by
  have hle : xs.size / unitLength * unitLength ≤ xs.size := Nat.div_mul_le_self _ _
  have hsize : (xs.extract 0 (xs.size / unitLength * unitLength)).size =
      xs.size / unitLength * unitLength := by
    rw [Array.size_extract, Nat.min_eq_left hle, Nat.sub_zero]
  have htotal : xs.size / unitLength * unitLength / unitLength = xs.size / unitLength := by
    by_cases hpos : 0 < unitLength
    · exact Nat.mul_div_cancel _ hpos
    · obtain rfl : unitLength = 0 := by omega
      rw [Nat.div_zero, Nat.div_zero]
  rw [vectorsOf, vectorsOf, hsize, htotal]
  apply List.map_congr_left
  intro i hi
  have hend := Nat.mul_le_mul_right unitLength (List.mem_range.1 hi)
  rw [Array.extract_extract, Nat.zero_add, Nat.zero_add, Nat.min_eq_left]
  rw [Nat.succ_mul] at hend
  exact hend

/-- What the vector at a position of a list costs for a query. -/
def costAt [Space S E] (space : S) (vs : List (Array E)) (query : Array E) (i : Nat) : Single :=
  Space.cost space (vs[i]?.getD #[]) query

/-- The acceptable positions of a list of vectors as candidates, in order. -/
def candidatesAt [Space S E] (space : S) (vs : List (Array E)) (query : Array E)
    (accept : Nat → Bool) : List Candidate :=
  ((List.range vs.length).filter accept).map fun i => ⟨costAt space vs query i, i⟩

/-- Every row of one width adds as many elements. -/
theorem size_foldl_rows {width : Nat} {rows : List (Array E)}
    (h : ∀ row ∈ rows, row.size = width) (data : Array E) :
    (rows.foldl (· ++ ·) data).size = data.size + rows.length * width := by
  induction rows generalizing data with
  | nil => simp
  | cons row rows ih =>
      obtain ⟨hrow, hrest⟩ := List.forall_mem_cons.1 h
      rw [List.foldl_cons, ih hrest, Array.size_append, hrow, List.length_cons, Nat.succ_mul]
      omega

/-! ## Flat storage -/

namespace Flat

/-- The storage holds whole vectors, namely `vs` in this order. -/
structure Holds (f : Flat S E) (vs : List (Array E)) : Prop where
  pos : 0 < f.unitLength
  whole : f.data.size % f.unitLength = 0
  vectors : vectorsOf f.unitLength f.data = vs

variable {f : Flat S E} {vs : List (Array E)}

/-- Storage that was just made holds nothing. -/
theorem empty_holds (space : S) (dimension : Nat) {unitLength : Nat} (hpos : 0 < unitLength) :
    (⟨space, dimension, unitLength, #[]⟩ : Flat S E).Holds [] :=
  ⟨hpos, Nat.zero_mod _, vectorsOf_empty _⟩

theorem Holds.total (h : f.Holds vs) : f.total = vs.length := by
  rw [← h.vectors, length_vectorsOf]
  rfl

/-- The vector with a label is the one at that position. -/
theorem Holds.getElem? (h : f.Holds vs) {i : Nat} (hi : i < vs.length) :
    vs[i]? = some (f.vector i) := by
  rw [← h.vectors] at hi ⊢
  rw [length_vectorsOf] at hi
  exact getElem?_vectorsOf hi

/-- Appending whole vectors puts them after the others; anything else is
refused and changes nothing. -/
theorem Holds.append (h : f.Holds vs) (elements : Array E) :
    (elements.size % f.unitLength = 0 ∧
      f.append elements = ({ f with data := f.data ++ elements }, .ok ()) ∧
      ({ f with data := f.data ++ elements } : Flat S E).Holds
        (vs ++ vectorsOf f.unitLength elements)) ∨
    (elements.size % f.unitLength ≠ 0 ∧ ∃ e, f.append elements = (f, .error e)) := by
  by_cases hwhole : elements.size % f.unitLength = 0
  · refine .inl ⟨hwhole, by simp [Flat.append, checkWhole, hwhole], h.pos,
      append_size_mod h.whole hwhole, ?_⟩
    rw [vectorsOf_append h.pos h.whole, h.vectors]
  · refine .inr ⟨hwhole, .dimensionMismatch f.unitLength (elements.size % f.unitLength), ?_⟩
    simp [Flat.append, checkWhole, hwhole]

variable [Space S E] {query : Array E} {accept : Nat → Bool}

/-- The cost of a label is that of the vector at this position. -/
theorem Holds.cost_eq (h : f.Holds vs) (query : Array E) {i : Nat} (hi : i < vs.length) :
    f.costTo query i = costAt f.space vs query i := by
  rw [costAt, h.getElem? hi, Option.getD_some]
  rfl

/-- The candidates of the storage are the positions of the list. -/
theorem Holds.candidates_eq (h : f.Holds vs) (query : Array E) (accept : Nat → Bool) :
    f.candidates query accept = candidatesAt f.space vs query accept := by
  rw [candidates, candidatesAt, h.total]
  refine List.map_congr_left fun i hi => ?_
  rw [h.cost_eq query (List.mem_range.1 (List.mem_filter.1 hi).1)]

private theorem map_label_candidates (f : Flat S E) (query : Array E) (accept : Nat → Bool) :
    (f.candidates query accept).map (·.label) = (List.range f.total).filter accept := by
  rw [candidates, List.map_map]
  exact List.map_id _

private theorem nodup_candidates (f : Flat S E) (query : Array E) (accept : Nat → Bool) :
    ((f.candidates query accept).map (·.label)).Nodup := by
  rw [map_label_candidates]
  exact List.nodup_range.filter _

private theorem of_mem_candidates {c : Candidate} (h : c ∈ f.candidates query accept) :
    c.label < f.total ∧ c.cost = f.costTo query c.label ∧ accept c.label = true := by
  obtain ⟨i, hi, rfl⟩ := List.mem_map.1 h
  obtain ⟨hrange, haccept⟩ := List.mem_filter.1 hi
  exact ⟨List.mem_range.1 hrange, rfl, haccept⟩

/-- A search returns at most as many labels as were asked for. -/
theorem nearest_finds (f : Flat S E) (query : Array E) (k : Nat) (accept : Nat → Bool) :
    Candidate.Finds f.total (f.costTo query) accept (f.nearest query k accept) ∧
      (f.nearest query k accept).length ≤ k :=
  Best.collect_finds k (nodup_candidates f query accept)
    (fun _ hc => (of_mem_candidates hc).1) (fun _ hc => (of_mem_candidates hc).2.1)
    fun _ hc => (of_mem_candidates hc).2.2

/-- A search below a cost returns different acceptable labels too. -/
theorem within_finds (f : Flat S E) (query : Array E) (bound : Single) (accept : Nat → Bool) :
    Candidate.Finds f.total (f.costTo query) accept (f.within query bound accept) := by
  have hmem : ∀ c ∈ (f.candidates query accept).filter fun c => c.cost.lt bound,
      c ∈ f.candidates query accept := fun c hc => (List.mem_filter.1 hc).1
  refine Candidate.ranked_finds ?_ (fun c hc => (of_mem_candidates (hmem c hc)).1)
    (fun c hc => (of_mem_candidates (hmem c hc)).2.1)
    fun c hc => (of_mem_candidates (hmem c hc)).2.2
  exact (nodup_candidates f query accept).sublist (List.filter_sublist.map _)

end Flat

end Proximity

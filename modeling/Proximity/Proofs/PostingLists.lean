import Proximity.Index.InvertedFile
import Proximity.Proofs.Links
import Proximity.Proofs.Vectors

/-!
# What an inverted file holds

The lists of an inverted file hold some vectors if the entries of all lists,
taken together, are those vectors with their positions as labels.  Which list
an entry is in is left open, so the notion says nothing about quality, and an
insertion keeps it whatever list is chosen, as long as that list exists.

Labels are different across all lists, so a search that looks at no list twice
meets no label twice.

## Main results

* `InvertedFile.Holds` — the vectors that the lists hold.
* `InvertedFile.Holds.insertAll`, `InvertedFile.Holds.insertChosen` — insertion.
* `InvertedFile.Holds.nearest_finds` — searches of different lists.
* `InvertedFile.Holds.candidates_perm` — what there is to find in all lists.
-/

namespace Proximity

variable {S E : Type}

/-! ## Lists -/

namespace PostingList

/-- A list has the elements of one vector to a label. -/
def Whole (unitLength : Nat) (l : PostingList E) : Prop :=
  l.codes.size = l.labels.size * unitLength

variable {unitLength : Nat} {l : PostingList E}

theorem Whole.push (h : l.Whole unitLength) (label : Nat) {v : Array E}
    (hv : v.size = unitLength) : (l.push label v).Whole unitLength := by
  rw [Whole, PostingList.push, Array.size_append, Array.size_push, h, hv, Nat.succ_mul]

theorem Whole.length_vectors (h : l.Whole unitLength) (hpos : 0 < unitLength) :
    (vectorsOf unitLength l.codes).length = l.labels.size := by
  rw [length_vectorsOf, h, Nat.mul_div_cancel _ hpos]

/-- Every label comes with a vector. -/
theorem Whole.map_fst_entries (h : l.Whole unitLength) (hpos : 0 < unitLength) :
    (l.entries unitLength).map (·.1) = l.labels.toList :=
  List.map_fst_zip (Nat.le_of_eq (Array.length_toList.trans (h.length_vectors hpos).symm))

/-- A vector that is appended becomes the last entry. -/
theorem entries_push (h : l.Whole unitLength) (hpos : 0 < unitLength) (label : Nat)
    {v : Array E} (hv : v.size = unitLength) :
    (l.push label v).entries unitLength = l.entries unitLength ++ [(label, v)] := by
  have hwhole : l.codes.size % unitLength = 0 := by rw [h, Nat.mul_mod_left]
  have hself : vectorsOf unitLength v = [v] := by
    rw [← hv]
    exact vectorsOf_self (hv ▸ hpos)
  rw [entries, PostingList.push, Array.toList_push, vectorsOf_append hpos hwhole, hself,
    List.zip_append (by rw [Array.length_toList, h.length_vectors hpos])]
  rfl

end PostingList

/-- Changing one member of a list so that it contributes one thing more
contributes that thing to the whole. -/
private theorem flatMap_modify_perm {A B : Type} {g : A → List B} {f : A → A} {x : B}
    {l : List A} {i : Nat} (hi : i < l.length) (hf : ∀ a ∈ l, g (f a) = g a ++ [x]) :
    ((l.modify i f).flatMap g).Perm (l.flatMap g ++ [x]) := by
  induction l generalizing i with
  | nil => exact absurd hi (Nat.not_lt_zero i)
  | cons a l ih =>
      cases i with
      | zero =>
          rw [List.modify_zero_cons, List.flatMap_cons, List.flatMap_cons,
            hf a List.mem_cons_self, List.append_assoc, List.append_assoc]
          exact List.perm_append_comm.append_left _
      | succ i =>
          have hrest := ih (Nat.lt_of_succ_lt_succ hi) fun b hb => hf b (List.mem_cons_of_mem a hb)
          rw [List.modify_succ_cons, List.flatMap_cons, List.flatMap_cons, List.append_assoc]
          exact hrest.append_left _

/-- Looking at different members of a list meets nothing twice if the whole
list does not. -/
private theorem nodup_flatMap_getElem? {A B : Type} {g : A → List B} {d : A} {l : List A}
    (hd : g d = []) (hl : (l.flatMap g).Nodup) {places : List Nat} (hplaces : places.Nodup) :
    (places.flatMap fun i => g (l[i]?.getD d)).Nodup := by
  obtain ⟨hsame, hother⟩ := List.pairwise_flatMap.1 hl
  have hlt : ∀ i x, x ∈ g (l[i]?.getD d) → ∃ h : i < l.length, x ∈ g l[i] := by
    intro i x hx
    by_cases hi : i < l.length
    · rw [List.getElem?_eq_getElem hi] at hx
      exact ⟨hi, hx⟩
    · rw [List.getElem?_eq_none (Nat.le_of_not_lt hi), Option.getD_none, hd] at hx
      exact absurd hx List.not_mem_nil
  refine List.pairwise_flatMap.2 ⟨fun i _ => ?_, hplaces.imp ?_⟩
  · by_cases hi : i < l.length
    · rw [List.getElem?_eq_getElem hi]
      exact hsame _ (List.getElem_mem hi)
    · rw [List.getElem?_eq_none (Nat.le_of_not_lt hi), Option.getD_none, hd]
      exact List.Pairwise.nil
  · intro i j hij x hx y hy
    obtain ⟨hi, hx⟩ := hlt i x hx
    obtain ⟨hj, hy⟩ := hlt j y hy
    rcases Nat.lt_or_gt_of_ne hij with hij | hji
    · exact List.pairwise_iff_getElem.1 hother i j hi hj hij x hx y hy
    · exact (List.pairwise_iff_getElem.1 hother j i hj hi hji y hy x hx).symm

namespace InvertedFile

/-! ## Contents -/

/-- All labels with their vectors, list by list. -/
def entries (f : InvertedFile S E) : List (Nat × Array E) :=
  f.lists.toList.flatMap fun l => l.entries f.unitLength

/-- The lists hold the vectors `vs` under their positions. -/
structure Holds (f : InvertedFile S E) (vs : List (Array E)) : Prop where
  pos : 0 < f.unitLength
  size : f.lists.size = f.listCount
  nonempty : 0 < f.listCount
  whole : ∀ l ∈ f.lists, l.Whole f.unitLength
  total : f.total = vs.length
  entries : f.entries.Perm ((List.range vs.length).zip vs)

variable {f : InvertedFile S E} {vs : List (Array E)}

/-- Lists that were just made hold nothing. -/
theorem empty_holds (space : S) (dimension : Nat) {unitLength listCount : Nat}
    (clustering : ClusteringSettings) (hpos : 0 < unitLength) (hlists : 0 < listCount) :
    (InvertedFile.empty (E := E) space dimension unitLength listCount clustering).Holds [] where
  pos := hpos
  size := Array.size_replicate
  nonempty := hlists
  whole l hl := by
    obtain rfl := (Array.mem_replicate.1 hl).2
    simp [PostingList.Whole, PostingList.empty]
  total := rfl
  entries := by
    have hnone : ∀ l ∈ (Array.replicate listCount (PostingList.empty (E := E))).toList,
        l.entries unitLength = [] := by
      intro l hl
      obtain rfl := (Array.mem_replicate.1 (Array.mem_toList_iff.1 hl)).2
      rfl
    have hentries : (InvertedFile.empty (E := E) space dimension unitLength listCount
        clustering).entries = [] := List.flatMap_eq_nil_iff.2 hnone
    rw [hentries]
    exact .refl _

/-- A vector goes to the end, whatever list that exists is chosen for it. -/
theorem Holds.insert (h : f.Holds vs) {list : Nat} {v : Array E}
    (hlist : list < f.lists.size) (hv : v.size = f.unitLength) :
    (f.insert list v).Holds (vs ++ [v]) where
  pos := h.pos
  size := by rw [InvertedFile.insert, Array.size_modify, h.size]
  nonempty := h.nonempty
  whole l hl := by
    have hmodify : l ∈ f.lists.modify list fun l => l.push f.total v := hl
    rcases mem_modify hmodify with hl | ⟨old, hold, rfl⟩
    · exact h.whole l hl
    · exact (h.whole old (Array.mem_of_getElem? hold)).push _ hv
  total := by simp [InvertedFile.insert, h.total]
  entries := by
    have hpush : ∀ l ∈ f.lists.toList, (l.push f.total v).entries f.unitLength =
        l.entries f.unitLength ++ [(f.total, v)] := fun l hl =>
      PostingList.entries_push (h.whole l (Array.mem_toList_iff.1 hl)) h.pos f.total hv
    have hperm := flatMap_modify_perm (f := fun l => l.push f.total v)
      (g := fun l => l.entries f.unitLength) (Array.length_toList ▸ hlist) hpush
    rw [List.length_append, List.length_singleton, List.range_succ,
      List.zip_append List.length_range, ← h.total]
    rw [InvertedFile.entries, InvertedFile.insert, Array.toList_modify]
    refine hperm.trans (List.Perm.append_right _ ?_)
    rw [h.total]
    exact h.entries

/-- Vectors go to the end in order. -/
theorem Holds.insertAll {chosen : List (Nat × Array E)} (h : f.Holds vs)
    (hlists : ∀ c ∈ chosen, c.1 < f.listCount) (hwidth : ∀ c ∈ chosen, c.2.size = f.unitLength) :
    (f.insertAll chosen).Holds (vs ++ chosen.map (·.2)) := by
  induction chosen generalizing f vs with
  | nil =>
      rw [List.map_nil, List.append_nil]
      exact h
  | cons c chosen ih =>
      have hfirst := h.insert (h.size ▸ hlists c List.mem_cons_self)
        (hwidth c List.mem_cons_self)
      have hrest := ih hfirst (fun d hd => hlists d (List.mem_cons_of_mem c hd))
        fun d hd => hwidth d (List.mem_cons_of_mem c hd)
      rw [List.append_assoc] at hrest
      exact hrest

/-- Vectors that were cut to a width, each with a list that exists. -/
theorem of_mem_chosen {choose : Array E → Nat} {listCount unitLength : Nat}
    (hchoose : ∀ v, choose v < listCount) (elements : Array E) :
    ∀ c ∈ (vectorsOf unitLength elements).map fun v => (choose v, v),
      c.1 < listCount ∧ c.2.size = unitLength := by
  intro c hc
  obtain ⟨v, hv, rfl⟩ := List.mem_map.1 hc
  exact ⟨hchoose v, size_of_mem_vectorsOf hv⟩

/-- Vectors of the right width go to the end in order, whatever lists that exist
are chosen for them. -/
theorem Holds.insertChosen (h : f.Holds vs) {choose : Array E → Nat}
    (hchoose : ∀ v, choose v < f.listCount) (elements : Array E) :
    (f.insertAll ((vectorsOf f.unitLength elements).map fun v => (choose v, v))).Holds
      (vs ++ vectorsOf f.unitLength elements) := by
  have hvectors : ((vectorsOf f.unitLength elements).map fun v => (choose v, v)).map (·.2) =
      vectorsOf f.unitLength elements := by
    rw [List.map_map]
    exact List.map_id _
  have hinsert := h.insertAll (fun c hc => (of_mem_chosen hchoose elements c hc).1)
    fun c hc => (of_mem_chosen hchoose elements c hc).2
  rwa [hvectors] at hinsert

/-! ## Searches -/

/-- The entries of a list by its number; there are none if it does not
exist. -/
def entriesAt (f : InvertedFile S E) (list : Nat) : List (Nat × Array E) :=
  (f.lists[list]?.getD .empty).entries f.unitLength

theorem mem_entries_of_mem_entriesAt (f : InvertedFile S E) {list : Nat}
    {e : Nat × Array E} (h : e ∈ f.entriesAt list) : e ∈ f.entries := by
  rw [entriesAt] at h
  cases hlist : f.lists[list]? with
  | none =>
      rw [hlist] at h
      exact absurd h List.not_mem_nil
  | some l =>
      rw [hlist, Option.getD_some] at h
      have hmem : l ∈ f.lists.toList := Array.mem_toList_iff.2 (Array.mem_of_getElem? hlist)
      exact List.mem_flatMap.2 ⟨l, hmem, h⟩

/-- An entry is a position and the vector held there. -/
theorem Holds.getElem?_of_mem (h : f.Holds vs) {label : Nat} {v : Array E}
    (hentry : (label, v) ∈ f.entries) : vs[label]? = some v := by
  have hmem := h.entries.mem_iff.1 hentry
  obtain ⟨i, hi⟩ := List.mem_iff_getElem?.1 hmem
  rw [List.getElem?_zip_eq_some] at hi
  obtain ⟨hrange, hv⟩ := hi
  obtain rfl : i = label := by
    have hlt := (List.getElem?_eq_some_iff.1 hrange).1
    rw [List.getElem?_range (by simpa using hlt)] at hrange
    exact Option.some.inj hrange
  exact hv

/-- No label is used twice. -/
theorem Holds.nodup (h : f.Holds vs) : (f.entries.map (·.1)).Nodup := by
  rw [(h.entries.map (·.1)).nodup_iff, List.map_fst_zip (Nat.le_of_eq List.length_range)]
  exact List.nodup_range

/-- Entries of different lists have different labels if all entries do. -/
theorem nodup_probed (hlabels : (f.entries.map (·.1)).Nodup) {probed : List Nat}
    (hprobed : probed.Nodup) : ((probed.flatMap f.entriesAt).map (·.1)).Nodup := by
  rw [InvertedFile.entries, List.map_flatMap] at hlabels
  rw [List.map_flatMap]
  have hdifferent := nodup_flatMap_getElem? (d := .empty) rfl hlabels hprobed
  simpa only [entriesAt, Array.getElem?_toList] using hdifferent

section Search

variable [Space S E] {probed : List Nat} {query : Array E} {accept : Nat → Bool}

/-- A search meets the acceptable labels of the lists that it looks at. -/
theorem map_label_candidates (f : InvertedFile S E) (probed : List Nat)
    (query : Array E) (accept : Nat → Bool) :
    (f.candidates probed query accept).map (·.label) =
      ((probed.flatMap f.entriesAt).map (·.1)).filter accept := by
  rw [candidates, List.map_flatMap, List.map_flatMap, List.filter_flatMap]
  congr 1
  funext list
  rw [List.map_map, List.filter_map]
  rfl

private theorem Holds.nodup_candidates (h : f.Holds vs) (hprobed : probed.Nodup) :
    ((f.candidates probed query accept).map (·.label)).Nodup := by
  rw [map_label_candidates]
  exact (nodup_probed h.nodup hprobed).filter _

/-- A candidate is an acceptable position at the cost of the vector there. -/
theorem Holds.of_mem_candidates (h : f.Holds vs) {c : Candidate}
    (hc : c ∈ f.candidates probed query accept) :
    c.label < vs.length ∧ c.cost = costAt f.space vs query c.label ∧
      accept c.label = true := by
  obtain ⟨list, _, hc⟩ := List.mem_flatMap.1 hc
  obtain ⟨⟨label, v⟩, he, rfl⟩ := List.mem_map.1 hc
  obtain ⟨hentry, haccept⟩ := List.mem_filter.1 he
  have hv := h.getElem?_of_mem (f.mem_entries_of_mem_entriesAt hentry)
  refine ⟨(List.getElem?_eq_some_iff.1 hv).1, ?_, haccept⟩
  dsimp only
  rw [costAt, hv, Option.getD_some]

/-- Positions with the vectors there. -/
private theorem range_zip (vs : List (Array E)) :
    (List.range vs.length).zip vs =
      (List.range vs.length).map fun i => (i, vs[i]?.getD #[]) := by
  apply List.ext_getElem
  · simp
  · intro i _ hi
    have hlt : i < vs.length := by simpa using hi
    simp [hlt]

omit [Space S E] in
/-- Looking at all lists in order is looking at all entries. -/
private theorem Holds.flatMap_range (h : f.Holds vs) :
    (List.range f.listCount).flatMap f.entriesAt = f.entries := by
  have hlists : f.lists.toList =
      (List.range f.listCount).map fun list => f.lists[list]?.getD .empty := by
    apply List.ext_getElem
    · simp [h.size]
    · intro i hi _
      have hlt : i < f.lists.size := by simpa using hi
      simp [hlt]
  rw [InvertedFile.entries, hlists, List.flatMap_map]
  rfl

/-- A search that looks at every list once meets every acceptable position once. -/
theorem Holds.candidates_perm (h : f.Holds vs) (hprobed : probed.Perm (List.range f.listCount))
    (query : Array E) (accept : Nat → Bool) :
    (f.candidates probed query accept).Perm (candidatesAt f.space vs query accept) := by
  let toCandidate : Nat × Array E → Candidate := fun e => ⟨Space.cost f.space e.2 query, e.1⟩
  have hcandidates : f.candidates probed query accept =
      ((probed.flatMap f.entriesAt).filter fun e => accept e.1).map toCandidate := by
    rw [List.filter_flatMap, List.map_flatMap]
    rfl
  have hpositions : candidatesAt f.space vs query accept =
      (((List.range vs.length).zip vs).filter fun e => accept e.1).map toCandidate := by
    rw [range_zip, List.filter_map, List.map_map]
    rfl
  have hentries : (probed.flatMap f.entriesAt).Perm ((List.range vs.length).zip vs) := by
    refine (hprobed.flatMap_right _).trans ?_
    rw [h.flatMap_range]
    exact h.entries
  rw [hcandidates, hpositions]
  exact (hentries.filter _).map _

/-- Lists that hold nothing offer nothing, whatever is looked at. -/
theorem Holds.candidates_eq_nil (h : f.Holds []) (probed : List Nat) (query : Array E)
    (accept : Nat → Bool) : f.candidates probed query accept = [] :=
  List.eq_nil_iff_forall_not_mem.2 fun _ hc => Nat.not_lt_zero _ (h.of_mem_candidates hc).1

/-- A search of different lists returns at most as many positions as were
asked for. -/
theorem Holds.nearest_finds (h : f.Holds vs) (hprobed : probed.Nodup) (query : Array E)
    (k : Nat) (accept : Nat → Bool) :
    Candidate.Finds vs.length (costAt f.space vs query) accept (f.nearest probed query k accept) ∧
      (f.nearest probed query k accept).length ≤ k :=
  Best.collect_finds k (h.nodup_candidates hprobed) (fun _ hc => (h.of_mem_candidates hc).1)
    (fun _ hc => (h.of_mem_candidates hc).2.1) fun _ hc => (h.of_mem_candidates hc).2.2

end Search

end InvertedFile

end Proximity

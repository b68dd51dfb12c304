import Proximity.Proofs.Batching
import Proximity.Proofs.HitCounts

/-!
# Nodes that are lost among equal vectors

Among vectors that all cost the same, labels alone decide which neighbours are selected.
Every new node is linked to the first nodes, as many as the degree says, and these are
linked back to it; but once their lists are full, the selection drops the newcomer again.
From then on every new node is left without a link to it on the lowest level: it is
stored and no search finds it, unless a search happens to start there.

## Main definitions

* `Links.crowd` — the neighbour lists of the lowest level, among equal vectors.
* `Links.Crowded` — links that have these lists.

## Main results

* `Links.Crowded.insert`, `Graph.crowded_append` — the step, and an append of equal vectors.
* `Graph.search_crowded` — at most one of the lost nodes is found.
-/

namespace Proximity

open Candidate

/-! ## Selection among ties -/

section Ties

variable {cost : Single} {labels : List Nat}

/-- Candidates of one cost are ranked by their labels. -/
theorem Candidate.ranked_tied (cost : Single) (h : labels.Pairwise (· < ·)) :
    ranked (labels.map fun n => ⟨cost, n⟩) = labels.map fun n => ⟨cost, n⟩ := by
  refine (eq_ranked (List.pairwise_map.2 (h.imp fun hlt => ?_)) (.refl _)).symm
  rw [Candidate.le, decide_eq_true_eq]
  exact .inr ⟨rfl, Nat.le_of_lt hlt⟩

namespace Links

private theorem diverse_tied (hle : cost.le cost = true) (limit : Nat)
    (selected passed : List Candidate) (labels : List Nat) :
    diverse (fun _ _ => cost) limit selected passed (labels.map fun n => ⟨cost, n⟩) =
      (selected ++ (labels.take (limit - selected.length)).map fun n => ⟨cost, n⟩, passed) := by
  induction labels generalizing selected with
  | nil => simp [diverse]
  | cons n labels ih =>
      rw [List.map_cons, diverse]
      by_cases hfull : limit ≤ selected.length
      · simp [hfull, Nat.sub_eq_zero_of_le hfull]
      · have hroom : limit - selected.length = limit - (selected.length + 1) + 1 := by omega
        rw [if_neg hfull, if_pos (by simp [hle]), ih, hroom, List.take_succ_cons]
        simp

/-- Among candidates of one cost the first labels are selected. -/
theorem select_tied (hle : cost.le cost = true) (limit : Nat) (h : labels.Pairwise (· < ·)) :
    select (fun _ _ => cost) limit (labels.map fun n => ⟨cost, n⟩) = labels.take limit := by
  rw [select, ranked_tied cost h, diverse_tied hle]
  simp [Function.comp_def]

end Links

end Ties

/-! ## Crowded links -/

namespace Links

variable {g : Links} {cost : Single} {degree width level node total : Nat}

/-- The neighbours of a node on the lowest level among `total` nodes that all cost the
same: the first nodes, as many as the degree says, know as many of the first nodes as
they have room for, and all others know the first nodes. -/
def crowd (degree total i : Nat) : List Nat :=
  if i < degree then (List.range (min total (2 * degree + 1))).filter (· != i)
  else List.range degree

/-- On the lowest level, which every node has, neighbours are those of a crowd. -/
structure Crowded (g : Links) (degree total : Nat) : Prop where
  consistent : g.Consistent total
  grounded : ∀ i < total, 0 < (g.levelsOf i).length
  lists : ∀ i < total, g.neighbours 0 i = crowd degree total i

theorem empty_crowded (degree : Nat) : Links.empty.Crowded degree 0 :=
  ⟨empty_consistent, fun i hi => absurd hi (Nat.not_lt_zero i),
    fun i hi => absurd hi (Nat.not_lt_zero i)⟩

/-- Every node leads to the first ones. -/
theorem Crowded.leads_first (h : g.Crowded degree total) {i s : Nat} (hi : i < min total degree)
    (hs : s < total) : g.Leads 0 s i := by
  by_cases hself : s = i
  · exact hself ▸ .refl
  · refine .single ?_
    rw [h.lists s hs, crowd]
    split
    · rw [List.mem_filter, List.mem_range]
      refine ⟨by omega, ?_⟩
      simpa using fun heq => hself heq.symm
    · exact List.mem_range.2 (by omega)

/-- No node knows one that came after the lists were full. -/
theorem Crowded.lt_of_mem (h : g.Crowded degree total) {i n : Nat} (hn : n ∈ g.neighbours 0 i) :
    n < 2 * degree + 1 := by
  by_cases hi : i < total
  · rw [h.lists i hi, crowd] at hn
    split at hn
    · have hlt := List.mem_range.1 (List.mem_filter.1 hn).1
      omega
    · have hlt := List.mem_range.1 hn
      omega
  · rw [h.consistent.neighbours_eq_nil (Nat.le_of_not_lt hi)] at hn
    exact absurd hn List.not_mem_nil

/-- The first numbers that pass a test, if the first ones do and not many others can. -/
private theorem take_filter_range {p : Nat → Bool} {limit : Nat}
    (hfirst : ∀ i < min node limit, p i = true) (hlast : p node = false) :
    ((List.range (node + 1)).filter p).take limit = List.range (min node limit) := by
  have hsplit : List.range (node + 1) = List.range (min node limit) ++
      (List.range (node + 1 - min node limit)).map (min node limit + ·) := by
    rw [← List.range_add, Nat.add_sub_cancel' (by omega)]
  have hall : (List.range (min node limit)).filter p = List.range (min node limit) :=
    List.filter_eq_self.2 fun i hi => hfirst i (List.mem_range.1 hi)
  rw [hsplit, List.filter_append, hall]
  by_cases hmany : limit ≤ node
  · rw [Nat.min_eq_right hmany, List.take_left' List.length_range]
  · have hfew : min node limit = node := by omega
    have hnone : ((List.range 1).map (node + ·)).filter p = [] := by simp [hlast]
    rw [hfew, Nat.add_sub_cancel_left, hnone, List.append_nil, List.take_of_length_le]
    rw [List.length_range]
    omega

/-- Among nodes of one cost, a new node gets the first ones as neighbours. -/
theorem Crowded.groundChoice_eq (h : g.Crowded degree node) (hle : cost.le cost = true)
    (hwide : node ≤ width) {starts : List Nat} (hsome : starts ≠ [])
    (hstarts : ∀ s ∈ starts, s < node) :
    groundChoice (fun _ _ => cost) degree width node starts g = List.range (min node degree) := by
  have hold := h.consistent.within.neighbours_lt 0
  have hclosed : ∀ n < node + 1, ∀ m ∈ g.neighbours 0 n, m < node + 1 :=
    fun n _ m hm => Nat.lt_succ_of_lt (hold n m hm)
  obtain ⟨A, hA⟩ := Beam.exists_findable
    ⟨node + 1, g.neighbours 0, fun _ => cost, fun _ => true, width⟩ starts hclosed
  have hbelow : ∀ n ∈ A, n < node := by
    intro n hn
    obtain ⟨-, s, hs, -, hleads⟩ := (hA n).1 hn
    exact h.consistent.lt_of_leads (hstarts s hs) hleads
  have hfits : A.card ≤ width := by
    refine Nat.le_trans (Finset.card_le_card (t := Finset.range node) fun n hn => ?_) ?_
    · exact Finset.mem_range.2 (hbelow n hn)
    · rwa [Finset.card_range]
  obtain ⟨s, hs⟩ := List.exists_mem_of_ne_nil starts hsome
  have hfirst : ∀ i < min node degree, decide (i ∈ A) = true := by
    intro i hi
    rw [decide_eq_true_eq, hA i]
    exact ⟨rfl, s, hs, Nat.lt_succ_of_lt (hstarts s hs), h.leads_first hi (hstarts s hs)⟩
  have hlast : decide (node ∈ A) = false :=
    decide_eq_false fun hmem => Nat.lt_irrefl node (hbelow node hmem)
  have hsorted : ((List.range (node + 1)).filter fun n => decide (n ∈ A)).Pairwise (· < ·) :=
    List.pairwise_lt_range.filter _
  rw [groundChoice, hA.search_eq_ranked hclosed hfits, ranked_tied cost hsorted,
    select_tied hle degree hsorted, take_filter_range hfirst hlast]

private theorem length_filter_range {n i : Nat} (hi : i < n) :
    ((List.range n).filter (· != i)).length = n - 1 := by
  rw [← List.nodup_range.erase_eq_filter, List.length_erase_of_mem (List.mem_range.2 hi),
    List.length_range]

/-- The number that comes next passes as well. -/
private theorem filter_range_succ {n i : Nat} (hi : i < n) :
    (List.range (n + 1)).filter (· != i) = (List.range n).filter (· != i) ++ [n] := by
  have hne : (n != i) = true := by simpa using Nat.ne_of_gt hi
  rw [List.range_succ, List.filter_append, List.filter_singleton, hne]
  rfl

/-- The new node knows the first ones. -/
private theorem crowd_last (degree node : Nat) :
    crowd degree (node + 1) node = List.range (min node degree) := by
  rw [crowd]
  split
  · have hroom : min (node + 1) (2 * degree + 1) = node + 1 := by omega
    have hall : (List.range node).filter (· != node) = List.range node := by
      refine List.filter_eq_self.2 fun i hi => ?_
      simpa using Nat.ne_of_lt (List.mem_range.1 hi)
    rw [hroom, List.range_succ, List.filter_append, hall, Nat.min_eq_left (by omega)]
    simp
  · rw [Nat.min_eq_right (by omega)]

/-- A first node knows the new node too while its list has room, and otherwise drops it. -/
private theorem relink_crowd (hle : cost.le cost = true) {i : Nat} (hi : i < min node degree) :
    relink (fun _ _ => cost) (degreeAt degree 0) i (crowd degree node i ++ [node]) =
      crowd degree (node + 1) i := by
  have hdegree : i < degree := by omega
  have hnode : i < node := by omega
  rw [relink, crowd, crowd, if_pos hdegree, if_pos hdegree, degreeAt, if_pos rfl,
    List.length_append, length_filter_range (by omega), List.length_singleton]
  by_cases hroom : node ≤ 2 * degree
  · rw [if_neg (by omega), Nat.min_eq_left (by omega), Nat.min_eq_left (by omega),
      filter_range_succ hnode]
  · have hsorted : ((List.range (2 * degree + 1)).filter (· != i) ++ [node]).Pairwise (· < ·) := by
      refine List.pairwise_append.2
        ⟨List.pairwise_lt_range.filter _, List.pairwise_singleton _ _, fun a ha b hb => ?_⟩
      have hlt := List.mem_range.1 (List.mem_filter.1 ha).1
      rw [List.mem_singleton.1 hb]
      omega
    have hlength : ((List.range (2 * degree + 1)).filter (· != i)).length = degree * 2 := by
      rw [length_filter_range (by omega)]
      omega
    rw [if_pos (by omega), Nat.min_eq_right (by omega), Nat.min_eq_right (by omega),
      select_tied hle _ hsorted, List.take_left' hlength]

/-- One more node of the same cost finds the links crowded and leaves them so. -/
theorem Crowded.insert (h : g.Crowded degree node) (hle : cost.le cost = true)
    (hwide : node ≤ width) (hlevel : level ≤ levelLimit) :
    (g.insert (fun _ _ => cost) degree width level node).Crowded degree (node + 1) := by
  refine ⟨h.consistent.insert hlevel, insert_grounded h.consistent h.grounded _ _ _ _,
    fun i hi => ?_⟩
  by_cases hnode : node = 0
  · obtain rfl : i = node := by omega
    subst hnode
    rw [neighbours_insert_first h.consistent, crowd_last]
    simp
  · obtain ⟨starts, hsome, hstarts, hall⟩ :=
      insert_ground h.consistent h.grounded hnode (fun _ _ => cost) degree width level
    rw [hall i, h.groundChoice_eq hle (Nat.le_trans hwide (Nat.le_max_left _ _)) hsome hstarts,
      levelAfter]
    split
    · rename_i hlast
      rw [hlast, crowd_last]
    · rename_i hold
      have hlt : i < node := by omega
      rw [h.lists i hlt]
      split
      · rename_i hmem
        exact relink_crowd hle (List.mem_range.1 hmem)
      · rename_i hmem
        have hother : ¬ i < degree := fun hdegree => hmem (List.mem_range.2 (by omega))
        rw [crowd, crowd, if_neg hother, if_neg hother]

end Links

/-! ## Graphs of equal vectors -/

namespace Graph

variable {S E : Type} [Space S E] {g : Graph S E}

/-- Vectors that all cost the same are appended to a crowded graph. -/
theorem crowded_append (h : g.Consistent) (hcrowded : g.links.Crowded g.degree g.storage.total)
    {elements : Array E} (hwhole : elements.size % g.storage.unitLength = 0) {cost : Single}
    (hle : cost.le cost = true)
    (hequal : ∀ v ∈ (g.append elements).1.storage.vectors,
      ∀ w ∈ (g.append elements).1.storage.vectors, Space.cost g.storage.space v w = cost)
    (hwide : (g.append elements).1.storage.total ≤ g.buildWidth) :
    (g.append elements).1.links.Crowded g.degree (g.append elements).1.storage.total := by
  have htotal := (h.append hwhole).2
  rw [append_eq_of_consistent h.storage hwhole] at hequal hwide htotal ⊢
  rw [htotal] at hwide ⊢
  rw [storage_foldl_insertNode] at hequal htotal
  refine foldl_insertNode_induction
    { g with storage := { g.storage with data := g.storage.data ++ elements } }
    (P := fun node links => links.Crowded g.degree node)
    (fun node links level hnode hlevel hlinks => ?_) hcrowded
  have hagree : Links.AgreeBelow (node + 1)
      (between { g with storage := { g.storage with data := g.storage.data ++ elements } })
      fun _ _ => cost := by
    intro i hi j hj
    have hmem : ∀ n < node + 1,
        Flat.vector { g.storage with data := g.storage.data ++ elements } n ∈
          Flat.vectors { g.storage with data := g.storage.data ++ elements } := by
      intro n hn
      have hstored := Nat.lt_of_lt_of_eq (Nat.lt_of_lt_of_le hn hnode) htotal.symm
      exact List.mem_map_of_mem (List.mem_range.2 hstored)
    exact hequal _ (hmem i hi) _ (hmem j hj)
  rw [Links.insert_congr hagree hlinks.consistent _ _ hlevel]
  exact hlinks.insert hle (Nat.le_of_lt (Nat.lt_of_lt_of_le hnode hwide)) hlevel

/-- Of the nodes that came after the lists were full, a search finds at most the one that it
starts from. -/
theorem search_crowded (h : g.Consistent) (hcrowded : g.links.Crowded g.degree g.storage.total)
    {query : Array E} (hwidth : query.size = g.storage.unitLength) (k : Nat) {accept : Nat → Bool}
    (hlate : ∀ n, accept n = true → 2 * g.degree < n) :
    ∃ hits, (Index.graph g).search query k accept = .ok hits ∧ hits.length ≤ 1 := by
  obtain ⟨hits, A, hsearch, hA, hlength⟩ := h.search_length hwidth k accept
  refine ⟨hits, hsearch, ?_⟩
  have hlanding : ∀ n ∈ A, ∃ entry, g.links.entry = some entry ∧ n = g.landing query entry := by
    intro n hn
    obtain ⟨haccept, entry, hentry, hleads⟩ := (hA n).1 hn
    refine ⟨entry, hentry, ?_⟩
    cases hleads with
    | refl => rfl
    | tail _ hlink =>
        have hlt := hcrowded.lt_of_mem hlink
        have hgt := hlate n haccept
        omega
  have hcard : A.card ≤ 1 := by
    refine Finset.card_le_one.2 fun m hm n hn => ?_
    obtain ⟨e, he, rfl⟩ := hlanding m hm
    obtain ⟨e', he', rfl⟩ := hlanding n hn
    obtain rfl : e = e' := Option.some.inj (he.symm.trans he')
    rfl
  omega

private theorem crowded_seven : (ofBytes #[0, 0, 0, 0, 0, 0, 0]).links.Crowded 2 7 := by
  have hvectors : ∀ v ∈ (ofBytes #[0, 0, 0, 0, 0, 0, 0]).storage.vectors, v = #[0] := by
    rw [ofBytes_storage]
    decide
  have htotal : (ofBytes #[0, 0, 0, 0, 0, 0, 0]).storage.total = 7 := by
    rw [ofBytes_storage]
    rfl
  have hwhole : (#[0, 0, 0, 0, 0, 0, 0] : Array UInt8).size % noBytes.storage.unitLength = 0 :=
    Nat.mod_one _
  have hle : (Space.cost (⟨⟩ : BinarySpace) #[0] #[0]).le
      (Space.cost (⟨⟩ : BinarySpace) #[0] #[0]) = true := by decide +kernel
  have hcrowded := crowded_append (g := noBytes) noBytes_constructed.kept.1
    (Links.empty_crowded 2) hwhole hle
    (fun v hv w hw => by rw [hvectors v hv, hvectors w hw]) (htotal.trans_le (by decide))
  exact htotal ▸ hcrowded

/-- Seven equal vectors are stored, and a search for two that accepts the last two of them
does not return two. -/
theorem search_crowded_seven :
    (Index.graph (ofBytes #[0, 0, 0, 0, 0, 0, 0])).Grown (List.replicate 7 #[0]) ∧
      ((List.range 7).countP fun n => [5, 6].contains n) = 2 ∧
      ∃ hits, (Index.graph (ofBytes #[0, 0, 0, 0, 0, 0, 0])).search #[0] 2
          (fun n => [5, 6].contains n) = .ok hits ∧
        hits.length ≠ min 2 ((List.range 7).countP fun n => [5, 6].contains n) := by
  have hgrown := ofBytes_grown #[0, 0, 0, 0, 0, 0, 0]
  have hstorage := ofBytes_storage #[0, 0, 0, 0, 0, 0, 0]
  have htotal : (ofBytes #[0, 0, 0, 0, 0, 0, 0]).storage.total = 7 := by
    rw [hstorage]
    rfl
  have hdegree : (ofBytes #[0, 0, 0, 0, 0, 0, 0]).degree = 2 := by
    rw [ofBytes, append_eq_of_whole noBytes (Nat.mod_one _), foldl_insertNode_eq]
    rfl
  have hwidth : (#[0] : Array UInt8).size =
      (ofBytes #[0, 0, 0, 0, 0, 0, 0]).storage.unitLength := by
    rw [hstorage]
    rfl
  have hlate : ∀ n, [5, 6].contains n = true →
      2 * (ofBytes #[0, 0, 0, 0, 0, 0, 0]).degree < n := by
    intro n hn
    have hmem : n = 5 ∨ n = 6 := by simpa using hn
    rw [hdegree]
    omega
  obtain ⟨hits, hsearch, hlength⟩ := search_crowded (Index.Grown.tended hgrown).consistent
    (hdegree.symm ▸ htotal.symm ▸ crowded_seven) hwidth 2 hlate
  have hcount : ((List.range 7).countP fun n => [5, 6].contains n) = 2 := rfl
  exact ⟨hgrown, hcount, hits, hsearch, by omega⟩

end Graph

end Proximity

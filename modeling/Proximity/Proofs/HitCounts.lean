import Proximity.Proofs.GroundLevel
import Proximity.Proofs.Persistence
import Proximity.Proofs.SearchContract

/-!
# How many hits a graph search returns

A graph search returns as many hits as it can reach, so whether it returns as many as
there are depends on the lowest level alone.  While no neighbour list has outgrown its
limit, the links there lead back and forth between all nodes: a new node gets at least
one neighbour, and its neighbours link back to it.  A list has room for twice the degree,
so that holds as long as there is at most one vector more than that.  Beyond, a list that
is selected anew may drop the only link to a node.

## Main definitions

* `Links.Woven` — links that lead from everywhere to everywhere.

## Main results

* `Links.Woven.insert` — the step: an insertion into lists with room.
* `Graph.foldl_insertNode_induction` — from the step to an append.
* `Index.Grown.tended` — the run: what every history of a graph keeps.
* `Graph.search_count` — when a search returns as many hits as there are.
-/

namespace Proximity

/-! ## Lists with room -/

/-- A search whose starts exist finds something. -/
theorem Beam.search_ne_nil {t : Terrain} (hclosed : ∀ n < t.size, ∀ m ∈ t.neighbours n, m < t.size)
    (hwidth : t.width ≠ 0) {starts : List Nat} {s : Nat} (hs : s ∈ starts) (hlt : s < t.size)
    (haccept : t.accept s = true) : search t starts ≠ [] := by
  intro hnil
  have hroom : (search t starts).length < t.width := by
    rw [hnil]
    exact Nat.pos_of_ne_zero hwidth
  have hfound := search_complete hclosed hroom hs hlt .refl haccept
  rw [hnil] at hfound
  exact List.not_mem_nil hfound

namespace Links

variable {g : Links} {between : Nat → Nat → Single} {node degree width level : Nat}

/-- On the lowest level, which every node has, links go both ways and lead from every node
to every other one. -/
structure Woven (g : Links) (total : Nat) : Prop where
  consistent : g.Consistent total
  grounded : ∀ i < total, 0 < (g.levelsOf i).length
  nodup : ∀ i, (g.neighbours 0 i).Nodup
  apart : ∀ i, i ∉ g.neighbours 0 i
  back : ∀ i j, j ∈ g.neighbours 0 i → i ∈ g.neighbours 0 j
  connected : ∀ i < total, ∀ j < total, g.Leads 0 i j

theorem Consistent.neighbours_eq_nil {total : Nat} (h : g.Consistent total) {i : Nat}
    (hi : total ≤ i) (l : Nat) : g.neighbours l i = [] := by
  rw [neighbours, levelsOf, Array.getElem?_eq_none (h.size.symm ▸ hi)]
  rfl

/-- One node at most needs no links. -/
theorem woven_of_unlinked {total : Nat} (h : g.Consistent total)
    (hgrounded : ∀ i < total, 0 < (g.levelsOf i).length) (htotal : total ≤ 1)
    (hnone : ∀ i, g.neighbours 0 i = []) : g.Woven total where
  consistent := h
  grounded := hgrounded
  nodup i := hnone i ▸ List.nodup_nil
  apart i := hnone i ▸ List.not_mem_nil
  back i j hj := absurd (hnone i ▸ hj) List.not_mem_nil
  connected i hi j hj := by
    obtain rfl : i = j := by omega
    exact .refl

theorem empty_woven : Links.empty.Woven 0 :=
  woven_of_unlinked empty_consistent (fun i hi => absurd hi (Nat.not_lt_zero i)) (Nat.zero_le 1)
    fun i => empty_consistent.neighbours_eq_nil (Nat.zero_le i) 0

/-- A node has fewer neighbours than there are nodes. -/
theorem Woven.length_lt {total : Nat} (h : g.Woven total) {i : Nat} (hi : i < total) :
    (g.neighbours 0 i).length < total := by
  have hnodup : (i :: g.neighbours 0 i).Nodup := List.nodup_cons.2 ⟨h.apart i, h.nodup i⟩
  have hsub : i :: g.neighbours 0 i ⊆ List.range total := by
    intro n hn
    rw [List.mem_range]
    rcases List.mem_cons.1 hn with rfl | hn
    · exact hi
    · exact h.consistent.within.neighbours_lt 0 i n hn
  have hlength := (hnodup.subperm hsub).length_le
  rwa [List.length_cons, List.length_range] at hlength

/-- While all lists have room, an insertion adds mutual links between the new node and
some old ones, and no others. -/
theorem Woven.insert_links (h : g.Woven node) (hnode : node ≠ 0) (hdegree : degree ≠ 0)
    (hroom : node ≤ degreeAt degree 0) (between : Nat → Nat → Single) (width level : Nat) :
    ∃ chosen : List Nat, chosen ≠ [] ∧ chosen.Nodup ∧ (∀ n ∈ chosen, n < node) ∧
      ∀ i, (g.insert between degree width level node).neighbours 0 i =
        if i = node then chosen
        else if i ∈ chosen then g.neighbours 0 i ++ [node] else g.neighbours 0 i := by
  obtain ⟨starts, hsome, hstarts, hall⟩ :=
    insert_ground h.consistent h.grounded hnode between degree width level
  obtain ⟨hnodup, hlt⟩ := groundChoice_spec (h.consistent.within.neighbours_lt 0) hstarts
    between degree (max width degree)
  refine ⟨groundChoice between degree (max width degree) node starts g, ?_, hnodup, hlt,
    fun i => ?_⟩
  · obtain ⟨s, hs⟩ := List.exists_mem_of_ne_nil starts hsome
    refine select_ne_nil between hdegree (Beam.search_ne_nil (fun n _ m hm => ?_) ?_ hs
      (Nat.lt_succ_of_lt (hstarts s hs)) rfl)
    · exact Nat.lt_succ_of_lt (h.consistent.within.neighbours_lt 0 n m hm)
    · exact Nat.ne_of_gt (Nat.lt_of_lt_of_le (Nat.pos_of_ne_zero hdegree) (Nat.le_max_right _ _))
  · rw [hall i, levelAfter]
    split
    · rfl
    · split
      · rename_i hmem
        have hlength := h.length_lt (hlt i hmem)
        rw [relink, if_neg]
        rw [List.length_append, List.length_singleton]
        omega
      · rfl

/-- Mutual links between a new node and some old ones keep links woven. -/
private theorem Woven.add {g' : Links} {chosen : List Nat} (h : g.Woven node)
    (hconsistent : g'.Consistent (node + 1))
    (hgrounded : ∀ i < node + 1, 0 < (g'.levelsOf i).length) (hsome : chosen ≠ [])
    (hnodup : chosen.Nodup) (hlt : ∀ n ∈ chosen, n < node)
    (hlinks : ∀ i, g'.neighbours 0 i = if i = node then chosen
      else if i ∈ chosen then g.neighbours 0 i ++ [node] else g.neighbours 0 i) :
    g'.Woven (node + 1) := by
  have hnone : g.neighbours 0 node = [] := h.consistent.neighbours_eq_nil (Nat.le_refl node) 0
  have hnew : node ∉ chosen := fun hmem => Nat.lt_irrefl node (hlt node hmem)
  -- The links that are added go both ways, so this is symmetric in `i` and `n`.
  have hmem : ∀ i n, n ∈ g'.neighbours 0 i ↔
      n ∈ g.neighbours 0 i ∨ i = node ∧ n ∈ chosen ∨ n = node ∧ i ∈ chosen := by
    intro i n
    rw [hlinks i]
    by_cases hi : i = node
    · simp [hi, hnone, hnew]
    · by_cases hchosen : i ∈ chosen
      · simp [hi, hchosen]
      · simp [hi, hchosen]
  have hold : ∀ i j, g.Leads 0 i j → g'.Leads 0 i j :=
    fun i j => Relation.ReflTransGen.mono (fun i n hn => (hmem i n).2 (.inl hn)) i j
  obtain ⟨c, hc⟩ := List.exists_mem_of_ne_nil chosen hsome
  have hto : ∀ i < node + 1, g'.Leads 0 i c := by
    intro i hi
    by_cases hnode : i = node
    · exact .single ((hmem i c).2 (.inr (.inl ⟨hnode, hc⟩)))
    · exact hold i c (h.connected i (by omega) c (hlt c hc))
  have hfrom : ∀ i < node + 1, g'.Leads 0 c i := by
    intro i hi
    by_cases hnode : i = node
    · exact .single ((hmem c i).2 (.inr (.inr ⟨hnode, hc⟩)))
    · exact hold c i (h.connected c (hlt c hc) i (by omega))
  refine ⟨hconsistent, hgrounded, fun i => ?_, fun i hi => ?_, fun i j hj => ?_,
    fun i hi j hj => (hto i hi).trans (hfrom j hj)⟩
  · rw [hlinks i]
    split
    · exact hnodup
    · split
      · have hfresh : node ∉ g.neighbours 0 i :=
          fun hin => Nat.lt_irrefl node (h.consistent.within.neighbours_lt 0 i node hin)
        exact (h.nodup i).append (List.nodup_singleton node) (by simpa using hfresh)
      · exact h.nodup i
  · rcases (hmem i i).1 hi with hi | ⟨rfl, hi⟩ | ⟨rfl, hi⟩
    · exact h.apart i hi
    · exact hnew hi
    · exact hnew hi
  · rcases (hmem i j).1 hj with hj | hj | hj
    · exact (hmem j i).2 (.inl (h.back i j hj))
    · exact (hmem j i).2 (.inr (.inr hj))
    · exact (hmem j i).2 (.inr (.inl hj))

/-- An insertion into lists that have room leaves the links woven. -/
theorem Woven.insert (h : g.Woven node) (hdegree : degree ≠ 0) (hroom : node ≤ degreeAt degree 0)
    (between : Nat → Nat → Single) (width : Nat) (hlevel : level ≤ levelLimit) :
    (g.insert between degree width level node).Woven (node + 1) := by
  have hconsistent : (g.insert between degree width level node).Consistent (node + 1) :=
    h.consistent.insert hlevel
  have hgrounded := insert_grounded h.consistent h.grounded between degree width level
  by_cases hnode : node = 0
  · subst hnode
    exact woven_of_unlinked hconsistent hgrounded (Nat.le_refl 1)
      (neighbours_insert_first h.consistent between degree width level 0)
  · obtain ⟨chosen, hsome, hnodup, hlt, hlinks⟩ :=
      h.insert_links hnode hdegree hroom between width level
    exact h.add hconsistent hgrounded hsome hnodup hlt hlinks

end Links

/-! ## Appends -/

variable {S E : Type} [Space S E]

namespace Graph

/-- The graph is in order, and woven as long as no list can have outgrown its limit. -/
structure Tended (g : Graph S E) : Prop where
  consistent : g.Consistent
  woven : g.storage.total ≤ Links.degreeAt g.degree 0 + 1 → g.links.Woven g.storage.total

theorem Tended.searchable {g : Graph S E} (h : g.Tended) : (Index.graph g).Searchable :=
  ⟨h.consistent.storage.pos, h.consistent.links⟩

theorem Tended.append {g : Graph S E} (h : g.Tended) {elements : Array E}
    (hwhole : elements.size % g.storage.unitLength = 0) : (g.append elements).1.Tended := by
  have hdegree : g.degree ≠ 0 := Nat.ne_of_gt (Nat.lt_of_lt_of_le Nat.two_pos h.consistent.degree)
  obtain ⟨hconsistent, htotal⟩ := h.consistent.append hwhole
  refine ⟨hconsistent, fun hfew => ?_⟩
  rw [htotal] at hfew ⊢
  rw [append_eq_of_consistent h.consistent.storage hwhole] at hfew ⊢
  rw [foldl_insertNode_eq] at hfew
  refine foldl_insertNode_induction
    { g with storage := { g.storage with data := g.storage.data ++ elements } }
    (P := fun node links => links.Woven node) (fun node links level hnode hlevel hwoven => ?_)
    (h.woven (Nat.le_trans (Nat.le_add_right _ _) hfew))
  have hroom : node ≤ Links.degreeAt g.degree 0 := Nat.le_of_lt_succ (Nat.lt_of_lt_of_le hnode hfew)
  exact hwoven.insert hdegree hroom _ _ hlevel

end Graph

namespace Index

/-- A graph is tended; nothing is asked of other trees. -/
def Tended : Index S E → Prop
  | .graph g => g.Tended
  | .flat _ | .invertedFile .. | .composite .. => True

variable {index : Index S E} {vs : List (Array E)}

/-- Every history leaves a graph tended. -/
theorem Grown.tended (h : index.Grown vs) : index.Tended := by
  cases index with
  | graph g =>
      refine h.graph_induction (P := Graph.Tended) ?_ (fun g elements hwhole hg => hg.append hwhole)
        fun g g' ps htune hg => ?_
      · intro g hconstructed hlinks htotal
        refine ⟨hconstructed.kept.1, fun _ => ?_⟩
        rw [hlinks, htotal]
        exact Links.empty_woven
      · have htuned := consistent_of_tuneGraph hg.consistent htune
        obtain ⟨_, _, rfl⟩ := eq_of_tuneGraph htune
        exact ⟨htuned, hg.woven⟩
  | flat f => trivial
  | invertedFile f quantizer => trivial
  | composite base copies factor => trivial

end Index

/-! ## Counts -/

namespace Graph

variable {g : Graph S E} {query : Array E} {accept : Nat → Bool}

/-- An acceptable node that the landing of a query leads to. -/
def Reachable (g : Graph S E) (query : Array E) (accept : Nat → Bool) (n : Nat) : Prop :=
  accept n = true ∧
    ∃ entry, g.links.entry = some entry ∧ g.links.Leads 0 (g.landing query entry) n

/-- A search returns as many hits as nodes are reachable, or as were asked for. -/
theorem Consistent.search_length (h : g.Consistent) (hwidth : query.size = g.storage.unitLength)
    (k : Nat) (accept : Nat → Bool) :
    ∃ (hits : List (Hit Nat)) (A : Finset Nat),
      (Index.graph g).search query k accept = .ok hits ∧
        (∀ n, n ∈ A ↔ g.Reachable query accept n) ∧ hits.length = min k A.card := by
  cases hentry : g.links.entry with
  | none =>
      have hzero : (Index.graph g).total = 0 := by
        by_contra hstored
        exact h.links.nonempty hstored hentry
      refine ⟨[], ∅, ?_, fun n => ?_, by simp⟩
      · have hcheck : (Index.graph g).checkQuery query = .ok () := if_pos hwidth
        rw [Index.search, hcheck]
        simp [hzero, bind, Except.bind, pure, Except.pure]
      · simp [Reachable, hentry]
  | some entry =>
      obtain ⟨A, hA⟩ := h.exists_reaches hentry query accept
      have hstored : g.storage.total ≠ 0 := Nat.ne_zero_of_lt (h.links.entry entry hentry)
      refine ⟨_, A, search_eq_hits hstored hwidth k accept, fun n => ?_, ?_⟩
      · simp only [hA n, Reachable, hentry, Option.some.injEq, exists_eq_left']
      · rw [Index.hits, List.length_map, h.length_nearest hentry hA k]

/-- In woven links every acceptable node is reachable. -/
theorem Tended.reachable (h : g.Tended) (hfew : g.storage.total ≤ Links.degreeAt g.degree 0 + 1)
    (query : Array E) {n : Nat} (hn : n < g.storage.total) (haccept : accept n = true) :
    g.Reachable query accept n := by
  obtain ⟨entry, hentry⟩ := Option.ne_none_iff_exists'.1
    (h.consistent.links.nonempty (Nat.ne_zero_of_lt hn))
  have hlanding := h.consistent.landing_lt hentry query
  exact ⟨haccept, entry, hentry, (h.woven hfew).connected _ hlanding n hn⟩

/-- There are as many acceptable stored vectors as labels of them. -/
theorem card_accepted (accept : Nat → Bool) (total : Nat) :
    (((List.range total).filter accept).toFinset).card = (List.range total).countP accept := by
  rw [List.toFinset_card_of_nodup (List.nodup_range.filter _), List.countP_eq_length_filter]

/-- **When a graph search returns as many hits as there are.**  Whatever was appended to a
graph and however it was tuned, a search that there is room for returns as many hits as
acceptable nodes are reachable, or as were asked for.  So it returns as many as there are
acceptable vectors, or as were asked for, exactly if enough of them or all of them are
reachable; and that is so for all queries and filters as long as there are at most twice as
many vectors as the degree, and one more. -/
theorem search_count (machine : Machine) {vs : List (Array E)}
    (hgrown : (Index.graph g).Grown vs) (hwidth : query.size = g.storage.unitLength) {k : Nat}
    (hroom : (Index.graph g).canSearch machine k = true) (accept : Nat → Bool) :
    ∃ (hits : List (Hit Nat)) (A : Finset Nat),
      (Index.graph g).search? machine query k (fun n => some (accept n)) = some (.ok hits) ∧
      (∀ n, n ∈ A ↔ g.Reachable query accept n) ∧
      hits.length = min k A.card ∧
      (hits.length = min k ((List.range vs.length).countP accept) ↔
        k ≤ A.card ∨ ∀ n < vs.length, accept n = true → g.Reachable query accept n) ∧
      (vs.length ≤ 2 * g.degree + 1 →
        hits.length = min k ((List.range vs.length).countP accept)) := by
  have htended : g.Tended := hgrown.tended
  have htotal : g.storage.total = vs.length := hgrown.holds.total
  obtain ⟨hits, A, hsearch, hA, hlength⟩ := htended.consistent.search_length hwidth k accept
  have hanswer : (Index.graph g).search? machine query k (fun n => some (accept n)) =
      some ((Index.graph g).search query k accept) :=
    Index.search?_eq htended.searchable query (fun _ => hroom) (Guarded.below_some _ _)
  have hsub : A ⊆ ((List.range vs.length).filter accept).toFinset := by
    intro n hn
    obtain ⟨haccept, entry, hentry, hleads⟩ := (hA n).1 hn
    have hlt := htended.consistent.links.lt_of_leads
      (htended.consistent.landing_lt hentry query) hleads
    rw [List.mem_toFinset, List.mem_filter, List.mem_range, ← htotal]
    exact ⟨hlt, haccept⟩
  have hcard := Finset.card_le_card hsub
  -- All acceptable vectors are reachable exactly if there are as many of them.
  have hall : (∀ n < vs.length, accept n = true → g.Reachable query accept n) ↔
      (List.range vs.length).countP accept ≤ A.card := by
    rw [← card_accepted]
    constructor
    · intro hreach
      refine Finset.card_le_card fun n hn => ?_
      rw [List.mem_toFinset, List.mem_filter, List.mem_range] at hn
      exact (hA n).2 (hreach n hn.1 hn.2)
    · intro hle n hn haccept
      have hmem : n ∈ ((List.range vs.length).filter accept).toFinset := by
        rw [List.mem_toFinset, List.mem_filter, List.mem_range]
        exact ⟨hn, haccept⟩
      rw [← Finset.eq_of_subset_of_card_le hsub hle] at hmem
      exact (hA n).1 hmem
  have hiff : hits.length = min k ((List.range vs.length).countP accept) ↔
      k ≤ A.card ∨ ∀ n < vs.length, accept n = true → g.Reachable query accept n := by
    rw [card_accepted] at hcard
    rw [hall, hlength]
    omega
  refine ⟨hits, A, hanswer.trans (congrArg some hsearch), hA, hlength, hiff,
    fun hfew => hiff.2 (.inr fun n hn haccept => ?_)⟩
  have hlists : g.storage.total ≤ Links.degreeAt g.degree 0 + 1 := by
    rw [htotal, Links.degreeAt, if_pos rfl, Nat.mul_comm]
    exact hfew
  exact htended.reachable hlists query (htotal ▸ hn) haccept

/-- A graph of degree two for bit vectors of eight dimensions that holds nothing. -/
def noBytes : Graph BinarySpace UInt8 :=
  ⟨⟨⟨⟩, 8, 1, #[]⟩, 2, 40, 16, .empty, scaleFor 2, standardSeed⟩

/-- The graph after some bit vectors were appended at once. -/
def ofBytes (elements : Array UInt8) : Graph BinarySpace UInt8 := (noBytes.append elements).1

theorem noBytes_constructed : (Index.graph noBytes).Constructed :=
  .graph (by decide : 8 < Count.bound) (by decide : 2 < Count.bound)
    (by decide : 40 < Count.bound) (by decide : 16 < Count.bound) rfl

theorem ofBytes_storage (elements : Array UInt8) :
    (ofBytes elements).storage = ⟨⟨⟩, 8, 1, elements⟩ := by
  rw [ofBytes, append_eq_of_whole noBytes (Nat.mod_one _), storage_foldl_insertNode]
  exact congrArg _ (Array.empty_append)

/-- That is a history of the graph. -/
theorem ofBytes_grown (elements : Array UInt8) :
    (Index.graph (ofBytes elements)).Grown (vectorsOf 1 elements) := by
  have happend : (Index.graph noBytes).append elements = (.graph (ofBytes elements), .ok ()) := by
    rw [Index.append, ofBytes, append_eq_of_whole noBytes (Nat.mod_one _)]
  exact Index.Grown.append (.empty noBytes_constructed) happend

/-- Five equal vectors are found all. -/
theorem search_count_five :
    (Index.graph (ofBytes #[0, 0, 0, 0, 0])).Grown [#[0], #[0], #[0], #[0], #[0]] ∧
      ∃ hits, (Index.graph (ofBytes #[0, 0, 0, 0, 0])).search? .standard #[0] 9
          (fun _ => some true) = some (.ok hits) ∧ hits.length = 5 := by
  have hgrown := ofBytes_grown #[0, 0, 0, 0, 0]
  have hwidth : (#[0] : Array UInt8).size = (ofBytes #[0, 0, 0, 0, 0]).storage.unitLength := by
    rw [ofBytes_storage]
    rfl
  have hroom : (Index.graph (ofBytes #[0, 0, 0, 0, 0])).canSearch .standard 9 = true := by
    rw [Index.canSearch, hgrown.holds.total]
    decide +kernel
  obtain ⟨hits, -, hsearch, -, -, -, hfew⟩ :=
    search_count .standard hgrown hwidth hroom fun _ => true
  exact ⟨hgrown, hits, hsearch, hfew (Nat.le_refl 5)⟩

end Graph

end Proximity

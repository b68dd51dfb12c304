import Proximity.Proofs.HitCounts

/-!
# The levels of a graph

Every node has the levels up to its own, and every level has links of its own.  They lead
to nodes that have the level, never from a node to itself, not twice to the same node, and
not to more nodes than the level has room for.

An insertion comes down through the levels above that of the new node and then links it on
all levels from there.  A search ends where it started or where a link of its level leads,
so if one level is closed, the search of the next lower one starts from nodes that have it:
this carries the closure of all levels from one insertion to the next.  Lists are only cut
when they outgrow their limit, and then they are cut to that limit, so no list is ever
shorter than it was.

## Main definitions

* `Links.Layered` — links with levels in order.
* `Links.Offers`, `Links.Chosen` — what a new node may be linked to at a level.

## Main results

* `Links.linkBelow_levels`, `Links.Consistent.insert_levels` — an insertion makes one choice at
  every level.
* `Links.Layered.insert`, `Links.Layered.le_insert` — the step: what an insertion keeps.
* `Graph.Layered.append` — from the step to an append.
* `Graph.levels_layered` — the run: what every history of a graph keeps.
-/

namespace Proximity

namespace Links

variable {g : Links} {between : Nat → Nat → Single} {degree width node level l : Nat}
  {starts chosen : List Nat}

/-! ## One choice at every level -/

/-- A node that was there before the new one, and has the level. -/
def Offers (g : Links) (node level n : Nat) : Prop := n < node ∧ level < (g.levelsOf n).length

/-- Some nodes that a new node may be linked to at a level. -/
structure Chosen (g : Links) (degree node level : Nat) (chosen : List Nat) : Prop where
  length : chosen.length ≤ degree
  nodup : chosen.Nodup
  offers : ∀ n ∈ chosen, g.Offers node level n

/-- The new node has a level, and links of that level and those below lead to older nodes
that have them. -/
structure Expects (g : Links) (node level : Nat) : Prop where
  own : level < (g.levelsOf node).length
  closed : ∀ l ≤ level, ∀ i, ∀ n ∈ g.neighbours l i, g.Offers node l n

theorem Offers.down {n : Nat} (h : g.Offers node (level + 1) n) : g.Offers node level n :=
  ⟨h.1, Nat.lt_of_succ_lt h.2⟩

theorem chosen_nil (g : Links) (degree node level : Nat) : g.Chosen degree node level [] :=
  ⟨Nat.zero_le degree, List.nodup_nil, fun _ hn => absurd hn List.not_mem_nil⟩

/-- What may be chosen in some links may be in others that offer as much. -/
theorem Chosen.imp {g' : Links} (h : g.Chosen degree node level chosen)
    (himp : ∀ n, g.Offers node level n → g'.Offers node level n) :
    g'.Chosen degree node level chosen :=
  ⟨h.length, h.nodup, fun n hn => himp n (h.offers n hn)⟩

/-- Links of a level leave alone which nodes have which levels. -/
theorem offers_linkLevel_iff {l n : Nat} :
    (linkLevel between degree level node chosen g).Offers node l n ↔ g.Offers node l n := by
  rw [Offers, Offers, length_levelsOf_linkLevel]

/-- What is selected from a search of a closed level may be chosen. -/
theorem chosen_select (h : g.Expects node level) (hstarts : ∀ s ∈ starts, g.Offers node level s)
    (between : Nat → Nat → Single) (degree width : Nat) :
    g.Chosen degree node level
      (select between degree (g.layer (between · node) level width (fun _ => true) starts)) where
  length := by
    rw [length_select]
    exact Nat.min_le_left _ _
  nodup := select_nodup between degree (layer_finds g _ level width _ starts).nodup
  offers n hn := by
    obtain ⟨c, hc, rfl⟩ := mem_of_mem_select hn
    exact layer_of_closed (h.closed level (Nat.le_refl level)) hstarts width _ c hc

/-- Links at one level leave those of the lower levels to be made. -/
theorem Expects.linkLevel (h : g.Expects node (level + 1)) (between : Nat → Nat → Single)
    (degree : Nat) (chosen : List Nat) :
    (linkLevel between degree (level + 1) node chosen g).Expects node level where
  own := by
    rw [length_levelsOf_linkLevel]
    exact Nat.lt_of_succ_lt h.own
  closed l hl i n hn := by
    rw [neighbours_linkLevel_of_ne (Nat.ne_of_lt (Nat.lt_succ_of_le hl))] at hn
    exact offers_linkLevel_iff.2 (h.closed l (Nat.le_succ_of_le hl) i n hn)

/-- Linking a node below a level leaves that level and those above it alone. -/
theorem neighbours_linkBelow_of_le (h : level ≤ l) (between : Nat → Nat → Single)
    (degree width node : Nat) (starts : List Nat) (g : Links) (i : Nat) :
    (linkBelow between degree width node level starts g).neighbours l i = g.neighbours l i := by
  induction level generalizing starts g with
  | zero => rfl
  | succ level ih =>
      exact (ih (Nat.le_of_succ_le h) _ _).trans
        (neighbours_linkLevel_of_ne (Nat.ne_of_gt h) between degree node _ g i)

/-- Linking the last node makes one choice at every level. -/
theorem linkBelow_levels (h : g.Expects node level)
    (hstarts : ∀ s ∈ starts, g.Offers node level s) (between : Nat → Nat → Single)
    (degree width : Nat) (hl : l ≤ level) :
    ∃ chosen, g.Chosen degree node l chosen ∧ ∀ i,
      (linkBelow between degree width node (level + 1) starts g).neighbours l i =
        levelAfter between degree l node chosen g i := by
  induction level generalizing starts g with
  | zero =>
      obtain rfl := Nat.le_zero.1 hl
      have hchosen := chosen_select h hstarts between degree width
      exact ⟨_, hchosen, neighbours_linkLevel hchosen.nodup (fun n hn => (hchosen.offers n hn).2)
        h.own between degree⟩
  | succ level ih =>
      have hchosen := chosen_select h hstarts between degree width
      rw [linkBelow]
      generalize select between degree
        (g.layer (between · node) (level + 1) width (fun _ => true) starts) = chosen at hchosen ⊢
      rcases Nat.le_or_eq_of_le_succ hl with hlower | rfl
      · -- The next level is searched from what was chosen here, which has that level too.
        have hfrom : ∀ s ∈ if chosen.isEmpty then starts else chosen,
            (linkLevel between degree (level + 1) node chosen g).Offers node level s := by
          intro s hs
          refine offers_linkLevel_iff.2 (Offers.down ?_)
          split at hs
          · exact hstarts s hs
          · exact hchosen.offers s hs
        obtain ⟨chosen', hchosen', hall⟩ := ih (h.linkLevel between degree chosen) hfrom hlower
        refine ⟨chosen', hchosen'.imp fun _ => offers_linkLevel_iff.1, fun i => (hall i).trans ?_⟩
        rw [levelAfter, levelAfter,
          neighbours_linkLevel_of_ne (Nat.ne_of_lt (Nat.lt_succ_of_le hlower))]
      · refine ⟨chosen, hchosen, fun i => ?_⟩
        exact (neighbours_linkBelow_of_le (Nat.le_refl _) _ _ _ _ _ _ i).trans
          (neighbours_linkLevel hchosen.nodup (fun n hn => (hchosen.offers n hn).2) h.own
            between degree i)

/-! ## Lists after a choice -/

theorem le_degreeAt (degree level : Nat) : degree ≤ degreeAt degree level := by
  rw [degreeAt]
  split <;> omega

/-- A node without neighbours that is linked to nothing changes nothing. -/
theorem levelAfter_nil (h : g.neighbours level node = []) (between : Nat → Nat → Single)
    (degree i : Nat) : levelAfter between degree level node [] g i = g.neighbours level i := by
  rw [levelAfter, if_neg List.not_mem_nil]
  split
  · rename_i hi
    rw [hi, h]
  · rfl

/-- The only new links are those between the new node and what was chosen for it. -/
theorem mem_of_mem_levelAfter {i n : Nat}
    (h : n ∈ levelAfter between degree level node chosen g i) :
    n ∈ g.neighbours level i ∨ i = node ∧ n ∈ chosen ∨ n = node ∧ i ∈ chosen := by
  rw [levelAfter] at h
  split at h
  · rename_i hi
    exact .inr (.inl ⟨hi, h⟩)
  · split at h
    · rename_i hi
      rcases List.mem_append.1 (mem_of_mem_relink h) with hn | hn
      · exact .inl hn
      · exact .inr (.inr ⟨List.mem_singleton.1 hn, hi⟩)
    · exact .inl h

theorem length_levelAfter_le (hchosen : g.Chosen degree node level chosen) {i : Nat}
    (h : (g.neighbours level i).length ≤ degreeAt degree level)
    (between : Nat → Nat → Single) :
    (levelAfter between degree level node chosen g i).length ≤ degreeAt degree level := by
  rw [levelAfter]
  split
  · exact Nat.le_trans hchosen.length (le_degreeAt degree level)
  · split
    · rw [length_relink]
      exact Nat.min_le_left _ _
    · exact h

/-- A list within its limit does not lose by a choice. -/
theorem le_length_levelAfter {i : Nat} (h : (g.neighbours level i).length ≤ degreeAt degree level)
    (hnode : g.neighbours level node = []) (between : Nat → Nat → Single) (chosen : List Nat) :
    (g.neighbours level i).length ≤ (levelAfter between degree level node chosen g i).length := by
  rw [levelAfter]
  split
  · rename_i hi
    rw [hi, hnode]
    exact Nat.zero_le _
  · split
    · rw [length_relink, List.length_append]
      exact Nat.le_min.2 ⟨h, Nat.le_add_right _ _⟩
    · exact Nat.le_refl _

theorem levelAfter_nodup (hchosen : chosen.Nodup) {i : Nat} (h : (g.neighbours level i).Nodup)
    (hnew : node ∉ g.neighbours level i) (between : Nat → Nat → Single) (degree : Nat) :
    (levelAfter between degree level node chosen g i).Nodup := by
  rw [levelAfter]
  split
  · exact hchosen
  · split
    · exact relink_nodup between _ i
        (h.append (List.nodup_singleton node) (List.disjoint_singleton.2 hnew))
    · exact h

/-! ## Insertions -/

/-- A node has the levels that it was inserted with. -/
theorem length_levelsOf_insert (hsize : g.nodes.size = node) (between : Nat → Nat → Single)
    (degree width level i : Nat) :
    ((g.insert between degree width level node).levelsOf i).length =
      if i = node then level + 1 else (g.levelsOf i).length := by
  have hpush := length_levelsOf_push hsize level i
  rw [insert]
  dsimp only
  split
  · exact hpush
  · split
    · exact (length_levelsOf_linkBelow _ _ _ _ _ _ _ i).trans hpush
    · exact (length_levelsOf_linkBelow _ _ _ _ _ _ _ i).trans hpush

/-- A new node becomes the entry if it is the first one or has a level above all others. -/
theorem insert_entry (between : Nat → Nat → Single) (degree width level node : Nat) (g : Links) :
    ((g.entry = none ∨ g.topLevel < level) ∧
      (g.insert between degree width level node).entry = some node ∧
      (g.insert between degree width level node).topLevel = level) ∨
    (level ≤ g.topLevel ∧ (g.insert between degree width level node).entry = g.entry ∧
      (g.insert between degree width level node).topLevel = g.topLevel) := by
  rw [insert]
  dsimp only
  split
  · rename_i hentry
    exact .inl ⟨.inl hentry, rfl, rfl⟩
  · split
    · rename_i habove
      exact .inl ⟨.inr habove, rfl, rfl⟩
    · rename_i hbelow
      have hframe := linkBelow_frame between degree (max width degree) node
        (min level g.topLevel + 1)
      exact .inr ⟨Nat.le_of_not_lt hbelow, (hframe _ _).entry, (hframe _ _).topLevel⟩

section Push

variable (h : g.Consistent node)

include h

/-- Room for one more node leaves alone which older nodes have which levels. -/
theorem Consistent.offers_push_iff {level l n : Nat} :
    Offers { g with nodes := g.nodes.push (List.replicate (level + 1) []) } node l n ↔
      g.Offers node l n := by
  refine and_congr_right fun hn => ?_
  rw [length_levelsOf_push h.size, if_neg (Nat.ne_of_lt hn)]

variable (hclosed : ∀ l i, ∀ n ∈ g.neighbours l i, l < (g.levelsOf n).length)

include hclosed

private theorem Consistent.push_closed (level l i : Nat) :
    ∀ n ∈ neighbours { g with nodes := g.nodes.push (List.replicate (level + 1) []) } l i,
      Offers { g with nodes := g.nodes.push (List.replicate (level + 1) []) } node l n := by
  intro n hn
  rw [neighbours_push] at hn
  exact h.offers_push_iff.2 ⟨h.within.neighbours_lt l i n hn, hclosed l i n hn⟩

/-- Before it is linked, the new node has its levels, and the older links are closed. -/
theorem Consistent.push_expects {level l : Nat} (hl : l ≤ level) :
    Expects { g with nodes := g.nodes.push (List.replicate (level + 1) []) } node l where
  own := by
    rw [length_levelsOf_push h.size, if_pos rfl]
    exact Nat.lt_succ_of_le hl
  closed k _ := h.push_closed hclosed level k

/-- The descent for a new node ends in a node of the level where its links begin. -/
theorem Consistent.offers_descend {entry : Nat} (hentry : g.entry = some entry)
    (htop : g.topLevel < (g.levelsOf entry).length) (distance : Nat → Single) (level : Nat) :
    Offers { g with nodes := g.nodes.push (List.replicate (level + 1) []) } node
      (min level g.topLevel)
      (descend { g with nodes := g.nodes.push (List.replicate (level + 1) []) } distance level
        g.topLevel entry) :=
  descend_of_closed (P := Offers _ node) (h.push_closed hclosed level) (fun _ _ hn => hn.down)
    (h.offers_push_iff.2 ⟨h.entry entry hentry, htop⟩)

/-- An insertion makes one choice at every level, and chooses nothing above the level of the
new node. -/
theorem Consistent.insert_levels
    (htop : ∀ e, g.entry = some e → g.topLevel < (g.levelsOf e).length)
    (between : Nat → Nat → Single) (degree width level l : Nat) :
    ∃ chosen, g.Chosen degree node l chosen ∧ (chosen ≠ [] → l ≤ level) ∧ ∀ i,
      (g.insert between degree width level node).neighbours l i =
        levelAfter between degree l node chosen g i := by
  have hnone : g.neighbours l node = [] := h.neighbours_eq_nil (Nat.le_refl node) l
  -- Where nothing is linked, nothing is chosen.
  have hsame : ∀ {g' : Links}, (∀ i, g'.neighbours l i = g.neighbours l i) →
      ∃ chosen, g.Chosen degree node l chosen ∧ (chosen ≠ [] → l ≤ level) ∧ ∀ i,
        g'.neighbours l i = levelAfter between degree l node chosen g i :=
    fun hg' => ⟨[], g.chosen_nil degree node l, fun hne => absurd rfl hne,
      fun i => (hg' i).trans (levelAfter_nil hnone between degree i).symm⟩
  have hpush := neighbours_push g (level + 1)
  rw [Links.insert]
  dsimp only
  split
  · exact hsame (hpush l)
  · rename_i entry hentry
    have hstart := h.offers_descend hclosed hentry (htop entry hentry) (between · node) level
    have hexpects := h.push_expects hclosed (Nat.min_le_left level g.topLevel)
    by_cases hl : l ≤ min level g.topLevel
    · obtain ⟨chosen, hchosen, hall⟩ := linkBelow_levels hexpects
        (fun s hs => List.mem_singleton.1 hs ▸ hstart) between degree (max width degree) hl
      refine ⟨chosen, hchosen.imp fun _ => h.offers_push_iff.1,
        fun _ => Nat.le_trans hl (Nat.min_le_left _ _), fun i => ?_⟩
      have hlist := hall i
      rw [levelAfter, hpush] at hlist
      rw [levelAfter, ← hlist]
      split <;> rfl
    · have habove := neighbours_linkBelow_of_le (Nat.lt_of_not_le hl) between degree
        (max width degree) node
      split
      · exact hsame fun i => (habove _ _ i).trans (hpush l i)
      · exact hsame fun i => (habove _ _ i).trans (hpush l i)

end Push

/-! ## Layered links -/

/-- Links with levels in order, for a number of nodes. -/
structure Layered (g : Links) (degree total : Nat) : Prop where
  consistent : g.Consistent total
  grounded : ∀ i < total, 0 < (g.levelsOf i).length
  /-- No node has a level above the top. -/
  height : ∀ i, (g.levelsOf i).length ≤ g.topLevel + 1
  /-- The entry has all levels. -/
  entry : ∀ e, g.entry = some e → (g.levelsOf e).length = g.topLevel + 1
  limit : ∀ l i, (g.neighbours l i).length ≤ degreeAt degree l
  nodup : ∀ l i, (g.neighbours l i).Nodup
  apart : ∀ l i, i ∉ g.neighbours l i
  closed : ∀ l i, ∀ n ∈ g.neighbours l i, l < (g.levelsOf n).length

theorem empty_layered (degree : Nat) : Links.empty.Layered degree 0 := by
  have hnone : ∀ l i, Links.empty.neighbours l i = [] :=
    fun l i => empty_consistent.neighbours_eq_nil (Nat.zero_le i) l
  refine ⟨empty_consistent, fun i hi => absurd hi (Nat.not_lt_zero i), fun i => Nat.zero_le _,
    fun e he => absurd (empty_consistent.entry e he) (Nat.not_lt_zero e), fun l i => ?_,
    fun l i => ?_, fun l i => ?_, fun l i => ?_⟩
  all_goals rw [hnone]
  · exact Nat.zero_le _
  · exact List.nodup_nil
  · exact List.not_mem_nil
  · exact fun n hn => absurd hn List.not_mem_nil

/-- The choice that an insertion into layered links makes at a level. -/
theorem Layered.insert_levels (h : g.Layered degree node) (between : Nat → Nat → Single)
    (width level l : Nat) :
    ∃ chosen, g.Chosen degree node l chosen ∧ (chosen ≠ [] → l ≤ level) ∧ ∀ i,
      (g.insert between degree width level node).neighbours l i =
        levelAfter between degree l node chosen g i :=
  h.consistent.insert_levels h.closed
    (fun e he => Nat.lt_of_lt_of_eq (Nat.lt_succ_self _) (h.entry e he).symm) between degree width
    level l

/-- No insertion makes a list shorter. -/
theorem Layered.le_insert (h : g.Layered degree node) (between : Nat → Nat → Single)
    (width level l i : Nat) : (g.neighbours l i).length ≤
      ((g.insert between degree width level node).neighbours l i).length := by
  obtain ⟨chosen, -, -, hall⟩ := h.insert_levels between width level l
  rw [hall]
  exact le_length_levelAfter (h.limit l i) (h.consistent.neighbours_eq_nil (Nat.le_refl node) l)
    between chosen

/-- The entry keeps all levels, and the others no more, when a node is inserted. -/
private theorem Layered.insert_height (h : g.Layered degree node) (between : Nat → Nat → Single)
    (width level : Nat) :
    (∀ i, ((g.insert between degree width level node).levelsOf i).length ≤
      (g.insert between degree width level node).topLevel + 1) ∧
    ∀ e, (g.insert between degree width level node).entry = some e →
      ((g.insert between degree width level node).levelsOf e).length =
        (g.insert between degree width level node).topLevel + 1 := by
  have hlength := length_levelsOf_insert h.consistent.size between degree width level
  rcases insert_entry between degree width level node g with
    ⟨hnew, hentry, htop⟩ | ⟨hbelow, hentry, htop⟩
  · rw [hentry, htop]
    refine ⟨fun i => ?_, fun e he => ?_⟩
    · rw [hlength]
      split
      · exact Nat.le_refl _
      · rcases hnew with hfirst | habove
        · -- Without an entry there are no other nodes.
          have hnode : node = 0 := by
            by_contra hnode
            exact h.consistent.nonempty hnode hfirst
          have hnone : g.levelsOf i = [] := by
            have hbeyond : g.nodes.size ≤ i := by
              rw [h.consistent.size, hnode]
              exact i.zero_le
            rw [levelsOf, Array.getElem?_eq_none hbeyond]
            rfl
          rw [hnone]
          exact Nat.zero_le _
        · exact Nat.le_trans (h.height i) (by omega)
    · obtain rfl := Option.some.inj he
      rw [hlength, if_pos rfl]
  · rw [hentry, htop]
    refine ⟨fun i => ?_, fun e he => ?_⟩
    · rw [hlength]
      split
      · exact Nat.succ_le_succ hbelow
      · exact h.height i
    · rw [hlength, if_neg (Nat.ne_of_lt (h.consistent.entry e he)), h.entry e he]

/-- The next node may be inserted into layered links at any level there is. -/
theorem Layered.insert (h : g.Layered degree node) (hlevel : level ≤ levelLimit)
    (between : Nat → Nat → Single) (width : Nat) :
    (g.insert between degree width level node).Layered degree (node + 1) := by
  obtain ⟨hheight, hentry⟩ := h.insert_height between width level
  have hlt : ∀ l i, ∀ n ∈ g.neighbours l i, n < node := h.consistent.within.neighbours_lt
  refine ⟨h.consistent.insert hlevel, insert_grounded h.consistent h.grounded between degree width
    level, hheight, hentry, fun l i => ?_, fun l i => ?_, fun l i => ?_, fun l i => ?_⟩
  all_goals
    obtain ⟨chosen, hchosen, hupTo, hall⟩ := h.insert_levels between width level l
    rw [hall]
  · exact length_levelAfter_le hchosen (h.limit l i) between
  · exact levelAfter_nodup hchosen.nodup (h.nodup l i)
      (fun hmem => Nat.lt_irrefl node (hlt l i node hmem)) between degree
  · intro hmem
    rcases mem_of_mem_levelAfter hmem with hold | ⟨rfl, hnew⟩ | ⟨rfl, hnew⟩
    · exact h.apart l i hold
    · exact Nat.lt_irrefl i (hchosen.offers i hnew).1
    · exact Nat.lt_irrefl i (hchosen.offers i hnew).1
  · intro n hn
    rw [length_levelsOf_insert h.consistent.size]
    rcases mem_of_mem_levelAfter hn with hn | ⟨-, hn⟩ | ⟨rfl, hi⟩
    · rw [if_neg (Nat.ne_of_lt (hlt l i n hn))]
      exact h.closed l i n hn
    · obtain ⟨hold, hhas⟩ := hchosen.offers n hn
      rwa [if_neg (Nat.ne_of_lt hold)]
    · rw [if_pos rfl]
      exact Nat.lt_succ_of_le (hupTo (List.ne_nil_of_mem hi))

end Links

/-! ## Graphs -/

variable {S E : Type} [Space S E]

namespace Graph

variable {g : Graph S E}

/-- The graph is in order, and so are its levels. -/
structure Layered (g : Graph S E) : Prop where
  consistent : g.Consistent
  links : g.links.Layered g.degree g.storage.total

/-- Linking the next nodes one by one keeps the levels in order and makes no list shorter. -/
theorem foldl_insertNode_layered (g : Graph S E) {first : Nat} (count : Nat)
    (h : g.links.Layered g.degree first) :
    ((List.range' first count).foldl insertNode g).links.Layered g.degree (first + count) ∧
      ∀ l i, (g.links.neighbours l i).length ≤
        (((List.range' first count).foldl insertNode g).links.neighbours l i).length := by
  refine g.foldl_insertNode_induction (P := fun node links => links.Layered g.degree node ∧
    ∀ l i, (g.links.neighbours l i).length ≤ (links.neighbours l i).length) ?_
    ⟨h, fun _ _ => Nat.le_refl _⟩
  rintro node links level - hlevel ⟨hlayered, hlonger⟩
  refine ⟨hlayered.insert hlevel _ _, fun l i => ?_⟩
  exact Nat.le_trans (hlonger l i) (hlayered.le_insert _ _ level l i)

/-- An append keeps the levels in order and makes no list shorter. -/
theorem Layered.append (h : g.Layered) {elements : Array E}
    (hwhole : elements.size % g.storage.unitLength = 0) :
    (g.append elements).1.Layered ∧ ∀ l i, (g.links.neighbours l i).length ≤
      ((g.append elements).1.links.neighbours l i).length := by
  obtain ⟨hconsistent, htotal⟩ := h.consistent.append hwhole
  obtain ⟨hlayered, hlonger⟩ := foldl_insertNode_layered
    { g with storage := { g.storage with data := g.storage.data ++ elements } }
    (elements.size / g.storage.unitLength) h.links
  rw [append_eq_of_consistent h.consistent.storage hwhole] at hconsistent htotal ⊢
  refine ⟨⟨hconsistent, ?_⟩, hlonger⟩
  rw [htotal]
  rw [foldl_insertNode_eq] at hlayered ⊢
  exact hlayered

end Graph

/-- Every history leaves the levels of a graph in order. -/
theorem Index.Grown.layered {g : Graph S E} {vs : List (Array E)} (h : (Index.graph g).Grown vs) :
    g.Layered := by
  refine h.graph_induction (P := Graph.Layered) ?_
    (fun g elements hwhole hg => (hg.append hwhole).1) fun g g' ps htune hg => ?_
  · intro g hconstructed hlinks htotal
    refine ⟨hconstructed.kept.1, ?_⟩
    rw [hlinks, htotal]
    exact Links.empty_layered g.degree
  · have htuned := consistent_of_tuneGraph hg.consistent htune
    obtain ⟨_, _, rfl⟩ := eq_of_tuneGraph htune
    exact ⟨htuned, hg.links⟩

namespace Graph

/-- **The levels of a graph.**  Whatever was appended to a graph and however it was tuned, it
has a node for every vector, and an entry if it has vectors.  Every node has a level, and none
more levels than there may be, or than the top level says; the entry has them all.  A
neighbour list is within the limit of its level, names different nodes, not the node itself,
and only nodes that have its level.  No append makes any of the lists shorter. -/
theorem levels_layered {g : Graph S E} {vs : List (Array E)} (hgrown : (Index.graph g).Grown vs) :
    g.links.nodes.size = vs.length ∧
    (g.links.entry ≠ none ↔ vs ≠ []) ∧
    (∀ i < vs.length, 1 ≤ (g.links.levelsOf i).length ∧
      (g.links.levelsOf i).length ≤ Links.levelLimit + 1 ∧
      (g.links.levelsOf i).length ≤ g.links.topLevel + 1) ∧
    (∀ e, g.links.entry = some e →
      e < vs.length ∧ (g.links.levelsOf e).length = g.links.topLevel + 1) ∧
    (∀ l i, (g.links.neighbours l i).length ≤ Links.degreeAt g.degree l ∧
      (g.links.neighbours l i).Nodup ∧ i ∉ g.links.neighbours l i ∧
      ∀ n ∈ g.links.neighbours l i, n < vs.length ∧ l < (g.links.levelsOf n).length) ∧
    ∀ elements l i, (g.links.neighbours l i).length ≤
      ((g.append elements).1.links.neighbours l i).length := by
  have hlayered := hgrown.layered
  have htotal : g.storage.total = vs.length := hgrown.holds.total
  have hlinks := hlayered.links
  rw [htotal] at hlinks
  refine ⟨hlinks.consistent.size, ⟨fun hentry hnone => ?_, fun hsome => ?_⟩, fun i hi => ?_,
    fun e he => ⟨hlinks.consistent.entry e he, hlinks.entry e he⟩, fun l i => ?_,
    fun elements l i => ?_⟩
  · obtain ⟨e, he⟩ := Option.ne_none_iff_exists'.1 hentry
    have hlt := hlinks.consistent.entry e he
    rw [hnone] at hlt
    exact Nat.not_lt_zero e hlt
  · exact hlinks.consistent.nonempty (mt List.length_eq_zero_iff.1 hsome)
  · have hnode : i < g.links.nodes.size := hlinks.consistent.size.symm ▸ hi
    refine ⟨hlinks.grounded i hi, ?_, hlinks.height i⟩
    rw [Links.levelsOf, Array.getElem?_eq_getElem hnode]
    exact hlinks.consistent.within.levels _ (Array.getElem_mem hnode)
  · exact ⟨hlinks.limit l i, hlinks.nodup l i, hlinks.apart l i,
      fun n hn => ⟨hlinks.consistent.within.neighbours_lt l i n hn, hlinks.closed l i n hn⟩⟩
  · by_cases hwhole : elements.size % g.storage.unitLength = 0
    · exact (hlayered.append hwhole).2 l i
    · obtain ⟨e, he⟩ := g.append_eq_of_not_whole hwhole
      rw [he]

/-- Seven vectors in a graph of degree two: each node links to four others at most on the
lowest level and to two at most above it, and an append makes no list shorter. -/
theorem levels_layered_seven :
    (Index.graph (ofBytes #[0, 1, 2, 4, 8, 16, 32])).Grown
        [#[0], #[1], #[2], #[4], #[8], #[16], #[32]] ∧
      (ofBytes #[0, 1, 2, 4, 8, 16, 32]).links.nodes.size = 7 ∧
      (∀ i, ((ofBytes #[0, 1, 2, 4, 8, 16, 32]).links.neighbours 0 i).length ≤ 4) ∧
      (∀ i, ((ofBytes #[0, 1, 2, 4, 8, 16, 32]).links.neighbours 1 i).length ≤ 2) ∧
      ∀ elements l i, ((ofBytes #[0, 1, 2, 4, 8, 16, 32]).links.neighbours l i).length ≤
        (((ofBytes #[0, 1, 2, 4, 8, 16, 32]).append elements).1.links.neighbours l i).length := by
  have hgrown : (Index.graph (ofBytes #[0, 1, 2, 4, 8, 16, 32])).Grown
      [#[0], #[1], #[2], #[4], #[8], #[16], #[32]] := ofBytes_grown _
  obtain ⟨hsize, -, -, -, hlists, hlonger⟩ := levels_layered hgrown
  exact ⟨hgrown, hsize, fun i => (hlists 0 i).1, fun i => (hlists 1 i).1, hlonger⟩

end Graph

end Proximity

import Proximity.Index.Links
import Proximity.Proofs.Beam

/-!
# Links stay inside their graph

Links are consistent with a number of nodes if there is one entry for each
node, no node has too many levels, all neighbours exist and searches start at a
node that exists.  Searches end in nodes that exist whatever the links say,
and selection only picks from what it is given, so the insertion of a node keeps
links consistent with one node more.

The cost between nodes plays no part in any of this.

## Main results

* `Links.layer_finds`, `Links.nearest_finds` — what searches return.
* `Links.mem_of_mem_select` — selection invents no neighbours.
* `Links.Within` — neighbours below a bound, on few levels.
* `Links.Consistent.insert` — the insertion of a node.
-/

namespace Proximity

/-- A member of an array in which one place was changed is an old member or
the changed one. -/
theorem mem_modify {A : Type} {as : Array A} {f : A → A} {i : Nat} {a : A}
    (h : a ∈ as.modify i f) : a ∈ as ∨ ∃ b, as[i]? = some b ∧ a = f b := by
  obtain ⟨j, hj⟩ := Array.mem_iff_getElem?.1 h
  rw [Array.getElem?_modify] at hj
  split at hj
  · rename_i hij
    obtain ⟨b, hb, rfl⟩ := Option.map_eq_some_iff.1 hj
    exact .inr ⟨b, by rw [hij]; exact hb, rfl⟩
  · exact .inl (Array.mem_iff_getElem?.2 ⟨j, hj⟩)

namespace Links

variable {g : Links} {distance : Nat → Single} {accept : Nat → Bool}
  {between : Nat → Nat → Single}

/-! ## Searches -/

/-- A search in one level returns nodes of the graph. -/
theorem layer_finds (g : Links) (distance : Nat → Single) (level width : Nat)
    (accept : Nat → Bool) (starts : List Nat) :
    Candidate.Finds g.nodes.size distance accept
      (g.layer distance level width accept starts) :=
  Beam.search_finds ⟨g.nodes.size, g.neighbours level, distance, accept, width⟩ starts

/-- A search from the top returns at most as many nodes as were asked for. -/
theorem nearest_finds (g : Links) (distance : Nat → Single) (width k : Nat)
    (accept : Nat → Bool) :
    Candidate.Finds g.nodes.size distance accept (g.nearest distance width k accept) ∧
      (g.nearest distance width k accept).length ≤ k := by
  rw [nearest]
  split
  · exact ⟨Candidate.finds_nil, Nat.zero_le k⟩
  · rename_i entry hentry
    have hfinds := layer_finds g distance 0 (max width k) accept
      [g.descend distance 0 g.topLevel entry]
    exact ⟨hfinds.sublist (List.take_sublist _ _), List.length_take_le _ _⟩

/-! ## Selection -/

private theorem mem_of_mem_diverse {limit : Nat} {selected passed cs : List Candidate}
    {c : Candidate}
    (h : c ∈ (diverse between limit selected passed cs).1 ∨
      c ∈ (diverse between limit selected passed cs).2) :
    c ∈ selected ∨ c ∈ passed ∨ c ∈ cs := by
  induction cs generalizing selected passed with
  | nil =>
      rw [diverse] at h
      rcases h with h | h
      · exact .inl h
      · exact .inr (.inl h)
  | cons d cs ih =>
      rw [diverse] at h
      split at h
      · rcases h with h | h
        · exact .inl h
        · exact .inr (.inl h)
      · split at h
        · rcases ih h with h | h | h
          · rcases List.mem_append.1 h with h | h
            · exact .inl h
            · exact .inr (.inr (List.mem_cons.2 (.inl (List.mem_singleton.1 h))))
          · exact .inr (.inl h)
          · exact .inr (.inr (List.mem_cons_of_mem d h))
        · rcases ih h with h | h | h
          · exact .inl h
          · rcases List.mem_append.1 h with h | h
            · exact .inr (.inl h)
            · exact .inr (.inr (List.mem_cons.2 (.inl (List.mem_singleton.1 h))))
          · exact .inr (.inr (List.mem_cons_of_mem d h))

/-- Every selected neighbour is the label of a candidate. -/
theorem mem_of_mem_select {limit : Nat} {cs : List Candidate} {n : Nat}
    (h : n ∈ select between limit cs) : ∃ c ∈ cs, c.label = n := by
  simp only [select] at h
  obtain ⟨c, hc, rfl⟩ := List.mem_map.1 h
  have hmem : c ∈ (diverse between limit [] [] (Candidate.ranked cs)).1 ∨
      c ∈ (diverse between limit [] [] (Candidate.ranked cs)).2 := by
    rcases List.mem_append.1 hc with hc | hc
    · exact .inl hc
    · exact .inr (List.mem_of_mem_take hc)
  rcases mem_of_mem_diverse hmem with h | h | h
  · exact absurd h List.not_mem_nil
  · exact absurd h List.not_mem_nil
  · exact ⟨c, (Candidate.ranked_perm cs).mem_iff.1 h, rfl⟩

/-! ## Links with bounded neighbours -/

/-- No node has too many levels, and all neighbours are below a bound. -/
structure Within (bound : Nat) (g : Links) : Prop where
  levels : ∀ levels ∈ g.nodes, levels.length ≤ levelLimit + 1
  neighbours : ∀ levels ∈ g.nodes, ∀ list ∈ levels, ∀ n ∈ list, n < bound

/-- Two graphs agree on everything but neighbours. -/
structure SameFrame (g h : Links) : Prop where
  size : h.nodes.size = g.nodes.size
  entry : h.entry = g.entry
  topLevel : h.topLevel = g.topLevel

theorem SameFrame.refl (g : Links) : SameFrame g g := ⟨rfl, rfl, rfl⟩

theorem SameFrame.trans {g h i : Links} (hgh : SameFrame g h) (hhi : SameFrame h i) :
    SameFrame g i :=
  ⟨hhi.size.trans hgh.size, hhi.entry.trans hgh.entry, hhi.topLevel.trans hgh.topLevel⟩

variable {bound : Nat}

theorem Within.mono {bound' : Nat} (h : g.Within bound) (hle : bound ≤ bound') :
    g.Within bound' :=
  ⟨h.levels, fun levels hl list hi n hn =>
    Nat.lt_of_lt_of_le (h.neighbours levels hl list hi n hn) hle⟩

theorem setNeighbours_frame (g : Links) (level node : Nat) (list : List Nat) :
    SameFrame g (g.setNeighbours level node list) :=
  ⟨Array.size_modify, rfl, rfl⟩

theorem Within.setNeighbours {level node : Nat} {list : List Nat} (h : g.Within bound)
    (hlist : ∀ n ∈ list, n < bound) : (g.setNeighbours level node list).Within bound where
  levels levels hl := by
    have hmodify : levels ∈ g.nodes.modify node fun levels => levels.set level list := hl
    rcases mem_modify hmodify with hl | ⟨old, hold, rfl⟩
    · exact h.levels levels hl
    · rw [List.length_set]
      exact h.levels old (Array.mem_of_getElem? hold)
  neighbours levels hl other hother := by
    have hmodify : levels ∈ g.nodes.modify node fun levels => levels.set level list := hl
    rcases mem_modify hmodify with hl | ⟨old, hold, rfl⟩
    · exact h.neighbours levels hl other hother
    · rcases List.mem_or_eq_of_mem_set hother with hother | rfl
      · exact h.neighbours old (Array.mem_of_getElem? hold) other hother
      · exact hlist

/-- The neighbours of a node at one of its levels are below the bound. -/
theorem Within.lt_of_mem_level {node level : Nat} {list : List Nat} (h : g.Within bound)
    (hlevel : (g.levelsOf node)[level]? = some list) : ∀ n ∈ list, n < bound := by
  rw [levelsOf] at hlevel
  cases hnode : g.nodes[node]? with
  | none => simp [hnode] at hlevel
  | some levels =>
      rw [hnode, Option.getD_some] at hlevel
      exact h.neighbours levels (Array.mem_of_getElem? hnode) list (List.mem_of_getElem? hlevel)

/-- The neighbours of any node at any level are below the bound. -/
theorem Within.neighbours_lt (h : g.Within bound) (level node : Nat) :
    ∀ n ∈ g.neighbours level node, n < bound := by
  rw [Links.neighbours]
  cases hlevel : (g.levelsOf node)[level]? with
  | none => exact fun n hn => absurd hn List.not_mem_nil
  | some list => exact h.lt_of_mem_level hlevel

theorem connect_frame (between : Nat → Nat → Single) (level limit target : Nat) (g : Links)
    (source : Nat) : SameFrame g (connect between level limit target g source) := by
  rw [connect]
  split
  · exact .refl g
  · dsimp only
    split <;> exact setNeighbours_frame _ _ _ _

/-- A link back keeps the neighbours below the bound. -/
theorem Within.connect {level limit target source : Nat} (h : g.Within bound)
    (htarget : target < bound) : (connect between level limit target g source).Within bound := by
  rw [Links.connect]
  split
  · exact h
  · rename_i list hlevel
    have hlist : ∀ n ∈ list ++ [target], n < bound := by
      intro n hn
      rcases List.mem_append.1 hn with hn | hn
      · exact h.lt_of_mem_level hlevel n hn
      · rw [List.mem_singleton.1 hn]
        exact htarget
    dsimp only
    split
    · refine h.setNeighbours fun n hn => ?_
      obtain ⟨c, hc, rfl⟩ := mem_of_mem_select hn
      obtain ⟨m, hm, rfl⟩ := List.mem_map.1 hc
      exact hlist m hm
    · exact h.setNeighbours hlist

theorem foldl_connect_frame (between : Nat → Nat → Single) (level limit target : Nat)
    (g : Links) (sources : List Nat) :
    SameFrame g (sources.foldl (connect between level limit target) g) := by
  induction sources generalizing g with
  | nil => exact .refl g
  | cons source sources ih => exact (connect_frame between level limit target g source).trans (ih _)

theorem Within.foldl_connect {level limit target : Nat} {sources : List Nat}
    (h : g.Within bound) (htarget : target < bound) :
    (sources.foldl (Links.connect between level limit target) g).Within bound := by
  induction sources generalizing g with
  | nil => exact h
  | cons source sources ih => exact ih (h.connect htarget)

theorem linkBelow_frame (between : Nat → Nat → Single) (degree width node level : Nat)
    (starts : List Nat) (g : Links) :
    SameFrame g (linkBelow between degree width node level starts g) := by
  induction level generalizing starts g with
  | zero => exact .refl g
  | succ level ih =>
      rw [linkBelow]
      exact ((foldl_connect_frame _ _ _ _ _ _).trans (setNeighbours_frame _ _ _ _)).trans (ih _ _)

/-- Linking a node of the graph keeps the neighbours below the bound. -/
theorem Within.linkBelow {degree width node level : Nat} {starts : List Nat}
    (h : g.Within bound) (hsize : g.nodes.size ≤ bound) (hnode : node < bound) :
    (linkBelow between degree width node level starts g).Within bound := by
  induction level generalizing starts g with
  | zero => exact h
  | succ level ih =>
      rw [Links.linkBelow]
      have hfinds := layer_finds g (between · node) level width (fun _ => true) starts
      have hchosen : ∀ n ∈ select between degree
          (g.layer (between · node) level width (fun _ => true) starts), n < bound := by
        intro n hn
        obtain ⟨c, hc, rfl⟩ := mem_of_mem_select hn
        exact Nat.lt_of_lt_of_le (hfinds.size c hc) hsize
      apply ih ((h.foldl_connect hnode).setNeighbours hchosen)
      rw [(setNeighbours_frame _ _ _ _).size, (foldl_connect_frame _ _ _ _ _ _).size]
      exact hsize

/-- An insertion adds one node. -/
theorem size_insert (between : Nat → Nat → Single) (degree width level node : Nat) (g : Links) :
    (g.insert between degree width level node).nodes.size = g.nodes.size + 1 := by
  have hpush : (g.nodes.push (List.replicate (level + 1) [])).size = g.nodes.size + 1 :=
    Array.size_push _
  rw [Links.insert]
  split
  · exact hpush
  · dsimp only
    split
    · exact (linkBelow_frame _ _ _ _ _ _ _).size.trans hpush
    · exact (linkBelow_frame _ _ _ _ _ _ _).size.trans hpush

/-! ## Consistent links -/

/-- Links are in order for a number of nodes. -/
structure Consistent (g : Links) (total : Nat) : Prop where
  size : g.nodes.size = total
  topLevel : g.topLevel ≤ levelLimit
  entry : ∀ e, g.entry = some e → e < total
  nonempty : total ≠ 0 → g.entry ≠ none
  within : g.Within total

/-- Consistent links have no entry node exactly if there are no nodes. -/
theorem Consistent.entry_eq_none_iff {total : Nat} (h : g.Consistent total) :
    g.entry = none ↔ total = 0 := by
  constructor
  · intro hnone
    exact Decidable.not_not.1 fun htotal => h.nonempty htotal hnone
  · rintro rfl
    cases hentry : g.entry with
    | none => rfl
    | some e => exact absurd (h.entry e hentry) (Nat.not_lt_zero e)

theorem empty_consistent : Links.empty.Consistent 0 where
  size := rfl
  topLevel := Nat.zero_le _
  entry e he := absurd he (by simp [empty])
  nonempty h := absurd rfl h
  within := ⟨fun _ h => absurd h (Array.not_mem_empty _),
    fun _ h => absurd h (Array.not_mem_empty _)⟩

/-- The links with room for one more node. -/
theorem Within.push {level : Nat} (h : g.Within bound) (hlevel : level ≤ levelLimit) :
    Within bound { g with nodes := g.nodes.push (List.replicate (level + 1) []) } where
  levels levels hl := by
    rcases Array.mem_push.1 hl with hl | rfl
    · exact h.levels levels hl
    · rw [List.length_replicate]
      omega
  neighbours levels hl list hi := by
    rcases Array.mem_push.1 hl with hl | rfl
    · exact h.neighbours levels hl list hi
    · rw [List.eq_of_mem_replicate hi]
      exact fun n hn => absurd hn List.not_mem_nil

/-- The next node may be inserted at any level there is. -/
theorem Consistent.insert {degree width level total : Nat} (h : g.Consistent total)
    (hlevel : level ≤ levelLimit) :
    (g.insert between degree width level total).Consistent (total + 1) := by
  have hgrown := (h.within.mono (Nat.le_succ total)).push hlevel
  have hsize : (g.nodes.push (List.replicate (level + 1) [])).size = total + 1 := by
    rw [Array.size_push, h.size]
  rw [Links.insert]
  split
  · exact
      { size := hsize
        topLevel := hlevel
        entry := fun e he => by
          obtain rfl : total = e := by simpa using he
          exact Nat.lt_succ_self total
        nonempty := fun _ => by simp
        within := ⟨hgrown.levels, hgrown.neighbours⟩ }
  · rename_i entry hentry
    dsimp only
    have hold : entry < total := h.entry entry hentry
    generalize descend _ _ level g.topLevel entry = start
    have hframe := linkBelow_frame between degree (max width degree) total
      (min level g.topLevel + 1) [start]
      { g with nodes := g.nodes.push (List.replicate (level + 1) []) }
    have hwithin : Within (total + 1) (linkBelow between degree (max width degree) total
        (min level g.topLevel + 1) [start]
        { g with nodes := g.nodes.push (List.replicate (level + 1) []) }) :=
      hgrown.linkBelow (Nat.le_of_eq hsize) (Nat.lt_succ_self total)
    split
    · exact
        { size := hframe.size.trans hsize
          topLevel := hlevel
          entry := fun e he => by
            obtain rfl : total = e := by simpa using he
            exact Nat.lt_succ_self total
          nonempty := fun _ => by simp
          within := ⟨hwithin.levels, hwithin.neighbours⟩ }
    · exact
        { size := hframe.size.trans hsize
          topLevel := by rw [hframe.topLevel]; exact h.topLevel
          entry := fun e he => by
            rw [hframe.entry, hentry] at he
            obtain rfl : entry = e := by simpa using he
            omega
          nonempty := fun _ => by rw [hframe.entry, hentry]; simp
          within := hwithin }

end Links

end Proximity

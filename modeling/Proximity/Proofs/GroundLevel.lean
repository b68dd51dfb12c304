import Proximity.Proofs.Guarded.Linking
import Proximity.Proofs.Reachability

/-!
# What an insertion does to the lowest level

An insertion links its node on several levels, but the lists of different levels do not
meet: what is written on one level is never read on a lower one.  On the lowest level,
where every search ends, an insertion therefore comes down to one choice.  The new node
gets the neighbours that are selected from a search which starts at some old nodes,
these get the new node behind their other neighbours, or a new selection if that is one
too many, and all other lists stay as they are.

## Main definitions

* `Links.relink` — a neighbour list that is cut to its limit.
* `Links.linkLevel`, `Links.levelAfter` — mutual links of one level, and the lists after them.
* `Links.groundChoice` — the choice of an insertion on the lowest level.

## Main results

* `Links.neighbours_connect`, `Links.neighbours_foldl_connect` — the effect of links back.
* `Links.neighbours_linkLevel` — the effect of mutual links.
* `Links.linkBelow_ground`, `Links.insert_ground` — the effect of an insertion.
-/

namespace Proximity

namespace Links

variable {g : Links} {between : Nat → Nat → Single} {level node other l : Nat}

/-! ## Single lists -/

theorem levelsOf_setNeighbours (g : Links) (level node other : Nat) (list : List Nat) :
    (g.setNeighbours level node list).levelsOf other =
      if node = other then (g.levelsOf other).set level list else g.levelsOf other := by
  rw [levelsOf, levelsOf, setNeighbours, Array.getElem?_modify]
  split
  · cases g.nodes[other]? <;> rfl
  · rfl

theorem neighbours_setNeighbours_self (h : level < (g.levelsOf node).length) (list : List Nat) :
    (g.setNeighbours level node list).neighbours level node = list := by
  rw [neighbours, levelsOf_setNeighbours, if_pos rfl, List.getElem?_set_self h]
  rfl

theorem neighbours_setNeighbours_of_ne (h : l ≠ level ∨ other ≠ node) (list : List Nat) :
    (g.setNeighbours level node list).neighbours l other = g.neighbours l other := by
  rw [neighbours, neighbours, levelsOf_setNeighbours]
  split
  · rename_i heq
    have hlevel : level ≠ l := fun hl => h.elim (fun hne => hne hl.symm) fun hne => hne heq.symm
    rw [List.getElem?_set_ne hlevel]
  · rfl

/-- A neighbour list, or a selection from it if it is longer than `limit`. -/
def relink (between : Nat → Nat → Single) (limit source : Nat) (list : List Nat) : List Nat :=
  if limit < list.length then select between limit (list.map fun n => ⟨between n source, n⟩)
  else list

variable {limit target source : Nat} {sources : List Nat}

/-- A link back at a level that the node has. -/
theorem connect_eq_setNeighbours (h : level < (g.levelsOf source).length) :
    connect between level limit target g source = g.setNeighbours level source
      (relink between limit source (g.neighbours level source ++ [target])) := by
  rw [connect, neighbours, relink, List.getElem?_eq_getElem h]
  dsimp only [Option.getD_some]
  split <;> rfl

theorem neighbours_connect (h : level < (g.levelsOf source).length) :
    (connect between level limit target g source).neighbours level source =
      relink between limit source (g.neighbours level source ++ [target]) := by
  rw [connect_eq_setNeighbours h, neighbours_setNeighbours_self h]

theorem neighbours_connect_of_ne (h : l ≠ level ∨ other ≠ source) :
    (connect between level limit target g source).neighbours l other = g.neighbours l other := by
  by_cases hlevel : level < (g.levelsOf source).length
  · rw [connect_eq_setNeighbours hlevel, neighbours_setNeighbours_of_ne h]
  · rw [connect, List.getElem?_eq_none (Nat.le_of_not_lt hlevel)]

/-- A link back leaves every node its levels. -/
theorem length_levelsOf_connect (between : Nat → Nat → Single) (level limit target : Nat)
    (g : Links) (source other : Nat) :
    ((connect between level limit target g source).levelsOf other).length =
      (g.levelsOf other).length := by
  by_cases hlevel : level < (g.levelsOf source).length
  · rw [connect_eq_setNeighbours hlevel, length_levelsOf_setNeighbours]
  · rw [connect, List.getElem?_eq_none (Nat.le_of_not_lt hlevel)]

/-! ## Links back -/

theorem length_levelsOf_foldl_connect (between : Nat → Nat → Single) (level limit target : Nat)
    (g : Links) (sources : List Nat) (other : Nat) :
    ((sources.foldl (connect between level limit target) g).levelsOf other).length =
      (g.levelsOf other).length := by
  induction sources generalizing g with
  | nil => rfl
  | cons source sources ih => rw [List.foldl_cons, ih, length_levelsOf_connect]

theorem neighbours_foldl_connect_of_ne (h : l ≠ level ∨ other ∉ sources) :
    (sources.foldl (connect between level limit target) g).neighbours l other =
      g.neighbours l other := by
  induction sources generalizing g with
  | nil => rfl
  | cons source sources ih =>
      rw [List.foldl_cons, ih (h.imp_right fun hmem hin => hmem (List.mem_cons_of_mem source hin)),
        neighbours_connect_of_ne (h.imp_right fun hmem heq => hmem (List.mem_cons.2 (.inl heq)))]

/-- Every source is linked back once. -/
theorem neighbours_foldl_connect (hnodup : sources.Nodup) (hmem : other ∈ sources)
    (hlevel : level < (g.levelsOf other).length) :
    (sources.foldl (connect between level limit target) g).neighbours level other =
      relink between limit other (g.neighbours level other ++ [target]) := by
  induction sources generalizing g with
  | nil => exact absurd hmem List.not_mem_nil
  | cons source sources ih =>
      obtain ⟨hnew, hrest⟩ := List.nodup_cons.1 hnodup
      rw [List.foldl_cons]
      rcases List.mem_cons.1 hmem with rfl | hmem
      · rw [neighbours_foldl_connect_of_ne (.inr hnew), neighbours_connect hlevel]
      · have hne : other ≠ source := fun heq => hnew (heq ▸ hmem)
        rw [ih hrest hmem (by rwa [length_levelsOf_connect]), neighbours_connect_of_ne (.inr hne)]

/-! ## Levels -/

/-- Mutual links of one level between a node and those chosen for it. -/
def linkLevel (between : Nat → Nat → Single) (degree level node : Nat) (chosen : List Nat)
    (g : Links) : Links :=
  (chosen.foldl (connect between level (degreeAt degree level) node) g).setNeighbours level node
    chosen

/-- The neighbours of a node at a level after a new node got some of its own there. -/
def levelAfter (between : Nat → Nat → Single) (degree level node : Nat) (chosen : List Nat)
    (g : Links) (i : Nat) : List Nat :=
  if i = node then chosen
  else if i ∈ chosen then relink between (degreeAt degree level) i (g.neighbours level i ++ [node])
  else g.neighbours level i

variable {chosen : List Nat}

theorem linkLevel_frame (between : Nat → Nat → Single) (degree level node : Nat)
    (chosen : List Nat) (g : Links) : SameFrame g (linkLevel between degree level node chosen g) :=
  (foldl_connect_frame _ _ _ _ _ _).trans (setNeighbours_frame _ _ _ _)

theorem length_levelsOf_linkLevel (between : Nat → Nat → Single) (degree level node : Nat)
    (chosen : List Nat) (g : Links) (i : Nat) :
    ((linkLevel between degree level node chosen g).levelsOf i).length = (g.levelsOf i).length := by
  rw [linkLevel, length_levelsOf_setNeighbours, length_levelsOf_foldl_connect]

/-- What is linked at one level is not seen at another one. -/
theorem neighbours_linkLevel_of_ne (h : l ≠ level) (between : Nat → Nat → Single)
    (degree node : Nat) (chosen : List Nat) (g : Links) (i : Nat) :
    (linkLevel between degree level node chosen g).neighbours l i = g.neighbours l i := by
  rw [linkLevel, neighbours_setNeighbours_of_ne (.inl h), neighbours_foldl_connect_of_ne (.inl h)]

theorem neighbours_linkLevel (hnodup : chosen.Nodup)
    (hchosen : ∀ n ∈ chosen, level < (g.levelsOf n).length)
    (hnode : level < (g.levelsOf node).length) (between : Nat → Nat → Single) (degree i : Nat) :
    (linkLevel between degree level node chosen g).neighbours level i =
      levelAfter between degree level node chosen g i := by
  rw [linkLevel, levelAfter]
  split
  · rename_i hi
    rw [hi, neighbours_setNeighbours_self]
    rwa [length_levelsOf_foldl_connect]
  · rename_i hi
    rw [neighbours_setNeighbours_of_ne (.inr hi)]
    split
    · rename_i hmem
      exact neighbours_foldl_connect hnodup hmem (hchosen i hmem)
    · rename_i hmem
      exact neighbours_foldl_connect_of_ne (.inr hmem)

/-! ## Selection -/

/-- What is selected and passed over are candidates, each once. -/
private theorem diverse_perm (between : Nat → Nat → Single) (limit : Nat)
    (selected passed cs : List Candidate) :
    ∃ rest, ((diverse between limit selected passed cs).1 ++
      (diverse between limit selected passed cs).2 ++ rest).Perm (selected ++ passed ++ cs) := by
  induction cs generalizing selected passed with
  | nil => exact ⟨[], .refl _⟩
  | cons c cs ih =>
      rw [diverse]
      split
      · exact ⟨c :: cs, .refl _⟩
      · split
        · obtain ⟨rest, hrest⟩ := ih (selected ++ [c]) passed
          refine ⟨rest, hrest.trans ?_⟩
          rw [List.append_assoc, List.append_assoc, List.append_assoc]
          exact (@List.perm_middle _ c passed cs).symm.append_left selected
        · obtain ⟨rest, hrest⟩ := ih selected (passed ++ [c])
          refine ⟨rest, hrest.trans (.of_eq ?_)⟩
          simp only [List.append_assoc, List.singleton_append]

/-- Different candidates give different neighbours. -/
theorem select_nodup (between : Nat → Nat → Single) (limit : Nat) {cs : List Candidate}
    (h : (cs.map (·.label)).Nodup) : (select between limit cs).Nodup := by
  obtain ⟨rest, hrest⟩ := diverse_perm between limit [] [] (Candidate.ranked cs)
  have hperm := ((hrest.trans (Candidate.ranked_perm cs)).map (·.label)).nodup_iff.2 h
  rw [select]
  refine hperm.sublist (List.Sublist.map _ ?_)
  exact ((List.take_sublist _ _).append_left _).trans (List.sublist_append_left _ rest)

/-- A selection that ends early is full, and otherwise nothing was left out. -/
private theorem length_diverse (between : Nat → Nat → Single) {limit : Nat}
    {selected : List Candidate} (passed cs : List Candidate) (h : selected.length ≤ limit) :
    (diverse between limit selected passed cs).1.length ≤ limit ∧
      ((diverse between limit selected passed cs).1.length = limit ∨
        (diverse between limit selected passed cs).1.length +
            (diverse between limit selected passed cs).2.length =
          selected.length + passed.length + cs.length) := by
  induction cs generalizing selected passed with
  | nil => exact ⟨h, .inr rfl⟩
  | cons c cs ih =>
      rw [diverse]
      split
      · rename_i hfull
        exact ⟨h, .inl (Nat.le_antisymm h hfull)⟩
      · rename_i hroom
        split
        · have hadded : (selected ++ [c]).length ≤ limit := by
            rw [List.length_append, List.length_singleton]
            omega
          obtain ⟨hle, hall⟩ := ih passed hadded
          refine ⟨hle, hall.imp id fun hsum => hsum.trans ?_⟩
          simp only [List.length_append, List.length_cons, List.length_nil]
          omega
        · obtain ⟨hle, hall⟩ := ih (passed ++ [c]) h
          refine ⟨hle, hall.imp id fun hsum => hsum.trans ?_⟩
          simp only [List.length_append, List.length_cons, List.length_nil]
          omega

/-- As many neighbours are selected as there is room for, or as there are candidates. -/
theorem length_select (between : Nat → Nat → Single) (limit : Nat) (cs : List Candidate) :
    (select between limit cs).length = min limit cs.length := by
  obtain ⟨rest, hrest⟩ := diverse_perm between limit [] [] (Candidate.ranked cs)
  have hnone : ([] : List Candidate).length ≤ limit := Nat.zero_le limit
  obtain ⟨hle, hall⟩ := length_diverse between [] (Candidate.ranked cs) hnone
  have htotal := hrest.length_eq
  have hranked := (Candidate.ranked_perm cs).length_eq
  simp only [List.length_append, List.length_nil, Nat.zero_add, hranked] at htotal hall
  rw [select, List.length_map, List.length_append, List.length_take]
  omega

/-- Something is selected if there is anything to select from. -/
theorem select_ne_nil (between : Nat → Nat → Single) {limit : Nat} (hlimit : limit ≠ 0)
    {cs : List Candidate} (hcs : cs ≠ []) : select between limit cs ≠ [] := by
  have hlength := length_select between limit cs
  have hcount : cs.length ≠ 0 := mt List.length_eq_zero_iff.1 hcs
  refine mt List.length_eq_zero_iff.2 ?_
  omega

/-! ## Cut lists -/

/-- A list that was cut is as long as it may be. -/
theorem length_relink (between : Nat → Nat → Single) (limit source : Nat) (list : List Nat) :
    (relink between limit source list).length = min limit list.length := by
  rw [relink]
  split
  · rw [length_select, List.length_map]
  · rename_i hlimit
    exact (Nat.min_eq_right (Nat.le_of_not_lt hlimit)).symm

theorem relink_nodup (between : Nat → Nat → Single) (limit source : Nat) {list : List Nat}
    (h : list.Nodup) : (relink between limit source list).Nodup := by
  rw [relink]
  split
  · have hlabels :
        (list.map fun n => (⟨between n source, n⟩ : Candidate)).map (·.label) = list := by
      rw [List.map_map]
      exact List.map_id list
    exact select_nodup between limit (hlabels.symm ▸ h)
  · exact h

theorem mem_of_mem_relink {n : Nat} {list : List Nat}
    (h : n ∈ relink between limit source list) : n ∈ list := by
  rw [relink] at h
  split at h
  · obtain ⟨c, hc, rfl⟩ := mem_of_mem_select h
    obtain ⟨m, hm, rfl⟩ := List.mem_map.1 hc
    exact hm
  · exact h

/-! ## The lowest level -/

/-- The neighbours that a new node gets on the lowest level if it is searched from some
starts. -/
def groundChoice (between : Nat → Nat → Single) (degree width node : Nat) (starts : List Nat)
    (g : Links) : List Nat :=
  select between degree
    (Beam.search ⟨node + 1, g.neighbours 0, (between · node), fun _ => true, width⟩ starts)

/-- The last node is still to be linked at the levels up to `level`. -/
structure Awaits (g : Links) (node level : Nat) : Prop where
  size : g.nodes.size = node + 1
  old : ∀ l ≤ level, ∀ i, ∀ n ∈ g.neighbours l i, n < node
  grounded : ∀ i ≤ node, 0 < (g.levelsOf i).length

variable {degree width : Nat} {starts : List Nat}

/-- What is chosen are old nodes, each once. -/
theorem groundChoice_spec (hold : ∀ i, ∀ n ∈ g.neighbours 0 i, n < node)
    (hstarts : ∀ s ∈ starts, s < node) (between : Nat → Nat → Single) (degree width : Nat) :
    (groundChoice between degree width node starts g).Nodup ∧
      ∀ n ∈ groundChoice between degree width node starts g, n < node := by
  refine ⟨select_nodup between degree (Beam.search_finds _ starts).nodup, fun n hn => ?_⟩
  obtain ⟨c, hc, rfl⟩ := mem_of_mem_select hn
  exact Beam.search_lt hold hstarts c hc

/-- Linking the last node changes the lowest level by one choice. -/
theorem linkBelow_ground (h : g.Awaits node level) (hstarts : ∀ s ∈ starts, s < node)
    (hsome : starts ≠ []) (between : Nat → Nat → Single) (degree width : Nat) :
    ∃ starts' : List Nat, starts' ≠ [] ∧ (∀ s ∈ starts', s < node) ∧ ∀ i,
      (linkBelow between degree width node (level + 1) starts g).neighbours 0 i =
        levelAfter between degree 0 node (groundChoice between degree width node starts' g) g
          i := by
  induction level generalizing starts g with
  | zero =>
      refine ⟨starts, hsome, hstarts, fun i => ?_⟩
      obtain ⟨hnodup, hlt⟩ :=
        groundChoice_spec (h.old 0 (Nat.le_refl 0)) hstarts between degree width
      have hchoice : select between degree
          (g.layer (between · node) 0 width (fun _ => true) starts) =
            groundChoice between degree width node starts g := by
        rw [layer, h.size]
        rfl
      rw [linkBelow, linkBelow, hchoice]
      exact neighbours_linkLevel hnodup (fun n hn => h.grounded n (Nat.le_of_lt (hlt n hn)))
        (h.grounded node (Nat.le_refl node)) between degree i
  | succ level ih =>
      rw [linkBelow]
      have hfound : ∀ c ∈ g.layer (between · node) (level + 1) width (fun _ => true) starts,
          c.label < node := layer_lt (h.old (level + 1) (Nat.le_refl _)) hstarts width _
      generalize g.layer (between · node) (level + 1) width (fun _ => true) starts = found
        at hfound ⊢
      have hchosen : ∀ n ∈ select between degree found, n < node := by
        intro n hn
        obtain ⟨c, hc, rfl⟩ := mem_of_mem_select hn
        exact hfound c hc
      generalize select between degree found = chosen at hchosen ⊢
      -- What is linked here is not read further down.
      have hbelow : ∀ l ≤ level, ∀ i,
          (linkLevel between degree (level + 1) node chosen g).neighbours l i = g.neighbours l i :=
        fun l hl => neighbours_linkLevel_of_ne (Nat.ne_of_lt (Nat.lt_succ_of_le hl)) _ _ _ _ _
      have hawaits : (linkLevel between degree (level + 1) node chosen g).Awaits node level := by
        refine ⟨(linkLevel_frame _ _ _ _ _ _).size.trans h.size, fun l hl i n hn => ?_,
          fun i hi => ?_⟩
        · rw [hbelow l hl i] at hn
          exact h.old l (Nat.le_succ_of_le hl) i n hn
        · rw [length_levelsOf_linkLevel]
          exact h.grounded i hi
      have hfrom : ∀ s ∈ if chosen.isEmpty then starts else chosen, s < node := by
        split <;> assumption
      have hsomewhere : (if chosen.isEmpty then starts else chosen) ≠ [] := by
        split
        · exact hsome
        · rename_i hempty
          exact fun hnil => hempty (List.isEmpty_iff.2 hnil)
      obtain ⟨starts', hsome', hlt', hall⟩ := ih hawaits hfrom hsomewhere
      refine ⟨starts', hsome', hlt', fun i => (hall i).trans ?_⟩
      have hground := funext (hbelow 0 (Nat.zero_le level))
      rw [levelAfter, levelAfter, groundChoice, groundChoice, hground]

/-! ## Insertions -/

/-- Room for one more node gives no node neighbours. -/
theorem neighbours_push (g : Links) (count l i : Nat) :
    neighbours { g with nodes := g.nodes.push (List.replicate count []) } l i =
      g.neighbours l i := by
  rw [neighbours, neighbours, levelsOf, levelsOf, Array.getElem?_push]
  split
  · rename_i hlast
    rw [Array.getElem?_eq_none (Nat.le_of_eq hlast.symm), Option.getD_some, Option.getD_none,
      List.getElem?_replicate]
    split <;> rfl
  · rfl

/-- Room for one more node gives that node its levels, and the others no more. -/
theorem length_levelsOf_push (hsize : g.nodes.size = node) (level i : Nat) :
    (levelsOf { g with nodes := g.nodes.push (List.replicate (level + 1) []) } i).length =
      if i = node then level + 1 else (g.levelsOf i).length := by
  rw [levelsOf, levelsOf, Array.getElem?_push, hsize]
  split
  · rw [Option.getD_some, List.length_replicate]
  · rfl

/-- Before it is linked, the new node has its levels, and nothing links to it. -/
theorem Consistent.push_awaits (h : g.Consistent node)
    (hgrounded : ∀ i < node, 0 < (g.levelsOf i).length) (level l : Nat) :
    Awaits { g with nodes := g.nodes.push (List.replicate (level + 1) []) } node l where
  size := by rw [Array.size_push, h.size]
  old k _ i n hn := by
    rw [neighbours_push] at hn
    exact h.within.neighbours_lt k i n hn
  grounded i hi := by
    rw [length_levelsOf_push h.size]
    split
    · exact Nat.succ_pos level
    · exact hgrounded i (by omega)

/-- The insertion of a node that is not the first one changes the lowest level by one
choice. -/
theorem insert_ground (h : g.Consistent node) (hgrounded : ∀ i < node, 0 < (g.levelsOf i).length)
    (hnode : node ≠ 0) (between : Nat → Nat → Single) (degree width level : Nat) :
    ∃ starts : List Nat, starts ≠ [] ∧ (∀ s ∈ starts, s < node) ∧ ∀ i,
      (g.insert between degree width level node).neighbours 0 i =
        levelAfter between degree 0 node
          (groundChoice between degree (max width degree) node starts g) g i := by
  obtain ⟨entry, hentry⟩ := Option.ne_none_iff_exists'.1 (h.nonempty hnode)
  have hawaits := h.push_awaits hgrounded level (min level g.topLevel)
  have hground : neighbours { g with nodes := g.nodes.push (List.replicate (level + 1) []) } 0 =
      g.neighbours 0 := funext (neighbours_push g (level + 1) 0)
  have hstart : descend { g with nodes := g.nodes.push (List.replicate (level + 1) []) }
      (between · node) level g.topLevel entry < node :=
    descend_lt
      (fun l i n hn => h.within.neighbours_lt l i n (neighbours_push g (level + 1) l i ▸ hn))
      (h.entry entry hentry) level g.topLevel
  generalize hgrown : ({ g with nodes := g.nodes.push (List.replicate (level + 1) []) } : Links) =
    grown at hawaits hground hstart
  have hfrom : ∀ s ∈ [grown.descend (between · node) level g.topLevel entry], s < node :=
    fun s hs => List.mem_singleton.1 hs ▸ hstart
  obtain ⟨starts, hsome, hstarts, hall⟩ :=
    linkBelow_ground hawaits hfrom (List.cons_ne_nil _ _) between degree (max width degree)
  refine ⟨starts, hsome, hstarts, fun i => ?_⟩
  have hlinked := hall i
  rw [levelAfter, groundChoice, hground] at hlinked
  rw [levelAfter, groundChoice, ← hlinked, insert]
  dsimp only
  rw [hgrown, hentry]
  dsimp only
  split <;> rfl

/-- Linking a node leaves every node its levels. -/
theorem length_levelsOf_linkBelow (between : Nat → Nat → Single) (degree width node level : Nat)
    (starts : List Nat) (g : Links) (i : Nat) :
    ((linkBelow between degree width node level starts g).levelsOf i).length =
      (g.levelsOf i).length := by
  induction level generalizing starts g with
  | zero => rfl
  | succ level ih =>
      exact (ih _ _).trans (length_levelsOf_linkLevel _ _ _ _ _ _ _)

/-- After an insertion every node still has the lowest level. -/
theorem insert_grounded (h : g.Consistent node) (hgrounded : ∀ i < node, 0 < (g.levelsOf i).length)
    (between : Nat → Nat → Single) (degree width level : Nat) :
    ∀ i < node + 1, 0 < ((g.insert between degree width level node).levelsOf i).length := by
  intro i hi
  have hawaits := (h.push_awaits hgrounded level 0).grounded i (Nat.le_of_lt_succ hi)
  rw [insert]
  dsimp only
  split
  · exact hawaits
  · split
    · exact Nat.lt_of_lt_of_eq hawaits (length_levelsOf_linkBelow _ _ _ _ _ _ _ i).symm
    · exact Nat.lt_of_lt_of_eq hawaits (length_levelsOf_linkBelow _ _ _ _ _ _ _ i).symm

/-- The first node gets no neighbours. -/
theorem neighbours_insert_first (h : g.Consistent 0) (between : Nat → Nat → Single)
    (degree width level l i : Nat) :
    (g.insert between degree width level 0).neighbours l i = [] := by
  have hnone : g.entry = none := by
    cases hentry : g.entry with
    | none => rfl
    | some entry => exact absurd (h.entry entry hentry) (Nat.not_lt_zero entry)
  have hempty : g.neighbours l i = [] :=
    List.eq_nil_iff_forall_not_mem.2 fun n hn => Nat.not_lt_zero n (h.within.neighbours_lt l i n hn)
  rw [insert, hnone]
  exact (neighbours_push g (level + 1) l i).trans hempty

end Links

end Proximity

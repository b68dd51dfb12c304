import Mathlib.Data.Finset.Card
import Mathlib.Logic.Relation
import Proximity.Proofs.Consistency
import Proximity.Proofs.Guarded.Trees

/-!
# What a beam search reaches

A beam search never forgets a node while it has room for results: every neighbour of
a node that it walks from is put on the frontier, and it does not stop before the
frontier is empty.  So a search that ends with room left has met every node that the
links lead to, and kept the acceptable ones.  A search that ends without room has as
many results as it may have, and a full beam stays full.  Either way the number of
results is known from the links alone, whatever the distances are.

In the lowest level of a graph the search starts where the descent through the levels
above ends, and what it can find are the acceptable nodes that this node leads to.

## Main definitions

* `Terrain.Leads`, `Links.Leads` — a node leads to another one.
* `Beam.Thorough` — nothing was forgotten so far.

## Main results

* `Beam.meet_thorough`, `Beam.run_thorough` — what the stages of a search keep.
* `Beam.search_traced`, `Beam.search_complete` — what a search finds is led to, and a
  search with room finds all of it.
* `Beam.search_eq_ranked` — few nodes are all found.
* `Graph.nearest_reachable` — searches of a graph.
-/

namespace Proximity

open Candidate

/-- A node leads to another one along any number of links. -/
def Terrain.Leads (t : Terrain) : Nat → Nat → Prop :=
  Relation.ReflTransGen fun node n => n ∈ t.neighbours node

namespace Beam

variable {t : Terrain} {b : Beam} {node n : Nat} {starts : List Nat}

/-! ## Met nodes -/

/-- Marking a node meets it, if it exists, and no other one. -/
theorem met_mark_iff (b : Beam) (node n : Nat) :
    (b.mark node).Met n ↔ b.Met n ∨ n = node ∧ node < b.visited.size := by
  by_cases hnode : n = node
  · subst hnode
    rw [Met, mark, Array.getElem?_setIfInBounds_self]
    constructor
    · intro h
      split at h
      · exact .inr ⟨rfl, ‹_›⟩
      · cases h
    · rintro (h | ⟨-, hlt⟩)
      · rw [if_pos h.lt]
      · rw [if_pos hlt]
  · rw [Met, mark, Array.getElem?_setIfInBounds_ne (Ne.symm hnode)]
    exact ⟨.inl, fun h => h.resolve_right fun hself => hnode hself.1⟩

/-- A node that is not fresh was met, or does not exist. -/
private theorem met_iff_of_not_fresh (h : ¬ b.fresh node = true) (n : Nat) :
    b.Met n ↔ b.Met n ∨ n = node ∧ node < b.visited.size := by
  refine ⟨.inl, ?_⟩
  rintro (hmet | ⟨rfl, hlt⟩)
  · exact hmet
  · simp only [fresh, beq_iff_eq, Array.getElem?_eq_getElem hlt, Option.some.injEq,
      Bool.not_eq_false] at h
    rw [Met, Array.getElem?_eq_getElem hlt, h]

/-- Starting from a node meets that node. -/
theorem met_start_iff (t : Terrain) (b : Beam) (node n : Nat) :
    (start t b node).Met n ↔ b.Met n ∨ n = node ∧ node < b.visited.size := by
  rw [start]
  split
  · exact met_mark_iff b node n
  · exact met_iff_of_not_fresh ‹_› n

/-- Meeting a node meets that node, whether it is any good or not. -/
theorem met_meet_iff (t : Terrain) (b : Beam) (node n : Nat) :
    (meet t b node).Met n ↔ b.Met n ∨ n = node ∧ node < b.visited.size := by
  rw [meet]
  split
  · dsimp only
    split
    · exact met_mark_iff b node n
    · exact met_mark_iff b node n
  · exact met_iff_of_not_fresh ‹_› n

/-- One more node that is met is one more member of the nodes that are. -/
private theorem or_met_cons_iff {P : Prop} {node n size : Nat} {nodes : List Nat} :
    (P ∨ n = node ∧ node < size) ∨ n ∈ nodes ∧ n < size ↔
      P ∨ (n = node ∨ n ∈ nodes) ∧ n < size := by
  constructor
  · rintro ((h | ⟨rfl, hlt⟩) | ⟨hmem, hlt⟩)
    · exact .inl h
    · exact .inr ⟨.inl rfl, hlt⟩
    · exact .inr ⟨.inr hmem, hlt⟩
  · rintro (h | ⟨rfl | hmem, hlt⟩)
    · exact .inl (.inl h)
    · exact .inl (.inr ⟨rfl, hlt⟩)
    · exact .inr ⟨hmem, hlt⟩

/-- Walking from a node meets its neighbours. -/
theorem met_step_iff (h : Sound t b) (c : Candidate) (n : Nat) :
    (step t b c).Met n ↔ b.Met n ∨ n ∈ t.neighbours c.label ∧ n < t.size := by
  rw [step]
  generalize t.neighbours c.label = nodes
  induction nodes generalizing b with
  | nil => simp
  | cons node nodes ih =>
      rw [List.foldl_cons, ih (meet_sound h node), met_meet_iff, h.size, List.mem_cons]
      exact or_met_cons_iff

/-- The frontier may lose its best node. -/
theorem Sound.rest (h : Sound t b) {c : Candidate} {rest : List Candidate}
    (hfrontier : b.frontier = c :: rest) : Sound t { b with frontier := rest } :=
  { h with frontier := fun d hd => h.frontier d (hfrontier ▸ List.mem_cons_of_mem c hd) }

/-- A walk does not undo what was met. -/
theorem run_met (h : Sound t b) (fuel : Nat) (hn : b.Met n) : (run t fuel b).Met n := by
  induction fuel generalizing b with
  | zero => exact hn
  | succ fuel ih =>
      rw [run]
      split
      · exact hn
      · rename_i c rest hfrontier
        split
        · exact hn
        · have hrest := h.rest hfrontier
          exact ih (step_sound hrest c) ((met_step_iff hrest c n).2 (.inl hn))

/-! ## Only what is led to is met -/

/-- Every node that was met is led to from a start that exists. -/
def Traced (t : Terrain) (starts : List Nat) (b : Beam) : Prop :=
  ∀ n, b.Met n → ∃ s ∈ starts, s < t.size ∧ t.Leads s n

private theorem run_traced (hsound : Sound t b) (h : Traced t starts b) (fuel : Nat) :
    Traced t starts (run t fuel b) := by
  induction fuel generalizing b with
  | zero => exact h
  | succ fuel ih =>
      rw [run]
      split
      · exact h
      · rename_i c rest hfrontier
        split
        · exact h
        · have hrest := hsound.rest hfrontier
          refine ih (step_sound hrest c) fun n hn => ?_
          rcases (met_step_iff hrest c n).1 hn with hmet | ⟨hmem, -⟩
          · exact h n hmet
          · have hc := (hsound.frontier c (hfrontier ▸ List.mem_cons_self)).1
            obtain ⟨s, hs, hlt, hleads⟩ := h c.label hc
            exact ⟨s, hs, hlt, hleads.tail hmem⟩

/-! ## Nothing is forgotten -/

/-- A met node is on the frontier, or is one of those that are being walked from, or all
its neighbours were met; and the acceptable met nodes are among the results. -/
structure Thorough (t : Terrain) (busy : Nat → Prop) (b : Beam) : Prop where
  walked : ∀ n, b.Met n → n ∈ b.frontier.map (·.label) ∨ busy n ∨
    ∀ m ∈ t.neighbours n, m < b.visited.size → b.Met m
  kept : ∀ n, b.Met n → t.accept n = true → n ∈ b.results.map (·.label)

variable {busy : Nat → Prop}

theorem full_iff : b.full t = true ↔ t.width ≤ b.results.length := decide_eq_true_iff

@[simp] theorem size_visited_mark (b : Beam) (node : Nat) :
    (b.mark node).visited.size = b.visited.size := Array.size_setIfInBounds

/-- A fresh node goes on the frontier and, if it is acceptable, among the results. -/
private theorem Thorough.add (h : Thorough t busy b) (hfresh : b.fresh node = true)
    {results : List Candidate} (hold : ∀ c ∈ b.results, c ∈ results)
    (hnew : t.accept node = true → ⟨t.distance node, node⟩ ∈ results) :
    Thorough t busy
      { b.mark node with
        frontier := insertBest ⟨t.distance node, node⟩ b.frontier
        results := results } where
  walked n hn := by
    rcases (met_mark_iff b node n).1 hn with hmet | ⟨rfl, -⟩
    · rcases h.walked n hmet with hmem | hbusy | hall
      · obtain ⟨c, hc, rfl⟩ := List.mem_map.1 hmem
        exact .inl (List.mem_map_of_mem (mem_insertBest.2 (.inr hc)))
      · exact .inr (.inl hbusy)
      · refine .inr (.inr fun m hm hlt => (met_mark_iff b node m).2 (.inl (hall m hm ?_)))
        rwa [← size_visited_mark b node]
    · exact .inl (List.mem_map.2 ⟨_, mem_insertBest.2 (.inl rfl), rfl⟩)
  kept n hn haccept := by
    rcases (met_mark_iff b node n).1 hn with hmet | ⟨rfl, -⟩
    · obtain ⟨c, hc, rfl⟩ := List.mem_map.1 (h.kept n hmet haccept)
      exact List.mem_map_of_mem (hold c hc)
    · exact List.mem_map.2 ⟨_, hnew haccept, rfl⟩

theorem start_thorough (h : Thorough t busy b) (node : Nat) :
    Thorough t busy (start t b node) := by
  rw [start]
  split
  · refine h.add ‹_› (fun c hc => ?_) fun haccept => ?_
    · split
      · exact mem_insertWorst.2 (.inr hc)
      · exact hc
    · rw [if_pos haccept]
      exact mem_insertWorst.2 (.inl rfl)
  · exact h

/-- While there is room, every result is kept. -/
theorem keep_of_room {results : List Candidate} (h : results.length < t.width) (c : Candidate) :
    keep t results c = c.insertWorst results := by
  rw [keep, if_neg]
  rw [length_insertWorst]
  omega

/-- Nothing makes room unless there is one result too many. -/
theorem le_length_keep {results : List Candidate} (h : t.width ≤ results.length)
    (c : Candidate) : t.width ≤ (keep t results c).length := by
  rw [keep]
  split
  · rw [List.length_tail, length_insertWorst]
    omega
  · rw [length_insertWorst]
    omega

/-- A full beam stays full. -/
theorem meet_full (h : b.full t = true) (node : Nat) : (meet t b node).full t = true := by
  rw [meet]
  split
  · dsimp only
    split
    · rw [full_iff]
      dsimp only
      split
      · exact le_length_keep (full_iff.1 h) _
      · exact full_iff.1 h
    · exact h
  · exact h

/-- A beam with room forgets nothing when it meets a node. -/
theorem meet_thorough (h : b.full t = true ∨ Thorough t busy b) (node : Nat) :
    (meet t b node).full t = true ∨ Thorough t busy (meet t b node) := by
  by_cases hfull : b.full t = true
  · exact .inl (meet_full hfull node)
  · have hb := h.resolve_left hfull
    refine .inr ?_
    rw [meet]
    split
    · rename_i hfresh
      have hgain : b.improves t ⟨t.distance node, node⟩ = true := by
        simp [improves, hfull]
      have hkeep : ∀ c, keep t (b.mark node).results c = c.insertWorst b.results :=
        keep_of_room (Nat.lt_of_not_le (mt full_iff.2 hfull))
      simp only [hgain, if_true, hkeep]
      refine hb.add hfresh (fun c hc => ?_) fun haccept => ?_
      · split
        · exact mem_insertWorst.2 (.inr hc)
        · exact hc
      · rw [if_pos haccept]
        exact mem_insertWorst.2 (.inl rfl)
    · exact hb

/-- Walking from a node of the frontier finishes with it. -/
private theorem step_thorough (hsound : Sound t b) {c : Candidate} {rest : List Candidate}
    (hfrontier : b.frontier = c :: rest) (h : b.full t = true ∨ Thorough t (fun _ => False) b) :
    (step t { b with frontier := rest } c).full t = true ∨
      Thorough t (fun _ => False) (step t { b with frontier := rest } c) := by
  have hrest := hsound.rest hfrontier
  have htaken : ({ b with frontier := rest } : Beam).full t = true ∨
      Thorough t (· = c.label) { b with frontier := rest } := by
    refine h.imp id fun hb => ⟨fun n hn => ?_, hb.kept⟩
    rcases hb.walked n hn with hmem | hbusy | hall
    · rw [hfrontier, List.map_cons, List.mem_cons] at hmem
      exact hmem.elim (fun heq => .inr (.inl heq)) .inl
    · exact hbusy.elim
    · exact .inr (.inr hall)
  have hfold : ∀ nodes : List Nat, ∀ b' : Beam,
      (b'.full t = true ∨ Thorough t (· = c.label) b') →
      (nodes.foldl (meet t) b').full t = true ∨
        Thorough t (· = c.label) (nodes.foldl (meet t) b') := by
    intro nodes
    induction nodes with
    | nil => exact fun _ h => h
    | cons node nodes ih => exact fun b' h => ih _ (meet_thorough h node)
  refine (hfold (t.neighbours c.label) _ htaken).imp id fun hb => ⟨fun n hn => ?_, hb.kept⟩
  rcases hb.walked n hn with hmem | rfl | hall
  · exact .inl hmem
  · refine .inr (.inr fun m hm hlt => (met_step_iff hrest c m).2 (.inr ⟨hm, ?_⟩))
    rwa [← (step_sound hrest c).size]
  · exact .inr (.inr hall)

/-- A walk that is not cut short ends with a full beam, or has walked everywhere. -/
theorem run_thorough (hsound : Sound t b) {fuel : Nat} (hfuel : b.pending ≤ fuel)
    (h : b.full t = true ∨ Thorough t (fun _ => False) b) :
    (run t fuel b).full t = true ∨
      Thorough t (fun _ => False) (run t fuel b) ∧ (run t fuel b).frontier = [] := by
  induction fuel generalizing b with
  | zero =>
      have hlength : b.frontier.length ≤ b.pending := Nat.le_add_right _ _
      have hnone : b.frontier = [] := List.length_eq_zero_iff.1 (by omega)
      exact h.imp id fun hb => ⟨hb, hnone⟩
  | succ fuel ih =>
      rw [run]
      split
      · rename_i hfrontier
        exact h.imp id fun hb => ⟨hb, hfrontier⟩
      · rename_i c rest hfrontier
        split
        · rename_i hhopeless
          exact .inl (Bool.and_eq_true_iff.1 hhopeless).1
        · have hrest := hsound.rest hfrontier
          have hfewer : ({ b with frontier := rest } : Beam).pending + 1 = b.pending := by
            simp only [pending, hfrontier, List.length_cons]
            omega
          have hstep := step_pending t { b with frontier := rest } c
          exact ih (step_sound hrest c) (by omega) (step_thorough hsound hfrontier h)

/-! ## Whole searches -/

/-- Where a search stands before its first step. -/
def begun (t : Terrain) (starts : List Nat) : Beam :=
  starts.foldl (start t) ⟨Array.replicate t.size false, [], []⟩

/-- Before its first step a search has met its starts, as far as they exist, and has
forgotten nothing. -/
theorem begun_invariant (t : Terrain) (starts : List Nat) :
    Sound t (begun t starts) ∧ (begun t starts).pending = t.size ∧
      Thorough t (fun _ => False) (begun t starts) ∧
      ∀ n, (begun t starts).Met n ↔ n ∈ starts ∧ n < t.size := by
  have hfold : ∀ (more : List Nat) (b : Beam), Sound t b ∧ b.pending = t.size ∧
      Thorough t (fun _ => False) b →
      Sound t (more.foldl (start t) b) ∧ (more.foldl (start t) b).pending = t.size ∧
        Thorough t (fun _ => False) (more.foldl (start t) b) ∧
        ∀ n, (more.foldl (start t) b).Met n ↔ b.Met n ∨ n ∈ more ∧ n < t.size := by
    intro more
    induction more with
    | nil => exact fun b h => ⟨h.1, h.2.1, h.2.2, by simp⟩
    | cons node more ih =>
        rintro b ⟨hsound, hpending, hthorough⟩
        obtain ⟨hs, hp, ht, hmet⟩ := ih (start t b node)
          ⟨start_sound hsound node, (start_pending t b node).trans hpending,
            start_thorough hthorough node⟩
        refine ⟨hs, hp, ht, fun n => ?_⟩
        rw [List.foldl_cons, hmet, met_start_iff, hsound.size, List.mem_cons]
        exact or_met_cons_iff
  have hunmet : ∀ n, ¬ (⟨Array.replicate t.size false, [], []⟩ : Beam).Met n := by
    intro n hn
    rw [Met, Array.getElem?_replicate] at hn
    split at hn <;> simp at hn
  obtain ⟨hs, hp, ht, hmet⟩ := hfold starts ⟨Array.replicate t.size false, [], []⟩
    ⟨unmet_sound, by simp [pending], fun n hn => absurd hn (hunmet n),
      fun n hn => absurd hn (hunmet n)⟩
  exact ⟨hs, hp, ht, fun n => (hmet n).trans (or_iff_right (hunmet n))⟩

/-- What a search finds is led to from a start. -/
theorem search_traced {c : Candidate} (hc : c ∈ search t starts) :
    ∃ s ∈ starts, s < t.size ∧ t.Leads s c.label := by
  obtain ⟨hsound, -, -, hmet⟩ := begun_invariant t starts
  have hstart : Traced t starts (begun t starts) := by
    intro n hn
    obtain ⟨hmem, hlt⟩ := (hmet n).1 hn
    exact ⟨n, hmem, hlt, .refl⟩
  exact run_traced hsound hstart t.size c.label
    ((run_sound hsound t.size).results c (List.mem_reverse.1 hc)).1

/-- What holds of the starts and of everything that is linked to holds of what is found. -/
theorem search_of_closed {P : Nat → Prop} (hclosed : ∀ i, ∀ n ∈ t.neighbours i, P n)
    (hstarts : ∀ s ∈ starts, P s) : ∀ c ∈ search t starts, P c.label := by
  intro c hc
  obtain ⟨s, hs, -, hleads⟩ := search_traced hc
  cases hleads with
  | refl => exact hstarts _ hs
  | tail _ hlink => exact hclosed _ _ hlink

/-- A search from nodes below a bound, over links that stay there, stays there. -/
theorem search_lt {bound : Nat} (hclosed : ∀ i, ∀ n ∈ t.neighbours i, n < bound)
    (hstarts : ∀ s ∈ starts, s < bound) : ∀ c ∈ search t starts, c.label < bound :=
  search_of_closed hclosed hstarts

/-- A search that ends with room for results has found every acceptable node that a
start leads to. -/
theorem search_complete (hclosed : ∀ n < t.size, ∀ m ∈ t.neighbours n, m < t.size)
    (hroom : (search t starts).length < t.width) {s : Nat} (hs : s ∈ starts) (hlt : s < t.size)
    (hleads : t.Leads s n) (haccept : t.accept n = true) :
    n ∈ (search t starts).map (·.label) := by
  obtain ⟨hsound, hpending, hthorough, hmet⟩ := begun_invariant t starts
  have hend := run_sound hsound t.size
  have hnotFull : ¬ (run t t.size (begun t starts)).full t = true := by
    rw [full_iff, ← List.length_reverse]
    exact Nat.not_le_of_lt hroom
  obtain ⟨hwalked, hnone⟩ := (run_thorough hsound (Nat.le_of_eq hpending)
    (.inr hthorough)).resolve_left hnotFull
  -- With an empty frontier the met nodes are closed under links.
  have hled : ∀ m, t.Leads s m → (run t t.size (begun t starts)).Met m := by
    intro m hm
    induction hm with
    | refl => exact run_met hsound t.size ((hmet s).2 ⟨hs, hlt⟩)
    | @tail m n _ hlink ih =>
        rcases hwalked.walked m ih with hmem | hbusy | hall
        · rw [hnone] at hmem
          exact absurd hmem List.not_mem_nil
        · exact hbusy.elim
        · have hm : m < t.size := hend.size ▸ ih.lt
          exact hall n hlink (hend.size.symm ▸ hclosed m hm n hlink)
  obtain ⟨c, hc, hlabel⟩ := List.mem_map.1 (hwalked.kept n (hled n hleads) haccept)
  exact List.mem_map.2 ⟨c, List.mem_reverse.2 hc, hlabel⟩

/-! ## Counting -/

section Counting

variable {A : Finset Nat}

/-- The acceptable nodes that a start leads to. -/
def Findable (t : Terrain) (starts : List Nat) (A : Finset Nat) : Prop :=
  ∀ n, n ∈ A ↔ t.accept n = true ∧ ∃ s ∈ starts, s < t.size ∧ t.Leads s n

/-- There are finitely many nodes to find. -/
theorem exists_findable (t : Terrain) (starts : List Nat)
    (hclosed : ∀ n < t.size, ∀ m ∈ t.neighbours n, m < t.size) : ∃ A, Findable t starts A := by
  classical
  refine ⟨(Finset.range t.size).filter fun n =>
    t.accept n = true ∧ ∃ s ∈ starts, s < t.size ∧ t.Leads s n, fun n => ?_⟩
  rw [Finset.mem_filter, Finset.mem_range]
  refine ⟨fun hn => hn.2, fun hn => ⟨?_, hn⟩⟩
  obtain ⟨-, s, -, hlt, hleads⟩ := hn
  induction hleads with
  | refl => exact hlt
  | tail _ hlink ih => exact hclosed _ ih _ hlink

theorem Findable.mem (h : Findable t starts A) {c : Candidate} (hc : c ∈ search t starts) :
    c.label ∈ A :=
  (h c.label).2 ⟨(search_finds t starts).accept c hc, search_traced hc⟩

/-- There are no more results than nodes to find. -/
theorem Findable.length_le (h : Findable t starts A) : (search t starts).length ≤ A.card := by
  have hcard := List.toFinset_card_of_nodup (search_finds t starts).nodup
  rw [List.length_map] at hcard
  rw [← hcard]
  refine Finset.card_le_card fun n hn => ?_
  obtain ⟨c, hc, rfl⟩ := List.mem_map.1 (List.mem_toFinset.1 hn)
  exact h.mem hc

variable (hclosed : ∀ n < t.size, ∀ m ∈ t.neighbours n, m < t.size)

include hclosed

/-- Results are missing only if there is no room for them. -/
theorem Findable.le_length (h : Findable t starts A) :
    min t.width A.card ≤ (search t starts).length := by
  by_cases hroom : (search t starts).length < t.width
  · refine Nat.le_trans (Nat.min_le_right _ _) ?_
    have hall : A ⊆ ((search t starts).map (·.label)).toFinset := by
      intro n hn
      obtain ⟨haccept, s, hs, hlt, hleads⟩ := (h n).1 hn
      exact List.mem_toFinset.2 (search_complete hclosed hroom hs hlt hleads haccept)
    have hcard := Finset.card_le_card hall
    rwa [List.toFinset_card_of_nodup (search_finds t starts).nodup, List.length_map] at hcard
  · exact Nat.le_trans (Nat.min_le_left _ _) (Nat.le_of_not_lt hroom)

/-- Nodes that fit among the results are all found. -/
theorem Findable.mem_search (h : Findable t starts A) (hfits : A.card ≤ t.width) (hn : n ∈ A) :
    n ∈ (search t starts).map (·.label) := by
  have hsub : ((search t starts).map (·.label)).toFinset ⊆ A := by
    intro m hm
    obtain ⟨c, hc, rfl⟩ := List.mem_map.1 (List.mem_toFinset.1 hm)
    exact h.mem hc
  have hcard : A.card ≤ ((search t starts).map (·.label)).toFinset.card := by
    rw [List.toFinset_card_of_nodup (search_finds t starts).nodup, List.length_map]
    have hle := h.le_length hclosed
    rwa [Nat.min_eq_right hfits] at hle
  rw [← Finset.eq_of_subset_of_card_le hsub hcard] at hn
  exact List.mem_toFinset.1 hn

/-- Nodes that fit among the results are found and ranked. -/
theorem Findable.search_eq_ranked (h : Findable t starts A) (hfits : A.card ≤ t.width) :
    search t starts = ranked (((List.range t.size).filter fun n => decide (n ∈ A)).map
      fun n => ⟨t.distance n, n⟩) := by
  have hfinds := search_finds t starts
  refine eq_ranked hfinds.sorted ?_
  have hself : (search t starts).map (fun c => (⟨t.distance c.label, c.label⟩ : Candidate)) =
      search t starts := by
    refine (List.map_congr_left fun c hc => ?_).trans (List.map_id _)
    rw [← hfinds.cost c hc]
    rfl
  have hlabels : ((search t starts).map (·.label)).Perm
      ((List.range t.size).filter fun n => decide (n ∈ A)) := by
    refine (List.perm_ext_iff_of_nodup hfinds.nodup (List.nodup_range.filter _)).2 fun n => ?_
    rw [List.mem_filter, List.mem_range, decide_eq_true_eq]
    constructor
    · intro hn
      obtain ⟨c, hc, rfl⟩ := List.mem_map.1 hn
      exact ⟨hfinds.size c hc, h.mem hc⟩
    · exact fun hn => h.mem_search hclosed hfits hn.2
  have hperm := hlabels.map fun n => (⟨t.distance n, n⟩ : Candidate)
  rw [List.map_map] at hperm
  rw [← hself]
  exact hperm

end Counting

end Beam

/-! ## Graphs -/

namespace Links

/-- A node leads to another one along any number of links of a level. -/
def Leads (g : Links) (level : Nat) : Nat → Nat → Prop :=
  Relation.ReflTransGen fun node n => n ∈ g.neighbours level node

variable {g : Links} {total : Nat}

/-- A node that exists leads to such nodes only. -/
theorem Consistent.lt_of_leads (h : g.Consistent total) {level node n : Nat} (hnode : node < total)
    (hleads : g.Leads level node n) : n < total := by
  induction hleads with
  | refl => exact hnode
  | tail _ hlink _ => exact h.within.neighbours_lt level _ _ hlink

variable {distance : Nat → Single} {level bound start : Nat} {starts : List Nat}

/-- What holds of the starts and of everything that is linked to at a level holds of what is
found there. -/
theorem layer_of_closed {P : Nat → Prop} (hclosed : ∀ i, ∀ n ∈ g.neighbours level i, P n)
    (hstarts : ∀ s ∈ starts, P s) (width : Nat) (accept : Nat → Bool) :
    ∀ c ∈ g.layer distance level width accept starts, P c.label :=
  Beam.search_of_closed hclosed hstarts

theorem closest_of_closed {P : Nat → Prop} (hclosed : ∀ i, ∀ n ∈ g.neighbours level i, P n)
    (hstart : P start) : P (g.closest distance level start) := by
  have hall : ∀ c ∈ g.layer distance level 1 (fun _ => true) [start], P c.label :=
    layer_of_closed hclosed (fun s hs => List.mem_singleton.1 hs ▸ hstart) 1 _
  rw [closest]
  split
  · exact hstart
  · rename_i c rest hlayer
    exact hall c (hlayer ▸ List.mem_cons_self)

/-- A descent keeps at every level what holds of everything that is linked to there, if that
also holds one level further down. -/
theorem descend_of_closed {P : Nat → Nat → Prop}
    (hclosed : ∀ l i, ∀ n ∈ g.neighbours l i, P l n) (hdown : ∀ l n, P (l + 1) n → P l n)
    {floor level : Nat} (hstart : P level start) :
    P (min floor level) (g.descend distance floor level start) := by
  induction level generalizing start with
  | zero =>
      rw [Nat.min_zero]
      exact hstart
  | succ level ih =>
      rw [descend]
      split
      · rename_i hfloor
        rw [Nat.min_eq_left (Nat.le_succ_of_le hfloor)]
        have hclosest : P (level + 1) (g.closest distance (level + 1) start) :=
          closest_of_closed (hclosed (level + 1)) hstart
        have hnext := ih (hdown level _ hclosest)
        rwa [Nat.min_eq_left hfloor] at hnext
      · rename_i hfloor
        rwa [Nat.min_eq_right (Nat.gt_of_not_le hfloor)]

/-- A search from nodes below a bound, in a level whose links stay there, stays there. -/
theorem layer_lt (hclosed : ∀ i, ∀ n ∈ g.neighbours level i, n < bound)
    (hstarts : ∀ s ∈ starts, s < bound) (width : Nat) (accept : Nat → Bool) :
    ∀ c ∈ g.layer distance level width accept starts, c.label < bound :=
  layer_of_closed hclosed hstarts width accept

/-- A descent through levels whose links stay below a bound stays there. -/
theorem descend_lt (hclosed : ∀ l i, ∀ n ∈ g.neighbours l i, n < bound)
    (hstart : start < bound) (floor level : Nat) :
    g.descend distance floor level start < bound :=
  descend_of_closed (P := fun _ n => n < bound) hclosed (fun _ _ hlt => hlt) hstart

end Links

namespace Graph

variable {S E : Type} [Space S E] {g : Graph S E} {entry : Nat} {A : Finset Nat}

/-- The node in which the descent for a query ends, from an entry through all levels
above the lowest. -/
def landing (g : Graph S E) (query : Array E) (entry : Nat) : Nat :=
  g.links.descend (g.storage.costTo query) 0 g.links.topLevel entry

/-- The descent ends in a stored vector. -/
theorem Consistent.landing_lt (h : g.Consistent) (hentry : g.links.entry = some entry)
    (query : Array E) : g.landing query entry < g.storage.total :=
  Links.descend_lt h.links.within.neighbours_lt (h.links.entry entry hentry) 0 g.links.topLevel

/-- The acceptable nodes that the landing of a query leads to. -/
def Reaches (g : Graph S E) (query : Array E) (entry : Nat) (accept : Nat → Bool)
    (A : Finset Nat) : Prop :=
  ∀ n, n ∈ A ↔ accept n = true ∧ g.links.Leads 0 (g.landing query entry) n

/-- What the search of the lowest level knows. -/
private def terrain (g : Graph S E) (query : Array E) (k : Nat) (accept : Nat → Bool) : Terrain :=
  ⟨g.links.nodes.size, g.links.neighbours 0, g.storage.costTo query, accept, max g.searchWidth k⟩

private theorem nearest_eq_search (hentry : g.links.entry = some entry) (query : Array E) (k : Nat)
    (accept : Nat → Bool) : g.nearest query k accept =
      (Beam.search (g.terrain query k accept) [g.landing query entry]).take k := by
  rw [nearest, Links.nearest, hentry]
  rfl

private theorem Consistent.terrain_closed (h : g.Consistent) (query : Array E) (k : Nat)
    (accept : Nat → Bool) : ∀ n < (g.terrain query k accept).size,
      ∀ m ∈ (g.terrain query k accept).neighbours n, m < (g.terrain query k accept).size := by
  intro n _ m hm
  have hlt := h.links.within.neighbours_lt 0 n m hm
  rwa [← h.links.size] at hlt

private theorem Consistent.findable_iff (h : g.Consistent) (hentry : g.links.entry = some entry)
    (query : Array E) (accept : Nat → Bool) (k : Nat) :
    Beam.Findable (g.terrain query k accept) [g.landing query entry] A ↔
      g.Reaches query entry accept A := by
  have hlt : g.landing query entry < g.links.nodes.size :=
    h.links.size.symm ▸ h.landing_lt hentry query
  refine forall_congr' fun n => iff_congr .rfl ⟨?_, fun hn => ?_⟩
  · rintro ⟨haccept, s, hs, -, hleads⟩
    exact ⟨haccept, List.mem_singleton.1 hs ▸ hleads⟩
  · exact ⟨hn.1, _, List.mem_singleton_self _, hlt, hn.2⟩

/-- There are finitely many of them. -/
theorem Consistent.exists_reaches (h : g.Consistent) (hentry : g.links.entry = some entry)
    (query : Array E) (accept : Nat → Bool) : ∃ A, g.Reaches query entry accept A := by
  obtain ⟨A, hA⟩ := Beam.exists_findable (g.terrain query 0 accept) [g.landing query entry]
    (h.terrain_closed query 0 accept)
  exact ⟨A, (h.findable_iff hentry query accept 0).1 hA⟩

/-- A search returns as many results as it can find, or as were asked for. -/
theorem Consistent.length_nearest (h : g.Consistent) (hentry : g.links.entry = some entry)
    {query : Array E} {accept : Nat → Bool} (hA : g.Reaches query entry accept A) (k : Nat) :
    (g.nearest query k accept).length = min k A.card := by
  have hfindable := (h.findable_iff hentry query accept k).2 hA
  have hmost := hfindable.length_le
  have hleast := hfindable.le_length (h.terrain_closed query k accept)
  have hwidth : (g.terrain query k accept).width = max g.searchWidth k := rfl
  rw [nearest_eq_search hentry, List.length_take]
  omega

/-- What a search returns is what it can find. -/
theorem Consistent.mem_of_mem_nearest (h : g.Consistent) (hentry : g.links.entry = some entry)
    {query : Array E} {accept : Nat → Bool} (hA : g.Reaches query entry accept A) {k : Nat}
    {c : Candidate} (hc : c ∈ g.nearest query k accept) : c.label ∈ A := by
  rw [nearest_eq_search hentry] at hc
  exact ((h.findable_iff hentry query accept k).2 hA).mem (List.mem_of_mem_take hc)

/-- What fits into the beam is ranked like flat storage ranks it. -/
theorem Consistent.nearest_eq_ranked (h : g.Consistent) (hentry : g.links.entry = some entry)
    {query : Array E} {accept : Nat → Bool} (hA : g.Reaches query entry accept A) {k : Nat}
    (hfits : A.card ≤ max g.searchWidth k) : g.nearest query k accept =
      (ranked (g.storage.candidates query fun n => decide (n ∈ A))).take k := by
  have hfindable := (h.findable_iff hentry query accept k).2 hA
  have hsearch := hfindable.search_eq_ranked (h.terrain_closed query k accept) hfits
  have hsize : (g.terrain query k accept).size = g.storage.total := h.links.size
  rw [nearest_eq_search hentry, hsearch, hsize]
  rfl

/-- Callers see the results of a search as hits. -/
theorem search_eq_hits (hstored : g.storage.total ≠ 0) {query : Array E}
    (hwidth : query.size = g.storage.unitLength) (k : Nat) (accept : Nat → Bool) :
    (Index.graph g).search query k accept =
      .ok ((Index.graph g).hits (g.nearest query k accept)) := by
  have hcheck : (Index.graph g).checkQuery query = .ok () := if_pos hwidth
  have htotal : (Index.graph g).total ≠ 0 := hstored
  rw [Index.search, hcheck]
  by_cases hzero : k = 0
  · have hnone : g.nearest query 0 accept = [] :=
      List.length_eq_zero_iff.1 (Nat.le_zero.1 (g.links.nearest_finds _ _ 0 accept).2)
    simp [hzero, hnone, Index.hits, bind, Except.bind, pure, Except.pure]
  · simp [hzero, htotal, Index.nearest, bind, Except.bind, pure, Except.pure]

/-- **What a graph search finds.**  In a graph that passes its check, built or decoded,
let the descent for a query end in some node, and let `A` be the acceptable nodes that
it leads to in the lowest level, itself included.  If there is room for the beam, a search
returns as many different members of `A` as there are, or as were asked for, whatever the
costs are; and if `A` fits into the beam they are those that a search of the flat storage
would return from `A`.  Without that room there is no answer. -/
theorem nearest_reachable (machine : Machine) (hcheck : g.check = .ok ())
    (hentry : g.links.entry = some entry) (query : Array E) (k : Nat) (accept : Nat → Bool) :
    let accept? := fun n => some (accept n)
    ∃ A : Finset Nat,
      (∀ n, n ∈ A ↔ accept n = true ∧ g.links.Leads 0 (g.landing query entry) n) ∧
      (machine.grants (max g.searchWidth k + 1) = true → ∃ cs,
        g.nearest? machine query k accept? = some cs ∧
        cs.length = min k A.card ∧
        (cs.map (·.label)).Nodup ∧
        (∀ c ∈ cs, c.label ∈ A) ∧
        (A.card ≤ max g.searchWidth k →
          cs = (ranked (g.storage.candidates query fun n => decide (n ∈ A))).take k ∧
            g.storage.nearest? query k (fun n => some (decide (n ∈ A))) = some cs) ∧
        (query.size = g.storage.unitLength → (Index.graph g).search? machine query k accept? =
          some (.ok ((Index.graph g).hits cs)))) ∧
      (machine.grants (max g.searchWidth k + 1) = false →
        g.nearest? machine query k accept? = none ∧
        (query.size = g.storage.unitLength → k ≠ 0 →
          (Index.graph g).search? machine query k accept? = none)) := by
  intro accept?
  have h := check_eq_ok_iff.1 hcheck
  have hstored : g.storage.total ≠ 0 := Nat.ne_zero_of_lt (h.links.entry entry hentry)
  have hsearchable : (Index.graph g).Searchable := ⟨h.storage.pos, h.links⟩
  obtain ⟨A, hA⟩ := h.exists_reaches hentry query accept
  refine ⟨A, hA, fun hroom => ?_, fun hroom => ⟨?_, fun hwidth hk => ?_⟩⟩
  · refine ⟨_, nearest?_eq h.links.over query hroom (Guarded.below_some _ _),
      h.length_nearest hentry hA k, (g.links.nearest_finds _ _ k accept).1.nodup,
      fun c hc => h.mem_of_mem_nearest hentry hA hc, fun hfits => ?_, fun hwidth => ?_⟩
    · have hranked := h.nearest_eq_ranked hentry hA hfits
      refine ⟨hranked, ?_⟩
      rw [Flat.nearest?_eq h.storage.pos query k (Guarded.below_some _ _), hranked]
      exact congrArg some (Best.collect_eq_take_ranked k _)
    · have hcan : (Index.graph g).canSearch machine k = true := by
        simp [Index.canSearch, Index.settings, Settings.roomToSearch, hroom]
      rw [Index.search?_eq hsearchable query (fun _ => hcan) (Guarded.below_some _ _),
        search_eq_hits hstored hwidth k accept]
  · exact nearest?_eq_none h.links hstored query hroom accept?
  · refine Index.search?_eq_none hsearchable hwidth ?_ accept?
    have htotal : (Index.graph g).total ≠ 0 := hstored
    simp [Index.canSearch, Index.settings, Settings.roomToSearch, hroom, hk, htotal]

/-- Four bit vectors of eight dimensions, the last of which nothing links to. -/
def unlinkedLast : Graph BinarySpace UInt8 :=
  ⟨⟨⟨⟩, 8, 1, #[3, 1, 7, 0]⟩, 2, 1, 1, ⟨#[[[1]], [[0, 2]], [[1]], [[0]]], some 0, 0⟩, ⟨0⟩, 0⟩

/-- The three others are found from the entry, and the last one is not. -/
theorem nearest_reachable_unlinkedLast :
    unlinkedLast.check = .ok () ∧ unlinkedLast.links.entry = some 0 ∧
      ∃ cs, unlinkedLast.nearest? .standard #[0] 4 (fun _ => some true) = some cs ∧
        cs.length = 3 ∧ ∀ c ∈ cs, c.label ≠ 3 := by
  have hcheck : unlinkedLast.check = .ok () := rfl
  obtain ⟨A, hA, hanswer, -⟩ := nearest_reachable .standard hcheck rfl #[0] 4 fun _ => true
  obtain ⟨cs, hcs, hlength, -, hmem, -⟩ := hanswer (by decide)
  have hzero : unlinkedLast.links.Leads 0 0 0 := .refl
  have hone : unlinkedLast.links.Leads 0 0 1 := .tail hzero (by decide)
  have htwo : unlinkedLast.links.Leads 0 0 2 := .tail hone (by decide)
  have hled : ∀ n, unlinkedLast.links.Leads 0 0 n → n < 3 := by
    intro n hn
    induction hn with
    | refl => decide
    | @tail m n _ hlink ih =>
        have hall : ∀ m < 3, ∀ n ∈ unlinkedLast.links.neighbours 0 m, n < 3 := by decide
        exact hall m ih n hlink
  have hthree : A = Finset.range 3 := by
    ext n
    rw [hA, Finset.mem_range]
    refine ⟨fun hn => hled n hn.2, fun hn => ⟨rfl, ?_⟩⟩
    match n, hn with
    | 0, _ => exact hzero
    | 1, _ => exact hone
    | 2, _ => exact htwo
  refine ⟨hcheck, rfl, cs, hcs, ?_, fun c hc => ?_⟩
  · rw [hlength, hthree]
    rfl
  · have hlt := Finset.mem_range.1 (hthree ▸ hmem c hc)
    omega

/-- Asked for 2 ^ 60 of them, it does not answer: there is no room for the beam. -/
theorem nearest_roomless_unlinkedLast :
    unlinkedLast.check = .ok () ∧ unlinkedLast.links.entry = some 0 ∧
      unlinkedLast.nearest? .standard #[0] (Nat.pow 2 60) (fun _ => some true) = none ∧
      (Index.graph unlinkedLast).search? .standard #[0] (Nat.pow 2 60) (fun _ => some true) =
        none := by
  have hcheck : unlinkedLast.check = .ok () := rfl
  have hlinks := (check_eq_ok_iff.1 hcheck).links
  have hsearchable : (Index.graph unlinkedLast).Searchable := ⟨by decide, hlinks⟩
  refine ⟨hcheck, rfl, nearest?_eq_none hlinks (by decide) _ (by decide) _, ?_⟩
  exact Index.search?_eq_none hsearchable rfl (by decide +kernel) _

end Graph

end Proximity

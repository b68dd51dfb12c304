import Proximity.Guarded.Walks
import Proximity.Proofs.Guarded.Access
import Proximity.Proofs.Links

/-!
# When guarded walks answer

In a graph whose neighbours all exist no access of a beam search fails, and the steps
suffice since a node enters the frontier at most once.  So a search answers exactly if
there is room for its beam.  The walks of width one from level to level always have room,
so a search from the top depends on the beam of the lowest level only.

## Main results

* `Beam.search?_eq`, `Beam.search?_eq_none` — a search of a closed terrain answers exactly
  if there is room for its beam.
* `Links.nearest?_eq`, `Links.nearest?_eq_none` — so does a search of links within their
  graph.
* `Links.nearest?_extended` — more room never changes an answer.
-/

namespace Proximity

open Guarded

/-- The answers of a guarded terrain are those of a terrain, as far as its nodes
go, and its neighbours exist. -/
structure Terrain.Guarded.Agrees (t? : Terrain.Guarded) (t : Terrain) : Prop where
  size : t?.size = t.size
  width : t?.width = t.width
  neighbours : Below t.size t?.neighbours t.neighbours
  distance : Below t.size t?.distance t.distance
  accept : Below t.size t?.accept t.accept
  closed : ∀ node, node < t.size → ∀ n ∈ t.neighbours node, n < t.size

namespace Beam

/-! ## Steps that are left -/

/-- The steps that a walk may still take: from the frontier, and from nodes that
were not met. -/
def pending (b : Beam) : Nat := b.frontier.length + b.visited.count false

variable {t : Terrain} {t? : Terrain.Guarded} {b : Beam} {node : Nat} {met : Bool}

private theorem count_mark (h : b.fresh node = true) :
    (b.mark node).visited.count false + 1 = b.visited.count false := by
  have hlt := fresh_lt h
  have hfalse : b.visited[node] = false := by
    simp only [fresh, beq_iff_eq] at h
    exact (Array.getElem?_eq_some_iff.1 h).2
  have hpos : 0 < b.visited.count false :=
    Array.count_pos_iff.2 (Array.mem_of_getElem hfalse)
  rw [mark, Array.setIfInBounds_def, dif_pos hlt, Array.count_set hlt, hfalse]
  simp only [beq_self_eq_true, if_true]
  rw [if_neg (by decide)]
  omega

theorem length_insertBest (c : Candidate) (cs : List Candidate) :
    (c.insertBest cs).length = cs.length + 1 :=
  (Candidate.insertBest_perm c cs).length_eq

theorem start_pending (t : Terrain) (b : Beam) (node : Nat) :
    (start t b node).pending = b.pending := by
  rw [start]
  split
  · rename_i hfresh
    have hcount := count_mark hfresh
    simp only [pending, length_insertBest]
    have hfrontier : (b.mark node).frontier = b.frontier := rfl
    rw [hfrontier]
    omega
  · rfl

theorem meet_pending (t : Terrain) (b : Beam) (node : Nat) :
    (meet t b node).pending ≤ b.pending := by
  rw [meet]
  split
  · rename_i hfresh
    have hcount := count_mark hfresh
    have hfrontier : (b.mark node).frontier = b.frontier := rfl
    dsimp only
    split
    · simp only [pending, length_insertBest, hfrontier]
      omega
    · simp only [pending, hfrontier]
      omega
  · exact Nat.le_refl _

theorem step_pending (t : Terrain) (b : Beam) (c : Candidate) :
    (step t b c).pending ≤ b.pending := by
  rw [step]
  generalize t.neighbours c.label = nodes
  induction nodes generalizing b with
  | nil => exact Nat.le_refl _
  | cons node nodes ih => exact Nat.le_trans (ih (meet t b node)) (meet_pending t b node)

/-! ## Searches answer -/

private theorem fresh_eq_not (h : b.visited[node]? = some met) : b.fresh node = !met := by
  rw [fresh, h]
  cases met <;> rfl

theorem start?_eq (h : t?.Agrees t) (hsize : b.visited.size = t.size) (node : Nat) :
    start? t? b node = some (start t b node) := by
  by_cases hlt : node < b.visited.size
  · obtain ⟨met, hmet⟩ : ∃ met, b.visited[node]? = some met :=
      ⟨_, Array.getElem?_eq_getElem hlt⟩
    have hfresh := fresh_eq_not hmet
    have hnode : node < t.size := hsize ▸ hlt
    rw [start?, if_neg (Nat.not_le.2 hlt), hmet, start, hfresh, h.distance node hnode,
      h.accept node hnode]
    cases met <;> rfl
  · have hfresh : b.fresh node = false := by
      rw [fresh, Array.getElem?_eq_none (Nat.le_of_not_lt hlt)]
      rfl
    rw [start?, if_pos (Nat.le_of_not_lt hlt), start, hfresh]
    rfl

/-- The bookkeeping of results depends on their number only. -/
private theorem full_frame (h : t?.Agrees t) (b : Beam) : b.full t?.frame = b.full t := by
  rw [full, full, ← h.width]
  rfl

private theorem improves_frame (h : t?.Agrees t) (b : Beam) (c : Candidate) :
    b.improves t?.frame c = b.improves t c := by
  rw [improves, improves, full_frame h]

private theorem hopeless_frame (h : t?.Agrees t) (b : Beam) (c : Candidate) :
    b.hopeless t?.frame c = b.hopeless t c := by
  rw [hopeless, hopeless, full_frame h]

private theorem keep_frame (h : t?.Agrees t) (results : List Candidate) (c : Candidate) :
    keep t?.frame results c = keep t results c := by
  rw [keep, keep, ← h.width]
  rfl

theorem meet?_eq (h : t?.Agrees t) (hsize : b.visited.size = t.size) (hnode : node < t.size) :
    meet? t? b node = some (meet t b node) := by
  have hlt : node < b.visited.size := hsize.symm ▸ hnode
  obtain ⟨met, hmet⟩ : ∃ met, b.visited[node]? = some met :=
    ⟨_, Array.getElem?_eq_getElem hlt⟩
  have hfresh := fresh_eq_not hmet
  rw [meet?, hmet, meet, hfresh, h.distance node hnode, h.accept node hnode]
  cases met with
  | true => rfl
  | false =>
      simp only [Option.bind_eq_bind, Option.bind_some, improves_frame h, keep_frame h,
        Bool.not_false, Bool.false_eq_true, if_true, if_false]
      split
      · rfl
      · rfl

theorem step?_eq (h : t?.Agrees t) (hb : Sound t b) {c : Candidate} (hc : c.label < t.size) :
    step? t? b c = some (step t b c) := by
  rw [step?, h.neighbours c.label hc, step]
  have hmeet : ∀ b, ∀ node ∈ t.neighbours c.label, Sound t b →
      meet? t? b node = some (meet t b node) ∧ Sound t (meet t b node) := by
    intro b node hnode hb
    exact ⟨meet?_eq h hb.size (h.closed c.label hc node hnode), meet_sound hb node⟩
  exact (foldlM_eq_some hmeet hb).1

/-- A walk that may take no more steps than there are left comes to its end. -/
theorem run?_eq (h : t?.Agrees t) {fuel : Nat} (hb : Sound t b) (hfuel : b.pending ≤ fuel) :
    run? t? fuel b = some (run t fuel b) := by
  induction fuel generalizing b with
  | zero =>
      have hnone : b.frontier = [] := by
        have hlength : b.frontier.length ≤ b.pending := Nat.le_add_right _ _
        exact List.length_eq_zero_iff.1 (by omega)
      rw [run?, hnone, run]
  | succ fuel ih =>
      rw [run?, run]
      cases hfrontier : b.frontier with
      | nil => rfl
      | cons c rest =>
          dsimp only
          rw [hopeless_frame h]
          split
          · rfl
          · have hrest : Sound t { b with frontier := rest } :=
              { hb with
                frontier := fun d hd => hb.frontier d (hfrontier ▸ List.mem_cons_of_mem c hd) }
            have hc : c.label < t.size := by
              have hmet := (hb.frontier c (hfrontier ▸ List.mem_cons_self)).1
              exact hb.size ▸ hmet.lt
            have hstep := step_pending t { b with frontier := rest } c
            have hfewer : ({ b with frontier := rest } : Beam).pending + 1 = b.pending := by
              simp only [pending, hfrontier, List.length_cons]
              omega
            rw [step?_eq h hrest hc, Option.bind_eq_bind, Option.bind_some]
            exact ih (step_sound hrest c) (by omega)

/-- A search of a terrain whose neighbours all exist answers if there is room for its beam. -/
theorem search?_eq {machine : Machine} (h : t?.Agrees t)
    (hroom : machine.grants (t?.width + 1) = true) (starts : List Nat) :
    search? machine t? starts = some (search t starts) := by
  have hstart : ∀ b, ∀ node ∈ starts, (Sound t b ∧ b.pending = t.size) →
      start? t? b node = some (start t b node) ∧
        (Sound t (start t b node) ∧ (start t b node).pending = t.size) := by
    rintro b node - ⟨hb, hpending⟩
    exact ⟨start?_eq h hb.size node, start_sound hb node, (start_pending t b node).trans hpending⟩
  have hunmet : (⟨Array.replicate t.size false, [], []⟩ : Beam).pending = t.size := by
    simp [pending]
  obtain ⟨hfold, hsound, hpending⟩ := foldlM_eq_some hstart ⟨unmet_sound, hunmet⟩
  rw [search?, reserve?_eq hroom, h.size, Option.bind_eq_bind, Option.bind_some, hfold,
    Option.bind_eq_bind, Option.bind_some, run?_eq h hsound (Nat.le_of_eq hpending)]
  rfl

/-- Without room for the beam no search starts. -/
theorem search?_eq_none {machine : Machine} (hroom : machine.grants (t?.width + 1) = false)
    (starts : List Nat) : search? machine t? starts = none := by
  rw [search?, reserve?_eq_none hroom]
  rfl

theorem search?_extended (machine : Machine) (t? : Terrain.Guarded) (starts : List Nat) :
    ExtendedBy (search? machine t? starts) (search? .unlimited t? starts) :=
  (reserve?_extended machine _).bind fun _ => .refl _

end Beam

/-! ## Searches in links -/

namespace Links

variable {S E : Type} [Space S E]

/-- The links are over stored vectors, and all neighbours exist. -/
structure Over (g : Links) (total : Nat) : Prop where
  within : g.Within g.nodes.size
  size : g.nodes.size ≤ total

theorem Consistent.over {g : Links} {total : Nat} (h : g.Consistent total) : g.Over total where
  within := h.size ▸ h.within
  size := Nat.le_of_eq h.size

variable {machine : Machine} {g : Links} {storage : Flat S E} {accept? : Nat → Option Bool}
  {accept : Nat → Bool}

omit [Space S E] in
private theorem neighbours?_eq (g : Links) (level : Nat) :
    Below g.nodes.size (g.neighbours? level) (g.neighbours level) := by
  intro node hnode
  have hsome := Array.getElem?_eq_getElem hnode
  rw [neighbours?, neighbours, levelsOf, hsome]
  rfl

/-- A search in one level answers if there is room for its beam. -/
theorem layer?_eq (h : g.Over storage.total) (query : Array E) {level width : Nat}
    (hroom : machine.grants (width + 1) = true) (haccept : Below g.nodes.size accept? accept)
    (starts : List Nat) :
    g.layer? machine storage query level width accept? starts =
      some (g.layer (storage.costTo query) level width accept starts) := by
  refine Beam.search?_eq ?_ hroom starts
  exact
    { size := rfl
      width := rfl
      neighbours := neighbours?_eq g level
      distance := fun node hnode => storage.costTo?_eq query (Nat.lt_of_lt_of_le hnode h.size)
      accept := haccept
      closed := fun node _ => h.within.neighbours_lt level node }

theorem layer?_eq_none (g : Links) (storage : Flat S E) (query : Array E) (level : Nat)
    {width : Nat} (hroom : machine.grants (width + 1) = false) (accept? : Nat → Option Bool)
    (starts : List Nat) : g.layer? machine storage query level width accept? starts = none :=
  Beam.search?_eq_none hroom starts

/-- A walk of width one always has room. -/
theorem closest?_eq (h : g.Over storage.total) (query : Array E) (level start : Nat) :
    g.closest? machine storage query level start =
      some (g.closest (storage.costTo query) level start) := by
  rw [closest?, layer?_eq h query machine.two (below_some _ _), closest, Option.bind_eq_bind,
    Option.bind_some]
  cases g.layer (storage.costTo query) level 1 (fun _ => true) [start] with
  | nil => rfl
  | cons c rest => rfl

theorem descend?_eq (h : g.Over storage.total) (query : Array E) (floor level start : Nat) :
    g.descend? machine storage query floor level start =
      some (g.descend (storage.costTo query) floor level start) := by
  induction level generalizing start with
  | zero => rfl
  | succ level ih =>
      rw [descend?, descend]
      split
      · rw [closest?_eq h, Option.bind_eq_bind, Option.bind_some]
        exact ih _
      · rfl

/-- A search of links over stored vectors answers if there is room for the beam of the lowest
level. -/
theorem nearest?_eq (h : g.Over storage.total) (query : Array E) {width k : Nat}
    (hroom : machine.grants (max width k + 1) = true)
    (haccept : Below g.nodes.size accept? accept) :
    g.nearest? machine storage query width k accept? =
      some (g.nearest (storage.costTo query) width k accept) := by
  rw [nearest?, nearest]
  cases g.entry with
  | none => rfl
  | some entry =>
      dsimp only
      rw [descend?_eq h, Option.bind_eq_bind, Option.bind_some, layer?_eq h query hroom haccept]
      rfl

/-- Without that room there is no answer, unless there is nothing to search. -/
theorem nearest?_eq_none {entry : Nat} (hentry : g.entry = some entry) (storage : Flat S E)
    (query : Array E) {width k : Nat} (hroom : machine.grants (max width k + 1) = false)
    (accept? : Nat → Option Bool) :
    g.nearest? machine storage query width k accept? = none := by
  rw [nearest?, hentry]
  dsimp only
  cases g.descend? machine storage query 0 g.topLevel entry with
  | none => rfl
  | some start =>
      rw [Option.bind_eq_bind, Option.bind_some, layer?_eq_none g storage query 0 hroom]
      rfl

/-! ## More room -/

theorem layer?_extended (machine : Machine) (g : Links) (storage : Flat S E) (query : Array E)
    (level width : Nat) (accept? : Nat → Option Bool) (starts : List Nat) :
    ExtendedBy (g.layer? machine storage query level width accept? starts)
      (g.layer? .unlimited storage query level width accept? starts) :=
  Beam.search?_extended machine _ starts

theorem descend?_extended (machine : Machine) (g : Links) (storage : Flat S E) (query : Array E)
    (floor level start : Nat) :
    ExtendedBy (g.descend? machine storage query floor level start)
      (g.descend? .unlimited storage query floor level start) := by
  induction level generalizing start with
  | zero => exact .refl _
  | succ level ih =>
      rw [descend?, descend?]
      split
      · exact ((layer?_extended machine g storage query _ _ _ _).bind fun _ => .refl _).bind ih
      · exact .refl _

theorem nearest?_extended (machine : Machine) (g : Links) (storage : Flat S E) (query : Array E)
    (width k : Nat) (accept? : Nat → Option Bool) :
    ExtendedBy (g.nearest? machine storage query width k accept?)
      (g.nearest? .unlimited storage query width k accept?) := by
  rw [nearest?, nearest?]
  cases g.entry with
  | none => exact .refl _
  | some entry =>
      exact (descend?_extended machine g storage query _ _ _).bind fun _ =>
        (layer?_extended machine g storage query _ _ _ _).bind fun _ => .refl _

end Links

end Proximity

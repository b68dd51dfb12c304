import Proximity.Guarded.Linking
import Proximity.Proofs.Guarded.Walks
import Proximity.Proofs.Preservation

/-!
# When guarded insertions answer

The new node has room for neighbours on every level it is linked at, since linking keeps
the number of levels of every node; other nodes may have any number of levels.  So no
access of an insertion fails, and it answers if there is room for its beam and for the
selections that it makes.  The first node of a graph is not linked and needs none.

## Main definitions

* `Machine.roomToLink` — room for the insertion of nodes that are linked.
* `Links.Ready` — links over stored vectors with room for a node's neighbours.

## Main results

* `Links.select?_eq`, `Links.select?_eq_none` — a selection answers exactly if there is
  room for as many as it may select.
* `Links.insert?_eq`, `Graph.append?_eq` — an insertion and an append answer if there is room.
* `Graph.append?_eq_none` — without room for the beam or the selection, a second vector is
  not appended.
* `Graph.nearest?_eq`, `Graph.nearest?_eq_none` — searches of graphs.
* `Graph.append?_extended` — more room never changes an answer.
-/

namespace Proximity

open Guarded

/-- Whether there is room for the insertion of nodes that are linked: for the beam, for the
neighbours of the node, and for those of a node of the lowest level that are selected anew. -/
def Machine.roomToLink (machine : Machine) (degree width : Nat) : Bool :=
  machine.grants (max width degree + 1) && machine.grants degree && machine.grants (degree * 2)

variable {S E : Type} [Space S E]

/-- The cost between two stored vectors. -/
def Flat.between (f : Flat S E) (i j : Nat) : Single := f.costTo (f.vector j) i

namespace Links

/-! ## Selection -/

variable {machine : Machine} {g : Links} {storage : Flat S E}

private theorem diverse?_eq {limit : Nat} {selected passed cs : List Candidate}
    (hselected : ∀ c ∈ selected, c.label < storage.total)
    (hcs : ∀ c ∈ cs, c.label < storage.total) :
    diverse? storage limit selected passed cs =
      some (diverse storage.between limit selected passed cs) := by
  induction cs generalizing selected passed with
  | nil => rfl
  | cons c cs ih =>
      have hc := hcs c List.mem_cons_self
      have hrest : ∀ d ∈ cs, d.label < storage.total :=
        fun d hd => hcs d (List.mem_cons_of_mem c hd)
      have hmore : ∀ d ∈ selected ++ [c], d.label < storage.total := by
        intro d hd
        rcases List.mem_append.1 hd with hd | hd
        · exact hselected d hd
        · rw [List.mem_singleton.1 hd]
          exact hc
      have hall : (selected.allM fun s =>
          (storage.costTo? (storage.vector c.label) s.label).map c.cost.le) =
            some (selected.all fun s => c.cost.le (storage.between s.label c.label)) := by
        apply allM_eq_some
        intro s hs
        rw [storage.costTo?_eq _ (hselected s hs)]
        rfl
      rw [diverse?, diverse, storage.vector?_eq hc, Option.bind_eq_bind, Option.bind_some, hall,
        Option.bind_eq_bind, Option.bind_some]
      split
      · rfl
      · split
        · exact ih hmore hrest
        · exact ih hselected hrest

/-- A selection among stored vectors answers if there is room for as many as it may select. -/
theorem select?_eq {limit : Nat} (hroom : machine.grants limit = true) {cs : List Candidate}
    (hcs : ∀ c ∈ cs, c.label < storage.total) :
    select? machine storage limit cs = some (select storage.between limit cs) := by
  have hranked : ∀ c ∈ Candidate.ranked cs, c.label < storage.total :=
    fun c hc => hcs c ((Candidate.ranked_perm cs).mem_iff.1 hc)
  rw [select?, reserve?_eq hroom, Option.bind_eq_bind, Option.bind_some,
    diverse?_eq (fun c hc => absurd hc List.not_mem_nil) hranked]
  rfl

/-- Without that room there is no selection, however few the candidates are. -/
theorem select?_eq_none {limit : Nat} (hroom : machine.grants limit = false) (storage : Flat S E)
    (cs : List Candidate) : select? machine storage limit cs = none := by
  rw [select?, reserve?_eq_none hroom]
  rfl

/-! ## Room for neighbours -/

omit [Space S E] in
theorem length_levelsOf_setNeighbours (g : Links) (level node other : Nat) (list : List Nat) :
    ((g.setNeighbours level node list).levelsOf other).length = (g.levelsOf other).length := by
  rw [levelsOf, levelsOf, setNeighbours, Array.getElem?_modify]
  split
  · cases g.nodes[other]? with
    | none => rfl
    | some levels => exact List.length_set
  · rfl

/-- Links over stored vectors, where a node has at least `level` levels. -/
structure Ready (g : Links) (total node level : Nat) : Prop where
  stored : g.Over total
  present : node < g.nodes.size
  levels : level ≤ (g.levelsOf node).length

variable {total node level : Nat}

omit [Space S E] in
theorem Over.setNeighbours (h : g.Over total) {list : List Nat} (l n : Nat)
    (hlist : ∀ m ∈ list, m < g.nodes.size) : (g.setNeighbours l n list).Over total := by
  have hsize := (setNeighbours_frame g l n list).size
  constructor
  · rw [hsize]
    exact h.within.setNeighbours hlist
  · rw [hsize]
    exact h.size

omit [Space S E] in
theorem Ready.setNeighbours (h : g.Ready total node level) {list : List Nat} (l n : Nat)
    (hlist : ∀ m ∈ list, m < g.nodes.size) :
    (g.setNeighbours l n list).Ready total node level where
  stored := h.stored.setNeighbours l n hlist
  present := (setNeighbours_frame g l n list).size.symm ▸ h.present
  levels := by
    rw [length_levelsOf_setNeighbours]
    exact h.levels

omit [Space S E] in
/-- Neighbours may be replaced at a level that a node has. -/
theorem setNeighbours?_eq {l n : Nat} (hlevel : l < (g.levelsOf n).length) (list : List Nat) :
    g.setNeighbours? l n list = some (g.setNeighbours l n list) := by
  rw [levelsOf] at hlevel
  cases hnode : g.nodes[n]? with
  | none => simp [hnode] at hlevel
  | some levels =>
      rw [hnode, Option.getD_some] at hlevel
      rw [setNeighbours?, hnode, Option.bind_eq_bind, Option.bind_some, if_pos hlevel]

/-! ## Linking -/

/-- A link back from a node that exists answers, and leaves room where there was
some. -/
theorem Ready.connect? (h : g.Ready storage.total node level) (l : Nat) {limit : Nat}
    (hroom : machine.grants limit = true) {source : Nat} (hsource : source < g.nodes.size) :
    Links.connect? machine storage l limit node g source =
        some (connect storage.between l limit node g source) ∧
      (connect storage.between l limit node g source).Ready storage.total node level := by
  have hsome := Array.getElem?_eq_getElem hsource
  have hlevels : g.levelsOf source = g.nodes[source] := by
    rw [levelsOf, hsome]
    rfl
  rw [Links.connect?, connect, hsome, Option.bind_eq_bind, Option.bind_some, hlevels]
  cases hlist : g.nodes[source][l]? with
  | none => exact ⟨rfl, h⟩
  | some list =>
      have hplace : l < (g.levelsOf source).length := by
        rw [hlevels]
        exact (List.getElem?_eq_some_iff.1 hlist).1
      have hmembers : ∀ n ∈ list ++ [node], n < g.nodes.size := by
        intro n hn
        rcases List.mem_append.1 hn with hn | hn
        · exact h.stored.within.lt_of_mem_level (hlevels ▸ hlist) n hn
        · rw [List.mem_singleton.1 hn]
          exact h.present
      dsimp only
      split
      · have hvector := storage.vector?_eq (Nat.lt_of_lt_of_le hsource h.stored.size)
        have hcosts : ((list ++ [node]).mapM fun n =>
            (storage.costTo? (storage.vector source) n).map fun cost => (⟨cost, n⟩ : Candidate)) =
              some ((list ++ [node]).map fun n => ⟨storage.between n source, n⟩) := by
          apply mapM_eq_some
          intro n hn
          rw [storage.costTo?_eq _ (Nat.lt_of_lt_of_le (hmembers n hn) h.stored.size)]
          rfl
        have hlabels : ∀ c ∈ (list ++ [node]).map fun n =>
            (⟨storage.between n source, n⟩ : Candidate), c.label < g.nodes.size := by
          intro c hc
          obtain ⟨n, hn, rfl⟩ := List.mem_map.1 hc
          exact hmembers n hn
        have hselect := select?_eq hroom fun c hc =>
          Nat.lt_of_lt_of_le (hlabels c hc) h.stored.size
        simp only [hvector, hcosts, hselect, Option.bind_eq_bind, Option.bind_some]
        refine ⟨setNeighbours?_eq hplace _, h.setNeighbours _ _ fun n hn => ?_⟩
        obtain ⟨c, hc, rfl⟩ := mem_of_mem_select hn
        exact hlabels c hc
      · exact ⟨setNeighbours?_eq hplace _, h.setNeighbours _ _ hmembers⟩

private theorem foldlM_connect?_eq (h : g.Ready storage.total node level) (l : Nat) {limit : Nat}
    (hroom : machine.grants limit = true) {sources : List Nat}
    (hsources : ∀ n ∈ sources, n < g.nodes.size) :
    sources.foldlM (connect? machine storage l limit node) g =
        some (sources.foldl (connect storage.between l limit node) g) ∧
      (sources.foldl (connect storage.between l limit node) g).Ready storage.total node level ∧
        (sources.foldl (connect storage.between l limit node) g).nodes.size = g.nodes.size := by
  have hstep : ∀ i, ∀ source ∈ sources,
      (i.Ready storage.total node level ∧ i.nodes.size = g.nodes.size) →
        connect? machine storage l limit node i source =
            some (connect storage.between l limit node i source) ∧
          ((connect storage.between l limit node i source).Ready storage.total node level ∧
            (connect storage.between l limit node i source).nodes.size = g.nodes.size) := by
    rintro i source hsource ⟨hready, hsize⟩
    obtain ⟨hconnect, hnext⟩ := hready.connect? l hroom (hsize.symm ▸ hsources source hsource)
    exact ⟨hconnect, hnext, (connect_frame _ _ _ _ _ _).size.trans hsize⟩
  exact foldlM_eq_some hstep ⟨h, rfl⟩

private theorem grants_degreeAt {degree : Nat} (hdegree : machine.grants degree = true)
    (hground : machine.grants (degree * 2) = true) (level : Nat) :
    machine.grants (degreeAt degree level) = true := by
  rw [degreeAt]
  split
  · exact hground
  · exact hdegree

/-- A node that has room at all levels below some level can be linked at all of
them. -/
theorem linkBelow?_eq (h : g.Ready storage.total node level) {degree width : Nat}
    (hbeam : machine.grants (width + 1) = true) (hdegree : machine.grants degree = true)
    (hground : machine.grants (degree * 2) = true) (starts : List Nat) :
    linkBelow? machine storage (storage.vector node) degree width node level starts g =
      some (linkBelow storage.between degree width node level starts g) := by
  induction level generalizing starts g with
  | zero => rfl
  | succ level ih =>
      have hlayer : g.layer? machine storage (storage.vector node) level width
          (fun _ => some true) starts =
            some (g.layer (storage.costTo (storage.vector node)) level width (fun _ => true)
              starts) :=
        layer?_eq h.stored _ hbeam (below_some _ _) starts
      have hfinds := layer_finds g (storage.between · node) level width (fun _ => true) starts
      have hselect := select?_eq hdegree fun c hc =>
        Nat.lt_of_lt_of_le (hfinds.size c hc) h.stored.size
      have hchosen : ∀ n ∈ select storage.between degree
          (g.layer (storage.between · node) level width (fun _ => true) starts),
            n < g.nodes.size := by
        intro n hn
        obtain ⟨c, hc, rfl⟩ := mem_of_mem_select hn
        exact hfinds.size c hc
      rw [linkBelow?, linkBelow, hlayer, Option.bind_eq_bind, Option.bind_some]
      have hcost : storage.costTo (storage.vector node) = (storage.between · node) := rfl
      rw [hcost, hselect, Option.bind_eq_bind, Option.bind_some]
      generalize select storage.between degree
        (g.layer (storage.between · node) level width (fun _ => true) starts) = chosen at hchosen ⊢
      obtain ⟨hfold, hready, hsize⟩ := foldlM_connect?_eq h level
        (grants_degreeAt hdegree hground level) hchosen
      rw [hfold, Option.bind_eq_bind, Option.bind_some, setNeighbours?_eq hready.levels,
        Option.bind_some]
      have hnext := hready.setNeighbours level node (hsize.symm ▸ hchosen)
      exact ih ⟨hnext.stored, hnext.present, Nat.le_of_succ_le hnext.levels⟩ _

/-- The insertion of the next node answers if its vector is stored and there is room, or
nothing that it could be linked to. -/
theorem insert?_eq {degree width : Nat} (h : g.Consistent node) (hstored : node < storage.total)
    (hlevel : level ≤ levelLimit)
    (hroom : g.entry = none ∨ machine.roomToLink degree width = true) :
    insert? machine storage degree width level node g =
      some (insert storage.between degree width level node g) := by
  have hsize : (g.nodes.push (List.replicate (level + 1) [])).size = node + 1 := by
    rw [Array.size_push, h.size]
  have hready : Ready { g with nodes := g.nodes.push (List.replicate (level + 1) []) }
      storage.total node (level + 1) := by
    refine ⟨⟨?_, hsize ▸ hstored⟩, hsize ▸ Nat.lt_succ_self node, ?_⟩
    · rw [hsize]
      exact (h.within.mono (Nat.le_succ node)).push hlevel
    · have hlevels : (Links.levelsOf { g with
          nodes := g.nodes.push (List.replicate (level + 1) []) } node).length = level + 1 := by
        rw [levelsOf, ← h.size, Array.getElem?_push_size, Option.getD_some, List.length_replicate]
      exact Nat.le_of_eq hlevels.symm
  rw [insert?, insert]
  dsimp only
  generalize ({ g with nodes := g.nodes.push (List.replicate (level + 1) []) } : Links) = grown
    at hready ⊢
  cases hentry : g.entry with
  | none => rfl
  | some entry =>
      have hlinked := hroom.resolve_left (by rw [hentry]; exact Option.some_ne_none entry)
      rw [Machine.roomToLink, Bool.and_eq_true, Bool.and_eq_true] at hlinked
      obtain ⟨⟨hbeam, hdegree⟩, hground⟩ := hlinked
      have hlevels : grown.Ready storage.total node (min level g.topLevel + 1) :=
        ⟨hready.stored, hready.present, Nat.le_trans (by omega) hready.levels⟩
      have hcost : storage.costTo (storage.vector node) = (storage.between · node) := rfl
      dsimp only
      rw [storage.vector?_eq hstored, Option.bind_eq_bind, Option.bind_some,
        descend?_eq hready.stored, Option.bind_eq_bind, Option.bind_some,
        linkBelow?_eq hlevels hbeam hdegree hground,
        Option.bind_eq_bind, Option.bind_some, hcost]
      split
      · rfl
      · rfl

/-- Without room for the beam or for the neighbours no node is linked. -/
theorem linkBelow?_eq_none (g : Links) (storage : Flat S E) (query : Array E)
    {degree width : Nat}
    (hroom : machine.grants (width + 1) = false ∨ machine.grants degree = false)
    (node level : Nat) (starts : List Nat) :
    linkBelow? machine storage query degree width node (level + 1) starts g = none := by
  rw [linkBelow?]
  rcases hroom with hbeam | hdegree
  · rw [layer?_eq_none g storage query level hbeam]
    rfl
  · cases g.layer? machine storage query level width (fun _ => some true) starts with
    | none => rfl
    | some found =>
        rw [Option.bind_eq_bind, Option.bind_some, select?_eq_none hdegree]
        rfl

/-- Nor is one inserted that has to be linked, whatever its level is. -/
theorem insert?_eq_none {entry degree width : Nat} (hentry : g.entry = some entry)
    (hroom : machine.grants (max width degree + 1) = false ∨ machine.grants degree = false)
    (storage : Flat S E) (level node : Nat) :
    insert? machine storage degree width level node g = none := by
  rw [insert?, hentry]
  dsimp only
  cases storage.vector? node with
  | none => rfl
  | some query =>
      rw [Option.bind_eq_bind, Option.bind_some]
      cases descend? machine _ storage query level g.topLevel entry with
      | none => rfl
      | some start =>
          rw [Option.bind_eq_bind, Option.bind_some, linkBelow?_eq_none _ _ _ hroom]
          rfl

/-! ## More room -/

theorem select?_extended (machine : Machine) (storage : Flat S E) (limit : Nat)
    (cs : List Candidate) :
    ExtendedBy (select? machine storage limit cs) (select? .unlimited storage limit cs) :=
  (reserve?_extended machine limit).bind fun _ => .refl _

theorem connect?_extended (machine : Machine) (storage : Flat S E) (level limit target : Nat)
    (g : Links) (source : Nat) :
    ExtendedBy (connect? machine storage level limit target g source)
      (connect? .unlimited storage level limit target g source) := by
  rw [connect?, connect?]
  refine (ExtendedBy.refl _).bind fun levels => ?_
  cases levels[level]? with
  | none => exact .refl _
  | some list =>
      dsimp only
      split
      · exact (ExtendedBy.refl _).bind fun _ => (ExtendedBy.refl _).bind fun _ =>
          (select?_extended machine storage limit _).bind fun _ => .refl _
      · exact .refl _

theorem linkBelow?_extended (machine : Machine) (storage : Flat S E) (query : Array E)
    (degree width node level : Nat) (starts : List Nat) (g : Links) :
    ExtendedBy (linkBelow? machine storage query degree width node level starts g)
      (linkBelow? .unlimited storage query degree width node level starts g) := by
  induction level generalizing starts g with
  | zero => exact .refl _
  | succ level ih =>
      rw [linkBelow?, linkBelow?]
      refine (layer?_extended machine g storage query level width _ starts).bind fun found => ?_
      refine (select?_extended machine storage degree found).bind fun chosen => ?_
      refine (ExtendedBy.foldlM (connect?_extended machine storage level _ node) chosen g).bind
        fun linked => ?_
      exact (ExtendedBy.refl _).bind fun linked => ih _ linked

theorem insert?_extended (machine : Machine) (storage : Flat S E)
    (degree width level node : Nat) (g : Links) :
    ExtendedBy (insert? machine storage degree width level node g)
      (insert? .unlimited storage degree width level node g) := by
  rw [insert?, insert?]
  cases g.entry with
  | none => exact .refl _
  | some entry =>
      exact (ExtendedBy.refl _).bind fun query =>
        (descend?_extended machine _ storage query _ _ _).bind fun start =>
          (linkBelow?_extended machine storage query _ _ node _ _ _).bind fun _ => .refl _

end Links

/-! ## Graphs -/

namespace Graph

variable {machine : Machine} {g : Graph S E} {accept? : Nat → Option Bool} {accept : Nat → Bool}

/-- A search of a graph answers if there is room for its beam. -/
theorem nearest?_eq (h : g.links.Over g.storage.total) (query : Array E) {k : Nat}
    (hroom : machine.grants (max g.searchWidth k + 1) = true)
    (haccept : Below g.storage.total accept? accept) :
    g.nearest? machine query k accept? = some (g.nearest query k accept) :=
  Links.nearest?_eq h query hroom (haccept.mono h.size)

/-- Without that room there is no answer, unless there is nothing to search. -/
theorem nearest?_eq_none (h : g.links.Consistent g.storage.total) (htotal : g.storage.total ≠ 0)
    (query : Array E) {k : Nat} (hroom : machine.grants (max g.searchWidth k + 1) = false)
    (accept? : Nat → Option Bool) : g.nearest? machine query k accept? = none := by
  obtain ⟨entry, hentry⟩ := Option.ne_none_iff_exists'.1 (h.nonempty htotal)
  exact Links.nearest?_eq_none hentry g.storage query hroom accept?

theorem nearest?_extended (machine : Machine) (g : Graph S E) (query : Array E) (k : Nat)
    (accept? : Nat → Option Bool) :
    ExtendedBy (g.nearest? machine query k accept?) (g.nearest? .unlimited query k accept?) :=
  Links.nearest?_extended machine g.links g.storage query _ k accept?

/-! ## Appends -/

/-- Stored vectors are linked one by one, each after those before it. -/
private theorem foldlM_insertNode?_eq (g : Graph S E) {first count : Nat}
    (h : g.links.Consistent first) (hstored : first + count ≤ g.storage.total)
    (hroom : count = 0 ∨ first + count ≤ 1 ∨
      machine.roomToLink g.degree g.buildWidth = true) :
    (List.range' first count).foldlM (insertNode? machine) g =
      some ((List.range' first count).foldl insertNode g) := by
  induction count generalizing g first with
  | zero => rfl
  | succ count ih =>
      have hlevel := drawLevel_le g.seed g.levelScale first
      have hfirst : g.links.entry = none ∨
          machine.roomToLink g.degree g.buildWidth = true := by
        rcases hroom with hnone | hone | hroom
        · omega
        · exact .inl (h.entry_eq_none_iff.2 (by omega))
        · exact .inr hroom
      have hinsert : g.insertNode? machine first = some (g.insertNode first) := by
        rw [insertNode?, Links.insert?_eq h (by omega) hlevel hfirst]
        rfl
      have hnext : (g.insertNode first).links.Consistent (first + 1) := h.insert hlevel
      rw [List.range'_succ, List.foldlM_cons, List.foldl_cons, hinsert, Option.bind_eq_bind,
        Option.bind_some]
      refine ih (g.insertNode first) hnext (by rw [Nat.add_assoc, Nat.add_comm 1]; exact hstored) ?_
      rcases hroom with hnone | hone | hroom
      · omega
      · exact .inl (by omega)
      · exact .inr (.inr hroom)

/-- An append to a consistent graph answers if it is refused, if no node is linked, or if there
is room. -/
theorem append?_eq (h : g.Consistent) {elements : Array E}
    (hroom : elements.size % g.storage.unitLength = 0 →
      elements.size / g.storage.unitLength = 0 ∨
        g.storage.total + elements.size / g.storage.unitLength ≤ 1 ∨
          machine.roomToLink g.degree g.buildWidth = true) :
    g.append? machine elements = some (g.append elements) := by
  have hpos := h.storage.pos
  rw [append?, Flat.total?_eq hpos, Option.bind_eq_bind, Option.bind_some,
    Flat.append?_eq hpos, Option.bind_eq_bind, Option.bind_some]
  by_cases hwhole : elements.size % g.storage.unitLength = 0
  · obtain ⟨-, htotal⟩ := h.storage.append hwhole
    have hstorage : g.storage.append elements =
        ({ g.storage with data := g.storage.data ++ elements }, .ok ()) := by
      rw [Flat.append, Flat.checkWhole, if_pos hwhole]
    have hlinked := foldlM_insertNode?_eq
      { g with storage := { g.storage with data := g.storage.data ++ elements } }
      h.links (Nat.le_of_eq htotal.symm) (hroom hwhole)
    rw [hstorage, g.append_eq_of_whole hwhole]
    dsimp only
    rw [Flat.total?_eq (f := { g.storage with data := g.storage.data ++ elements }) hpos,
      Option.bind_eq_bind, Option.bind_some, htotal, Nat.add_sub_cancel_left, hlinked]
    rfl
  · have hstorage : g.storage.append elements =
        (g.storage, .error (.dimensionMismatch g.storage.unitLength
          (elements.size % g.storage.unitLength))) := by
      rw [Flat.append, Flat.checkWhole, if_neg hwhole]
    rw [hstorage, append, hstorage]
    rfl

/-- Without room no second node is linked. -/
private theorem foldlM_insertNode?_eq_none (g : Graph S E) {first count : Nat}
    (h : g.links.Consistent first) (hcount : count ≠ 0) (hsecond : 2 ≤ first + count)
    (hroom : machine.grants (max g.buildWidth g.degree + 1) = false ∨
      machine.grants g.degree = false) :
    (List.range' first count).foldlM (insertNode? machine) g = none := by
  have hlinked : ∀ (i : Graph S E) (entry node : Nat), i.links.entry = some entry →
      i.buildWidth = g.buildWidth → i.degree = g.degree → i.insertNode? machine node = none := by
    intro i entry node hentry hwidth hdegree
    rw [insertNode?, Links.insert?_eq_none hentry (by rw [hwidth, hdegree]; exact hroom)]
    rfl
  obtain ⟨count, rfl⟩ := Nat.exists_eq_succ_of_ne_zero hcount
  rw [List.range'_succ, List.foldlM_cons]
  cases hentry : g.links.entry with
  | some entry =>
      rw [hlinked g entry first hentry rfl rfl]
      rfl
  | none =>
      -- The first node of all is inserted, and the one after it has to be linked.
      obtain ⟨count, rfl⟩ := Nat.exists_eq_succ_of_ne_zero (n := count) (by
        have hnone := h.entry_eq_none_iff.1 hentry
        omega)
      obtain ⟨i, hi, hnext, hwidth, hdegree⟩ : ∃ i, g.insertNode? machine first = some i ∧
          i.links.entry = some first ∧ i.buildWidth = g.buildWidth ∧ i.degree = g.degree := by
        rw [insertNode?, Links.insert?, hentry]
        exact ⟨_, rfl, rfl, rfl, rfl⟩
      rw [hi, Option.bind_eq_bind, Option.bind_some, List.range'_succ, List.foldlM_cons,
        hlinked i first (first + 1) hnext hwidth hdegree]
      rfl

/-- A second vector is not appended without room for the beam and the neighbours of its
node. -/
theorem append?_eq_none (h : g.Consistent) {elements : Array E}
    (hwhole : elements.size % g.storage.unitLength = 0)
    (hcount : elements.size / g.storage.unitLength ≠ 0)
    (hsecond : 2 ≤ g.storage.total + elements.size / g.storage.unitLength)
    (hroom : machine.grants (max g.buildWidth g.degree + 1) = false ∨
      machine.grants g.degree = false) :
    g.append? machine elements = none := by
  have hpos := h.storage.pos
  obtain ⟨-, htotal⟩ := h.storage.append hwhole
  have hstorage : g.storage.append elements =
      ({ g.storage with data := g.storage.data ++ elements }, .ok ()) := by
    rw [Flat.append, Flat.checkWhole, if_pos hwhole]
  let grown : Graph S E :=
    { g with storage := { g.storage with data := g.storage.data ++ elements } }
  have hlinked : (List.range' g.storage.total (elements.size / g.storage.unitLength)).foldlM
      (insertNode? machine) grown = none :=
    foldlM_insertNode?_eq_none grown h.links hcount hsecond hroom
  rw [append?, Flat.total?_eq hpos, Option.bind_eq_bind, Option.bind_some, Flat.append?_eq hpos,
    Option.bind_eq_bind, Option.bind_some, hstorage]
  dsimp only
  have hgrown : grown.storage.total? = some grown.storage.total := Flat.total?_eq hpos
  rw [hgrown, Option.bind_eq_bind, Option.bind_some, htotal, Nat.add_sub_cancel_left, hlinked]
  rfl

theorem append?_extended (machine : Machine) (g : Graph S E) (elements : Array E) :
    ExtendedBy (g.append? machine elements) (g.append? .unlimited elements) := by
  rw [append?, append?]
  refine (ExtendedBy.refl _).bind fun first => (ExtendedBy.refl _).bind fun appended => ?_
  obtain ⟨storage, outcome⟩ := appended
  cases outcome with
  | error e => exact .refl _
  | ok u =>
      refine (ExtendedBy.refl _).bind fun last => ExtendedBy.bind ?_ fun _ => .refl _
      exact ExtendedBy.foldlM (fun i node => (Links.insert?_extended machine _ _ _ _ _ _).map _) _ _

end Graph

end Proximity

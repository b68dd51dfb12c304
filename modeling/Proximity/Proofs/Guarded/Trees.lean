import Proximity.Guarded.Trees
import Proximity.Proofs.Guarded.Linking
import Proximity.Proofs.Guarded.Training

/-!
# When guarded trees answer

Whatever a search of a searchable tree looks at exists, so it answers, whatever the query
and the filter are, if there is room for the beams of the graphs that it asks.  The
changes of a consistent tree answer if there is room for what they insert into its graphs;
a change that is refused is refused before it comes to that.

How much room is needed depends on the settings of a tree, and for changes on how many
vectors there are.

## Main definitions

* `Settings.roomToSearch`, `Settings.roomToAppend`, `Settings.roomToTrain` — whether there
  is room for the parts of an operation.
* `Index.canSearch`, `Index.canAppend`, `Index.canTrain` — whether there is room for an
  operation.

## Main results

* `Index.search?_eq`, `Index.search?_eq_none` — a search answers exactly if there is room.
* `Index.append?_eq`, `Index.train?_eq` — a change answers if it is refused or there is room.
* `Index.append?_extended`, `Index.train?_extended` — more room never changes an answer.
* `Index.search?_agrees`, `Index.append?_agrees`, `Index.train?_agrees` — guarded operations
  answer what the total ones do.
* `IdMap.search?_agrees`, `IdMap.append?_agrees` — the same of id maps.
-/

namespace Proximity

open Guarded

variable {S E : Type}

/-! ## Room -/

namespace Settings

/-- Whether there is room for the beams of a search for `k` candidates. -/
def roomToSearch (machine : Machine) : Settings → Nat → Bool
  | .flat, _ => true
  | .invertedFile listCount probes quantizer, _ =>
    quantizer.roomToSearch machine (min probes listCount)
  | .graph _ _ searchWidth, k => machine.grants (max searchWidth k + 1)
  | .composite factor base, k => base.roomToSearch machine (Index.fetchCount factor k)

/-- Whether there is room to append `count` vectors to `total` others.  A quantizer is asked
for the list of each; the first vector of a graph is not linked. -/
def roomToAppend (machine : Machine) (total count : Nat) : Settings → Bool
  | .flat => true
  | .invertedFile _ _ quantizer => count == 0 || quantizer.roomToSearch machine 1
  | .graph degree buildWidth _ =>
    count == 0 || decide (total + count ≤ 1) || machine.roomToLink degree buildWidth
  | .composite _ base => base.roomToAppend machine total count

/-- Whether there is room to give an inverted file its centroids. -/
def roomToTrain (machine : Machine) : Settings → Bool
  | .flat | .graph .. => true
  | .invertedFile listCount _ quantizer => quantizer.roomToAppend machine 0 listCount
  | .composite _ base => base.roomToTrain machine

@[simp] theorem roomToSearch_unlimited (s : Settings) (k : Nat) :
    s.roomToSearch .unlimited k = true := by
  induction s generalizing k with
  | flat => rfl
  | invertedFile listCount probes quantizer ih => exact ih _
  | graph degree buildWidth searchWidth => rfl
  | composite factor base ih => exact ih _

@[simp] theorem roomToAppend_unlimited (s : Settings) (total count : Nat) :
    s.roomToAppend .unlimited total count = true := by
  induction s with
  | flat => rfl
  | invertedFile listCount probes quantizer => simp [roomToAppend]
  | graph degree buildWidth searchWidth =>
      simp [roomToAppend, Machine.roomToLink, Machine.unlimited]
  | composite factor base ih => exact ih

@[simp] theorem roomToTrain_unlimited (s : Settings) : s.roomToTrain .unlimited = true := by
  induction s with
  | flat => rfl
  | invertedFile listCount probes quantizer => exact roomToAppend_unlimited quantizer 0 listCount
  | graph degree buildWidth searchWidth => rfl
  | composite factor base ih => exact ih

end Settings

namespace Index

/-- Whether there is room for a search.  It looks at nothing if nothing is asked for or
stored. -/
def canSearch (machine : Machine) (index : Index S E) (k : Nat) : Bool :=
  k == 0 || index.total == 0 || index.settings.roomToSearch machine k

/-- Whether there is room for a search within a distance, which asks no graph but the quantizer
of an inverted file. -/
def canSearchRange (machine : Machine) : Index S E → Bool
  | .invertedFile f quantizer => quantizer.settings.roomToSearch machine f.probeCount
  | .flat _ | .graph _ | .composite .. => true

/-- Whether there is room to append so many vectors. -/
def canAppend (machine : Machine) (index : Index S E) (count : Nat) : Bool :=
  index.settings.roomToAppend machine index.total count

/-- Whether there is room for a training.  A trained tree learns nothing. -/
def canTrain (machine : Machine) (index : Index S E) : Bool :=
  index.isTrained || index.settings.roomToTrain machine

@[simp] theorem canSearch_unlimited (index : Index S E) (k : Nat) :
    index.canSearch .unlimited k = true := by
  simp [canSearch]

@[simp] theorem canSearchRange_unlimited (index : Index S E) :
    index.canSearchRange .unlimited = true := by
  cases index with
  | invertedFile f quantizer => exact Settings.roomToSearch_unlimited _ _
  | flat f | graph g | composite base copies factor => rfl

@[simp] theorem canAppend_unlimited (index : Index S E) (count : Nat) :
    index.canAppend .unlimited count = true :=
  Settings.roomToAppend_unlimited _ _ _

@[simp] theorem canTrain_unlimited (index : Index S E) : index.canTrain .unlimited = true := by
  simp [canTrain]

end Index

/-! ## Lists -/

namespace InvertedFile

variable {f : InvertedFile S E}

theorem insertAll?_eq {chosen : List (Nat × Array E)}
    (hlists : ∀ c ∈ chosen, c.1 < f.lists.size) :
    f.insertAll? chosen = some (f.insertAll chosen) := by
  have hstep : ∀ g : InvertedFile S E, ∀ c ∈ chosen, g.lists.size = f.lists.size →
      g.insert? c.1 c.2 = some (g.insert c.1 c.2) ∧
        (g.insert c.1 c.2).lists.size = f.lists.size := by
    intro g c hc hsize
    have hlt : c.1 < g.lists.size := hsize.symm ▸ hlists c hc
    refine ⟨?_, Array.size_modify.trans hsize⟩
    rw [insert?, Array.getElem?_eq_getElem hlt]
    rfl
  exact (foldlM_eq_some hstep rfl).1

variable [Space S E] {centroids : Nat} {accept? : Nat → Option Bool} {accept : Nat → Bool}
  {probed : List Nat}

theorem candidates?_eq (h : f.Filed centroids) (hpos : 0 < f.unitLength)
    (hprobed : ∀ list ∈ probed, list < f.lists.size) (query : Array E)
    (haccept : Below f.total accept? accept) :
    f.candidates? probed query accept? = some (f.candidates probed query accept) := by
  rw [candidates?, mapM_eq_some]
  · rw [candidates, List.flatMap_def]
    rfl
  · intro list hlist
    have hlt := hprobed list hlist
    have hlabels : ∀ e ∈ (f.lists[list]).entries f.unitLength,
        accept? e.1 = some (accept e.1) := by
      intro e he
      have hlabel := Array.mem_toList_iff.1 (List.of_mem_zip he).1
      exact haccept e.1 (h.labels _ (Array.getElem_mem hlt) e.1 hlabel)
    rw [Array.getElem?_eq_getElem hlt, Option.bind_eq_bind, Option.bind_some, chunks?_eq hpos,
      Option.bind_eq_bind, Option.bind_some, Option.getD_some]
    exact scan?_eq hlabels

end InvertedFile

namespace Index

variable [Space S E] {machine : Machine} {index : Index S E} {accept? : Nat → Option Bool}
  {accept : Nat → Bool}

/-! ## Searches answer -/

omit [Space S E] in
theorem total?_eq (h : index.Searchable) : index.total? = some index.total := by
  cases index with
  | flat f => exact Flat.total?_eq h
  | graph g => exact Flat.total?_eq h.1
  | invertedFile f quantizer => rfl
  | composite base copies factor => exact Flat.total?_eq h.2.1

omit [Space S E] in
theorem isTrained?_eq (h : index.Searchable) : index.isTrained? = some index.isTrained := by
  induction index with
  | flat f => rfl
  | graph g => rfl
  | invertedFile f quantizer =>
      rw [isTrained?, total?_eq h.1]
      rfl
  | composite base copies factor ih => exact ih h.1

/-- The lists that a query looks at exist, since a quantizer that finds anything
holds a centroid to each list. -/
private theorem probed_lt {f : InvertedFile S E} {quantizer : Index S E}
    (h : (Index.invertedFile f quantizer).Searchable) (query : Array E) :
    ∀ list ∈ (quantizer.nearest query f.probeCount fun _ => true).map (·.label),
      list < f.lists.size := by
  obtain ⟨hq, -, hf⟩ := h
  intro list hlist
  obtain ⟨c, hc, rfl⟩ := List.mem_map.1 hlist
  have hlt := hq.label_lt hc
  rwa [hf.full (by omega)] at hlt

/-- A tree finds its candidates if there is room, whatever the filter says of labels
that exist. -/
theorem nearest?_eq (h : index.Searchable) (query : Array E) {k : Nat}
    (hroom : index.settings.roomToSearch machine k = true)
    (haccept : Below index.total accept? accept) :
    index.nearest? machine query k accept? = some (index.nearest query k accept) := by
  induction index generalizing k accept? accept with
  | flat f => exact Flat.nearest?_eq h query k haccept
  | graph g => exact Graph.nearest?_eq h.2.over query hroom haccept
  | invertedFile f quantizer ih =>
      have hprobed := probed_lt h query
      have hprobes : quantizer.settings.roomToSearch machine f.probeCount = true := hroom
      rw [nearest?, ih h.1 hprobes (below_some _ _), Option.bind_eq_bind, Option.bind_some,
        InvertedFile.nearest?, InvertedFile.candidates?_eq h.2.2 h.2.1 hprobed query haccept]
      rfl
  | composite base copies factor ih =>
      have htotal : copies.total = base.total := h.2.2
      have hcosts : ((base.nearest query (fetchCount factor k) accept).mapM fun c =>
          (copies.costTo? query c.label).map fun cost => (⟨cost, c.label⟩ : Candidate)) =
            some ((base.nearest query (fetchCount factor k) accept).map fun c =>
              ⟨copies.costTo query c.label, c.label⟩) := by
        apply mapM_eq_some
        intro c hc
        have hlt := h.1.label_lt hc
        rw [copies.costTo?_eq query (htotal ▸ hlt)]
        rfl
      rw [nearest?, ih h.1 hroom (haccept.mono (Nat.le_of_eq htotal.symm)), Option.bind_eq_bind,
        Option.bind_some, hcosts]
      rfl

/-- Without room nothing is found in a tree that holds something. -/
theorem nearest?_eq_none (h : index.Searchable) (htotal : index.total ≠ 0) (query : Array E)
    {k : Nat} (hroom : index.settings.roomToSearch machine k = false)
    (accept? : Nat → Option Bool) : index.nearest? machine query k accept? = none := by
  induction index generalizing k accept? with
  | flat f => cases hroom
  | graph g => exact Graph.nearest?_eq_none h.2 htotal query hroom accept?
  | invertedFile f quantizer ih =>
      have hsome : quantizer.total ≠ 0 := fun hnone => htotal (h.2.2.untrained hnone)
      have hprobes : quantizer.settings.roomToSearch machine f.probeCount = false := hroom
      rw [nearest?, ih h.1 hsome hprobes]
      rfl
  | composite base copies factor ih =>
      have hsome : base.total ≠ 0 := h.2.2 ▸ htotal
      rw [nearest?, ih h.1 hsome hroom]
      rfl

theorem within?_eq (h : index.Searchable) (query : Array E) (bound : Single)
    (hroom : index.canSearchRange machine = true)
    (haccept : Below index.total accept? accept) :
    index.within? machine query bound accept? = some (index.within query bound accept) := by
  cases index with
  | flat f => exact Flat.within?_eq h query bound haccept
  | graph g => exact Flat.within?_eq h.1 query bound haccept
  | invertedFile f quantizer =>
      have hprobed := probed_lt h query
      rw [within?, nearest?_eq h.1 query hroom (below_some _ _),
        Option.bind_eq_bind, Option.bind_some, InvertedFile.within?,
        InvertedFile.candidates?_eq h.2.2 h.2.1 hprobed query haccept]
      rfl
  | composite base copies factor => exact Flat.within?_eq h.2.1 query bound haccept

omit [Space S E] in
theorem checkQuery_eq_ok_iff {query : Array E} :
    index.checkQuery query = .ok () ↔ query.size = index.unitLength := by
  rw [checkQuery]
  split
  · rename_i hwidth
    exact iff_of_true rfl hwidth
  · rename_i hwidth
    exact iff_of_false (fun hok => nomatch hok) hwidth

/-- A search answers if it is refused or there is room. -/
theorem search?_eq (h : index.Searchable) (query : Array E) {k : Nat}
    (hroom : query.size = index.unitLength → index.canSearch machine k = true)
    (haccept : Below index.total accept? accept) :
    index.search? machine query k accept? = some (index.search query k accept) := by
  rw [search?, search]
  cases hcheck : index.checkQuery query with
  | error e => rfl
  | ok u =>
      have hcan := hroom (checkQuery_eq_ok_iff.1 hcheck)
      rw [total?_eq h]
      by_cases hk : k = 0
      · simp [hk, bind, Except.bind, pure, Except.pure]
      · by_cases htotal : index.total = 0
        · simp [hk, htotal, bind, Except.bind, pure, Except.pure]
        · have hbeams : index.settings.roomToSearch machine k = true := by
            simpa [canSearch, hk, htotal] using hcan
          rw [nearest?_eq h query hbeams haccept]
          simp [hk, htotal, bind, Except.bind, pure, Except.pure]

/-- Without room it does not, unless the query is refused. -/
theorem search?_eq_none (h : index.Searchable) {query : Array E}
    (hwidth : query.size = index.unitLength) {k : Nat} (hroom : index.canSearch machine k = false)
    (accept? : Nat → Option Bool) : index.search? machine query k accept? = none := by
  simp only [canSearch, Bool.or_eq_false_iff, beq_eq_false_iff_ne] at hroom
  obtain ⟨⟨hk, htotal⟩, hbeams⟩ := hroom
  have hcheck : index.checkQuery query = .ok () := if_pos hwidth
  rw [search?, hcheck]
  dsimp only
  rw [total?_eq h, if_neg hk, Option.bind_eq_bind, Option.bind_some, if_neg htotal,
    nearest?_eq_none h htotal query hbeams]
  rfl

/-- A query of another width is refused, with room or without. -/
theorem search?_eq_of_width (index : Index S E) {query : Array E}
    (hwidth : query.size ≠ index.unitLength) (k : Nat) (accept? : Nat → Option Bool) :
    index.search? machine query k accept? =
      some (.error (.dimensionMismatch index.unitLength query.size)) := by
  have hcheck : index.checkQuery query =
      .error (.dimensionMismatch index.unitLength query.size) := if_neg hwidth
  rw [search?, hcheck]

-- Two centroids lead out of a single list.
example :
    (Index.invertedFile ⟨⟨⟩, 8, 1, 2, 2, .standard, #[⟨#[0], #[1]⟩], 1⟩
      (.flat ⟨⟨⟩, 8, 1, #[1, 2]⟩) : Index BinarySpace UInt8).search? .unlimited #[3] 1
        (fun _ => some true) = none := by
  decide +kernel

theorem searchRange?_eq (h : index.Searchable) (query : Array E) (radius : Single)
    (hroom : index.canSearchRange machine = true)
    (haccept : Below index.total accept? accept) :
    index.searchRange? machine query radius accept? =
      some (index.searchRange query radius accept) := by
  rw [searchRange?, searchRange]
  cases index.checkQuery query with
  | error e => rfl
  | ok u =>
      rw [within?_eq h query _ hroom haccept]
      rfl

/-! ## Changes answer -/

theorem listFor?_eq (h : index.Searchable) (hroom : index.settings.roomToSearch machine 1 = true)
    (vector : Array E) : index.listFor? machine vector = some (index.listFor vector) := by
  rw [listFor?, nearest?_eq h vector hroom (below_some _ _), listFor, Option.bind_eq_bind,
    Option.bind_some]
  cases index.nearest vector 1 fun _ => true with
  | nil => rfl
  | cons c rest => rfl

/-- An append to a consistent tree answers if it is refused or there is room. -/
theorem append?_eq (h : index.Consistent) {elements : Array E}
    (hroom : (index.append elements).2 = .ok () →
      index.canAppend machine (elements.size / index.unitLength) = true) :
    index.append? machine elements = some (index.append elements) := by
  induction index with
  | flat f =>
      rw [append?, Flat.append?_eq (Flat.Consistent.pos h)]
      rfl
  | graph g =>
      have hneeded : elements.size % g.storage.unitLength = 0 →
          elements.size / g.storage.unitLength = 0 ∨
            g.storage.total + elements.size / g.storage.unitLength ≤ 1 ∨
              machine.roomToLink g.degree g.buildWidth = true := by
        intro hwhole
        have haccepted : ((Index.graph g).append elements).2 = .ok () := by
          rw [append, g.append_eq_of_whole hwhole]
        have hneeded : (Settings.graph g.degree g.buildWidth g.searchWidth).roomToAppend machine
            g.storage.total (elements.size / g.storage.unitLength) = true := hroom haccepted
        simpa only [Settings.roomToAppend, Bool.or_eq_true, beq_iff_eq, decide_eq_true_eq,
          or_assoc] using hneeded
      rw [append?, Graph.append?_eq h hneeded]
      rfl
  | invertedFile f quantizer =>
      have hpos : 0 < f.unitLength := h.pos
      rw [append?, total?_eq h.1.searchable, remainder?_eq hpos, chunks?_eq hpos]
      by_cases htrained : quantizer.total = f.listCount
      · by_cases hwhole : elements.size % f.unitLength = 0
        · rw [append_invertedFile_of_whole f htrained hwhole] at hroom ⊢
          have hneeded : (elements.size / f.unitLength == 0 ||
              quantizer.settings.roomToSearch machine 1) = true := hroom rfl
          rw [Bool.or_eq_true, beq_iff_eq] at hneeded
          have hchosen : (vectorsOf f.unitLength elements).mapM (fun v =>
              (quantizer.listFor? machine v).map fun list => (list, v)) =
                some ((vectorsOf f.unitLength elements).map fun v => (quantizer.listFor v, v)) := by
            apply mapM_eq_some
            intro v hv
            have hsome := List.length_pos_of_mem hv
            rw [length_vectorsOf] at hsome
            rw [listFor?_eq h.1.searchable (hneeded.resolve_left (Nat.ne_of_gt hsome))]
            rfl
          have hlists : ∀ c ∈ (vectorsOf f.unitLength elements).map fun v =>
              (quantizer.listFor v, v), c.1 < f.lists.size := by
            intro c hc
            obtain ⟨v, -, rfl⟩ := List.mem_map.1 hc
            have hlists := h.2.2.2.listCount
            rw [h.2.2.2.size, ← htrained]
            exact h.1.searchable.listFor_lt (by omega) v
          simp [htrained, hwhole, hchosen, InvertedFile.insertAll?_eq hlists]
        · simp [append, Flat.checkWhole, htrained, hwhole]
      · simp [append, htrained]
  | composite base copies factor ih =>
      rw [append?, isTrained?_eq h.1.searchable, Option.bind_eq_bind, Option.bind_some]
      cases htrained : base.isTrained with
      | false => simp [append, htrained]
      | true =>
          have hbase : base.append? machine elements = some (base.append elements) := by
            refine ih h.1 fun hok => ?_
            obtain ⟨-, hwhole⟩ := h.1.aligned.of_append_eq_ok (Prod.ext rfl hok)
            have haligned : (Index.composite base copies factor).Aligned := Consistent.aligned h
            have haccepted : ((Index.composite base copies factor).append elements).2 = .ok () := by
              rw [Aligned.append_of_trained haligned htrained hwhole]
            have hneeded := hroom haccepted
            rwa [canAppend, settings, Settings.roomToAppend, total, h.2.2.2.1] at hneeded
          rw [append, htrained, hbase]
          simp only [Option.bind_eq_bind, Option.bind_some, if_true]
          cases base.append elements with
          | mk base' outcome =>
              cases outcome with
              | error e => rfl
              | ok u =>
                  dsimp only
                  rw [Flat.append?_eq h.2.1.pos]
                  rfl

/-- A training of a consistent tree answers if it is refused or there is room. -/
theorem train?_eq [Space.GuardsCentroid S] [Space.KeepsWidth S] (h : index.Consistent)
    {sample : Array E}
    (hroom : (index.train sample).2 = .ok () → index.canTrain machine = true) :
    index.train? machine sample = some (index.train sample) := by
  induction index with
  | flat f => rfl
  | graph g => rfl
  | invertedFile f quantizer =>
      have hpos : 0 < f.unitLength := h.pos
      have hcount := Nat.pos_of_ne_zero h.2.2.2.listCount
      rw [train?, total?_eq h.1.searchable, Clustering.train?_eq _ _ hpos hcount]
      by_cases hshort : sample.size < f.unitLength
      · simp [train, hshort]
      · by_cases htrained : quantizer.total = f.listCount
        · simp [train, hshort, htrained]
        · cases htrain : Clustering.train f.space f.clustering f.unitLength f.listCount sample with
          | error e => simp [train, hshort, htrained, htrain]
          | ok centroids =>
              have hempty := h.2.2.2.empty_of_not_full htrained
              have hsize := Clustering.size_of_train hcount htrain
              have happend : quantizer.append? machine centroids =
                  some (quantizer.append centroids) := by
                refine append?_eq h.1 fun hok => ?_
                have haccepted : ((Index.invertedFile f quantizer).train sample).2 = .ok () := by
                  simp [train, hshort, htrained, htrain, hok]
                have hneeded : quantizer.settings.roomToAppend machine 0 f.listCount = true := by
                  simpa [canTrain, isTrained, htrained, settings, Settings.roomToTrain] using
                    hroom haccepted
                rwa [canAppend, hempty, hsize, h.2.1, Nat.mul_div_cancel _ hpos]
              simp [train, hshort, htrained, htrain, happend]
  | composite base copies factor ih =>
      by_cases hshort : sample.size < base.unitLength
      · simp [train?, train, hshort]
      · have hbase : base.train? machine sample = some (base.train sample) := by
          refine ih h.1 fun hok => ?_
          have haccepted : ((Index.composite base copies factor).train sample).2 = .ok () := by
            simp [train, hshort, hok]
          exact hroom haccepted
        simp [train?, train, hshort, hbase]

/-! ## More room -/

theorem nearest?_extended (machine : Machine) (index : Index S E) (query : Array E) (k : Nat)
    (accept? : Nat → Option Bool) :
    ExtendedBy (index.nearest? machine query k accept?)
      (index.nearest? .unlimited query k accept?) := by
  induction index generalizing k accept? with
  | flat f => exact .refl _
  | graph g => exact Graph.nearest?_extended machine g query k accept?
  | invertedFile f quantizer ih => exact (ih _ _).bind fun _ => .refl _
  | composite base copies factor ih => exact (ih _ _).bind fun _ => .refl _

theorem listFor?_extended (machine : Machine) (index : Index S E) (vector : Array E) :
    ExtendedBy (index.listFor? machine vector) (index.listFor? .unlimited vector) :=
  (nearest?_extended machine index vector 1 _).bind fun _ => .refl _

theorem append?_extended (machine : Machine) (index : Index S E) (elements : Array E) :
    ExtendedBy (index.append? machine elements) (index.append? .unlimited elements) := by
  induction index with
  | flat f => exact .refl _
  | graph g => exact (Graph.append?_extended machine g elements).map _
  | invertedFile f quantizer =>
      rw [append?, append?]
      refine (ExtendedBy.refl _).bind fun centroids => ?_
      split
      · exact .refl _
      · refine (ExtendedBy.refl _).bind fun rest => ?_
        split
        · exact .refl _
        · refine (ExtendedBy.refl _).bind fun vectors => ExtendedBy.bind ?_ fun _ => .refl _
          exact ExtendedBy.mapM (fun v => (listFor?_extended machine quantizer v).map _) vectors
  | composite base copies factor ih =>
      rw [append?, append?]
      refine (ExtendedBy.refl _).bind fun trained => ?_
      split
      · exact ih.bind fun _ => .refl _
      · exact .refl _

theorem train?_extended [Space.GuardsCentroid S] (machine : Machine) (index : Index S E)
    (sample : Array E) :
    ExtendedBy (index.train? machine sample) (index.train? .unlimited sample) := by
  induction index with
  | flat f => exact .refl _
  | graph g => exact .refl _
  | invertedFile f quantizer =>
      rw [train?, train?]
      split
      · exact .refl _
      · refine (ExtendedBy.refl _).bind fun centroids => ?_
        split
        · exact .refl _
        · refine (ExtendedBy.refl _).bind fun trained => ?_
          cases trained with
          | error e => exact .refl _
          | ok found => exact (append?_extended machine quantizer found).bind fun _ => .refl _
  | composite base copies factor ih =>
      rw [train?, train?]
      split
      · exact .refl _
      · exact ih.map _

theorem searchRange?_extended (machine : Machine) (index : Index S E) (query : Array E)
    (radius : Single) (accept? : Nat → Option Bool) :
    ExtendedBy (index.searchRange? machine query radius accept?)
      (index.searchRange? .unlimited query radius accept?) := by
  rw [searchRange?, searchRange?]
  split
  · exact .refl _
  · refine ExtendedBy.bind ?_ fun _ => .refl _
    cases index with
    | flat f => exact .refl _
    | graph g => exact .refl _
    | invertedFile f quantizer =>
        exact (nearest?_extended machine quantizer query _ _).bind fun _ => .refl _
    | composite base copies factor => exact .refl _

/-! ## Agreement -/

/-- Whatever an append answers is what it answers with room. -/
theorem append?_agrees (machine : Machine) (h : index.Consistent) (elements : Array E) :
    Agrees ((index.append elements).2 = .ok () →
        index.canAppend machine (elements.size / index.unitLength) = true)
      (index.append? machine elements) (index.append elements) :=
  .of_extended (append?_extended machine index elements)
    (append?_eq h fun _ => canAppend_unlimited index _) (append?_eq h)

theorem train?_agrees [Space.GuardsCentroid S] [Space.KeepsWidth S] (machine : Machine)
    (h : index.Consistent) (sample : Array E) :
    Agrees ((index.train sample).2 = .ok () → index.canTrain machine = true)
      (index.train? machine sample) (index.train sample) :=
  .of_extended (train?_extended machine index sample)
    (train?_eq h fun _ => canTrain_unlimited index) (train?_eq h)

theorem search?_agrees (machine : Machine) (h : index.Searchable) (query : Array E) (k : Nat)
    (haccept : Below index.total accept? accept) :
    Agrees (query.size = index.unitLength → index.canSearch machine k = true)
      (index.search? machine query k accept?) (index.search query k accept) where
  same r hr := by
    by_cases hroom : query.size = index.unitLength → index.canSearch machine k = true
    · rw [search?_eq h query hroom haccept] at hr
      exact (Option.some.inj hr).symm
    · obtain ⟨hwidth, hroom⟩ := Classical.not_imp.1 hroom
      rw [search?_eq_none h hwidth (Bool.not_eq_true _ ▸ hroom)] at hr
      cases hr
  answered hroom := search?_eq h query hroom haccept

theorem searchRange?_agrees (machine : Machine) (h : index.Searchable) (query : Array E)
    (radius : Single) (haccept : Below index.total accept? accept) :
    Agrees (index.canSearchRange machine = true)
      (index.searchRange? machine query radius accept?) (index.searchRange query radius accept) :=
  .of_extended (searchRange?_extended machine index query radius accept?)
    (searchRange?_eq h query radius (canSearchRange_unlimited index) haccept)
    fun hroom => searchRange?_eq h query radius hroom haccept

/-! ## Hits -/

omit [Space S E] in
private theorem label_lt_of_mem_hits [Space S E] {cs : List Candidate}
    (hcs : ∀ c ∈ cs, c.label < index.total) : ∀ hit ∈ index.hits cs, hit.label < index.total := by
  intro hit hhit
  obtain ⟨c, hc, rfl⟩ := List.mem_map.1 hhit
  exact hcs c hc

/-- The labels of hits exist. -/
theorem label_lt_of_search (h : index.Searchable) {query : Array E} {k : Nat}
    {hits : List (Hit Nat)} (hsearch : index.search query k accept = .ok hits) :
    ∀ hit ∈ hits, hit.label < index.total := by
  obtain ⟨-, -, hsearch⟩ := Except.bind_eq_ok_iff.1 hsearch
  split at hsearch
  · obtain rfl := Except.ok.inj hsearch
    exact fun hit hhit => absurd hhit List.not_mem_nil
  · obtain rfl := Except.ok.inj hsearch
    exact label_lt_of_mem_hits fun c hc => h.label_lt hc

theorem label_lt_of_searchRange (h : index.Searchable) {query : Array E} {radius : Single}
    {hits : List (Hit Nat)} (hsearch : index.searchRange query radius accept = .ok hits) :
    ∀ hit ∈ hits, hit.label < index.total := by
  obtain ⟨-, -, hsearch⟩ := Except.bind_eq_ok_iff.1 hsearch
  obtain rfl := Except.ok.inj hsearch
  exact label_lt_of_mem_hits fun c hc => h.label_lt_of_within hc

end Index

/-! ## Id maps -/

namespace IdMap

variable [Space S E] {machine : Machine} {m : IdMap S E}

omit [Space S E] in
private theorem accept?_below (hids : m.ids.size = m.index.total) (accept : Int64 → Bool) :
    Below m.index.total (m.accept? accept) (accept ∘ m.idOf) := by
  intro label hlabel
  have hlt : label < m.ids.size := hids.symm ▸ hlabel
  rw [accept?, Function.comp, idOf, Array.getElem?_eq_getElem hlt]
  rfl

omit [Space S E] in
private theorem withIds?_eq (hids : m.ids.size = m.index.total)
    {r : Except Error (List (Hit Nat))}
    (hr : ∀ hits, r = .ok hits → ∀ hit ∈ hits, hit.label < m.index.total) :
    m.withIds? r = some (m.withIds <$> r) := by
  cases r with
  | error e => rfl
  | ok hits =>
      have hnames : hits.mapM (fun hit =>
          (m.ids[hit.label]?).map fun id => (⟨id, hit.distance⟩ : Hit Int64)) =
            some (m.withIds hits) := by
        apply mapM_eq_some
        intro hit hhit
        have hlt : hit.label < m.ids.size := hids.symm ▸ hr hits rfl hit hhit
        rw [idOf, Array.getElem?_eq_getElem hlt]
        rfl
      rw [withIds?, hnames]
      rfl

/-- A search of an id map answers if it is refused or there is room. -/
theorem search?_eq (h : m.index.Searchable) (hids : m.ids.size = m.index.total) (query : Array E)
    {k : Nat} (hroom : query.size = m.index.unitLength → m.index.canSearch machine k = true)
    (accept : Int64 → Bool) :
    m.search? machine query k accept = some (m.search query k accept) := by
  rw [search?, Index.search?_eq h query hroom (accept?_below hids accept)]
  exact withIds?_eq hids fun hits hsearch => Index.label_lt_of_search h hsearch

/-- Without room it does not, unless the query is refused. -/
theorem search?_eq_none (h : m.index.Searchable) {query : Array E}
    (hwidth : query.size = m.index.unitLength) {k : Nat}
    (hroom : m.index.canSearch machine k = false) (accept : Int64 → Bool) :
    m.search? machine query k accept = none := by
  rw [search?, Index.search?_eq_none h hwidth hroom]
  rfl

theorem search?_eq_of_width (m : IdMap S E) {query : Array E}
    (hwidth : query.size ≠ m.index.unitLength) (k : Nat) (accept : Int64 → Bool) :
    m.search? machine query k accept =
      some (.error (.dimensionMismatch m.index.unitLength query.size)) := by
  rw [search?, m.index.search?_eq_of_width hwidth]
  rfl

private theorem checkAppend?_eq (h : m.index.Consistent) (elements : Array E) (ids : Nat) :
    m.checkAppend? elements ids = some (m.checkAppend elements ids) := by
  have hpos := h.pos
  rw [checkAppend?, Index.isTrained?_eq h.searchable, remainder?_eq hpos, quotient?_eq hpos,
    checkAppend, Flat.checkWhole]
  cases htrained : m.index.isTrained with
  | false => rfl
  | true =>
      by_cases hwhole : elements.size % m.index.unitLength = 0
      · by_cases hcount : elements.size / m.index.unitLength = 0
        · simp [hwhole, hcount, bind, Except.bind, pure, throw, throwThe,
            MonadExceptOf.throw]
        · by_cases hids : ids = elements.size / m.index.unitLength
          · simp [hwhole, hcount, hids, bind, Except.bind, pure, Except.pure]
          · simp [hwhole, hcount, hids, bind, Except.bind, pure, throw, throwThe,
              MonadExceptOf.throw]
      · simp [hwhole, bind, Except.bind, pure]

/-- An append to an id map answers if it is refused or there is room. -/
theorem append?_eq (h : m.index.Consistent) {elements : Array E} {ids : Array Int64}
    (hroom : (m.append elements ids).2 = .ok () →
      m.index.canAppend machine (elements.size / m.index.unitLength) = true) :
    m.append? machine elements ids = some (m.append elements ids) := by
  rw [append?, checkAppend?_eq h, Option.bind_eq_bind, Option.bind_some]
  cases hcheck : m.checkAppend elements ids.size with
  | error e => simp [append, hcheck]
  | ok u =>
      have hindex : m.index.append? machine elements = some (m.index.append elements) := by
        refine Index.append?_eq h fun hok => hroom ?_
        rw [append, hcheck]
        dsimp only
        rw [show m.index.append elements = ((m.index.append elements).1, .ok ()) from
          Prod.ext rfl hok]
      rw [append, hcheck]
      dsimp only
      rw [hindex, Option.bind_eq_bind, Option.bind_some]
      cases m.index.append elements with
      | mk index outcome =>
          cases outcome with
          | error e => rfl
          | ok u => rfl

/-- So does an append of a batch. -/
theorem appendBatch?_eq (h : m.index.Consistent) {batch : Batch E} {ids : Array Int64}
    (hroom : (m.appendBatch batch ids).2 = .ok () →
      m.index.canAppend machine (batch.whole.size / m.index.unitLength) = true) :
    m.appendBatch? machine batch ids = some (m.appendBatch batch ids) := by
  rw [appendBatch] at hroom ⊢
  rw [appendBatch?]
  split
  · rename_i hdimension
    rw [if_pos hdimension] at hroom
    exact append?_eq h hroom
  · rfl

theorem append?_extended (machine : Machine) (m : IdMap S E) (elements : Array E)
    (ids : Array Int64) :
    ExtendedBy (m.append? machine elements ids) (m.append? .unlimited elements ids) := by
  refine (ExtendedBy.refl _).bind fun checked => ?_
  cases checked with
  | error e => exact .refl _
  | ok u => exact (Index.append?_extended machine m.index elements).bind fun _ => .refl _

theorem appendBatch?_extended (machine : Machine) (m : IdMap S E) (batch : Batch E)
    (ids : Array Int64) :
    ExtendedBy (m.appendBatch? machine batch ids) (m.appendBatch? .unlimited batch ids) := by
  rw [appendBatch?, appendBatch?]
  split
  · exact append?_extended machine m batch.whole ids
  · exact .refl _

/-- Whatever an append under ids answers is what it answers with room. -/
theorem append?_agrees (machine : Machine) (h : m.index.Consistent) (elements : Array E)
    (ids : Array Int64) :
    Agrees ((m.append elements ids).2 = .ok () →
        m.index.canAppend machine (elements.size / m.index.unitLength) = true)
      (m.append? machine elements ids) (m.append elements ids) :=
  .of_extended (append?_extended machine m elements ids)
    (append?_eq h fun _ => Index.canAppend_unlimited m.index _) (append?_eq h)

theorem appendBatch?_agrees (machine : Machine) (h : m.index.Consistent) (batch : Batch E)
    (ids : Array Int64) :
    Agrees ((m.appendBatch batch ids).2 = .ok () →
        m.index.canAppend machine (batch.whole.size / m.index.unitLength) = true)
      (m.appendBatch? machine batch ids) (m.appendBatch batch ids) :=
  .of_extended (appendBatch?_extended machine m batch ids)
    (appendBatch?_eq h fun _ => Index.canAppend_unlimited m.index _) (appendBatch?_eq h)

theorem search?_agrees (machine : Machine) (h : m.index.Searchable)
    (hids : m.ids.size = m.index.total) (query : Array E) (k : Nat) (accept : Int64 → Bool) :
    Agrees (query.size = m.index.unitLength → m.index.canSearch machine k = true)
      (m.search? machine query k accept) (m.search query k accept) :=
  (Index.search?_agrees machine h query k (accept?_below hids accept)).bind
    (.of_eq _ (withIds?_eq hids fun _ hsearch => Index.label_lt_of_search h hsearch))

theorem searchRange?_agrees (machine : Machine) (h : m.index.Searchable)
    (hids : m.ids.size = m.index.total) (query : Array E) (radius : Single)
    (accept : Int64 → Bool) :
    Agrees (m.index.canSearchRange machine = true)
      (m.searchRange? machine query radius accept) (m.searchRange query radius accept) :=
  (Index.searchRange?_agrees machine h query radius (accept?_below hids accept)).bind
    (.of_eq _ (withIds?_eq hids fun _ hsearch => Index.label_lt_of_searchRange h hsearch))

end IdMap

end Proximity

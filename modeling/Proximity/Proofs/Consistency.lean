import Proximity.Artifact.Basic
import Proximity.Proofs.Checks
import Proximity.Proofs.Links
import Proximity.Proofs.Vectors

/-!
# What a passed check means

The check of an index walks its nodes and stops at the first contradiction.
Whatever passes is consistent, node by node, and whatever is consistent passes:
for each kind of node a structure names what the check has asked for.

## Main results

* `Flat.Consistent`, `Graph.Consistent`, `InvertedFile.Consistent`,
  `Index.Consistent` — consistent nodes and trees.
* `Index.check_eq_ok_iff`, `Artifact.check_eq_ok_iff` — what passes is
  consistent.
-/

namespace Proximity

variable {S E : Type} [Space S E]

/-! ## Nodes -/

namespace Flat

/-- Whole vectors of the width that goes with the dimension. -/
structure Consistent (f : Flat S E) : Prop where
  width : (Space.kind f.space).unitLength f.dimension = .ok f.unitLength
  whole : f.data.size % f.unitLength = 0

theorem check_eq_ok_iff {f : Flat S E} : f.check = .ok () ↔ f.Consistent := by
  rw [check, Except.bind_eq_ok_iff]
  simp only [Except.check_bind_eq_ok_iff, Except.mapError_eq_ok_iff, refuse_eq_ok_iff,
    bne_eq_false_iff_eq]
  constructor
  · rintro ⟨width, hwidth, rfl, hwhole⟩
    exact ⟨hwidth, hwhole⟩
  · intro h
    exact ⟨f.unitLength, h.width, rfl, h.whole⟩

theorem Consistent.pos {f : Flat S E} (h : f.Consistent) : 0 < f.unitLength :=
  (Kind.unitLength_bounds h.width).1

end Flat

namespace Links

private theorem missing?_eq_none_iff {levels : List (List Nat)} {total : Nat} :
    missing? levels total = none ↔ ∀ list ∈ levels, ∀ n ∈ list, n < total := by
  simp only [missing?, List.find?_eq_none, List.mem_flatten, decide_eq_true_eq, Nat.not_le]
  constructor
  · intro h list hlist n hn
    exact h n ⟨list, hlist, hn⟩
  · rintro h n ⟨list, hlist, hn⟩
    exact h list hlist n hn

private theorem checkNode_eq_ok_iff {total node : Nat} {levels : List (List Nat)} :
    checkNode total node levels = .ok () ↔
      levels.length ≤ levelLimit + 1 ∧ ∀ list ∈ levels, ∀ n ∈ list, n < total := by
  rw [checkNode, Except.check_bind_eq_ok_iff, ← missing?_eq_none_iff, refuse_eq_ok_iff,
    decide_eq_false_iff_not, Nat.not_lt]
  cases missing? levels total with
  | none => simp [pure, Except.pure]
  | some neighbour => simp [throw, throwThe, MonadExceptOf.throw]

private theorem checkNodes_eq_ok_iff {total node : Nat} {nodes : List (List (List Nat))} :
    checkNodes total node nodes = .ok () ↔ ∀ levels ∈ nodes,
      levels.length ≤ levelLimit + 1 ∧ ∀ list ∈ levels, ∀ n ∈ list, n < total := by
  induction nodes generalizing node with
  | nil => simp [checkNodes]
  | cons levels nodes ih =>
      rw [checkNodes, Except.check_bind_eq_ok_iff, List.forall_mem_cons, checkNode_eq_ok_iff, ih]

private theorem checkEntry_eq_ok_iff {total : Nat} {entry : Option Nat} :
    checkEntry total entry = .ok () ↔
      (∀ e, entry = some e → e < total) ∧ (total ≠ 0 → entry ≠ none) := by
  cases entry with
  | none => simp [checkEntry]
  | some e => simp [checkEntry]

end Links

namespace Graph

/-- Settings in range, and consistent links over the stored vectors. -/
structure Consistent (g : Graph S E) : Prop where
  storage : g.storage.Consistent
  degree : 2 ≤ g.degree
  searchWidth : g.searchWidth ≠ 0
  buildWidth : g.buildWidth ≠ 0
  links : g.links.Consistent g.storage.total

theorem check_eq_ok_iff {g : Graph S E} : g.check = .ok () ↔ g.Consistent := by
  simp only [check, Except.check_bind_eq_ok_iff, Flat.check_eq_ok_iff, refuse_eq_ok_iff,
    Links.checkEntry_eq_ok_iff, Links.checkNodes_eq_ok_iff, Bool.or_eq_false_iff,
    bne_eq_false_iff_eq, beq_eq_false_iff_ne, decide_eq_false_iff_not, Nat.not_lt,
    Array.mem_toList_iff]
  constructor
  · rintro ⟨hstorage, ⟨⟨hdegree, hsearch⟩, hbuild⟩, hsize, htop, ⟨hentry, hnonempty⟩, hnodes⟩
    refine ⟨hstorage, hdegree, hsearch, hbuild, hsize, htop, hentry, hnonempty, ?_, ?_⟩
    · exact fun levels hl => (hnodes levels hl).1
    · exact fun levels hl => (hnodes levels hl).2
  · intro h
    refine ⟨h.storage, ⟨⟨h.degree, h.searchWidth⟩, h.buildWidth⟩, h.links.size, h.links.topLevel,
      ⟨h.links.entry, h.links.nonempty⟩, fun levels hl => ?_⟩
    exact ⟨h.links.within.levels levels hl, h.links.within.neighbours levels hl⟩

end Graph

namespace InvertedFile

/-- Lists that go with a quantizer of `centroids` centroids and with each
other. -/
structure Consistent (f : InvertedFile S E) (centroids : Nat) : Prop where
  listCount : f.listCount ≠ 0
  size : f.lists.size = f.listCount
  full : centroids ≠ 0 → centroids = f.listCount
  untrained : centroids = 0 → f.total = 0
  codes : ∀ l ∈ f.lists, l.codes.size = l.labels.size * f.unitLength % Count.bound
  labels : ∀ l ∈ f.lists, ∀ label ∈ l.labels, label < Count.signedBound ∧ label < f.total
  stored : f.listSizes.foldr (· + ·) 0 = f.total

omit [Space S E] in
private theorem checkList_eq_ok_iff {unitLength total : Nat} {l : PostingList E} :
    checkList unitLength total l = .ok () ↔
      l.codes.size = l.labels.size * unitLength % Count.bound ∧
        ∀ label ∈ l.labels, label < Count.signedBound ∧ label < total := by
  rw [checkList, Except.check_bind_eq_ok_iff, refuse_eq_ok_iff, bne_eq_false_iff_eq]
  refine and_congr_right fun _ => ?_
  cases hfind : l.labels.toList.find? fun label =>
      decide (Count.signedBound ≤ label ∨ total ≤ label) with
  | none =>
      rw [List.find?_eq_none] at hfind
      simp only [pure, Except.pure, true_iff]
      intro label hlabel
      have hlt := hfind label (Array.mem_toList_iff.2 hlabel)
      rw [decide_eq_true_eq] at hlt
      omega
  | some label =>
      have hlt := List.find?_some hfind
      have hmem := Array.mem_toList_iff.1 (List.mem_of_find?_eq_some hfind)
      rw [decide_eq_true_eq] at hlt
      simp only [throw, throwThe, MonadExceptOf.throw, reduceCtorEq, false_iff]
      intro hall
      have hbounds := hall label hmem
      omega

omit [Space S E] in
private theorem checkLists_eq_ok_iff {unitLength total : Nat} {lists : List (PostingList E)} :
    checkLists unitLength total lists = .ok () ↔ ∀ l ∈ lists,
      l.codes.size = l.labels.size * unitLength % Count.bound ∧
        ∀ label ∈ l.labels, label < Count.signedBound ∧ label < total := by
  induction lists with
  | nil => simp [checkLists]
  | cons l lists ih =>
      rw [checkLists, Except.check_bind_eq_ok_iff, List.forall_mem_cons, checkList_eq_ok_iff, ih]

omit [Space S E] in
theorem check_eq_ok_iff {f : InvertedFile S E} {centroids : Nat} :
    f.check centroids = .ok () ↔ f.Consistent centroids := by
  simp only [check, Except.check_bind_eq_ok_iff, refuse_eq_ok_iff, checkLists_eq_ok_iff,
    Bool.or_eq_false_iff, Bool.and_eq_false_iff, bne_eq_false_iff_eq, beq_eq_false_iff_ne,
    Array.mem_toList_iff]
  constructor
  · rintro ⟨⟨hcount, hsize⟩, hcentroids, huntrained, hlists, hstored⟩
    refine ⟨hcount, hsize, fun hne => ?_, fun heq => ?_, fun l hl => (hlists l hl).1,
      fun l hl => (hlists l hl).2, hstored⟩
    · exact hcentroids.resolve_left hne
    · exact huntrained.resolve_left fun hne => hne heq
  · intro h
    refine ⟨⟨h.listCount, h.size⟩, ?_, ?_, fun l hl => ⟨h.codes l hl, h.labels l hl⟩, h.stored⟩
    · by_cases hzero : centroids = 0
      · exact .inl hzero
      · exact .inr (h.full hzero)
    · by_cases hzero : centroids = 0
      · exact .inr (h.untrained hzero)
      · exact .inl hzero

end InvertedFile

/-! ## Trees -/

namespace Index

/-- Consistent nodes that go with each other. -/
def Consistent : Index S E → Prop
  | .flat f => f.Consistent
  | .graph g => g.Consistent
  | .invertedFile f quantizer =>
    quantizer.Consistent ∧ quantizer.unitLength = f.unitLength ∧
      quantizer.dimension = f.dimension ∧ f.Consistent quantizer.total
  | .composite base copies factor =>
    base.Consistent ∧ copies.Consistent ∧ copies.unitLength = base.unitLength ∧
      copies.total = base.total ∧ factor.isFinite = true ∧ Single.one.le factor = true

theorem check_eq_ok_iff {index : Index S E} : index.check = .ok () ↔ index.Consistent := by
  induction index with
  | flat f => exact Flat.check_eq_ok_iff
  | graph g => exact Graph.check_eq_ok_iff
  | invertedFile f quantizer ih =>
      simp only [check, Except.check_bind_eq_ok_iff, refuse_eq_ok_iff, Bool.or_eq_false_iff,
        bne_eq_false_iff_eq, InvertedFile.check_eq_ok_iff, ih, Consistent, and_assoc]
  | composite base copies factor ih =>
      simp only [check, Except.check_bind_eq_ok_iff, refuse_eq_ok_iff, Flat.check_eq_ok_iff,
        bne_eq_false_iff_eq, Bool.not_eq_false', Bool.and_eq_true, ih, Consistent]

theorem Consistent.pos {index : Index S E} (h : index.Consistent) : 0 < index.unitLength := by
  induction index with
  | flat f => exact Flat.Consistent.pos h
  | graph g => exact h.storage.pos
  | invertedFile f quantizer ih =>
      obtain ⟨hq, hwidth, -⟩ := h
      have hpos := ih hq
      rw [hwidth] at hpos
      exact hpos
  | composite base copies factor ih => exact ih h.1

end Index

/-- A consistent index and an id for each vector. -/
structure IdMap.Consistent (m : IdMap S E) : Prop where
  index : m.index.Consistent
  ids : m.ids.size = m.index.total

theorem IdMap.check_eq_ok_iff {m : IdMap S E} : m.check = .ok () ↔ m.Consistent := by
  simp only [check, Except.check_bind_eq_ok_iff, Index.check_eq_ok_iff, refuse_eq_ok_iff,
    bne_eq_false_iff_eq]
  exact ⟨fun h => ⟨h.1, h.2⟩, fun h => ⟨h.index, h.ids⟩⟩

/-- A stored index that is consistent. -/
def Stored.Consistent : Stored S E → Prop
  | .bare index => index.Consistent
  | .mapped map => map.Consistent

theorem Stored.check_eq_ok_iff {s : Stored S E} : s.check = .ok () ↔ s.Consistent := by
  cases s with
  | bare index => exact Index.check_eq_ok_iff
  | mapped map => exact IdMap.check_eq_ok_iff

/-- What is stored is consistent without its ids. -/
theorem Stored.Consistent.index {s : Stored S E} (h : s.Consistent) : s.index.Consistent := by
  cases s with
  | bare index => exact h
  | mapped map => exact IdMap.Consistent.index h

/-- A consistent artifact. -/
def Artifact.Consistent : Artifact → Prop
  | .float stored => stored.Consistent
  | .binary stored => stored.Consistent

/-- An artifact passes its check exactly if it is consistent. -/
theorem Artifact.check_eq_ok_iff {a : Artifact} : a.check = .ok () ↔ a.Consistent := by
  cases a with
  | float stored => exact Stored.check_eq_ok_iff
  | binary stored => exact Stored.check_eq_ok_iff

end Proximity

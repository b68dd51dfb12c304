import Proximity.Proofs.Consistency

/-!
# What searches look at

A search of a tree looks at stored vectors by label, at lists by the number that a
quantizer found, and at copies by the label that a base found.  All of these exist if
every node of the tree has a width, the links of every graph are over its storage, the
labels in lists exist, and there is a list to each centroid.  That is less than a check
asks for, and it says nothing of how much fits in memory.

## Main definitions

* `InvertedFile.Filed`, `Index.Searchable` — whatever a search looks at exists.

## Main results

* `Index.Searchable.label_lt`, `Index.Searchable.label_lt_of_within` — searches find labels
  that exist.
* `Index.Consistent.searchable` — whatever passes its check is searchable.
-/

namespace Proximity

variable {S E : Type}

/-- The labels in the lists exist, and there is a list to each of some centroids. -/
structure InvertedFile.Filed (f : InvertedFile S E) (centroids : Nat) : Prop where
  labels : ∀ l ∈ f.lists, ∀ label ∈ l.labels, label < f.total
  full : centroids ≠ 0 → centroids = f.lists.size
  untrained : centroids = 0 → f.total = 0

namespace Index

/-- Whatever a search of the tree looks at exists. -/
def Searchable : Index S E → Prop
  | .flat f => 0 < f.unitLength
  | .graph g => 0 < g.storage.unitLength ∧ g.links.Consistent g.storage.total
  | .invertedFile f quantizer =>
    quantizer.Searchable ∧ 0 < f.unitLength ∧ f.Filed quantizer.total
  | .composite base copies _ =>
    base.Searchable ∧ 0 < copies.unitLength ∧ copies.total = base.total

variable [Space S E] {index : Index S E} {accept : Nat → Bool} {c : Candidate}

private theorem label_lt_of_mem_candidates {f : InvertedFile S E} {centroids : Nat}
    (h : f.Filed centroids) {probed : List Nat} {query : Array E}
    (hc : c ∈ f.candidates probed query accept) : c.label < f.total := by
  obtain ⟨list, -, hc⟩ := List.mem_flatMap.1 hc
  obtain ⟨⟨label, v⟩, he, rfl⟩ := List.mem_map.1 hc
  have hentry := (List.mem_filter.1 he).1
  cases hlist : f.lists[list]? with
  | none =>
      rw [hlist] at hentry
      exact absurd hentry List.not_mem_nil
  | some l =>
      rw [hlist] at hentry
      have hlabel := (List.of_mem_zip hentry).1
      exact h.labels l (Array.mem_of_getElem? hlist) label (Array.mem_toList_iff.1 hlabel)

/-- A search finds labels that exist. -/
theorem Searchable.label_lt (h : index.Searchable) {query : Array E} {k : Nat}
    (hc : c ∈ index.nearest query k accept) : c.label < index.total := by
  induction index generalizing k accept c with
  | flat f => exact (f.nearest_finds query k accept).1.size c hc
  | graph g =>
      have hlt := (g.links.nearest_finds _ _ k accept).1.size c hc
      rw [h.2.size] at hlt
      exact hlt
  | invertedFile f quantizer =>
      exact label_lt_of_mem_candidates h.2.2 (Best.mem_of_mem_collect hc)
  | composite base copies factor ih =>
      obtain ⟨hbase, -, htotal⟩ := h
      obtain ⟨d, hd, rfl⟩ := List.mem_map.1 (Best.mem_of_mem_collect hc)
      have hlt := ih hbase hd
      rw [← htotal] at hlt
      exact hlt

/-- A search below a cost finds labels that exist. -/
theorem Searchable.label_lt_of_within (h : index.Searchable) {query : Array E} {bound : Single}
    (hc : c ∈ index.within query bound accept) : c.label < index.total := by
  cases index with
  | flat f => exact (f.within_finds query bound accept).size c hc
  | graph g => exact (g.storage.within_finds query bound accept).size c hc
  | invertedFile f quantizer =>
      have hmem := (Candidate.ranked_perm _).mem_iff.1 hc
      exact label_lt_of_mem_candidates h.2.2 (List.mem_filter.1 hmem).1
  | composite base copies factor => exact (copies.within_finds query bound accept).size c hc

/-- The list chosen for a vector exists if there are as many lists as
centroids. -/
theorem Searchable.listFor_lt (h : index.Searchable) (htotal : 0 < index.total) (v : Array E) :
    index.listFor v < index.total := by
  rw [listFor]
  split
  · exact htotal
  · rename_i c rest hnearest
    exact h.label_lt (by rw [hnearest]; exact List.mem_cons_self)

/-- Whatever passes its check is searchable. -/
theorem Consistent.searchable (h : index.Consistent) : index.Searchable := by
  induction index with
  | flat f => exact Flat.Consistent.pos h
  | graph g => exact ⟨h.storage.pos, h.links⟩
  | invertedFile f quantizer ih =>
      have hpos : 0 < f.unitLength := h.pos
      obtain ⟨hq, -, -, hf⟩ := h
      refine ⟨ih hq, hpos, ?_, ?_, hf.untrained⟩
      · exact fun l hl label hlabel => (hf.labels l hl label hlabel).2
      · exact fun hsome => (hf.full hsome).trans hf.size.symm
  | composite base copies factor ih =>
      obtain ⟨hbase, hcopies, -, htotal, -⟩ := h
      exact ⟨ih hbase, hcopies.pos, htotal⟩

end Index

end Proximity

import Mathlib.Data.List.Perm.Subperm
import Proximity.Proofs.Persistence
import Proximity.Proofs.PostingLists
import Proximity.Proofs.Preservation
import Proximity.Proofs.SearchContract

/-!
# Labels in decoded trees

The check of an inverted file sees that its lists hold as many labels as there
are vectors, and that all of them exist.  It does not see whether a label stands
in two places.  So in a tree that is accepted every label of an inverted file is
there once exactly if none is there twice, and neither follows.

What a label in two places does to a search depends on the lists that the query
looks at.  A search of a tree that looks at no label twice finds no label twice;
if it does look at one twice, the search for enough vectors finds that label
twice.  The copies of a composite do not help, since they are asked for the labels
that the base has found.

## Main definitions

* `InvertedFile.labels` — the labels in all lists.
* `Index.visited` — the labels that a query looks at in lists.
* `Index.DistinctLabels` — every inverted file of a tree holds different labels.
* `Index.KeepsLabels` — what can be said of the labels in a tree and in its searches.

## Main results

* `InvertedFile.Consistent.count_labels_iff` — labels that are there once.
* `Index.nodup_nearest`, `Index.not_nodup_nearest`, `Index.nodup_within` — searches.
* `Index.Consistent.keepsLabels` — what a consistent tree keeps.
* `Artifact.Built.distinctLabels` — what was built has no label twice.
* `Artifact.ofBytes_keepsLabels` — accepted artifacts.
-/

namespace Proximity

variable {S E : Type}

/-! ## Lists -/

private theorem map_fst_zip_sublist {A B : Type} (as : List A) (bs : List B) :
    ((as.zip bs).map (·.1)).Sublist as := by
  induction as generalizing bs with
  | nil => exact .refl _
  | cons a as ih =>
      cases bs with
      | nil => exact List.nil_sublist _
      | cons b bs => exact (ih bs).cons_cons a

namespace InvertedFile

/-- The labels in all lists, list by list. -/
def labels (f : InvertedFile S E) : List Nat := f.lists.toList.flatMap fun l => l.labels.toList

variable {f : InvertedFile S E} {centroids : Nat}

/-- The labels that come with a vector are among all labels, in the same order. -/
theorem entries_sublist_labels (f : InvertedFile S E) :
    (f.entries.map (·.1)).Sublist f.labels := by
  rw [entries, labels, List.map_flatMap]
  induction f.lists.toList with
  | nil => exact .refl _
  | cons l lists ih =>
      rw [List.flatMap_cons, List.flatMap_cons]
      exact (map_fst_zip_sublist _ _).append ih

/-- There are as many labels as vectors. -/
theorem Consistent.length_labels (h : f.Consistent centroids) : f.labels.length = f.total := by
  rw [← h.stored, listSizes, InvertedFile.labels, List.length_flatMap]
  rfl

theorem Consistent.lt_of_mem_labels (h : f.Consistent centroids) {label : Nat}
    (hlabel : label ∈ f.labels) : label < f.total := by
  obtain ⟨l, hl, hlabel⟩ := List.mem_flatMap.1 hlabel
  exact (h.labels l (Array.mem_toList_iff.1 hl) label (Array.mem_toList_iff.1 hlabel)).2

/-- Every label is there once exactly if none is there twice: the labels exist, and
there are as many as there are vectors. -/
theorem Consistent.count_labels_iff (h : f.Consistent centroids) :
    (∀ label < f.total, f.labels.count label = 1) ↔ f.labels.Nodup := by
  constructor
  · intro honce
    refine List.nodup_iff_count.2 fun label => ?_
    by_cases hlt : label < f.total
    · exact Nat.le_of_eq (honce label hlt)
    · have hnone : f.labels.count label = 0 :=
        List.count_eq_zero.2 fun hmem => hlt (h.lt_of_mem_labels hmem)
      omega
  · intro hnodup label hlt
    have hsubset : f.labels ⊆ List.range f.total := fun label hlabel =>
      List.mem_range.2 (h.lt_of_mem_labels hlabel)
    have hlength : (List.range f.total).length ≤ f.labels.length :=
      Nat.le_of_eq (List.length_range.trans h.length_labels.symm)
    -- different labels out of as many as there are can only be all of them
    have hperm := (hnodup.subperm hsubset).perm_of_length_le hlength
    rw [hperm.count_eq]
    rw [List.nodup_range.count, if_pos (List.mem_range.2 hlt)]

/-- The labels are those of the entries. -/
theorem Holds.map_fst_entries {vs : List (Array E)} (h : f.Holds vs) :
    f.entries.map (·.1) = f.labels := by
  rw [InvertedFile.labels, InvertedFile.entries, List.map_flatMap]
  refine List.flatMap_congr fun l hl => ?_
  exact (h.whole l (Array.mem_toList_iff.1 hl)).map_fst_entries h.pos

/-- An insertion into the lists puts a label where no other is. -/
theorem Holds.nodup_labels {vs : List (Array E)} (h : f.Holds vs) : f.labels.Nodup :=
  h.map_fst_entries ▸ h.nodup

end InvertedFile

namespace Index

/-- The labels that a query looks at in the lists of the inverted file that the
tree reaches through its bases; there are none if it reaches none. -/
def visited [Space S E] : Index S E → Array E → List Nat
  | .flat _, _ | .graph _, _ => []
  | .invertedFile f quantizer, query =>
    let probed := (quantizer.nearest query f.probeCount fun _ => true).map (·.label)
    (probed.flatMap f.entriesAt).map (·.1)
  | .composite base _ _, query => visited base query

/-- Every inverted file of the tree, quantizers included, holds different
labels. -/
def DistinctLabels (index : Index S E) : Prop :=
  ∀ path f quantizer, index.node? path = some (.invertedFile f quantizer) → f.labels.Nodup

theorem DistinctLabels.quantizer {f : InvertedFile S E} {quantizer : Index S E}
    (h : (Index.invertedFile f quantizer).DistinctLabels) : quantizer.DistinctLabels :=
  fun path f' quantizer' hnode => h (.quantizer :: path) f' quantizer' hnode

theorem DistinctLabels.base {base : Index S E} {copies : Flat S E} {factor : Single}
    (h : (Index.composite base copies factor).DistinctLabels) : base.DistinctLabels :=
  fun path f quantizer hnode => h (.base :: path) f quantizer hnode

/-- Labels that are positions of vectors are different in every inverted file. -/
theorem Holds.distinctLabels {index : Index S E} {vs : List (Array E)} (h : index.Holds vs) :
    index.DistinctLabels := by
  intro path
  induction path generalizing index vs with
  | nil =>
      intro f quantizer hnode
      rw [Index.node?] at hnode
      obtain rfl := Option.some.inj hnode
      exact h.1.nodup_labels
  | cons child path ih =>
      intro f quantizer hnode
      cases index with
      | flat f => simp [Index.node?] at hnode
      | graph g => simp [Index.node?] at hnode
      | invertedFile f quantizer =>
          cases child with
          | base => simp [Index.node?] at hnode
          | quantizer =>
              obtain ⟨-, centroids, hq⟩ := h
              exact ih hq _ _ hnode
      | composite base copies factor =>
          cases child with
          | base => exact ih h.1 _ _ hnode
          | quantizer => simp [Index.node?] at hnode

variable [Space S E] {index : Index S E} {query : Array E}

/-- The nodes of a consistent tree are consistent. -/
theorem Consistent.node? (h : index.Consistent) {path : List Child} {node : Index S E}
    (hnode : index.node? path = some node) : node.Consistent := by
  induction path generalizing index with
  | nil =>
      rw [Index.node?] at hnode
      exact Option.some.inj hnode ▸ h
  | cons child path ih =>
      cases index with
      | flat f => simp [Index.node?] at hnode
      | graph g => simp [Index.node?] at hnode
      | invertedFile f quantizer =>
          cases child with
          | base => simp [Index.node?] at hnode
          | quantizer => exact ih h.1 hnode
      | composite base copies factor =>
          cases child with
          | base => exact ih h.1 hnode
          | quantizer => simp [Index.node?] at hnode

/-! ## Searches -/

/-- The labels of bounded collections are among the labels collected from. -/
private theorem nodup_collect {k : Nat} {cs : List Candidate} (h : (cs.map (·.label)).Nodup) :
    ((Best.collect k cs).map (·.label)).Nodup := by
  rw [Best.collect_eq_take_ranked]
  have hall := ((Candidate.ranked_perm cs).map (·.label)).nodup_iff.2 h
  exact hall.sublist ((List.take_sublist k _).map _)

/-- A collection with room for everything leaves nothing out. -/
private theorem collect_perm {k : Nat} {cs : List Candidate} (h : cs.length ≤ k) :
    (Best.collect k cs).Perm cs := by
  have hlength : (Candidate.ranked cs).length ≤ k := by
    rw [(Candidate.ranked_perm cs).length_eq]
    exact h
  rw [Best.collect_eq_take_ranked, List.take_of_length_le hlength]
  exact Candidate.ranked_perm cs

/-- Copies change the costs of what was fetched and not the labels. -/
private theorem map_label_copied (copies : Flat S E) (query : Array E) (cs : List Candidate) :
    (cs.map fun c => (⟨copies.costTo query c.label, c.label⟩ : Candidate)).map (·.label) =
      cs.map (·.label) := by
  rw [List.map_map]
  rfl

/-- A query that looks at different labels finds different labels. -/
theorem nodup_nearest (h : (index.visited query).Nodup) (k : Nat) (accept : Nat → Bool) :
    ((index.nearest query k accept).map (·.label)).Nodup := by
  induction index generalizing k with
  | flat f => exact (f.nearest_finds query k accept).1.nodup
  | graph g => exact (g.links.nearest_finds _ _ k accept).1.nodup
  | invertedFile f quantizer =>
      rw [nearest, InvertedFile.nearest]
      apply nodup_collect
      rw [InvertedFile.map_label_candidates]
      exact h.filter _
  | composite base copies factor ih =>
      rw [nearest]
      apply nodup_collect
      rw [map_label_copied]
      exact ih h (fetchCount factor k)

/-- From some number of wanted vectors on, a label that is looked at twice is found
twice. -/
theorem not_nodup_nearest (h : ¬ (index.visited query).Nodup) :
    ∃ enough, ∀ k, enough ≤ k →
      (index.nearest query k fun _ => true).length ≤ enough ∧
        ¬ ((index.nearest query k fun _ => true).map (·.label)).Nodup := by
  induction index with
  | flat f => exact absurd List.nodup_nil h
  | graph g => exact absurd List.nodup_nil h
  | invertedFile f quantizer =>
      let probed := (quantizer.nearest query f.probeCount fun _ => true).map (·.label)
      let met := f.candidates probed query fun _ => true
      refine ⟨met.length, fun k hk => ?_⟩
      have hperm : (nearest (.invertedFile f quantizer) query k fun _ => true).Perm met :=
        collect_perm hk
      refine ⟨Nat.le_of_eq hperm.length_eq, fun hnodup => h ?_⟩
      rw [(hperm.map _).nodup_iff, InvertedFile.map_label_candidates,
        List.filter_eq_self.2 fun _ _ => rfl] at hnodup
      exact hnodup
  | composite base copies factor ih =>
      obtain ⟨enough, hbase⟩ := ih h
      refine ⟨enough, fun k hk => ?_⟩
      let fetched := base.nearest query (fetchCount factor k) fun _ => true
      -- the base is asked for at least as many, so the copies have them all
      have hfetch := le_fetchCount factor k
      obtain ⟨hlength, htwice⟩ := hbase (fetchCount factor k) (Nat.le_trans hk hfetch)
      have hperm : (nearest (.composite base copies factor) query k fun _ => true).Perm
          (fetched.map fun c => ⟨copies.costTo query c.label, c.label⟩) :=
        collect_perm (by rw [List.length_map]; exact Nat.le_trans hlength hk)
      refine ⟨?_, fun hnodup => htwice ?_⟩
      · rw [hperm.length_eq, List.length_map]
        exact hlength
      · rw [(hperm.map _).nodup_iff, map_label_copied] at hnodup
        exact hnodup

/-- A search below a cost finds different labels too if the query looks at different
labels. -/
theorem nodup_within (h : (index.visited query).Nodup) (bound : Single) (accept : Nat → Bool) :
    ((index.within query bound accept).map (·.label)).Nodup := by
  cases index with
  | flat f => exact (f.within_finds query bound accept).nodup
  | graph g => exact (g.storage.within_finds query bound accept).nodup
  | invertedFile f quantizer =>
      rw [within, InvertedFile.within, ((Candidate.ranked_perm _).map _).nodup_iff]
      have hmet : ((f.candidates ((quantizer.nearest query f.probeCount fun _ => true).map
          (·.label)) query accept).map (·.label)).Nodup := by
        rw [InvertedFile.map_label_candidates]
        exact h.filter _
      exact hmet.sublist (List.filter_sublist.map _)
  | composite base copies factor => exact (copies.within_finds query bound accept).nodup

/-- Lists with different labels show different labels to every query. -/
theorem DistinctLabels.nodup_visited (h : index.DistinctLabels) (query : Array E) :
    (index.visited query).Nodup := by
  induction index with
  | flat f => exact List.nodup_nil
  | graph g => exact List.nodup_nil
  | invertedFile f quantizer ih =>
      have hprobed := nodup_nearest (ih h.quantizer) f.probeCount fun _ => true
      have hlabels : (f.entries.map (·.1)).Nodup :=
        (h [] f quantizer rfl).sublist f.entries_sublist_labels
      exact InvertedFile.nodup_probed hlabels hprobed
  | composite base copies factor ih => exact ih h.base

/-- There is nothing to look at in a consistent tree that stores nothing. -/
theorem Consistent.visited_eq_nil (h : index.Consistent) (htotal : index.total = 0)
    (query : Array E) : index.visited query = [] := by
  induction index with
  | flat f => rfl
  | graph g => rfl
  | invertedFile f quantizer =>
      have hlength : f.labels.length = 0 := h.2.2.2.length_labels.trans htotal
      have hlabels : f.labels = [] := List.eq_nil_of_length_eq_zero hlength
      have hentries : f.entries = [] := by
        have hsub := f.entries_sublist_labels
        rw [hlabels, List.sublist_nil, List.map_eq_nil_iff] at hsub
        exact hsub
      rw [visited, List.map_eq_nil_iff]
      refine List.flatMap_eq_nil_iff.2 fun list _ => ?_
      refine List.eq_nil_iff_forall_not_mem.2 fun e he => ?_
      have hmem := f.mem_entries_of_mem_entriesAt he
      rw [hentries] at hmem
      exact List.not_mem_nil hmem
  | composite base copies factor ih => exact ih h.1 (h.2.2.2.1.symm.trans htotal)

private theorem map_label_hits (index : Index S E) (cs : List Candidate) :
    (index.hits cs).map (·.label) = cs.map (·.label) := by
  rw [hits, List.map_map]
  rfl

/-- What can be said of the labels in a tree and of those that searches return. -/
structure KeepsLabels (index : Index S E) : Prop where
  /-- An inverted file has as many labels as vectors, and all of them exist. -/
  counted : ∀ path f quantizer, index.node? path = some (.invertedFile f quantizer) →
    f.labels.length = f.total ∧ ∀ label ∈ f.labels, label < f.total
  /-- Each of them is there once exactly if none is there twice. -/
  once : ∀ path f quantizer, index.node? path = some (.invertedFile f quantizer) →
    ((∀ label < f.total, f.labels.count label = 1) ↔ f.labels.Nodup)
  /-- If none is there twice in any inverted file, no hits are. -/
  distinct : index.DistinctLabels → ∀ query : Array E, query.size = index.unitLength →
    ∀ accept,
      (∀ k, ∃ hits, index.search query k accept = .ok hits ∧ (hits.map (·.label)).Nodup) ∧
      (∀ radius, ∃ hits, index.searchRange query radius accept = .ok hits ∧
        (hits.map (·.label)).Nodup)
  /-- In general the hits of all searches for one query are different exactly if the
  query looks at different labels. -/
  exactly : ∀ query : Array E, query.size = index.unitLength →
    ((∀ k accept hits, index.search query k accept = .ok hits → (hits.map (·.label)).Nodup) ↔
      (index.visited query).Nodup)

/-- The hits for a query that looks at different labels. -/
private theorem nodup_search (hwidth : query.size = index.unitLength)
    (h : (index.visited query).Nodup) (k : Nat) (accept : Nat → Bool) :
    ∃ hits, index.search query k accept = .ok hits ∧ (hits.map (·.label)).Nodup := by
  refine ⟨_, search_eq_of_width hwidth k accept, ?_⟩
  split
  · exact List.nodup_nil
  · rw [map_label_hits]
    exact nodup_nearest h k accept

private theorem nodup_searchRange (hwidth : query.size = index.unitLength)
    (h : (index.visited query).Nodup) (radius : Single) (accept : Nat → Bool) :
    ∃ hits, index.searchRange query radius accept = .ok hits ∧ (hits.map (·.label)).Nodup := by
  refine ⟨_, searchRange_eq_of_width hwidth radius accept, ?_⟩
  rw [map_label_hits]
  exact nodup_within h _ accept

theorem Consistent.keepsLabels (h : index.Consistent) : index.KeepsLabels where
  counted path f quantizer hnode :=
    have hf : f.Consistent quantizer.total := (h.node? hnode).2.2.2
    ⟨hf.length_labels, fun _ hlabel => hf.lt_of_mem_labels hlabel⟩
  once path f quantizer hnode :=
    have hf : f.Consistent quantizer.total := (h.node? hnode).2.2.2
    hf.count_labels_iff
  distinct hdistinct query hwidth accept :=
    ⟨fun k => nodup_search hwidth (hdistinct.nodup_visited query) k accept,
      fun radius => nodup_searchRange hwidth (hdistinct.nodup_visited query) radius accept⟩
  exactly query hwidth := by
    constructor
    · intro hall
      refine Decidable.byContradiction fun htwice => ?_
      obtain ⟨enough, hfound⟩ := not_nodup_nearest htwice
      -- a search for nothing, or in an empty tree, finds nothing at all
      have htotal : index.total ≠ 0 := fun hzero =>
        htwice (h.visited_eq_nil hzero query ▸ List.nodup_nil)
      have hsearch := search_eq_of_width hwidth (enough + 1) fun _ => true
      rw [if_neg (not_or.2 ⟨Nat.succ_ne_zero enough, htotal⟩)] at hsearch
      have hnodup := hall _ _ _ hsearch
      rw [map_label_hits] at hnodup
      exact (hfound (enough + 1) (Nat.le_succ enough)).2 hnodup
    · intro hnodup k accept hits hsearch
      obtain ⟨found, hfound, hdistinct⟩ := nodup_search hwidth hnodup k accept
      rw [hfound] at hsearch
      exact Except.ok.inj hsearch ▸ hdistinct

end Index

/-! ## Built artifacts -/

section Built

variable [Space S E]

/-- A tree that holds some vectors, whichever they are, still does after a change. -/
theorem Index.Change.holds {index index' : Index S E} (h : index.Change index')
    (hindex : ∃ vs, index.Holds vs) : ∃ vs, index'.Holds vs := by
  obtain ⟨vs, hvs⟩ := hindex
  cases h with
  | append elements => exact hvs.append_exists elements
  | train hr =>
      refine ⟨vs, hvs.changeAt (fun index => index.train_sameStock _) ?_ hr⟩
      exact fun index vs hvs => hvs.train _
  | tune hr =>
      refine ⟨vs, hvs.changeAt (fun index => index.tune_sameStock _) ?_ hr⟩
      exact fun index vs hvs => hvs.tune _

end Built

namespace Artifact

/-- Every inverted file of the tree holds different labels. -/
def DistinctLabels : Artifact → Prop
  | .float stored => stored.index.DistinctLabels
  | .binary stored => stored.index.DistinctLabels

/-- What can be said of the labels in the tree and of those that searches return. -/
def KeepsLabels : Artifact → Prop
  | .float stored => stored.index.KeepsLabels
  | .binary stored => stored.index.KeepsLabels

variable {a : Artifact}

theorem Consistent.keepsLabels (h : a.Consistent) : a.KeepsLabels := by
  cases a with
  | float stored => exact (Stored.Consistent.index h).keepsLabels
  | binary stored => exact (Stored.Consistent.index h).keepsLabels

/-- The nodes of whatever was built hold some vectors, each in its own way. -/
theorem Built.holds (h : a.Built) :
    match a with
    | .float stored => ∃ vs, stored.index.Holds vs
    | .binary stored => ∃ vs, stored.index.Holds vs :=
  h.index_induction (fun _ hindex => ⟨[], hindex.holds⟩) (fun _ _ hchange => hchange.holds)
    (fun _ hindex => ⟨[], hindex.holds⟩) fun _ _ hchange => hchange.holds

theorem Built.distinctLabels (h : a.Built) : a.DistinctLabels := by
  have hholds := h.holds
  cases a with
  | float stored =>
      obtain ⟨vs, hvs⟩ := hholds
      exact hvs.distinctLabels
  | binary stored =>
      obtain ⟨vs, hvs⟩ := hholds
      exact hvs.distinctLabels

/-- **Labels in accepted artifacts.**  Whatever bytes are accepted, every inverted
file in the tree has as many labels as vectors, and all of them exist; each is there
once exactly if none is there twice.  If none is there twice in any inverted file,
searches return different labels, and for a single query they do so exactly if the
lists that the query looks at have different labels.  In what was built, and stored
and loaded since, no label is there twice. -/
theorem ofBytes_keepsLabels {bytes : List UInt8} (h : ofBytes bytes = .ok a) :
    a.KeepsLabels ∧ (a.Built → a.DistinctLabels) :=
  ⟨(of_ofBytes h).1.keepsLabels, Built.distinctLabels⟩

/-- Two vectors of eight bits in some lists, over as many centroids as are given. -/
def inLists (lists : Array (PostingList UInt8)) (centroids : Array UInt8) :
    Index BinarySpace UInt8 :=
  .invertedFile ⟨⟨⟩, 8, 1, centroids.size, centroids.size, .standard, lists, 2⟩
    (.flat ⟨⟨⟩, 8, 1, centroids⟩)

/-- Lists of at most two labels and vectors are small enough for a stored form. -/
private theorem inLists_kept {lists : Array (PostingList UInt8)} {centroids : Array UInt8}
    (hcheck : (inLists lists centroids).check = .ok ()) (hcentroids : centroids.size ≤ 2)
    (hlists : ∀ l ∈ lists, l.labels.size ≤ 2 ∧ l.codes.size ≤ 2) :
    Kept (.binary (.bare (inLists lists centroids))) := by
  have hbound : 2 < Count.signedBound := by decide
  have hsigned : Count.signedBound < Count.bound := by decide
  have hconsistent : (inLists lists centroids).Consistent := Index.check_eq_ok_iff.1 hcheck
  have hsize : lists.size = centroids.size := hconsistent.2.2.2.size
  have hcount : centroids.size < Count.bound := by omega
  refine ⟨hconsistent, ?_, ⟨⟨?_, fun l hl => ?_, fun l hl => ?_, hbound⟩, ?_⟩⟩
  · have height : 8 < Count.bound := by decide
    have hclustering : ClusteringSettings.standard.Fits := ⟨by decide, by decide, by decide⟩
    exact ⟨height, hcount, hcount, hclustering, height⟩
  · show lists.size < Count.signedBound
    omega
  · exact Nat.lt_of_le_of_lt (hlists l hl).1 hbound
  · exact Nat.lt_of_le_of_lt (hlists l hl).2 hbound
  · show centroids.size < Count.signedBound
    omega

/-- The labels 1 and 0 in two lists. -/
theorem ofBytes_keepsLabels_twoLists :
    ofBytes (toBytes (.binary (.bare (inLists #[⟨#[1], #[3]⟩, ⟨#[0], #[1]⟩] #[3, 1])))) =
        .ok (.binary (.bare (inLists #[⟨#[1], #[3]⟩, ⟨#[0], #[1]⟩] #[3, 1]))) ∧
      KeepsLabels (.binary (.bare (inLists #[⟨#[1], #[3]⟩, ⟨#[0], #[1]⟩] #[3, 1]))) := by
  have hkept : Kept (.binary (.bare (inLists #[⟨#[1], #[3]⟩, ⟨#[0], #[1]⟩] #[3, 1]))) :=
    inLists_kept rfl (by decide) (by decide)
  have hread := hkept.roundtrip (by decide +kernel)
  exact ⟨hread, (ofBytes_keepsLabels hread).1⟩

/-- A list of two vectors that has the label 0 twice and the label 1 not at all is
accepted, and searches of it return two hits under one label. -/
theorem ofBytes_labelTwice :
    ofBytes (toBytes (.binary (.bare (inLists #[⟨#[0, 0], #[1, 3]⟩] #[0])))) =
        .ok (.binary (.bare (inLists #[⟨#[0, 0], #[1, 3]⟩] #[0]))) ∧
      (∃ f quantizer,
        (inLists #[⟨#[0, 0], #[1, 3]⟩] #[0]).node? [] = some (.invertedFile f quantizer) ∧
          f.total = 2 ∧ f.labels.count 0 = 2 ∧ f.labels.count 1 = 0) ∧
      (inLists #[⟨#[0, 0], #[1, 3]⟩] #[0]).search #[1] 2 (fun _ => true) =
        .ok [⟨0, .zero⟩, ⟨0, .one⟩] ∧
      (inLists #[⟨#[0, 0], #[1, 3]⟩] #[0]).searchRange #[1] (.ofNat 9) (fun _ => true) =
        .ok [⟨0, .zero⟩, ⟨0, .one⟩] := by
  have hkept : Kept (.binary (.bare (inLists #[⟨#[0, 0], #[1, 3]⟩] #[0]))) :=
    inLists_kept rfl (by decide) (by decide)
  have hbest : Candidate.BestFirst [⟨.zero, 0⟩, ⟨.one, 0⟩] := by
    rw [Candidate.BestFirst]
    decide
  refine ⟨hkept.roundtrip (by decide +kernel), ⟨_, _, rfl, rfl, rfl, rfl⟩,
    by with_unfolding_all rfl, ?_⟩
  have hwithin : (inLists #[⟨#[0, 0], #[1, 3]⟩] #[0]).within #[1] (.ofNat 9) (fun _ => true) =
      [⟨.zero, 0⟩, ⟨.one, 0⟩] := by
    with_unfolding_all exact hbest.ranked_eq
  rw [Index.searchRange_eq_of_width rfl]
  exact congrArg (fun cs => Except.ok (Index.hits _ cs)) hwithin

end Artifact

end Proximity

import Proximity.Proofs.Codec.Laws

/-!
# Exactness of stored trees

The stored form of an index tree is read by a function that goes as deep as it
is allowed to.  Every node writes a tag of four bytes, so a tree is no deeper
than its stored form is long and the reader is always allowed to go deep
enough; with that, exactness is one induction over the tree for what was
written and one over the allowed depth for what is read.

`Fits` names the values that have a stored form: all counts are counts of 64
bits and all nodes of graphs have numbers of 32 bits.

## Main results

* `flat_exact`, `graph_exact`, `postingList_exact` — the parts of a tree.
* `decodeIndex_encodeIndex`, `eq_encodeIndex_of_decodeIndex` — trees.
* `artifact_exact` — artifacts.
-/

namespace Proximity

variable {S E : Type}

/-! ## What has a stored form -/

/-- Clustering settings that are counts of 64 bits. -/
structure ClusteringSettings.Fits (s : ClusteringSettings) : Prop where
  iterations : s.iterations < Count.bound
  minPoints : s.minPoints < Count.bound
  maxPoints : s.maxPoints < Count.bound

/-- Flat storage whose sizes are counts of 64 bits. -/
structure Flat.Fits (f : Flat S E) : Prop where
  dimension : f.dimension < Count.bound
  unitLength : f.unitLength < Count.bound
  data : f.data.size < Count.bound

/-- Links whose sizes are counts of 64 bits and whose nodes have 32 bits. -/
structure Links.Fits (g : Links) : Prop where
  nodes : g.nodes.size < Count.bound
  levels : ∀ levels ∈ g.nodes, levels.length < Count.bound
  lists : ∀ levels ∈ g.nodes, ∀ list ∈ levels, list.length < Count.bound
  neighbours : ∀ levels ∈ g.nodes, ∀ list ∈ levels, ∀ n ∈ list, n < nodeBound
  entry : ∀ e, g.entry = some e → e < nodeBound
  topLevel : g.topLevel < Count.bound

/-- A graph whose storage, links and settings have a stored form. -/
structure Graph.Fits (g : Graph S E) : Prop where
  storage : g.storage.Fits
  degree : g.degree < Count.bound
  buildWidth : g.buildWidth < Count.bound
  searchWidth : g.searchWidth < Count.bound
  links : g.links.Fits

/-- A posting list whose labels and sizes are counts of 64 bits. -/
structure PostingList.Fits (l : PostingList E) : Prop where
  size : l.labels.size < Count.bound
  labels : ∀ label ∈ l.labels, label < Count.bound
  codes : l.codes.size < Count.bound

/-- An inverted file whose lists and settings have a stored form. -/
structure InvertedFile.Fits (f : InvertedFile S E) : Prop where
  dimension : f.dimension < Count.bound
  unitLength : f.unitLength < Count.bound
  listCount : f.listCount < Count.bound
  probes : f.probes < Count.bound
  clustering : f.clustering.Fits
  size : f.lists.size < Count.bound
  lists : ∀ l ∈ f.lists, l.Fits
  total : f.total < Count.bound

/-- A tree whose nodes have a stored form. -/
def Index.Fits : Index S E → Prop
  | .flat f => f.Fits
  | .graph g => g.Fits
  | .invertedFile f quantizer => f.Fits ∧ quantizer.Fits
  | .composite base copies _ => base.Fits ∧ copies.Fits

/-- An id map over a tree that has a stored form. -/
structure IdMap.Fits (m : IdMap S E) : Prop where
  index : m.index.Fits
  ids : m.ids.size < Count.bound

/-- A stored index that has a stored form. -/
def Stored.Fits : Stored S E → Prop
  | .bare index => index.Fits
  | .mapped map => map.Fits

/-- An artifact that has a stored form. -/
def Artifact.Fits : Artifact → Prop
  | .float stored => stored.Fits
  | .binary stored => stored.Fits

theorem Index.Fits.unitLength_lt {index : Index S E} (h : index.Fits) :
    index.unitLength < Count.bound := by
  induction index with
  | flat f => exact Flat.Fits.unitLength h
  | graph g => exact h.storage.unitLength
  | invertedFile f quantizer => exact h.1.unitLength
  | composite base copies factor ih => exact ih h.1

/-- The number of nodes on the longest way down a tree. -/
def Index.depth : Index S E → Nat
  | .flat _ | .graph _ => 1
  | .invertedFile _ quantizer => quantizer.depth + 1
  | .composite base _ _ => base.depth + 1

theorem Index.depth_pos (index : Index S E) : 0 < index.depth := by
  cases index <;> simp [Index.depth]

namespace Codec

@[simp] theorem length_wordBytes (width n : Nat) :
    (wordBytes width n).length = width := by
  induction width generalizing n with
  | zero => rfl
  | succ width ih => simp [wordBytes, ih]

/-! ## The parts of a tree -/

theorem clustering_exact : clustering.Exact ClusteringSettings.Fits := by
  have hparts := count_exact.pair (seed_exact.pair (count_exact.pair count_exact))
  have hvia : clustering.Exact _ := hparts.via (fun _ => rfl) fun _ _ => rfl
  refine hvia.congr fun s => ⟨fun h => ⟨h.1, h.2.2.1, h.2.2.2⟩, fun h => ?_⟩
  exact ⟨h.iterations, trivial, h.minPoints, h.maxPoints⟩

/-- Links are written field by field inside their graph, so their law speaks
of the three fields. -/
theorem links_exact : links.Exact fun nodes =>
    nodes.size < Count.bound ∧ ∀ levels ∈ nodes, levels.length < Count.bound ∧
      ∀ list ∈ levels, list.length < Count.bound ∧ ∀ n ∈ list, n < Links.nodeBound :=
  node_exact.list.list.array

section Parts

variable {space : Codec S} {element : Codec E}

theorem flat_exact (hspace : space.Exact fun _ => True)
    (helement : element.Exact fun _ => True) :
    (flat space element).Exact Flat.Fits := by
  have hparts := hspace.pair (count_exact.pair (count_exact.pair helement.array))
  have hvia : (flat space element).Exact _ := hparts.via (fun _ => rfl) fun _ _ => rfl
  refine hvia.congr fun f => ⟨fun h => ⟨h.2.1, h.2.2.1, h.2.2.2.1⟩, fun h => ?_⟩
  exact ⟨trivial, h.dimension, h.unitLength, h.data, fun _ _ => trivial⟩

theorem graph_exact (hspace : space.Exact fun _ => True)
    (helement : element.Exact fun _ => True) :
    (graph space element).Exact Graph.Fits := by
  have hparts := (flat_exact hspace helement).pair
    (count_exact.pair (count_exact.pair (count_exact.pair
      (links_exact.pair (node_exact.option.pair (count_exact.pair
        (double_exact.pair seed_exact)))))))
  have hvia : (graph space element).Exact _ := hparts.via (fun _ => rfl) fun _ _ => rfl
  refine hvia.congr fun g => ⟨fun h => ?_, fun h => ?_⟩
  · obtain ⟨hstorage, hdegree, hbuild, hsearch, hnodes, hentry, htop, -⟩ := h
    refine ⟨hstorage, hdegree, hbuild, hsearch, ?_⟩
    exact
      { nodes := hnodes.1
        levels := fun levels hl => (hnodes.2 levels hl).1
        lists := fun levels hl list hi => ((hnodes.2 levels hl).2 list hi).1
        neighbours := fun levels hl list hi => ((hnodes.2 levels hl).2 list hi).2
        entry := hentry
        topLevel := htop }
  · refine ⟨h.storage, h.degree, h.buildWidth, h.searchWidth, ⟨h.links.nodes, ?_⟩,
      h.links.entry, h.links.topLevel, trivial, trivial⟩
    intro levels hl
    exact ⟨h.links.levels levels hl, fun list hi =>
      ⟨h.links.lists levels hl list hi, h.links.neighbours levels hl list hi⟩⟩

theorem postingList_exact (helement : element.Exact fun _ => True) :
    (postingList element).Exact PostingList.Fits := by
  have hvia : (postingList element).Exact _ :=
    (count_exact.array.pair helement.array).via (fun _ => rfl) fun _ _ => rfl
  refine hvia.congr fun l => ⟨fun h => ⟨h.1.1, h.1.2, h.2.1⟩, fun h => ?_⟩
  exact ⟨⟨h.size, h.labels⟩, h.codes, fun _ _ => trivial⟩

theorem fileHead_exact (hspace : space.Exact fun _ => True) :
    (fileHead space).Exact fun h =>
      True ∧ h.2.1 < Count.bound ∧ h.2.2.1 < Count.bound ∧ h.2.2.2.1 < Count.bound ∧
        h.2.2.2.2.1 < Count.bound ∧ h.2.2.2.2.2.Fits :=
  hspace.pair (count_exact.pair (count_exact.pair (count_exact.pair
    (count_exact.pair clustering_exact))))

theorem fileTail_exact (helement : element.Exact fun _ => True) :
    (fileTail element).Exact fun t =>
      (t.1.size < Count.bound ∧ ∀ l ∈ t.1, l.Fits) ∧ t.2 < Count.bound :=
  (postingList_exact helement).array.pair count_exact

end Parts

/-! ## Trees -/

/-- Every node of a tree writes at least its tag. -/
theorem depth_le_length (space : Codec S) (element : Codec E) (index : Index S E) :
    index.depth ≤ (encodeIndex space element index).length := by
  induction index with
  | flat f =>
      simp only [Index.depth, encodeIndex, List.length_append, length_wordBytes]
      omega
  | graph g =>
      simp only [Index.depth, encodeIndex, List.length_append, length_wordBytes]
      omega
  | invertedFile f quantizer ih =>
      simp only [Index.depth, encodeIndex, List.length_append, length_wordBytes]
      omega
  | composite base copies factor ih =>
      simp only [Index.depth, encodeIndex, List.length_append, length_wordBytes]
      omega

section Trees

variable {space : Codec S} {element : Codec E}

/-- A tree that fits is read back by a reader that may go deep enough. -/
theorem decodeIndex_encodeIndex (hspace : space.Exact fun _ => True)
    (helement : element.Exact fun _ => True) (fuel : Nat) (index : Index S E)
    (rest : List UInt8) (hfits : index.Fits) (hdepth : index.depth ≤ fuel) :
    decodeIndex space element fuel (encodeIndex space element index ++ rest) =
      some (index, rest) := by
  induction fuel generalizing index rest with
  | zero =>
      have := index.depth_pos
      omega
  | succ fuel ih =>
      cases index with
      | flat f =>
          have hf := (flat_exact hspace helement).decode_encode f rest hfits
          simp only [encodeIndex, List.append_assoc, decodeIndex,
            readWord_wordBytes 4 0 _ (by decide)]
          simp [hf]
      | graph g =>
          have hg := (graph_exact hspace helement).decode_encode g rest hfits
          simp only [encodeIndex, List.append_assoc, decodeIndex,
            readWord_wordBytes 4 2 _ (by decide)]
          simp [hg]
      | invertedFile f quantizer =>
          obtain ⟨hf, hq⟩ := hfits
          let tail := (fileTail element).encode (f.lists, f.total)
          have hhead := (fileHead_exact hspace).decode_encode
            (f.space, f.dimension, f.unitLength, f.listCount, f.probes, f.clustering)
            (encodeIndex space element quantizer ++ (tail ++ rest))
            ⟨trivial, hf.dimension, hf.unitLength, hf.listCount, hf.probes, hf.clustering⟩
          have hquantizer := ih quantizer (tail ++ rest) hq (by
            simpa [Index.depth] using hdepth)
          have htail := (fileTail_exact helement).decode_encode (f.lists, f.total) rest
            ⟨⟨hf.size, hf.lists⟩, hf.total⟩
          simp only [encodeIndex, List.append_assoc, decodeIndex,
            readWord_wordBytes 4 1 _ (by decide)]
          simp [hhead, hquantizer, htail, tail]
      | composite base copies factor =>
          obtain ⟨hb, hc⟩ := hfits
          have hbase := ih base
            ((flat space element).encode copies ++ (single.encode factor ++ rest)) hb (by
              simpa [Index.depth] using hdepth)
          have hcopies := (flat_exact hspace helement).decode_encode copies
            (single.encode factor ++ rest) hc
          have hfactor := single_exact.decode_encode factor rest trivial
          simp only [encodeIndex, List.append_assoc, decodeIndex,
            readWord_wordBytes 4 3 _ (by decide)]
          simp [hbase, hcopies, hfactor]

/-- Whatever is read as a tree is the stored form of that tree. -/
theorem eq_encodeIndex_of_decodeIndex (hspace : space.Exact fun _ => True)
    (helement : element.Exact fun _ => True) {fuel : Nat} {bytes rest : List UInt8}
    {index : Index S E}
    (h : decodeIndex space element fuel bytes = some (index, rest)) :
    bytes = encodeIndex space element index ++ rest ∧ index.Fits := by
  induction fuel generalizing bytes rest index with
  | zero => simp [decodeIndex] at h
  | succ fuel ih =>
      simp only [decodeIndex, Option.bind_eq_bind, Option.bind_eq_some_iff, Prod.exists] at h
      obtain ⟨tag, body, htag, h⟩ := h
      obtain ⟨rfl, -⟩ := eq_wordBytes_of_readWord htag
      match tag, h with
      | 0, h =>
          simp only [Option.bind_eq_some_iff, Prod.exists] at h
          obtain ⟨f, bytes, hf, h⟩ := h
          obtain ⟨rfl, rfl⟩ : Index.flat f = index ∧ bytes = rest := by simpa using h
          obtain ⟨rfl, hfits⟩ := (flat_exact hspace helement).eq_encode _ _ _ hf
          exact ⟨by simp [encodeIndex], hfits⟩
      | 1, h =>
          simp only [Option.bind_eq_some_iff, Prod.exists] at h
          obtain ⟨s, dimension, unitLength, listCount, probes, clustering, bytes, hhead,
            quantizer, bytes', hq, lists, total, bytes'', htail, h⟩ := h
          obtain ⟨rfl, rfl⟩ : Index.invertedFile
              ⟨s, dimension, unitLength, listCount, probes, clustering, lists, total⟩
              quantizer = index ∧ bytes'' = rest := by simpa using h
          obtain ⟨rfl, hheadFits⟩ := (fileHead_exact hspace).eq_encode _ _ _ hhead
          obtain ⟨rfl, hqFits⟩ := ih hq
          obtain ⟨rfl, htailFits⟩ := (fileTail_exact helement).eq_encode _ _ _ htail
          obtain ⟨-, hd, hu, hl, hp, hc⟩ := hheadFits
          exact ⟨by simp [encodeIndex],
            ⟨hd, hu, hl, hp, hc, htailFits.1.1, htailFits.1.2, htailFits.2⟩, hqFits⟩
      | 2, h =>
          simp only [Option.bind_eq_some_iff, Prod.exists] at h
          obtain ⟨g, bytes, hg, h⟩ := h
          obtain ⟨rfl, rfl⟩ : Index.graph g = index ∧ bytes = rest := by simpa using h
          obtain ⟨rfl, hfits⟩ := (graph_exact hspace helement).eq_encode _ _ _ hg
          exact ⟨by simp [encodeIndex], hfits⟩
      | 3, h =>
          simp only [Option.bind_eq_some_iff, Prod.exists] at h
          obtain ⟨base, bytes, hb, copies, bytes', hc, factor, bytes'', hfactor, h⟩ := h
          obtain ⟨rfl, rfl⟩ : Index.composite base copies factor = index ∧
              bytes'' = rest := by simpa using h
          obtain ⟨rfl, hbFits⟩ := ih hb
          obtain ⟨rfl, hcFits⟩ := (flat_exact hspace helement).eq_encode _ _ _ hc
          obtain ⟨rfl, -⟩ := single_exact.eq_encode _ _ _ hfactor
          exact ⟨by simp [encodeIndex], hbFits, hcFits⟩
      | n + 4, h => simp at h

theorem index_exact (hspace : space.Exact fun _ => True)
    (helement : element.Exact fun _ => True) :
    (index space element).Exact Index.Fits where
  decode_encode i rest hfits := by
    have hdepth := depth_le_length space element i
    apply decodeIndex_encodeIndex hspace helement _ i rest hfits
    simp only [List.length_append]
    exact Nat.le_trans hdepth (by simp only [index]; omega)
  eq_encode _ _ _ h := eq_encodeIndex_of_decodeIndex hspace helement h

theorem idMap_exact (hspace : space.Exact fun _ => True)
    (helement : element.Exact fun _ => True) :
    (idMap space element).Exact IdMap.Fits := by
  have hvia : (idMap space element).Exact _ :=
    ((index_exact hspace helement).pair externalId_exact.array).via (fun _ => rfl) fun _ _ => rfl
  exact hvia.congr fun m =>
    ⟨fun h => ⟨h.1, h.2.1⟩, fun h => ⟨h.index, h.ids, fun _ _ => trivial⟩⟩

theorem stored_exact (hspace : space.Exact fun _ => True)
    (helement : element.Exact fun _ => True) :
    (stored space element).Exact Stored.Fits where
  decode_encode s rest hfits := by
    cases s with
    | bare i =>
        have hi := (index_exact hspace helement).decode_encode i rest hfits
        simp only [stored, List.append_assoc, readWord_wordBytes 4 0 _ (by decide)]
        simp [hi]
    | mapped m =>
        have hm := (idMap_exact hspace helement).decode_encode m rest hfits
        simp only [stored, List.append_assoc, readWord_wordBytes 4 1 _ (by decide)]
        simp [hm]
  eq_encode bytes s rest h := by
    simp only [stored, Option.bind_eq_bind, Option.bind_eq_some_iff, Prod.exists] at h
    obtain ⟨tag, body, htag, h⟩ := h
    obtain ⟨rfl, -⟩ := eq_wordBytes_of_readWord htag
    match tag, h with
    | 0, h =>
        simp only [Option.bind_eq_some_iff, Prod.exists] at h
        obtain ⟨i, bytes, hi, h⟩ := h
        obtain ⟨rfl, rfl⟩ : Stored.bare i = s ∧ bytes = rest := by simpa using h
        obtain ⟨rfl, hfits⟩ := (index_exact hspace helement).eq_encode _ _ _ hi
        exact ⟨by simp [stored], hfits⟩
    | 1, h =>
        simp only [Option.bind_eq_some_iff, Prod.exists] at h
        obtain ⟨m, bytes, hm, h⟩ := h
        obtain ⟨rfl, rfl⟩ : Stored.mapped m = s ∧ bytes = rest := by simpa using h
        obtain ⟨rfl, hfits⟩ := (idMap_exact hspace helement).eq_encode _ _ _ hm
        exact ⟨by simp [stored], hfits⟩
    | n + 2, h => simp at h

end Trees

/-! ## Artifacts -/

theorem floatStored_exact : floatStored.Exact Stored.Fits :=
  stored_exact floatSpace_exact single_exact

theorem binaryStored_exact : binaryStored.Exact Stored.Fits :=
  stored_exact binarySpace_exact byte_exact

/-- Reading an artifact accepts what writing one produces and nothing else. -/
theorem artifact_exact : artifact.Exact Artifact.Fits where
  decode_encode a rest hfits := by
    cases a with
    | float s =>
        have hs := floatStored_exact.decode_encode s rest hfits
        simp only [artifact, List.append_assoc, readWord_wordBytes 4 0 _ (by decide)]
        simp [hs]
    | binary s =>
        have hs := binaryStored_exact.decode_encode s rest hfits
        simp only [artifact, List.append_assoc, readWord_wordBytes 4 1 _ (by decide)]
        simp [hs]
  eq_encode bytes a rest h := by
    simp only [artifact, Option.bind_eq_bind, Option.bind_eq_some_iff, Prod.exists] at h
    obtain ⟨tag, body, htag, h⟩ := h
    obtain ⟨rfl, -⟩ := eq_wordBytes_of_readWord htag
    match tag, h with
    | 0, h =>
        simp only [Option.bind_eq_some_iff, Prod.exists] at h
        obtain ⟨s, bytes, hs, h⟩ := h
        obtain ⟨rfl, rfl⟩ : Artifact.float s = a ∧ bytes = rest := by simpa using h
        obtain ⟨rfl, hfits⟩ := floatStored_exact.eq_encode _ _ _ hs
        exact ⟨by simp [artifact], hfits⟩
    | 1, h =>
        simp only [Option.bind_eq_some_iff, Prod.exists] at h
        obtain ⟨s, bytes, hs, h⟩ := h
        obtain ⟨rfl, rfl⟩ : Artifact.binary s = a ∧ bytes = rest := by simpa using h
        obtain ⟨rfl, hfits⟩ := binaryStored_exact.eq_encode _ _ _ hs
        exact ⟨by simp [artifact], hfits⟩
    | n + 2, h => simp at h

end Codec

end Proximity

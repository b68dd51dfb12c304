import Proximity.Proofs.Codec.Trees
import Proximity.Proofs.Tuning

/-!
# Settings stay counts of 64 bits

The stored form of an index writes its settings as counts of 64 bits.  What is
constructed has such settings, an append and a training leave them alone, and
a tuning sets them to positive integers of 64 bits with a sign.

## Main results

* `Index.SettingsFit` — settings that are counts of 64 bits.
* `Index.SettingsFit.append`, `Index.SettingsFit.train`, `Index.SettingsFit.tune`,
  `Index.SettingsFit.changeAt` — changes.
-/

namespace Proximity

variable {S E : Type}

/-- Clustering settings, widths and dimensions of every node are counts of 64
bits. -/
def Index.SettingsFit : Index S E → Prop
  | .flat f => f.dimension < Count.bound
  | .graph g =>
    g.storage.dimension < Count.bound ∧ g.degree < Count.bound ∧ g.buildWidth < Count.bound ∧
      g.searchWidth < Count.bound
  | .invertedFile f quantizer =>
    f.dimension < Count.bound ∧ f.listCount < Count.bound ∧ f.probes < Count.bound ∧
      f.clustering.Fits ∧ quantizer.SettingsFit
  | .composite base copies _ => base.SettingsFit ∧ copies.dimension < Count.bound

theorem Index.SettingsFit.dimension_lt {index : Index S E} (h : index.SettingsFit) :
    index.dimension < Count.bound := by
  induction index with
  | flat f => exact h
  | graph g => exact h.1
  | invertedFile f quantizer => exact h.1
  | composite base copies factor ih => exact ih h.1

namespace Parameters

/-- A count that is asked for is a count of 64 bits. -/
theorem getD_askedCount?_lt {ps : Parameters} {key : String} {old : Nat}
    (hold : old < Count.bound) : (ps.askedCount? key).getD old < Count.bound := by
  rw [askedCount?]
  split
  · rename_i value _
    split
    · have hlt := Int64.toInt_lt value
      rw [Option.getD_some]
      simp only [Count.bound]
      omega
    · exact hold
  · exact hold

end Parameters

namespace Index

section Changes

variable [Space S E] {index : Index S E}

theorem SettingsFit.append (h : index.SettingsFit) (elements : Array E) :
    (index.append elements).1.SettingsFit := by
  refine append_induction (motive := fun a b => a.SettingsFit → b.SettingsFit) elements ?refl ?flat
    ?graph ?file ?composite index h
  case refl => exact fun index h => h
  case flat => exact fun f data h => h
  case graph =>
    intro g hwhole h
    obtain ⟨data, links, happend⟩ := g.append_eq elements
    rw [happend]
    exact h
  case file =>
    intro f quantizer chosen htrained h
    rw [InvertedFile.insertAll_eq]
    exact h
  case composite => exact fun base base' copies data factor ih h => ⟨ih h.1, h.2⟩

theorem SettingsFit.train (h : index.SettingsFit) (sample : Array E) :
    (index.train sample).1.SettingsFit := by
  refine train_induction (motive := fun a b => a.SettingsFit → b.SettingsFit) ?refl ?file
    ?composite index sample h
  case refl => exact fun index h => h
  case file =>
    rintro f quantizer centroids huntrained ⟨hdimension, hlists, hprobes, hclustering, hq⟩
    exact ⟨hdimension, hlists, hprobes, hclustering, hq.append centroids⟩
  case composite => exact fun base base' copies factor hstock ih h => ⟨ih h.1, h.2⟩

omit [Space S E] in
theorem SettingsFit.tune (h : index.SettingsFit) (ps : Parameters) :
    (index.tune ps).1.SettingsFit := by
  refine tune_induction (motive := fun a b => a.SettingsFit → b.SettingsFit) ?refl ?graph ?file
    ?composite index ps h
  case refl => exact fun index h => h
  case graph =>
    rintro g g' ps htune ⟨hdimension, hdegree, hbuild, hsearch⟩
    obtain ⟨-, rfl⟩ := tuneGraph_eq_ok_iff.1 htune
    exact ⟨hdimension, hdegree, Parameters.getD_askedCount?_lt hbuild,
      Parameters.getD_askedCount?_lt hsearch⟩
  case file =>
    rintro f quantizer quantizer' ps probes nested hread hstock ih
      ⟨hdimension, hlists, hprobes, hclustering, hq⟩
    obtain ⟨-, rfl, -⟩ := readProbes_eq_ok_iff.1 hread
    exact ⟨hdimension, hlists, Parameters.getD_askedCount?_lt hprobes, hclustering, ih hq⟩
  case composite =>
    rintro base base' copies factor ps asked hfactor hstock ih ⟨hbase, hcopies⟩
    exact ⟨ih hbase, hcopies⟩

omit [Space S E] in
theorem SettingsFit.changeAt {A : Type} {change : Index S E → Index S E × A}
    (hchange : ∀ index, index.SettingsFit → (change index).1.SettingsFit)
    (h : index.SettingsFit) {path : List Child} {r : Index S E × A}
    (hr : index.changeAt change path = some r) : r.1.SettingsFit := by
  have himp : index.SettingsFit → r.1.SettingsFit := by
    refine changeAt_induction (motive := fun a b => a.SettingsFit → b.SettingsFit) hchange ?_ ?_ hr
    · exact fun base base' copies factor hbase hall => ⟨hbase hall.1, hall.2⟩
    · exact fun f quantizer quantizer' hq ⟨hd, hl, hp, hc, hold⟩ => ⟨hd, hl, hp, hc, hq hold⟩
  exact himp h

end Changes

end Index

end Proximity

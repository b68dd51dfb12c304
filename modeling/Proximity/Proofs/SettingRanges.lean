import Proximity.Proofs.Filling
import Proximity.Proofs.Persistence

/-!
# The range of settings

Constructions and tunings keep every setting of a tree in a range: a graph has a degree
of two at least and widths of one at least, an inverted file has a list and looks at one,
a composite fetches no fewer candidates than it is asked for.  The check of a decoded
tree asks for the same range node by node, with one exception.  It does not see how many
lists an inverted file looks at, so in a tree that is accepted an inverted file may look
at none.

A tree that ranks what such an inverted file finds is blind: whatever it stores, it
answers every query with nothing.

## Main definitions

* `Settings.InRange` — the range, for all nodes of a tree.
* `Settings.Checked`, `Settings.Probing` — the part of it that is checked, and the part
  that is not.
* `Settings.Blind` — the trees that find nothing.

## Main results

* `Settings.inRange_iff` — the two parts make up the range.
* `Index.Consistent.settings_checked` — what the check asks of the settings.
* `Index.Change.probing`, `Artifact.Built.inRange` — what changes keep.
* `Index.search_of_blind` — what an inverted file without probes finds.
* `Artifact.ofBytes_settings` — accepted artifacts.
-/

namespace Proximity

variable {S E : Type}

namespace Settings

/-! ## Ranges -/

/-- Every setting is one that a construction or a tuning can give. -/
def InRange : Settings → Prop
  | .flat => True
  | .graph degree buildWidth searchWidth => 2 ≤ degree ∧ 1 ≤ buildWidth ∧ 1 ≤ searchWidth
  | .invertedFile listCount probes quantizer => 1 ≤ listCount ∧ 1 ≤ probes ∧ quantizer.InRange
  | .composite factor base => factor.isFinite = true ∧ Single.one.le factor = true ∧ base.InRange

/-- The same, but for the number of lists that inverted files look at. -/
def Checked : Settings → Prop
  | .flat => True
  | .graph degree buildWidth searchWidth => 2 ≤ degree ∧ 1 ≤ buildWidth ∧ 1 ≤ searchWidth
  | .invertedFile listCount _ quantizer => 1 ≤ listCount ∧ quantizer.Checked
  | .composite factor base => factor.isFinite = true ∧ Single.one.le factor = true ∧ base.Checked

/-- Every inverted file looks at a list. -/
def Probing : Settings → Prop
  | .flat | .graph .. => True
  | .invertedFile _ probes quantizer => 1 ≤ probes ∧ quantizer.Probing
  | .composite _ base => base.Probing

/-- The root ranks what an inverted file finds that looks at no list. -/
def Blind : Settings → Prop
  | .flat | .graph .. => False
  | .invertedFile _ probes _ => probes = 0
  | .composite _ base => base.Blind

/-- What is checked and what is not make up the range. -/
theorem inRange_iff {settings : Settings} :
    settings.InRange ↔ settings.Checked ∧ settings.Probing := by
  induction settings with
  | flat => exact (and_self_iff).symm
  | graph degree buildWidth searchWidth => exact (and_iff_left trivial).symm
  | invertedFile listCount probes quantizer ih =>
      simp only [InRange, Checked, Probing, ih]
      constructor
      · rintro ⟨hlists, hprobes, hchecked, hprobing⟩
        exact ⟨⟨hlists, hchecked⟩, hprobes, hprobing⟩
      · rintro ⟨⟨hlists, hchecked⟩, hprobes, hprobing⟩
        exact ⟨hlists, hprobes, hchecked, hprobing⟩
  | composite factor base ih =>
      simp only [InRange, Checked, Probing, ih, and_assoc]

/-- A blind tree has an inverted file that looks at no list. -/
theorem Blind.not_probing {settings : Settings} (h : settings.Blind) : ¬ settings.Probing := by
  induction settings with
  | flat => exact h.elim
  | graph degree buildWidth searchWidth => exact h.elim
  | invertedFile listCount probes quantizer =>
      obtain rfl : probes = 0 := h
      exact fun hprobing => absurd hprobing.1 (Nat.not_succ_le_zero 0)
  | composite factor base ih => exact ih h

end Settings

namespace Index

variable [Space S E] {index : Index S E}

/-! ## Checks -/

/-- The settings of a consistent tree are in range as far as they are checked. -/
theorem Consistent.settings_checked (h : index.Consistent) : index.settings.Checked := by
  induction index with
  | flat f => trivial
  | graph g =>
      exact ⟨h.degree, Nat.one_le_iff_ne_zero.2 h.buildWidth,
        Nat.one_le_iff_ne_zero.2 h.searchWidth⟩
  | invertedFile f quantizer ih =>
      obtain ⟨hq, -, -, hf⟩ := h
      exact ⟨Nat.one_le_iff_ne_zero.2 hf.listCount, ih hq⟩
  | composite base copies factor ih =>
      obtain ⟨hbase, -, -, -, hfinite, hleast⟩ := h
      exact ⟨hfinite, hleast, ih hbase⟩

/-! ## Changes -/

/-- A training leaves the settings of a tree alone. -/
theorem train_settings (index : Index S E) (sample : Array E) :
    (index.train sample).1.settings = index.settings := by
  refine train_induction (motive := fun a b => b.settings = a.settings) ?refl ?file ?composite
    index sample
  case refl => exact fun index => rfl
  case file =>
    exact fun f quantizer centroids huntrained =>
      congrArg (Settings.invertedFile f.listCount f.probes) (quantizer.append_settings centroids)
  case composite =>
    exact fun base base' copies factor hstock ih => congrArg (Settings.composite factor) ih

theorem Constructed.probing (h : index.Constructed) : index.settings.Probing := by
  apply h.steps (motive := fun index => index.settings.Probing)
  · intro _ _ _ _ _
    trivial
  · intro _ _ _ _ _ _ _ _ _ _ _
    trivial
  · intro quantizer index listCount clustering _ hq _ _ hover
    obtain ⟨-, -, unitLength, -, rfl⟩ := invertedFileOver_eq_ok_iff.1 hover
    exact ⟨Nat.le_refl 1, hq⟩
  · intro base index _ hbase hover
    obtain ⟨-, copies, -, rfl⟩ := compositeOver_eq_ok_iff.1 hover
    exact hbase

omit [Space S E] in
/-- A tuning, accepted or not, sets no inverted file to look at no list. -/
theorem probing_tune (h : index.settings.Probing) (ps : Parameters) :
    (index.tune ps).1.settings.Probing := by
  refine tune_induction (motive := fun a b => a.settings.Probing → b.settings.Probing) ?refl
    ?graph ?file ?composite index ps h
  case refl => exact fun index h => h
  case graph => exact fun g g' ps htune h => trivial
  case file =>
    rintro f quantizer quantizer' ps probes nested hread hstock ih ⟨hprobes, hq⟩
    obtain ⟨-, rfl, -⟩ := readProbes_eq_ok_iff.1 hread
    refine ⟨?_, ih hq⟩
    cases hasked : ps.askedCount? TuningKey.probes with
    | none => exact hprobes
    | some n => exact Parameters.askedCount?_pos hasked
  case composite => exact fun base base' copies factor ps asked hfactor hstock ih h => ih h

omit [Space S E] in
private theorem probing_changeAt {A : Type} {change : Index S E → Index S E × A}
    (hchange : ∀ index : Index S E, index.settings.Probing → (change index).1.settings.Probing)
    (h : index.settings.Probing) {path : List Child} {r : Index S E × A}
    (hr : index.changeAt change path = some r) : r.1.settings.Probing :=
  changeAt_induction (motive := fun a b => a.settings.Probing → b.settings.Probing) hchange
    (fun _ _ _ _ hbase hall => hbase hall) (fun _ _ _ hq hall => ⟨hall.1, hq hall.2⟩) hr h

/-- No change sets an inverted file to look at no list. -/
theorem Change.probing {index' : Index S E} (h : index.Change index')
    (hindex : index.settings.Probing) : index'.settings.Probing := by
  cases h with
  | append elements => exact (index.append_settings elements).symm ▸ hindex
  | train hr =>
      exact probing_changeAt (fun index hi => (index.train_settings _).symm ▸ hi) hindex hr
  | tune hr => exact probing_changeAt (fun index hi => probing_tune hi _) hindex hr

/-! ## Searches -/

/-- No search finds more than was asked for. -/
theorem length_nearest_le (index : Index S E) (query : Array E) (k : Nat) (accept : Nat → Bool) :
    (index.nearest query k accept).length ≤ k := by
  cases index with
  | flat f => exact (f.nearest_finds query k accept).2
  | graph g => exact (g.links.nearest_finds _ _ k accept).2
  | invertedFile f quantizer =>
      rw [nearest, InvertedFile.nearest, Best.collect_eq_take_ranked]
      exact List.length_take_le _ _
  | composite base copies factor =>
      rw [nearest, Best.collect_eq_take_ranked]
      exact List.length_take_le _ _

/-- A search of a blind tree looks at nothing. -/
theorem nearest_of_blind (h : index.settings.Blind) (query : Array E) (k : Nat)
    (accept : Nat → Bool) : index.nearest query k accept = [] := by
  induction index generalizing k accept with
  | flat f => exact h.elim
  | graph g => exact h.elim
  | invertedFile f quantizer =>
      have hprobes : f.probeCount = 0 := (congrArg (min · f.listCount) h).trans (Nat.zero_min _)
      have hnone : quantizer.nearest query f.probeCount (fun _ => true) = [] :=
        List.eq_nil_of_length_eq_zero (Nat.le_zero.1 (hprobes ▸ quantizer.length_nearest_le ..))
      rw [nearest, hnone]
      rfl
  | composite base copies factor ih =>
      rw [nearest, ih h]
      rfl

/-- Whatever it stores, a blind tree answers every query with nothing. -/
theorem search_of_blind (h : index.settings.Blind) {query : Array E}
    (hwidth : query.size = index.unitLength) (k : Nat) (accept : Nat → Bool) :
    index.search query k accept = .ok [] := by
  rw [search_eq_of_width hwidth, nearest_of_blind h]
  exact congrArg Except.ok (ite_self _)

end Index

namespace Artifact

variable {a : Artifact}

theorem Consistent.settings_checked (h : a.Consistent) : a.settings.Checked := by
  cases a with
  | float stored => exact (Stored.Consistent.index h).settings_checked
  | binary stored => exact (Stored.Consistent.index h).settings_checked

/-- Whatever was built has all its settings in range. -/
theorem Built.inRange (h : a.Built) : a.settings.InRange := by
  refine Settings.inRange_iff.2 ⟨h.kept.consistent.settings_checked, ?_⟩
  have hprobing := h.index_induction (P := fun index => index.settings.Probing)
    (Q := fun index => index.settings.Probing) (fun _ hindex => hindex.probing)
    (fun _ _ hchange => hchange.probing) (fun _ hindex => hindex.probing)
    fun _ _ hchange => hchange.probing
  cases a <;> exact hprobing

/-- Every query of the right width is answered with nothing. -/
def FindsNothing : Artifact → Prop
  | .float stored => ∀ query : Array Single, query.size = stored.index.unitLength →
      ∀ k accept, stored.index.search query k accept = .ok []
  | .binary stored => ∀ query : Array UInt8, query.size = stored.index.unitLength →
      ∀ k accept, stored.index.search query k accept = .ok []

theorem findsNothing_of_blind (h : a.settings.Blind) : a.FindsNothing := by
  cases a with
  | float stored => exact fun _ hwidth => Index.search_of_blind h hwidth
  | binary stored => exact fun _ hwidth => Index.search_of_blind h hwidth

/-- **Settings of accepted artifacts.**  Whatever bytes are accepted, every node of the
tree has its settings in range as far as they are checked: a graph its degree and widths,
an inverted file its number of lists, a composite its factor.  All settings are in range
exactly if besides every inverted file looks at a list, and so they are in everything
that was built.  If the root ranks what an inverted file finds that looks at none, no
query finds anything. -/
theorem ofBytes_settings {bytes : List UInt8} (h : ofBytes bytes = .ok a) :
    a.settings.Checked ∧ (a.settings.InRange ↔ a.settings.Probing) ∧
      (a.Built → a.settings.InRange) ∧ (a.settings.Blind → a.FindsNothing) := by
  have hchecked : a.settings.Checked := (of_ofBytes h).1.settings_checked
  exact ⟨hchecked, Settings.inRange_iff.trans (and_iff_right hchecked), Built.inRange,
    findsNothing_of_blind⟩

/-- A composite over one list of bit vectors, which looks at some number of lists. -/
def listWithCopies (probes : Nat) : Index BinarySpace UInt8 :=
  .composite
    (.invertedFile ⟨⟨⟩, 8, 1, 1, probes, .standard, #[⟨#[0], #[3]⟩], 1⟩ (.flat ⟨⟨⟩, 8, 1, #[0]⟩))
    ⟨⟨⟩, 8, 1, #[3]⟩ .one

private theorem listWithCopies_kept (probes : Nat) (hprobes : probes < Count.bound) :
    Kept (.binary (.bare (listWithCopies probes))) where
  consistent := check_eq_ok_iff.1 rfl
  settings := by
    have height : 8 < Count.bound := by decide
    have hone : 1 < Count.bound := by decide
    have hclustering : ClusteringSettings.standard.Fits := ⟨by decide, by decide, by decide⟩
    exact ⟨⟨height, hone, hprobes, hclustering, height⟩, height⟩
  memory := by
    have hone : 1 < Count.signedBound := by decide
    refine ⟨⟨⟨hone, fun l hl => ?_, fun l hl => ?_, hone⟩, hone⟩, hone⟩
    all_goals
      obtain rfl : l = ⟨#[0], #[3]⟩ := by simpa using hl
      exact hone

/-- A composite whose base looks at its one list has all settings in range. -/
theorem ofBytes_settings_oneProbe :
    ofBytes (toBytes (.binary (.bare (listWithCopies 1)))) =
        .ok (.binary (.bare (listWithCopies 1))) ∧
      (listWithCopies 1).settings = .composite .one (.invertedFile 1 1 .flat) ∧
      (listWithCopies 1).settings.InRange := by
  have hread := (listWithCopies_kept 1 (by decide)).roundtrip (by decide +kernel)
  have hprobing : (listWithCopies 1).settings.Probing := ⟨Nat.le_refl 1, trivial⟩
  exact ⟨hread, rfl, (ofBytes_settings hread).2.1.2 hprobing⟩

/-- The same tree is accepted if its base looks at no list, and then does not find the
vector that it stores. -/
theorem ofBytes_noProbes :
    ofBytes (toBytes (.binary (.bare (listWithCopies 0)))) =
        .ok (.binary (.bare (listWithCopies 0))) ∧
      (listWithCopies 0).settings = .composite .one (.invertedFile 1 0 .flat) ∧
      ¬ (listWithCopies 0).settings.InRange ∧
      (listWithCopies 0).search #[3] 1 (fun _ => true) = .ok [] ∧
      (listWithCopies 1).search #[3] 1 (fun _ => true) = .ok [⟨0, .zero⟩] := by
  have hread := (listWithCopies_kept 0 (by decide)).roundtrip (by decide +kernel)
  have hblind : (listWithCopies 0).settings.Blind := rfl
  refine ⟨hread, rfl, fun h => hblind.not_probing (Settings.inRange_iff.1 h).2,
    Index.search_of_blind hblind rfl 1 _, ?_⟩
  with_unfolding_all rfl

end Artifact

end Proximity

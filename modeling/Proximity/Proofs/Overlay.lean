import Proximity.Proofs.Tuning

/-!
# Tuning is an idempotent overlay

A tuning descends a tree in two ways: an inverted file hands its quantizer the bag under
one key and nothing else, a composite hands its base the same parameters it was given.  It
stops at the first invalid value, and what was set on the way there stays.  All the same,
whether it is accepted is a matter of the parameters and the shape of the tree, and a second
tuning with the same parameters, after an accepted or a refused one, finds nothing left to
change.

## Main definitions

* `Settings.Accepts` — every key that the nodes recognize has a valid value.
* `Settings.overlay` — settings overlaid with the values asked for.
* `Settings.EachOldOrAsked` — every setting is the old one or the one asked for.
* `Index.withoutTuning` — a tree but for what a tuning sets.

## Main results

* `Settings.tuned_eq_ok_iff` — the overlay of valid parameters.
* `Index.tune_outcome` — the outcome is a matter of the shape.
* `Index.tune_tune` — a second tuning changes nothing.
* `Index.tune_overlay` — all of it, for every tree.
-/

namespace Proximity

variable {S E : Type}

namespace Settings

/-! ## Overlays -/

/-- Every key that the nodes of a tree recognize has a valid value, or none. -/
def Accepts : Settings → Parameters → Prop
  | .flat, _ => True
  | .graph .., ps =>
    ps.ValidCount TuningKey.buildWidth ∧ ps.ValidCount TuningKey.searchWidth
  | .invertedFile _ _ quantizer, ps =>
    ps.ValidCount TuningKey.probes ∧ ps.ValidMap TuningKey.quantizer ∧
      ∀ nested, ps.askedMap? TuningKey.quantizer = some nested → quantizer.Accepts nested
  | .composite _ base, ps => ps.ValidNumber TuningKey.factor .one ∧ base.Accepts ps

/-- The settings with the values asked for in place of the old ones. -/
def overlay : Settings → Parameters → Settings
  | .flat, _ => .flat
  | .graph degree buildWidth searchWidth, ps =>
    .graph degree ((ps.askedCount? TuningKey.buildWidth).getD buildWidth)
      ((ps.askedCount? TuningKey.searchWidth).getD searchWidth)
  | .invertedFile listCount probes quantizer, ps =>
    .invertedFile listCount ((ps.askedCount? TuningKey.probes).getD probes)
      (match ps.askedMap? TuningKey.quantizer with
      | none => quantizer
      | some nested => quantizer.overlay nested)
  | .composite factor base, ps =>
    .composite ((ps.askedNumber? TuningKey.factor .one).getD factor) (base.overlay ps)

/-- Settings are overlaid with valid parameters, and no others. -/
theorem tuned_eq_ok_iff {settings settings' : Settings} {ps : Parameters} :
    settings.tuned ps = .ok settings' ↔ settings.Accepts ps ∧ settings.overlay ps = settings' := by
  induction settings generalizing ps settings' with
  | flat => simp only [tuned, Accepts, overlay, Except.ok.injEq, true_and]
  | graph degree buildWidth searchWidth =>
      simp only [tuned, Accepts, overlay, Except.bind_eq_ok_iff, Parameters.count?_eq_ok_iff]
      constructor
      · rintro ⟨_, ⟨hbuild, rfl⟩, _, ⟨hsearch, rfl⟩, hset⟩
        exact ⟨⟨hbuild, hsearch⟩, Except.ok.inj hset⟩
      · rintro ⟨⟨hbuild, hsearch⟩, rfl⟩
        exact ⟨_, ⟨hbuild, rfl⟩, _, ⟨hsearch, rfl⟩, rfl⟩
  | invertedFile listCount probes quantizer ih =>
      simp only [tuned, Accepts, overlay, Except.bind_eq_ok_iff, Parameters.count?_eq_ok_iff,
        Parameters.map?_eq_ok_iff]
      -- Only a bag under its own key has anything to do with the quantizer.
      cases hasked : ps.askedMap? TuningKey.quantizer with
      | none =>
          constructor
          · rintro ⟨_, ⟨hprobes, rfl⟩, _, ⟨hmap, rfl⟩, hset⟩
            refine ⟨⟨hprobes, hmap, ?_⟩, Except.ok.inj hset⟩
            intro nested hnone
            cases hnone
          · rintro ⟨⟨hprobes, hmap, -⟩, rfl⟩
            exact ⟨_, ⟨hprobes, rfl⟩, _, ⟨hmap, rfl⟩, rfl⟩
      | some nested =>
          constructor
          · rintro ⟨_, ⟨hprobes, rfl⟩, _, ⟨hmap, rfl⟩, hset⟩
            obtain ⟨quantizer', htuned, hset⟩ := Except.bind_eq_ok_iff.1 hset
            obtain ⟨haccepts, rfl⟩ := ih.1 htuned
            refine ⟨⟨hprobes, hmap, ?_⟩, Except.ok.inj hset⟩
            intro other hother
            obtain rfl := Option.some.inj hother
            exact haccepts
          · rintro ⟨⟨hprobes, hmap, haccepts⟩, rfl⟩
            have htuned := ih.2 ⟨haccepts nested rfl, rfl⟩
            exact ⟨_, ⟨hprobes, rfl⟩, _, ⟨hmap, rfl⟩, Except.bind_eq_ok_iff.2 ⟨_, htuned, rfl⟩⟩
  | composite factor base ih =>
      simp only [tuned, Accepts, overlay, Except.bind_eq_ok_iff,
        Parameters.atLeast?_one_eq_ok_iff, ih]
      constructor
      · rintro ⟨_, ⟨hfactor, rfl⟩, _, ⟨hbase, rfl⟩, hset⟩
        exact ⟨⟨hfactor, hbase⟩, Except.ok.inj hset⟩
      · rintro ⟨⟨hfactor, hbase⟩, rfl⟩
        exact ⟨_, ⟨hfactor, rfl⟩, _, ⟨hbase, rfl⟩, rfl⟩

/-! ## Partial overlays -/

/-- A setting has kept its value or taken the one asked for. -/
def OldOrAsked {A : Type} (old : A) (asked : Option A) (new : A) : Prop :=
  new = old ∨ asked = some new

theorem oldOrAsked_getD {A : Type} (old : A) (asked : Option A) :
    OldOrAsked old asked (asked.getD old) := by
  cases asked with
  | none => exact .inl rfl
  | some new => exact .inr rfl

/-- Every setting of a tree has kept its value or taken the one asked for; a quantizer that
is handed nothing is as it was. -/
def EachOldOrAsked : Settings → Parameters → Settings → Prop
  | .flat, _, new => new = .flat
  | .graph degree buildWidth searchWidth, ps, new =>
    ∃ buildWidth' searchWidth', new = .graph degree buildWidth' searchWidth' ∧
      OldOrAsked buildWidth (ps.askedCount? TuningKey.buildWidth) buildWidth' ∧
      OldOrAsked searchWidth (ps.askedCount? TuningKey.searchWidth) searchWidth'
  | .invertedFile listCount probes quantizer, ps, new =>
    ∃ probes' quantizer', new = .invertedFile listCount probes' quantizer' ∧
      OldOrAsked probes (ps.askedCount? TuningKey.probes) probes' ∧
      match ps.askedMap? TuningKey.quantizer with
      | none => quantizer' = quantizer
      | some nested => quantizer.EachOldOrAsked nested quantizer'
  | .composite factor base, ps, new =>
    ∃ factor' base', new = .composite factor' base' ∧
      OldOrAsked factor (ps.askedNumber? TuningKey.factor .one) factor' ∧
      base.EachOldOrAsked ps base'

theorem EachOldOrAsked.refl (settings : Settings) (ps : Parameters) :
    settings.EachOldOrAsked ps settings := by
  induction settings generalizing ps with
  | flat => rfl
  | graph degree buildWidth searchWidth => exact ⟨_, _, rfl, .inl rfl, .inl rfl⟩
  | invertedFile listCount probes quantizer ih =>
      refine ⟨_, _, rfl, .inl rfl, ?_⟩
      split
      · rfl
      · exact ih _
  | composite factor base ih => exact ⟨_, _, rfl, .inl rfl, ih ps⟩

end Settings

/-- The outcome of a tuning, for the topologies of a tree from its root down. -/
def Topology.outcome : List Topology → Parameters → Except Error Unit
  | [], _ | .flat :: _, _ => .ok ()
  | .graph :: _, ps => do
    let _ ← ps.count? TuningKey.buildWidth
    let _ ← ps.count? TuningKey.searchWidth
    return ()
  | .invertedFile :: rest, ps => do
    let _ ← ps.count? TuningKey.probes
    match ← ps.map? TuningKey.quantizer with
    | none => return ()
    | some nested => outcome rest nested
  | .composite :: rest, ps => do
    let _ ← ps.atLeast? TuningKey.factor .one
    outcome rest ps

namespace Index

/-- A tree but for the settings that a tuning sets. -/
def withoutTuning : Index S E → Index S E
  | .flat f => .flat f
  | .graph g => .graph { g with buildWidth := 0, searchWidth := 0 }
  | .invertedFile f quantizer => .invertedFile { f with probes := 0 } quantizer.withoutTuning
  | .composite base copies _ => .composite base.withoutTuning copies .zero

/-! ## Runs -/

/-- A tuning is accepted exactly if the settings accept the parameters. -/
theorem tune_eq_ok_iff (index : Index S E) (ps : Parameters) :
    (index.tune ps).2 = .ok () ↔ index.settings.Accepts ps := by
  have hsettings := index.tune_settings ps
  cases houtcome : (index.tune ps).2 with
  | error e =>
      rw [houtcome] at hsettings
      simp only [reduceCtorEq, false_iff]
      intro haccepts
      rw [Settings.tuned_eq_ok_iff.2 ⟨haccepts, rfl⟩] at hsettings
      cases hsettings
  | ok u =>
      rw [houtcome] at hsettings
      exact iff_of_true rfl (Settings.tuned_eq_ok_iff.1 hsettings.symm).1

/-- An accepted tuning overlays the settings. -/
theorem settings_of_tune_eq_ok {index : Index S E} {ps : Parameters}
    (h : (index.tune ps).2 = .ok ()) : (index.tune ps).1.settings = index.settings.overlay ps := by
  have hsettings := index.tune_settings ps
  rw [h] at hsettings
  exact (Settings.tuned_eq_ok_iff.1 hsettings.symm).2.symm

/-- The outcome of a tuning is a matter of the parameters and the shape of the tree. -/
theorem tune_outcome (index : Index S E) (ps : Parameters) :
    (index.tune ps).2 = Topology.outcome index.topologies ps := by
  induction index generalizing ps with
  | flat f => rfl
  | graph g =>
      simp only [tune, tuneGraph, topologies, Topology.outcome]
      cases ps.count? TuningKey.buildWidth with
      | error e => rfl
      | ok askedBuild => cases ps.count? TuningKey.searchWidth <;> rfl
  | invertedFile f quantizer ih =>
      simp only [tune, readProbes, topologies, Topology.outcome]
      cases ps.count? TuningKey.probes with
      | error e => rfl
      | ok askedProbes =>
          cases ps.map? TuningKey.quantizer with
          | error e => rfl
          | ok asked =>
              cases asked with
              | none => rfl
              | some nested => exact ih nested
  | composite base copies factor ih =>
      simp only [tune, topologies, Topology.outcome]
      cases ps.atLeast? TuningKey.factor .one with
      | error e => rfl
      | ok askedFactor => exact ih ps

private theorem getD_getD {A : Type} (asked : Option A) (old : A) :
    asked.getD (asked.getD old) = asked.getD old := by
  cases asked <;> rfl

/-- A graph that took parameters takes them again, and they are its own already. -/
theorem tuneGraph_again {g g' : Graph S E} {ps : Parameters} (h : tuneGraph g ps = .ok g') :
    tuneGraph g' ps = .ok g' := by
  obtain ⟨hvalid, rfl⟩ := tuneGraph_eq_ok_iff.1 h
  rw [tuneGraph_eq_ok_iff, getD_getD, getD_getD]
  exact ⟨hvalid, rfl⟩

/-- A second tuning with the same parameters gives the same outcome and changes nothing. -/
theorem tune_tune (index : Index S E) (ps : Parameters) :
    (index.tune ps).1.tune ps = index.tune ps := by
  refine tune_steps (motive := fun _ ps r => r.1.tune ps = r) ?flat ?refused ?graph ?unhanded
    ?handed ?composite index ps
  case flat => exact fun f ps => rfl
  case refused => exact fun index ps e hrefused => hrefused
  case graph =>
    intro g g' ps h
    simp only [tune, tuneGraph_again h]
  case unhanded =>
    intro f quantizer ps probes h
    simp only [tune, h, getD_getD]
  case handed =>
    intro f quantizer ps probes nested r h htune ih
    simp only [tune, h, ih, getD_getD]
  case composite =>
    intro base copies factor ps asked r h htune ih
    simp only [tune, h, ih, getD_getD]

/-- A tuning sets no more than counts of probes, widths and factors. -/
theorem withoutTuning_tune (index : Index S E) (ps : Parameters) :
    (index.tune ps).1.withoutTuning = index.withoutTuning := by
  refine tune_induction (motive := fun a b => b.withoutTuning = a.withoutTuning) ?refl ?graph
    ?file ?composite index ps
  case refl => exact fun index => rfl
  case graph =>
    intro g g' ps htune
    obtain ⟨-, rfl⟩ := tuneGraph_eq_ok_iff.1 htune
    rfl
  case file =>
    intro f quantizer quantizer' ps probes nested hread hstock ih
    simp only [withoutTuning, ih]
  case composite =>
    intro base base' copies factor ps asked hfactor hstock ih
    simp only [withoutTuning, ih]

/-- However far a tuning gets, every setting is the old one or the one asked for. -/
theorem tune_eachOldOrAsked (index : Index S E) (ps : Parameters) :
    index.settings.EachOldOrAsked ps (index.tune ps).1.settings := by
  refine tune_steps (motive := fun index ps r => index.settings.EachOldOrAsked ps r.1.settings)
    ?flat ?refused ?graph ?unhanded ?handed ?composite index ps
  case flat => exact fun f ps => rfl
  case refused => exact fun index ps e hrefused => .refl _ ps
  case graph =>
    intro g g' ps h
    obtain ⟨-, rfl⟩ := tuneGraph_eq_ok_iff.1 h
    exact ⟨_, _, rfl, Settings.oldOrAsked_getD _ _, Settings.oldOrAsked_getD _ _⟩
  case unhanded =>
    intro f quantizer ps probes h
    obtain ⟨-, rfl, hnested⟩ := readProbes_eq_ok_iff.1 h
    refine ⟨_, _, rfl, Settings.oldOrAsked_getD _ _, ?_⟩
    rw [hnested]
  case handed =>
    intro f quantizer ps probes nested r h htune ih
    obtain ⟨-, rfl, hnested⟩ := readProbes_eq_ok_iff.1 h
    refine ⟨_, _, rfl, Settings.oldOrAsked_getD _ _, ?_⟩
    rw [hnested]
    exact ih
  case composite =>
    intro base copies factor ps asked r h htune ih
    obtain ⟨-, rfl⟩ := Parameters.atLeast?_one_eq_ok_iff.1 h
    exact ⟨_, _, rfl, Settings.oldOrAsked_getD _ _, ih⟩

/-! ## All of it -/

/-- **Tuning is an idempotent overlay.**  A tuning of any tree with any parameters is accepted
exactly if every key that its nodes recognize has a valid value, and then the settings are
the old ones overlaid with the values asked for.  Accepted or not, the outcome is that of
every tree of the same shape, the same tuning once more gives the same outcome and changes
nothing, only the settings that a tuning sets are different from before, and each of them is
the old one or the one asked for. -/
theorem tune_overlay (index : Index S E) (ps : Parameters) :
    ((index.tune ps).2 = .ok () ↔ index.settings.Accepts ps) ∧
      ((index.tune ps).2 = .ok () → (index.tune ps).1.settings = index.settings.overlay ps) ∧
      (∀ {S' E' : Type} (other : Index S' E'), other.topologies = index.topologies →
        (other.tune ps).2 = (index.tune ps).2) ∧
      (index.tune ps).1.tune ps = index.tune ps ∧
      (index.tune ps).1.withoutTuning = index.withoutTuning ∧
      index.settings.EachOldOrAsked ps (index.tune ps).1.settings := by
  refine ⟨index.tune_eq_ok_iff ps, settings_of_tune_eq_ok, ?_, index.tune_tune ps,
    index.withoutTuning_tune ps, index.tune_eachOldOrAsked ps⟩
  intro S' E' other hshape
  rw [tune_outcome, tune_outcome, hshape]

/-- Four lists over a graph, with copies; nothing is stored. -/
def copiedLists : Index BinarySpace UInt8 :=
  .composite
    (.invertedFile (.empty ⟨⟩ 8 1 4 .standard)
      (.graph ⟨⟨⟨⟩, 8, 1, #[]⟩, 16, 40, 16, .empty, .ofNat 0, Graph.standardSeed⟩))
    ⟨⟨⟩, 8, 1, #[]⟩ .one

/-- Three lists, twice the candidates and a width for the graph below. -/
def askedBelow (searchWidth : Int64) : Parameters :=
  [(TuningKey.quantizer, .map [(TuningKey.searchWidth, .int searchWidth)]),
    (TuningKey.factor, .int 2), (TuningKey.probes, .int 3)]

/-- If the graph refuses its width, what was asked of the nodes above it is set all the same,
and stays so when asked once more. -/
theorem tune_overlay_copiedLists :
    (copiedLists.tune (askedBelow 64)).1.settings =
        .composite ⟨0x40000000⟩ (.invertedFile 4 3 (.graph 16 40 64)) ∧
      ¬ copiedLists.settings.Accepts (askedBelow 0) ∧
      ((copiedLists.tune (askedBelow 0)).1.tune (askedBelow 0)).1.settings =
        .composite ⟨0x40000000⟩ (.invertedFile 4 3 (.graph 16 40 16)) := by
  obtain ⟨-, hsettings, -⟩ := tune_overlay copiedLists (askedBelow 64)
  obtain ⟨haccepts, -, -, hagain, -⟩ := tune_overlay copiedLists (askedBelow 0)
  refine ⟨(hsettings rfl).trans (by decide +kernel), ?_, ?_⟩
  · intro h
    cases haccepts.2 h
  · rw [hagain]
    decide +kernel

end Index

end Proximity

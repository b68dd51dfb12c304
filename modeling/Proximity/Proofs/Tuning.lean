import Proximity.Proofs.Growth
import Proximity.Proofs.Ranking

/-!
# Tuning as an overlay of settings

A tuning reads the settings of a tree and some parameters, and nothing else: a
snapshot of the settings decides whether it is accepted, and which settings the
tuned tree has.  A refusal always names the parameter it is about.

An accessor both checks the value of a key and reads it.  The two parts are told
apart here, so what is said about the values that are read does not have to go
through the checks again.

## Main definitions

* `Parameters.ValidCount`, `Parameters.ValidNumber`, `Parameters.ValidMap` — what
  accessors check.
* `Parameters.askedCount?`, `Parameters.askedNumber?`, `Parameters.askedMap?` — what
  they read.

## Main results

* `Parameters.count?_eq_ok_iff`, `Parameters.atLeast?_eq_ok_iff`,
  `Parameters.map?_eq_ok_iff` — an accessor checks and reads.
* `Index.tuneGraph_eq_ok_iff`, `Index.readProbes_eq_ok_iff` — what a node checks and
  sets.
* `Settings.tuned` — the overlay of a snapshot.
* `Index.tune_settings` — a tuning is the overlay of the settings.
* `Settings.tuned_eq_error`, `Settings.refused?` — what a refusal says.
* `Index.tune_isTrained` — a tuning does not train.
-/

namespace Proximity

variable {S E : Type}

/-! ## Parameters -/

namespace Parameters

variable {ps : Parameters} {key : String} {e : Error}

/-! ### Valid values -/

/-- The value of a key, if it has one, is a positive integer. -/
def ValidCount (ps : Parameters) (key : String) : Prop :=
  ∀ value, ps.get? key = some value → ∃ n : Int64, value = .int n ∧ 0 < n.toInt

/-- The value of a key, if it has one, stands for a finite number that is at least as great
as a bound. -/
def ValidNumber (ps : Parameters) (key : String) (least : Single) : Prop :=
  ∀ value, ps.get? key = some value →
    ∃ x, number? value = some x ∧ x.isFinite = true ∧ least.le x = true

/-- The value of a key, if it has one, is a bag. -/
def ValidMap (ps : Parameters) (key : String) : Prop :=
  ∀ value, ps.get? key = some value → ∃ nested, value = .map nested

/-! ### Values asked for -/

/-- The positive integer that is asked for under a key. -/
def askedCount? (ps : Parameters) (key : String) : Option Nat :=
  match ps.get? key with
  | some (.int n) => if 0 < n.toInt then some n.toInt.toNat else none
  | _ => none

/-- The finite number, not below a bound, that is asked for under a key. -/
def askedNumber? (ps : Parameters) (key : String) (least : Single) : Option Single :=
  ((ps.get? key).bind number?).filter fun x => x.isFinite && least.le x

/-- The bag that is handed on under a key. -/
def askedMap? (ps : Parameters) (key : String) : Option Parameters :=
  match ps.get? key with
  | some (.map nested) => some nested
  | _ => none

theorem askedCount?_pos {n : Nat} (h : ps.askedCount? key = some n) : 0 < n := by
  rw [askedCount?] at h
  split at h
  · rw [Option.ite_none_right_eq_some] at h
    obtain ⟨hpos, hn⟩ := h
    obtain rfl := Option.some.inj hn
    omega
  · cases h

theorem of_askedNumber? {least x : Single} (h : ps.askedNumber? key least = some x) :
    x.isFinite = true ∧ least.le x = true := by
  rw [askedNumber?, Option.filter_eq_some_iff] at h
  exact Bool.and_eq_true_iff.1 h.2

/-- A count that is asked for is at least one already. -/
theorem map_max_one_askedCount? (ps : Parameters) (key : String) :
    (ps.askedCount? key).map (max · 1) = ps.askedCount? key := by
  cases hasked : ps.askedCount? key with
  | none => rfl
  | some n => exact congrArg some (Nat.max_eq_left (askedCount?_pos hasked))

/-! ### Accessors -/

theorem count?_eq_ok_iff {asked : Option Nat} :
    ps.count? key = .ok asked ↔ ps.ValidCount key ∧ ps.askedCount? key = asked := by
  rw [count?, ValidCount, askedCount?]
  cases ps.get? key with
  | none => simp
  | some value =>
      cases value with
      | int n => by_cases hpos : 0 < n.toInt <;> simp [hpos]
      | _ => simp

theorem atLeast?_eq_ok_iff {least : Single} (hleast : least.isNaN = false)
    {asked : Option Single} :
    ps.atLeast? key least = .ok asked ↔
      ps.ValidNumber key least ∧ ps.askedNumber? key least = asked := by
  rw [atLeast?, ValidNumber, askedNumber?]
  cases ps.get? key with
  | none => simp
  | some value =>
      simp only [Option.some.injEq, forall_eq', Option.bind_some]
      cases number? value with
      | none => simp
      | some x =>
          simp only [Single.isFinite_and_not_lt hleast, Option.filter_some, Option.some.injEq,
            exists_eq_left']
          rw [← Bool.and_eq_true]
          cases hfits : x.isFinite && least.le x <;> simp

theorem atLeast?_one_eq_ok_iff {asked : Option Single} :
    ps.atLeast? key .one = .ok asked ↔
      ps.ValidNumber key .one ∧ ps.askedNumber? key .one = asked :=
  atLeast?_eq_ok_iff (by decide)

theorem map?_eq_ok_iff {asked : Option Parameters} :
    ps.map? key = .ok asked ↔ ps.ValidMap key ∧ ps.askedMap? key = asked := by
  rw [map?, ValidMap, askedMap?]
  cases ps.get? key with
  | none => simp
  | some value => cases value <;> simp

theorem count?_eq_error (h : ps.count? key = .error e) :
    ∃ fault, e = .invalidParameter key fault := by
  rw [count?] at h
  split at h
  · cases h
  · split at h
    · cases h
    · exact ⟨_, (Except.error.inj h).symm⟩
  · exact ⟨_, (Except.error.inj h).symm⟩

theorem atLeast?_eq_error {least : Single} (h : ps.atLeast? key least = .error e) :
    ∃ fault, e = .invalidParameter key fault := by
  rw [atLeast?] at h
  split at h
  · cases h
  · split at h
    · exact ⟨_, (Except.error.inj h).symm⟩
    · split at h
      · cases h
      · exact ⟨_, (Except.error.inj h).symm⟩

theorem map?_eq_error (h : ps.map? key = .error e) :
    ∃ fault, e = .invalidParameter key fault := by
  rw [map?] at h
  split at h
  · cases h
  · cases h
  · exact ⟨_, (Except.error.inj h).symm⟩

end Parameters

/-! ## Snapshots -/

namespace Settings

/-- A snapshot overlaid with parameters: a node takes the keys it knows, an
inverted file hands the map for its quantizer on, a composite all of its
parameters. -/
def tuned : Settings → Parameters → Except Error Settings
  | .flat, _ => .ok .flat
  | .graph degree buildWidth searchWidth, ps => do
    let askedBuild ← ps.count? TuningKey.buildWidth
    let askedSearch ← ps.count? TuningKey.searchWidth
    return .graph degree (askedBuild.getD buildWidth) (askedSearch.getD searchWidth)
  | .invertedFile listCount probes quantizer, ps => do
    let askedProbes ← ps.count? TuningKey.probes
    match ← ps.map? TuningKey.quantizer with
    | none => return .invertedFile listCount (askedProbes.getD probes) quantizer
    | some nested =>
      return .invertedFile listCount (askedProbes.getD probes) (← quantizer.tuned nested)
  | .composite factor base, ps => do
    let askedFactor ← ps.atLeast? TuningKey.factor .one
    return .composite (askedFactor.getD factor) (← base.tuned ps)

/-- A refusal names the parameter it is about. -/
theorem tuned_eq_error {settings : Settings} {ps : Parameters} {e : Error}
    (h : settings.tuned ps = .error e) : ∃ key fault, e = .invalidParameter key fault := by
  induction settings generalizing ps with
  | flat => cases h
  | graph degree buildWidth searchWidth =>
      rcases Except.bind_eq_error_iff.1 h with h | ⟨askedBuild, -, h⟩
      · exact ⟨_, Parameters.count?_eq_error h⟩
      · rcases Except.bind_eq_error_iff.1 h with h | ⟨askedSearch, -, h⟩
        · exact ⟨_, Parameters.count?_eq_error h⟩
        · cases h
  | invertedFile listCount probes quantizer ih =>
      rcases Except.bind_eq_error_iff.1 h with h | ⟨askedProbes, -, h⟩
      · exact ⟨_, Parameters.count?_eq_error h⟩
      · rcases Except.bind_eq_error_iff.1 h with h | ⟨asked, -, h⟩
        · exact ⟨_, Parameters.map?_eq_error h⟩
        · cases asked with
          | none => cases h
          | some nested =>
              rcases Except.bind_eq_error_iff.1 h with h | ⟨tuned, -, h⟩
              · exact ih h
              · cases h
  | composite factor base ih =>
      rcases Except.bind_eq_error_iff.1 h with h | ⟨askedFactor, -, h⟩
      · exact ⟨_, Parameters.atLeast?_eq_error h⟩
      · rcases Except.bind_eq_error_iff.1 h with h | ⟨tuned, -, h⟩
        · exact ih h
        · cases h

/-- The parameter for which an overlay is refused, and why. -/
def refused? (settings : Settings) (ps : Parameters) : Option (String × ParameterFault) :=
  match settings.tuned ps with
  | .error (.invalidParameter key fault) => some (key, fault)
  | _ => none

theorem refused?_of_ok {settings settings' : Settings} {ps : Parameters}
    (h : settings.tuned ps = .ok settings') : settings.refused? ps = none := by
  rw [refused?, h]

theorem refused?_of_error {settings : Settings} {ps : Parameters} {e : Error}
    (h : settings.tuned ps = .error e) :
    (settings.refused? ps).map (fun r => Error.invalidParameter r.1 r.2) = some e := by
  obtain ⟨key, fault, rfl⟩ := tuned_eq_error h
  rw [refused?, h]
  rfl

end Settings

/-! ## Trees -/

namespace Index

/-- A graph that takes parameters takes the widths they ask for. -/
theorem tuneGraph_eq_ok_iff {g g' : Graph S E} {ps : Parameters} :
    tuneGraph g ps = .ok g' ↔
      (ps.ValidCount TuningKey.buildWidth ∧ ps.ValidCount TuningKey.searchWidth) ∧
        { g with
          buildWidth := (ps.askedCount? TuningKey.buildWidth).getD g.buildWidth
          searchWidth := (ps.askedCount? TuningKey.searchWidth).getD g.searchWidth } = g' := by
  simp only [tuneGraph, Except.bind_eq_ok_iff, Parameters.count?_eq_ok_iff]
  constructor
  · rintro ⟨_, ⟨hbuild, rfl⟩, _, ⟨hsearch, rfl⟩, hset⟩
    rw [Parameters.map_max_one_askedCount?, Parameters.map_max_one_askedCount?] at hset
    exact ⟨⟨hbuild, hsearch⟩, Except.ok.inj hset⟩
  · rintro ⟨⟨hbuild, hsearch⟩, rfl⟩
    refine ⟨_, ⟨hbuild, rfl⟩, _, ⟨hsearch, rfl⟩, ?_⟩
    rw [Parameters.map_max_one_askedCount?, Parameters.map_max_one_askedCount?]
    rfl

/-- An inverted file that takes parameters reads its own count and the bag for its
quantizer. -/
theorem readProbes_eq_ok_iff {ps : Parameters} {probes : Option Nat}
    {nested : Option Parameters} :
    readProbes ps = .ok (probes, nested) ↔
      (ps.ValidCount TuningKey.probes ∧ ps.ValidMap TuningKey.quantizer) ∧
        ps.askedCount? TuningKey.probes = probes ∧ ps.askedMap? TuningKey.quantizer = nested := by
  simp only [readProbes, Except.bind_eq_ok_iff, Parameters.count?_eq_ok_iff,
    Parameters.map?_eq_ok_iff]
  constructor
  · rintro ⟨_, ⟨hprobes, rfl⟩, _, ⟨hnested, rfl⟩, hread⟩
    exact ⟨⟨hprobes, hnested⟩, Prod.mk.inj (Except.ok.inj hread)⟩
  · rintro ⟨⟨hprobes, hnested⟩, rfl, rfl⟩
    exact ⟨_, ⟨hprobes, rfl⟩, _, ⟨hnested, rfl⟩, rfl⟩

/-- **Tuning is an overlay of settings.**  A tuning is accepted exactly if the
overlay of the settings is, and the tuned tree has the overlaid settings. -/
theorem tune_settings (index : Index S E) (ps : Parameters) :
    (index.tune ps).2.map (fun _ => (index.tune ps).1.settings) = index.settings.tuned ps := by
  induction index generalizing ps with
  | flat f => rfl
  | graph g =>
      simp only [Index.tune, tuneGraph, settings, Settings.tuned]
      cases hbuild : ps.count? TuningKey.buildWidth with
      | error e => rfl
      | ok askedBuild =>
          cases hsearch : ps.count? TuningKey.searchWidth with
          | error e => rfl
          | ok askedSearch =>
              obtain ⟨-, rfl⟩ := Parameters.count?_eq_ok_iff.1 hbuild
              obtain ⟨-, rfl⟩ := Parameters.count?_eq_ok_iff.1 hsearch
              simp only [bind, Except.bind, pure, Except.pure, Except.map, settings,
                Parameters.map_max_one_askedCount?]
  | invertedFile f quantizer ih =>
      simp only [Index.tune, readProbes, settings, Settings.tuned]
      cases hprobes : ps.count? TuningKey.probes with
      | error e => rfl
      | ok askedProbes =>
          cases hnested : ps.map? TuningKey.quantizer with
          | error e => rfl
          | ok asked =>
              cases asked with
              | none => rfl
              | some nested =>
                  simp only [bind, Except.bind, pure, Except.pure, ← ih nested]
                  cases (quantizer.tune nested).2 <;> rfl
  | composite base copies factor ih =>
      simp only [Index.tune, settings, Settings.tuned]
      cases hfactor : ps.atLeast? TuningKey.factor .one with
      | error e => rfl
      | ok askedFactor =>
          simp only [bind, Except.bind, pure, Except.pure, ← ih ps]
          cases (base.tune ps).2 <;> rfl

/-- A tuning does not train a tree. -/
theorem tune_isTrained (index : Index S E) (ps : Parameters) :
    (index.tune ps).1.isTrained = index.isTrained := by
  refine tune_induction (motive := fun a b => b.isTrained = a.isTrained) ?refl ?graph
    ?file ?composite index ps
  case refl => exact fun index => rfl
  case graph => exact fun g g' ps htune => rfl
  case file =>
    intro f quantizer quantizer' ps probes nested hread hstock ih
    exact congrArg (· == f.listCount) hstock.total
  case composite => exact fun base base' copies factor ps asked hfactor hstock ih => ih

end Index

end Proximity

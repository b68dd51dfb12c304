import Proximity.Config
import Proximity.Proofs.Construction

/-!
# Configurations that are read

The counts of a configuration are natural numbers, while a machine has 64 bits
for each.  A configuration that was read keeps to them: the reader takes no
integer beyond 64 bits with a sign, and a document grows by values that were
read and by empty tables only.  So the defaults of every description leave
counts of 64 bits open.

## Main results

* `Toml.Bounded` — values whose integers have 64 bits.
* `Toml.alter_bounded` — what one statement preserves.
* `Toml.value?_bounded`, `Toml.read?_bounded` — values and documents that are
  read.
* `Config.ofText?_fits`, `Config.override_indexes` — configurations.
-/

namespace Proximity

namespace Toml

/-! ## Values -/

/-- The integers in a value have 64 bits with a sign. -/
inductive Bounded : Toml → Prop where
  | text (value : String) : Bounded (.text value)
  | integer {value : Int} : value < Count.signedBound → Bounded (.integer value)
  | real : Bounded .real
  | boolean (value : Bool) : Bounded (.boolean value)
  | moment : Bounded .moment
  | array {items : List Toml} : (∀ item ∈ items, Bounded item) → Bounded (.array items)
  | inline {members : Members} : (∀ m ∈ members, Bounded m.2) → Bounded (.inline members)
  | table {origin : TableOrigin} {members : Members} :
      (∀ m ∈ members, Bounded m.2) → Bounded (.table origin members)
  | tables {elements : List Members} :
      (∀ members ∈ elements, ∀ m ∈ members, Bounded m.2) → Bounded (.tables elements)

/-- The integers in a table have 64 bits with a sign. -/
def AllBounded (members : Members) : Prop := ∀ m ∈ members, m.2.Bounded

variable {members members' : Members} {key : String} {value : Toml}

theorem allBounded_nil : AllBounded [] := fun _ h => absurd h List.not_mem_nil

/-- What a key leads to is among the members. -/
theorem AllBounded.lookup (h : AllBounded members) (hvalue : members.lookup key = some value) :
    value.Bounded := by
  induction members with
  | nil => cases hvalue
  | cons m rest ih =>
      obtain ⟨hm, hrest⟩ := List.forall_mem_cons.1 h
      rw [List.lookup_cons] at hvalue
      split at hvalue
      · obtain rfl := Option.some.inj hvalue
        exact hm
      · exact ih hrest hvalue

theorem AllBounded.set (h : AllBounded members) (hvalue : value.Bounded) :
    AllBounded (set key value members) := by
  induction members with
  | nil => exact List.forall_mem_singleton.2 hvalue
  | cons m rest ih =>
      obtain ⟨hm, hrest⟩ := List.forall_mem_cons.1 h
      rw [Toml.set]
      split
      · exact List.forall_mem_cons.2 ⟨hvalue, hrest⟩
      · exact List.forall_mem_cons.2 ⟨hm, ih hrest⟩

/-! ## Statements -/

/-- A change of a table that keeps its integers to 64 bits. -/
def KeepsBounded (change : Open → Option Members) : Prop :=
  ∀ origin members members', AllBounded members → change (origin, members) = some members' →
    AllBounded members'

/-- What is changed below a path keeps its integers to 64 bits if the change does. -/
theorem alter_bounded {made : TableOrigin} {change : Open → Option Members}
    (hchange : KeepsBounded change) (path : List String) :
    KeepsBounded (alter made change path) := by
  induction path with
  | nil => exact hchange
  | cons key path ih =>
      intro origin members members' h halter
      rw [alter] at halter
      split at halter
      · obtain ⟨inner, hinner, rfl⟩ := Option.map_eq_some_iff.1 halter
        exact h.set (.table (ih _ _ _ allBounded_nil hinner))
      · rename_i found inner hfound
        split at halter
        · cases halter
        · obtain ⟨changed, hchanged, rfl⟩ := Option.map_eq_some_iff.1 halter
          cases h.lookup hfound with
          | table hinner => exact h.set (.table (ih _ _ _ hinner hchanged))
      · rename_i elements hfound
        split at halter
        · cases halter
        · rename_i last hlast
          obtain ⟨changed, hchanged, rfl⟩ := Option.map_eq_some_iff.1 halter
          cases h.lookup hfound with
          | tables helements =>
              have hinner := helements last (List.mem_of_getLast? hlast)
              refine h.set (.tables fun element helement => ?_)
              rcases List.mem_append.1 helement with hold | hnew
              · exact helements element ((List.dropLast_sublist _).subset hold)
              · obtain rfl := List.mem_singleton.1 hnew
                exact ih _ _ _ hinner hchanged
      · cases halter

theorem defineHere_bounded (key : String) : KeepsBounded (defineHere key) := by
  intro origin members members' h hdefine
  rw [defineHere] at hdefine
  split at hdefine
  · obtain rfl := Option.some.inj hdefine
    exact h.set (.table allBounded_nil)
  · rename_i inner hfound
    obtain rfl := Option.some.inj hdefine
    cases h.lookup hfound with
    | table hinner => exact h.set (.table hinner)
  · cases hdefine

theorem extendHere_bounded (key : String) : KeepsBounded (extendHere key) := by
  intro origin members members' h hextend
  rw [extendHere] at hextend
  split at hextend
  · obtain rfl := Option.some.inj hextend
    exact h.set (.tables (List.forall_mem_singleton.2 allBounded_nil))
  · rename_i elements hfound
    obtain rfl := Option.some.inj hextend
    cases h.lookup hfound with
    | tables helements =>
        refine h.set (.tables fun element helement => ?_)
        rcases List.mem_append.1 helement with hold | hnew
        · exact helements element hold
        · obtain rfl := List.mem_singleton.1 hnew
          exact allBounded_nil
  · cases hextend

theorem assignHere_bounded (plain : Bool) (key : String) (hvalue : value.Bounded) :
    KeepsBounded (assignHere plain key value) := by
  intro origin members members' h hassign
  rw [assignHere] at hassign
  split at hassign
  · cases hassign
  · split at hassign
    · cases hassign
    · obtain rfl := Option.some.inj hassign
      intro m hm
      rcases List.mem_append.1 hm with hold | hnew
      · exact h m hold
      · obtain rfl := List.mem_singleton.1 hnew
        exact hvalue

theorem assignDotted_bounded (path : List String) (key : String) (hvalue : value.Bounded) :
    KeepsBounded (assignDotted path key value) :=
  alter_bounded (assignHere_bounded _ key hvalue) path

/-! ## Reading -/

namespace Scalar

/-- A number or a moment is no integer beyond 64 bits. -/
def Within (s : Scalar) : Prop := ∀ value, s = .integer value → value < Count.signedBound

theorem bounded?_within {negative : Bool} {n : Nat} {s : Scalar}
    (h : bounded? negative n = some s) : s.Within := by
  rintro value rfl
  rw [bounded?] at h
  have hpos : (0 : Int) < Count.signedBound := by decide
  split at h
  · split at h
    · obtain rfl := Scalar.integer.inj (Option.some.inj h)
      omega
    · cases h
  · split at h
    · obtain rfl := Scalar.integer.inj (Option.some.inj h)
      omega
    · cases h

theorem decimal?_within {negative : Bool} {cs rest : List Char} {s : Scalar}
    (h : decimal? negative cs = some (s, rest)) : s.Within := by
  obtain ⟨⟨whole, cs⟩, -, h⟩ := Option.bind_eq_some_iff.1 h
  obtain ⟨⟨fraction, afterFraction⟩, -, h⟩ := Option.bind_eq_some_iff.1 h
  obtain ⟨⟨exponent, left⟩, -, h⟩ := Option.bind_eq_some_iff.1 h
  dsimp only at h
  split at h
  · obtain ⟨read, hread, h⟩ := Option.bind_eq_some_iff.1 h
    obtain ⟨rfl, -⟩ := Prod.mk.inj (Option.some.inj h)
    exact bounded?_within hread
  · split at h
    · cases h
    · obtain ⟨rfl, -⟩ := Prod.mk.inj (Option.some.inj h)
      rintro value ⟨⟩

theorem based?_within {base : Nat} {cs rest : List Char} {s : Scalar}
    (h : based? base cs = some (s, rest)) : s.Within := by
  obtain ⟨⟨ds, left⟩, -, h⟩ := Option.bind_eq_some_iff.1 h
  obtain ⟨read, hread, h⟩ := Option.bind_eq_some_iff.1 h
  obtain ⟨rfl, -⟩ := Prod.mk.inj (Option.some.inj h)
  exact bounded?_within hread

theorem signed?_within {negative : Bool} {cs rest : List Char} {s : Scalar}
    (h : signed? negative cs = some (s, rest)) : s.Within := by
  rw [signed?.eq_def] at h
  split at h
  · obtain ⟨rfl, -⟩ := Prod.mk.inj (Option.some.inj h)
    rintro value ⟨⟩
  · obtain ⟨rfl, -⟩ := Prod.mk.inj (Option.some.inj h)
    rintro value ⟨⟩
  · exact decimal?_within h

theorem read?_within {cs rest : List Char} {s : Scalar} (h : read? cs = some (s, rest)) :
    s.Within := by
  rw [read?.eq_def] at h
  split at h
  · obtain ⟨left, -, h⟩ := Option.map_eq_some_iff.1 h
    obtain ⟨rfl, -⟩ := Prod.mk.inj h
    rintro value ⟨⟩
  · split at h
    · obtain ⟨left, -, h⟩ := Option.map_eq_some_iff.1 h
      obtain ⟨rfl, -⟩ := Prod.mk.inj h
      rintro value ⟨⟩
    · split at h
      · exact signed?_within h
      · exact signed?_within h
      · exact based?_within h
      · exact based?_within h
      · exact based?_within h
      · exact signed?_within h

end Scalar

/-- A reader of values that takes no integer beyond 64 bits. -/
def ReadsBounded (read? : List Char → Option (Toml × List Char)) : Prop :=
  ∀ cs value rest, read? cs = some (value, rest) → value.Bounded

theorem items?_bounded {fuel depth : Nat}
    (hvalue : ∀ fuel' < fuel, ReadsBounded (value? fuel' depth)) {done : List Toml}
    (hdone : ∀ item ∈ done, item.Bounded) : ReadsBounded (items? fuel depth done) := by
  induction fuel generalizing done with
  | zero => intro cs value rest h; cases h
  | succ fuel ih =>
      intro cs value rest h
      rw [items?.eq_def] at h
      dsimp only at h
      split at h
      · obtain ⟨rfl, -⟩ := Prod.mk.inj (Option.some.inj h)
        exact .array fun item hitem => hdone item (List.mem_reverse.1 hitem)
      · split at h
        · cases h
        · rename_i item left hitem
          have hmore : ∀ other ∈ item :: done, other.Bounded :=
            List.forall_mem_cons.2 ⟨hvalue fuel (Nat.lt_succ_self _) _ _ _ hitem, hdone⟩
          split at h
          · exact ih (fun fuel' hfuel' => hvalue fuel' (Nat.lt_succ_of_lt hfuel')) hmore _ _ _ h
          · obtain ⟨rfl, -⟩ := Prod.mk.inj (Option.some.inj h)
            exact .array fun other hother => hmore other (List.mem_reverse.1 hother)
          · cases h

theorem members?_bounded {fuel depth : Nat}
    (hvalue : ∀ fuel' < fuel, ReadsBounded (value? fuel' depth)) {done : Members}
    (hdone : AllBounded done) : ReadsBounded (members? fuel depth done) := by
  induction fuel generalizing done with
  | zero => intro cs value rest h; cases h
  | succ fuel ih =>
      intro cs value rest h
      rw [members?.eq_def] at h
      dsimp only at h
      split at h
      · split at h
        · cases h
        · rename_i path key _ _ _ found left hfound
          split at h
          · cases h
          · rename_i more hmore
            have hall := assignDotted_bounded path key
              (hvalue fuel (Nat.lt_succ_self _) _ _ _ hfound) _ _ _ hdone hmore
            split at h
            · exact ih (fun fuel' hfuel' => hvalue fuel' (Nat.lt_succ_of_lt hfuel')) hall _ _ _ h
            · obtain ⟨rfl, -⟩ := Prod.mk.inj (Option.some.inj h)
              exact .inline hall
            · cases h
      · cases h

/-- No value that is read has an integer beyond 64 bits. -/
theorem value?_bounded (fuel depth : Nat) : ReadsBounded (value? fuel depth) := by
  induction fuel using Nat.strongRecOn generalizing depth with
  | ind fuel ih =>
      intro cs value rest h
      cases fuel with
      | zero => cases h
      | succ fuel =>
          rw [value?.eq_def] at h
          dsimp only at h
          have hinner : ∀ fuel' < fuel, ∀ depth, ReadsBounded (value? fuel' depth) :=
            fun fuel' hfuel' depth => ih fuel' (Nat.lt_succ_of_lt hfuel') depth
          split at h
          · split at h
            · exact items?_bounded (fun fuel' hfuel' => hinner fuel' hfuel' _)
                (fun _ hitem => absurd hitem List.not_mem_nil) _ _ _ h
            · cases h
          · split at h
            · split at h
              · obtain ⟨rfl, -⟩ := Prod.mk.inj (Option.some.inj h)
                exact .inline allBounded_nil
              · exact members?_bounded (fun fuel' hfuel' => hinner fuel' hfuel' _) allBounded_nil
                  _ _ _ h
            · cases h
          · obtain ⟨rfl, -⟩ := Prod.mk.inj (Option.some.inj h)
            exact .boolean true
          · obtain ⟨rfl, -⟩ := Prod.mk.inj (Option.some.inj h)
            exact .boolean false
          · split at h
            · obtain ⟨rfl, -⟩ := Prod.mk.inj (Option.some.inj h)
              exact .text _
            · obtain ⟨⟨scalar, left⟩, hscalar, h⟩ := Option.map_eq_some_iff.1 h
              obtain ⟨rfl, -⟩ := Prod.mk.inj h
              cases scalar with
              | integer n => exact .integer (Scalar.read?_within hscalar n rfl)
              | real => exact .real
              | moment => exact .moment

/-! ## Documents -/

theorem of_assignment? {cs rest : List Char} {path : List String} {key : String} {value : Toml}
    (h : assignment? cs = some (path, key, value, rest)) : value.Bounded := by
  obtain ⟨⟨path, key, left⟩, -, h⟩ := Option.bind_eq_some_iff.1 h
  dsimp only at h
  split at h
  · obtain ⟨⟨found, more⟩, hfound, h⟩ := Option.bind_eq_some_iff.1 h
    obtain ⟨left, -, h⟩ := Option.bind_eq_some_iff.1 h
    obtain ⟨-, -, rfl, -⟩ := Option.some.inj h
    exact value?_bounded _ _ _ _ _ hfound
  · cases h

theorem statements?_bounded {fuel : Nat} {current : List String} {root members : Members}
    {cs : List Char} (hroot : AllBounded root)
    (h : statements? fuel current root cs = some members) : AllBounded members := by
  induction fuel generalizing current root cs with
  | zero => cases h
  | succ fuel ih =>
      rw [statements?.eq_def] at h
      dsimp only at h
      split at h
      · obtain rfl := Option.some.inj h
        exact hroot
      · obtain ⟨⟨path, key, rest⟩, -, h⟩ := Option.bind_eq_some_iff.1 h
        obtain ⟨next, hnext, h⟩ := Option.bind_eq_some_iff.1 h
        exact ih (alter_bounded (extendHere_bounded key) path _ _ _ hroot hnext) h
      · obtain ⟨⟨path, key, rest⟩, -, h⟩ := Option.bind_eq_some_iff.1 h
        obtain ⟨next, hnext, h⟩ := Option.bind_eq_some_iff.1 h
        exact ih (alter_bounded (defineHere_bounded key) path _ _ _ hroot hnext) h
      · obtain ⟨⟨path, key, value, rest⟩, hassignment, h⟩ := Option.bind_eq_some_iff.1 h
        obtain ⟨next, hnext, h⟩ := Option.bind_eq_some_iff.1 h
        have hvalue : value.Bounded := of_assignment? hassignment
        exact ih (alter_bounded (assignDotted_bounded path key hvalue) current _ _ _ hroot hnext) h

/-- No document that is read has an integer beyond 64 bits. -/
theorem read?_bounded {text : String} {members : Members} (h : read? text = some members) :
    AllBounded members :=
  statements?_bounded allBounded_nil h

end Toml

/-! ## Configurations -/

namespace Config

theorem count?_lt {value : Toml} (h : value.Bounded) {n : Nat} (hread : count? value = some n) :
    n < Count.bound := by
  have hbound : Count.signedBound < Count.bound := by decide
  cases h with
  | integer hlt =>
      rw [count?] at hread
      split at hread
      · obtain rfl := Option.some.inj hread
        omega
      · cases hread
  | _ => cases hread

/-- What holds of a default and of all that is read holds of a setting. -/
theorem of_setting {A : Type} {P : A → Prop} {read? : Toml → Option A} {base a : A}
    {value? : Option Toml} (hbase : P base)
    (hread : ∀ value, value? = some value → ∀ a, read? value = some a → P a)
    (h : setting read? base value? = some a) : P a := by
  cases value? with
  | none => exact Option.some.inj h ▸ hbase
  | some value => exact hread value rfl a h

theorem setting_lt {base n : Nat} {value? : Option Toml} (hbase : base < Count.bound)
    (hvalue : ∀ value, value? = some value → value.Bounded)
    (h : setting count? base value? = some n) : n < Count.bound :=
  of_setting (P := (· < Count.bound)) hbase
    (fun value hsome _ hcount => count?_lt (hvalue value hsome) hcount) h

theorem allBounded_zip (names : List String) {items : List Toml}
    (h : ∀ item ∈ items, item.Bounded) : Toml.AllBounded (names.zip items) :=
  fun m hm => h m.2 (List.of_mem_zip hm).2

/-- The settings of a group are values of its own. -/
theorem group?_bounded {names : List String} {value : Toml} {group : String → Option Toml}
    (h : value.Bounded) (hgroup : group? names value = some group) (name : String) :
    ∀ found, group name = some found → found.Bounded := by
  intro found hfound
  cases h with
  | table hmembers =>
      obtain rfl := Option.some.inj hgroup
      exact Toml.AllBounded.lookup hmembers hfound
  | inline hmembers =>
      obtain rfl := Option.some.inj hgroup
      exact Toml.AllBounded.lookup hmembers hfound
  | array hitems =>
      obtain rfl := Option.some.inj hgroup
      exact (allBounded_zip names hitems).lookup hfound
  | tables helements =>
      obtain rfl := Option.some.inj hgroup
      refine (allBounded_zip names fun item hitem => ?_).lookup hfound
      obtain ⟨element, helement, rfl⟩ := List.mem_map.1 hitem
      exact .inline (helements element helement)
  | moment =>
      obtain rfl := Option.some.inj hgroup
      cases hfound
  | _ => cases hgroup

theorem clustering?_fits {value : Toml} (h : value.Bounded) {settings : ClusteringSettings}
    (hread : clustering? value = some settings) : settings.Fits := by
  obtain ⟨group, hgroup, hread⟩ := Option.bind_eq_some_iff.1 hread
  obtain ⟨iterations, hiterations, hread⟩ := Option.bind_eq_some_iff.1 hread
  obtain ⟨seed, -, hread⟩ := Option.bind_eq_some_iff.1 hread
  obtain ⟨minPoints, hminPoints, hread⟩ := Option.bind_eq_some_iff.1 hread
  obtain ⟨maxPoints, hmaxPoints, hread⟩ := Option.bind_eq_some_iff.1 hread
  obtain rfl := Option.some.inj hread
  have hmembers := group?_bounded h hgroup
  exact ⟨setting_lt (by decide) (hmembers _) hiterations,
    setting_lt (by decide) (hmembers _) hminPoints, setting_lt (by decide) (hmembers _) hmaxPoints⟩

theorem graph?_lt {value : Toml} (h : value.Bounded) {defaults : GraphDefaults}
    (hread : graph? value = some defaults) :
    defaults.buildWidth < Count.bound ∧ defaults.searchWidth < Count.bound := by
  obtain ⟨group, hgroup, hread⟩ := Option.bind_eq_some_iff.1 hread
  obtain ⟨buildWidth, hbuildWidth, hread⟩ := Option.bind_eq_some_iff.1 hread
  obtain ⟨searchWidth, hsearchWidth, hread⟩ := Option.bind_eq_some_iff.1 hread
  obtain rfl := Option.some.inj hread
  have hmembers := group?_bounded h hgroup
  exact ⟨setting_lt (by decide) (hmembers _) hbuildWidth,
    setting_lt (by decide) (hmembers _) hsearchWidth⟩

theorem standard_fits : standard.indexes.Fits :=
  ⟨by decide, by decide, by decide, by decide, by decide⟩

/-- The defaults of a configuration that was read are counts of 64 bits. -/
theorem ofText?_fits {text : String} {config : Config} (h : ofText? text = some config) :
    config.indexes.Fits := by
  obtain ⟨members, hmembers, h⟩ := Option.bind_eq_some_iff.1 h
  have hbounded := Toml.read?_bounded hmembers
  obtain ⟨threads, -, h⟩ := Option.bind_eq_some_iff.1 h
  obtain ⟨maxThreads, -, h⟩ := Option.bind_eq_some_iff.1 h
  obtain ⟨maxPools, -, h⟩ := Option.bind_eq_some_iff.1 h
  obtain ⟨transferLimit, -, h⟩ := Option.bind_eq_some_iff.1 h
  obtain ⟨syncWrites, -, h⟩ := Option.bind_eq_some_iff.1 h
  obtain ⟨clustering, hclustering, h⟩ := Option.bind_eq_some_iff.1 h
  obtain ⟨graph, hgraph, h⟩ := Option.bind_eq_some_iff.1 h
  obtain rfl := Option.some.inj h
  have hclusteringFits : clustering.Fits :=
    of_setting standard_fits.clustering
      (fun _ hsome _ hread => clustering?_fits (hbounded.lookup hsome) hread) hclustering
  have hgraphLt : graph.buildWidth < Count.bound ∧ graph.searchWidth < Count.bound :=
    of_setting (P := fun g => g.buildWidth < Count.bound ∧ g.searchWidth < Count.bound)
      ⟨standard_fits.buildWidth, standard_fits.searchWidth⟩
      (fun _ hsome _ hread => graph?_lt (hbounded.lookup hsome) hread) hgraph
  exact ⟨hgraphLt.1, hgraphLt.2, hclusteringFits⟩

/-- An environment leaves the defaults of descriptions as they are. -/
theorem override_indexes {config config' : Config} {env : Environment}
    (h : config.override env = .ok config') : config'.indexes = config.indexes := by
  obtain ⟨threads, -, h⟩ := Except.bind_eq_ok_iff.1 h
  obtain ⟨maxThreads, -, h⟩ := Except.bind_eq_ok_iff.1 h
  obtain ⟨maxPools, -, h⟩ := Except.bind_eq_ok_iff.1 h
  obtain ⟨transferLimit, -, h⟩ := Except.bind_eq_ok_iff.1 h
  obtain rfl := Except.ok.inj h
  rfl

end Config

end Proximity

import Mathlib.Data.List.Basic
import Mathlib.Data.List.TakeWhile
import Proximity.Index.Description
import Proximity.Proofs.Checks

/-!
# The grammar of descriptions

Descriptions are read from left to right: marks are taken off the first part, numbers
are read as they come, and the suffix is dropped before anything else is looked at.  The
grammar here says what a description is without an order of reading.  A text is cut into
parts, and the parts have to be a row of the table, or a row and the suffix.

| kind   | parts                    | shape                               |
| ------ | ------------------------ | ----------------------------------- |
| float  | `Flat`                   | flat storage                        |
|        | `HNSW<M>`                | a graph of degree `M`               |
|        | `HNSW<M>`, `Flat`        | the same                            |
|        | `IVF<n>`, `Flat`         | `n` lists over flat storage         |
|        | `IVF<n>_HNSW<M>`, `Flat` | `n` lists over a graph of degree `M` |
| binary | `BFlat`                  | flat storage                        |
|        | `BHNSW<M>`               | a graph of degree `M`               |
|        | `BIVF<n>`                | `n` lists over flat storage         |
|        | `BIVF<n>_HNSW<M>`        | `n` lists over a graph of degree `M` |

Numbers are decimal digits, after a plus sign or not, and may start with zeros.

## Main definitions

* `Count.Spells` — the numbers that texts spell.
* `Shape.Names`, `Description.Row` — the table.
* `Description.Asks` — what a text asks for.

## Main results

* `Count.readChars_eq_ok_iff` — the numbers that are read are those that are spelled.
* `Description.readChars_eq_ok_iff` — the reader accepts exactly the grammar.
-/

namespace Proximity

/-! ## Numbers -/

namespace Digits

/-- A decimal digit. -/
def IsDecimal (c : Char) : Prop := '0' ≤ c ∧ c ≤ '9'

theorem value?_eq_some_iff {c : Char} {d : Nat} :
    value? 10 c = some d ↔ IsDecimal c ∧ decimalValue c = d := by
  rw [value?, IsDecimal]
  by_cases hdecimal : '0' ≤ c ∧ c ≤ '9'
  · have hle : c.toNat ≤ 57 := hdecimal.2
    have hzero : '0'.toNat = 48 := rfl
    simp [hdecimal, decimalValue]
    omega
  · -- letters are the digits from ten on, so none of them is a decimal digit
    simp only [hdecimal, if_false, false_and, iff_false]
    split
    · simp
      omega
    · split
      · simp
        omega
      · simp

/-- Digits after some that were read make the number no smaller. -/
theorem le_foldl (value : Nat) (ds : List Nat) :
    value ≤ ds.foldl (fun n d => n * 10 + d) value := by
  induction ds generalizing value with
  | nil => exact Nat.le_refl value
  | cons d ds ih =>
      have hnext := ih (value * 10 + d)
      rw [List.foldl_cons]
      omega

end Digits

namespace Count

open Digits

/-- A text spells a count of 64 bits: decimal digits, of which there is at least one,
after a plus sign or not. -/
def Spells (text : List Char) (n : Nat) : Prop :=
  ∃ digits, (text = digits ∨ text = '+' :: digits) ∧ digits ≠ [] ∧
    (∀ c ∈ digits, IsDecimal c) ∧ decimal digits = n ∧ n < bound

theorem Spells.lt {text : List Char} {n : Nat} (h : Spells text n) : n < bound := by
  obtain ⟨digits, -, -, -, -, hlt⟩ := h
  exact hlt

private theorem digits_eq_ok_iff {limit value n : Nat} {cs : List Char} (hvalue : value < limit) :
    digits limit value cs = .ok n ↔ (∀ c ∈ cs, IsDecimal c) ∧
      (cs.map decimalValue).foldl (fun n d => n * 10 + d) value = n ∧ n < limit := by
  induction cs generalizing value with
  | nil =>
      simp only [digits, Except.ok.injEq, List.not_mem_nil, false_imp_iff, implies_true,
        List.map_nil, List.foldl_nil, true_and]
      exact ⟨fun h => ⟨h, h ▸ hvalue⟩, And.left⟩
  | cons c cs ih =>
      rw [digits, List.forall_mem_cons, List.map_cons, List.foldl_cons]
      cases hc : value? 10 c with
      | none =>
          have hother : ¬ IsDecimal c := fun hdecimal => by
            rw [value?_eq_some_iff.2 ⟨hdecimal, rfl⟩] at hc
            cases hc
          simp [hother]
      | some d =>
          obtain ⟨hdecimal, rfl⟩ := value?_eq_some_iff.1 hc
          dsimp only
          by_cases hnext : value * 10 + decimalValue c < limit
          · rw [if_pos hnext, ih hnext]
            simp only [hdecimal, true_and]
          · rw [if_neg hnext]
            refine iff_of_false nofun ?_
            rintro ⟨-, rfl, hlt⟩
            exact hnext (Nat.lt_of_le_of_lt (le_foldl _ _) hlt)

private theorem digits1_eq_ok_iff {cs : List Char} {n : Nat} :
    digits1 bound cs = .ok n ↔
      cs ≠ [] ∧ (∀ c ∈ cs, IsDecimal c) ∧ decimal cs = n ∧ n < bound := by
  rw [digits1, Except.ite_throw_eq_ok_iff, List.isEmpty_iff]
  exact and_congr_right fun _ => digits_eq_ok_iff (by decide)

private theorem not_isDecimal_plus : ¬ IsDecimal '+' := by
  rw [IsDecimal]
  decide

/-- The numbers that are read are those that are spelled. -/
theorem readChars_eq_ok_iff {text : List Char} {n : Nat} :
    readChars text = .ok n ↔ Spells text n := by
  rw [readChars.eq_def]
  split
  · refine iff_of_false nofun ?_
    rintro ⟨ds, hds | hds, hne, -⟩
    · exact hne hds.symm
    · cases hds
  · rename_i rest
    rw [digits1_eq_ok_iff]
    constructor
    · exact fun h => ⟨rest, .inr rfl, h⟩
    · rintro ⟨ds, rfl | hds, h⟩
      · exact absurd (h.2.1 '+' List.mem_cons_self) not_isDecimal_plus
      · obtain rfl := (List.cons.inj hds).2
        exact h
  · rename_i hne hplus
    rw [digits_eq_ok_iff (by decide)]
    constructor
    · exact fun h => ⟨text, .inl rfl, hne, h⟩
    · rintro ⟨ds, rfl | rfl, -, h⟩
      · exact h
      · exact absurd rfl (hplus ds)

end Count

/-! ## The table -/

/-- A component without the mark of its kind names a shape. -/
def Shape.Names (component : List Char) : Shape → Prop
  | .flat => component = Description.flatMark
  | .graph degree =>
    ∃ m, component = Description.graphMark ++ m ∧ Count.Spells m degree ∧ 2 ≤ degree
  | .invertedFile lists none =>
    ∃ n, component = Description.listMark ++ n ∧ Count.Spells n lists ∧ 1 ≤ lists
  | .invertedFile lists (some degree) =>
    ∃ n m, component = Description.listMark ++ (n ++ '_' :: (Description.graphMark ++ m)) ∧
      (Count.Spells n lists ∧ 1 ≤ lists) ∧ Count.Spells m degree ∧ 2 ≤ degree

namespace Description

/-- A component with the mark of its kind. -/
def marked (component : List Char) : Kind → List Char
  | .float => component
  | .binary => 'B' :: component

/-- What follows the first part: the lists of an inverted file for float vectors have
their payload named, a graph for float vectors may have. -/
def Payload (payload : List (List Char)) : Kind → Shape → Prop
  | .binary, _ | .float, .flat => payload = []
  | .float, .graph _ => payload = [] ∨ payload = [flatMark]
  | .float, .invertedFile .. => payload = [flatMark]

/-- A row of the table: the parts that ask for a shape over vectors of some kind. -/
def Row (kind : Kind) (shape : Shape) (row : List (List Char)) : Prop :=
  ∃ component payload, shape.Names component ∧ Payload payload kind shape ∧
    row = marked component kind :: payload

/-- The parts of a text. -/
def parts (text : List Char) : List (List Char) := (Text.split ',' (Text.trim text)).map Text.trim

/-- A text asks for an index: its parts are a row of the table, and the suffix after it
if a composite is asked for. -/
def Asks (text : List Char) (asked : Description) : Prop :=
  ∃ row, Row asked.kind asked.shape row ∧
    parts text = if asked.refined then row ++ [refinedMark] else row

/-! ## Components -/

theorem readCount_eq_ok_iff {role : CountRole} {text : List Char} {n : Nat} :
    readCount role text = .ok n ↔ Count.Spells text n ∧ role.least ≤ n := by
  rw [← Count.readChars_eq_ok_iff, readCount]
  cases Count.readChars text with
  | error fault => simp
  | ok value =>
      simp only [Except.ite_throw_eq_ok_iff, Except.ok.injEq, Nat.not_lt]
      constructor
      · rintro ⟨hleast, rfl⟩
        exact ⟨rfl, hleast⟩
      · rintro ⟨rfl, hleast⟩
        exact ⟨hleast, rfl⟩

theorem readQuantizer_eq_ok_iff {text : List Char} {degree : Nat} :
    readQuantizer text = .ok degree ↔
      ∃ m, text = graphMark ++ m ∧ Count.Spells m degree ∧ 2 ≤ degree := by
  rw [readQuantizer]
  cases hmark : graphMark.isPrefixOf? text with
  | none =>
      refine iff_of_false nofun ?_
      rintro ⟨m, rfl, -⟩
      rw [List.isPrefixOf?_eq_some_iff_append_eq.2 rfl] at hmark
      cases hmark
  | some m =>
      obtain rfl := List.isPrefixOf?_eq_some_iff_append_eq.1 hmark
      refine readCount_eq_ok_iff.trans ⟨fun h => ⟨m, rfl, h⟩, ?_⟩
      rintro ⟨m', hm', h⟩
      exact List.append_cancel_left hm' ▸ h

/-! ### Lists -/

/-- Digits and a plus sign are no underscore. -/
private theorem ne_underscore_of_spells {text : List Char} {n : Nat} (h : Count.Spells text n) :
    ∀ c ∈ text, (c != '_') = true := by
  obtain ⟨ds, htext, -, hdigits, -⟩ := h
  have hds : ∀ c ∈ ds, (c != '_') = true := by
    intro c hc
    have hdecimal := hdigits c hc
    rw [bne_iff_ne]
    rintro rfl
    exact absurd hdecimal.2 (by decide)
  rcases htext with rfl | rfl
  · exact hds
  · exact List.forall_mem_cons.2 ⟨by decide, hds⟩

private theorem readLists_plain {text : List Char} (h : ∀ c ∈ text, (c != '_') = true) :
    readLists text = (do return .invertedFile (← readCount .listCount text) none) := by
  rw [readLists, List.dropWhile_eq_nil_iff.2 h, List.takeWhile_eq_self_iff.2 h]
  rfl

private theorem readLists_pair {lists : List Char} (quantizer : List Char)
    (h : ∀ c ∈ lists, (c != '_') = true) :
    readLists (lists ++ '_' :: quantizer) = (do
      let degree ← readQuantizer quantizer
      return .invertedFile (← readCount .listCount lists) (some degree)) := by
  have htake : (lists ++ '_' :: quantizer).takeWhile (· != '_') = lists := by
    rw [List.takeWhile_append_of_pos h, List.takeWhile_cons_of_neg (by decide), List.append_nil]
  have hdrop : (lists ++ '_' :: quantizer).dropWhile (· != '_') = '_' :: quantizer := by
    rw [List.dropWhile_append_of_pos h, List.dropWhile_cons_of_neg (by decide)]
  rw [readLists, htake, hdrop]
  dsimp only
  cases readQuantizer quantizer <;> rfl

/-- A text has no underscore, or it is cut at the first one. -/
private theorem cases_underscore (text : List Char) :
    (∀ c ∈ text, (c != '_') = true) ∨
      ∃ lists quantizer, text = lists ++ '_' :: quantizer ∧ ∀ c ∈ lists, (c != '_') = true := by
  have hcut := List.takeWhile_append_dropWhile (p := (· != '_')) (l := text)
  cases hrest : text.dropWhile (· != '_') with
  | nil => exact .inl (List.dropWhile_eq_nil_iff.1 hrest)
  | cons c quantizer =>
      have hhead := List.head?_dropWhile_not (· != '_') text
      rw [hrest] at hhead hcut
      obtain rfl : c = '_' := by simpa using hhead
      exact .inr ⟨_, quantizer, hcut.symm, fun c hc => List.mem_takeWhile_imp (p := (· != '_')) hc⟩

/-- A shape is read after the mark of lists exactly if it has lists and is named with the
mark. -/
theorem readLists_eq_ok_iff {text : List Char} {shape : Shape} :
    readLists text = .ok shape ↔
      ∃ lists quantizerDegree, shape = .invertedFile lists quantizerDegree ∧
        shape.Names (listMark ++ text) := by
  constructor
  · intro h
    rcases cases_underscore text with hplain | ⟨n, quantizer, rfl, hn⟩
    · rw [readLists_plain hplain] at h
      obtain ⟨lists, hlists, h⟩ := Except.bind_eq_ok_iff.1 h
      obtain rfl := Except.ok.inj h
      exact ⟨lists, none, rfl, text, rfl, readCount_eq_ok_iff.1 hlists⟩
    · rw [readLists_pair quantizer hn] at h
      obtain ⟨degree, hdegree, h⟩ := Except.bind_eq_ok_iff.1 h
      obtain ⟨lists, hlists, h⟩ := Except.bind_eq_ok_iff.1 h
      obtain rfl := Except.ok.inj h
      obtain ⟨m, rfl, hm⟩ := readQuantizer_eq_ok_iff.1 hdegree
      exact ⟨lists, some degree, rfl, n, m, rfl, readCount_eq_ok_iff.1 hlists, hm⟩
  · rintro ⟨lists, quantizerDegree, rfl, hnames⟩
    cases quantizerDegree with
    | none =>
        obtain ⟨n, hn, hspells⟩ := hnames
        obtain rfl := List.append_cancel_left hn
        rw [readLists_plain (ne_underscore_of_spells hspells.1), readCount_eq_ok_iff.2 hspells]
        rfl
    | some degree =>
        obtain ⟨n, m, hn, hspells, hm⟩ := hnames
        obtain rfl := List.append_cancel_left hn
        rw [readLists_pair _ (ne_underscore_of_spells hspells.1),
          readQuantizer_eq_ok_iff.2 ⟨m, rfl, hm⟩, readCount_eq_ok_iff.2 hspells]
        rfl

/-! ### Shapes -/

/-- A component names a shape if it is the mark of flat storage, or a mark of graphs or
of lists and what goes with it. -/
private theorem names_cases {text : List Char} {shape : Shape} (h : shape.Names text) :
    (text = flatMark ∧ shape = .flat) ∨
    (∃ m degree, text = graphMark ++ m ∧ shape = .graph degree ∧ Count.Spells m degree ∧
      2 ≤ degree) ∨
    ∃ n lists quantizerDegree, text = listMark ++ n ∧
      shape = .invertedFile lists quantizerDegree := by
  cases shape with
  | flat => exact .inl ⟨h, rfl⟩
  | graph degree =>
      obtain ⟨m, htext, hm⟩ := h
      exact .inr (.inl ⟨m, degree, htext, rfl, hm⟩)
  | invertedFile lists quantizerDegree =>
      cases quantizerDegree with
      | none =>
          obtain ⟨n, htext, -⟩ := h
          exact .inr (.inr ⟨n, lists, none, htext, rfl⟩)
      | some degree =>
          obtain ⟨n, m, htext, -⟩ := h
          exact .inr (.inr ⟨_, lists, some degree, htext, rfl⟩)

/-- A shape is read from a component exactly if the component names it. -/
theorem readShape_eq_ok_iff {component text : List Char} {shape : Shape} :
    readShape component text = .ok shape ↔ shape.Names text := by
  constructor
  · intro h
    rw [readShape] at h
    split at h
    · obtain rfl := Except.ok.inj h
      assumption
    · split at h
      · rename_i m hmark
        obtain rfl := List.isPrefixOf?_eq_some_iff_append_eq.1 hmark
        obtain ⟨degree, hdegree, rfl⟩ := Except.map_eq_ok_iff.1 h
        exact ⟨m, rfl, readCount_eq_ok_iff.1 hdegree⟩
      · split at h
        · rename_i n hmark
          obtain rfl := List.isPrefixOf?_eq_some_iff_append_eq.1 hmark
          obtain ⟨lists, quantizerDegree, rfl, hnames⟩ := readLists_eq_ok_iff.1 h
          exact hnames
        · cases h
  · intro h
    rcases names_cases h with ⟨rfl, rfl⟩ | ⟨m, degree, rfl, rfl, hm⟩ |
      ⟨n, lists, quantizerDegree, rfl, rfl⟩
    · rfl
    · have hdegree : readCount .graphDegree m = .ok degree := readCount_eq_ok_iff.2 hm
      have hread : readShape component (graphMark ++ m) =
          Shape.graph <$> readCount .graphDegree m := rfl
      rw [hread, hdegree]
      rfl
    · have hread : readShape component (listMark ++ n) = readLists n := rfl
      rw [hread]
      exact readLists_eq_ok_iff.2 ⟨lists, quantizerDegree, rfl, h⟩

/-! ## Rows -/

/-- No component without the mark of a kind starts with a `B`. -/
private theorem splitKind_marked {component : List Char} {shape : Shape}
    (h : shape.Names component) (kind : Kind) :
    splitKind (marked component kind) = (kind, component) := by
  cases kind with
  | binary => rfl
  | float =>
      rcases names_cases h with ⟨rfl, -⟩ | ⟨m, -, rfl, -⟩ | ⟨n, -, -, rfl, -⟩ <;> rfl

private theorem marked_splitKind (component : List Char) :
    marked (splitKind component).2 (splitKind component).1 = component := by
  rw [splitKind.eq_def]
  split <;> rfl

private theorem payloadFits_iff {kind : Kind} {shape : Shape} {payload : List (List Char)} :
    payloadFits kind shape payload = true ↔ Payload payload kind shape := by
  cases kind <;> cases shape <;> simp [payloadFits, Payload]

/-- The first part of a row tells its kind and its shape. -/
theorem row_cons_iff {kind : Kind} {shape : Shape} {component : List Char}
    {payload : List (List Char)} :
    Row kind shape (component :: payload) ↔
      (splitKind component).1 = kind ∧ shape.Names (splitKind component).2 ∧
        payloadFits kind shape payload = true := by
  rw [payloadFits_iff]
  constructor
  · rintro ⟨named, payload, hnames, hpayload, hrow⟩
    obtain ⟨rfl, rfl⟩ := List.cons.inj hrow
    rw [splitKind_marked hnames]
    exact ⟨rfl, hnames, hpayload⟩
  · rintro ⟨rfl, hnames, hpayload⟩
    exact ⟨_, payload, hnames, hpayload, by rw [marked_splitKind]⟩

/-- A row has a first part, which is not empty. -/
private theorem Row.exists_cons {kind : Kind} {shape : Shape} {row : List (List Char)}
    (h : Row kind shape row) :
    ∃ component payload, row = component :: payload ∧ component ≠ [] := by
  obtain ⟨component, payload, hnames, -, rfl⟩ := h
  refine ⟨_, payload, rfl, ?_⟩
  cases kind with
  | binary => exact List.cons_ne_nil _ _
  | float =>
      rcases names_cases hnames with ⟨rfl, -⟩ | ⟨m, -, rfl, -⟩ | ⟨n, -, -, rfl, -⟩ <;>
        exact List.cons_ne_nil _ _

/-- A row does not end in the suffix. -/
private theorem Row.not_suffixed {kind : Kind} {shape : Shape} {row : List (List Char)}
    (h : Row kind shape row) : ¬ (1 < row.length ∧ row.getLast? = some refinedMark) := by
  obtain ⟨component, payload, -, hpayload, rfl⟩ := h
  have hflat : payload = [] ∨ payload = [flatMark] := by
    cases kind with
    | binary => exact .inl hpayload
    | float =>
        cases shape with
        | flat => exact .inl hpayload
        | graph degree => exact hpayload
        | invertedFile lists quantizerDegree => exact .inr hpayload
  rintro ⟨hlong, hlast⟩
  rcases hflat with rfl | rfl
  · exact absurd hlong (Nat.lt_irrefl 1)
  · cases hlast

/-! ## Texts -/

private theorem eq_of_dropSuffix {parts row : List (List Char)} {refined : Bool}
    (hparts : parts ≠ []) (h : dropSuffix parts = (row, refined)) :
    row ≠ [] ∧ parts = if refined then row ++ [refinedMark] else row := by
  rw [dropSuffix] at h
  split at h
  · rename_i hsuffixed
    obtain ⟨rfl, rfl⟩ := Prod.mk.inj h
    refine ⟨fun hnil => ?_, (List.dropLast_append_getLast? _ hsuffixed.2).symm⟩
    have hlength := congrArg List.length hnil
    rw [List.length_dropLast, List.length_nil] at hlength
    omega
  · obtain ⟨rfl, rfl⟩ := Prod.mk.inj h
    exact ⟨hparts, rfl⟩

private theorem dropSuffix_of_row {kind : Kind} {shape : Shape} {row : List (List Char)}
    (h : Row kind shape row) (refined : Bool) :
    dropSuffix (if refined then row ++ [refinedMark] else row) = (row, refined) := by
  rw [dropSuffix]
  cases refined with
  | false => exact if_neg h.not_suffixed
  | true =>
      obtain ⟨component, payload, rfl, -⟩ := h.exists_cons
      have hsuffixed : 1 < (component :: payload ++ [refinedMark]).length ∧
          (component :: payload ++ [refinedMark]).getLast? = some refinedMark :=
        ⟨by simp, List.getLast?_concat⟩
      rw [if_pos rfl, if_pos hsuffixed, List.dropLast_concat]

private theorem parts_ne_nil (text : List Char) : parts text ≠ [] := fun hnil =>
  Text.split_ne_nil ',' (Text.trim text) (List.map_eq_nil_iff.1 hnil)

/-- **The reader accepts exactly the grammar.** -/
theorem readChars_eq_ok_iff {text : List Char} {asked : Description} :
    readChars text = .ok asked ↔ Asks text asked := by
  simp only [readChars, throw, throwThe, MonadExceptOf.throw]
  constructor
  · intro h
    split at h
    · cases h
    · cases hdrop : dropSuffix (parts text) with
      | mk row refined =>
          obtain ⟨hrow, hparts⟩ := eq_of_dropSuffix (parts_ne_nil text) hdrop
          obtain ⟨component, payload, rfl⟩ := List.exists_cons_of_ne_nil hrow
          rw [parts] at hdrop
          rw [hdrop] at h
          obtain ⟨shape, hshape, h⟩ := Except.bind_eq_ok_iff.1 h
          split at h
          · rename_i hfits
            obtain rfl := Except.ok.inj h
            exact ⟨_, row_cons_iff.2 ⟨rfl, readShape_eq_ok_iff.1 hshape, hfits⟩, hparts⟩
          · cases h
  · rintro ⟨row, hrow, hparts⟩
    have hdrop := dropSuffix_of_row hrow asked.refined
    rw [← hparts, parts] at hdrop
    obtain ⟨component, payload, rfl, hcomponent⟩ := hrow.exists_cons
    obtain ⟨hkind, hnames, hfits⟩ := row_cons_iff.1 hrow
    have hsome : Text.trim text ≠ [] := by
      intro hnone
      rw [parts, hnone] at hparts
      have hfirst := congrArg List.head? hparts
      cases hrefined : asked.refined <;> rw [hrefined] at hfirst <;>
        exact hcomponent (Option.some.inj hfirst).symm
    rw [if_neg (fun hnone => hsome (List.isEmpty_iff.1 hnone)), hdrop]
    refine Except.bind_eq_ok_iff.2 ⟨asked.shape, readShape_eq_ok_iff.2 hnames, ?_⟩
    obtain ⟨kind, shape, refined⟩ := asked
    obtain rfl : (splitKind component).1 = kind := hkind
    exact if_pos hfits

end Description

end Proximity

import Proximity.Artifact.Basic
import Proximity.Proofs.Guarded.Trees

/-!
# The check of untrusted indexes

The check itself divides by widths that nobody vouches for.  It does so in the
right order: a width is compared with the one that goes with the dimension, which
is never zero, before anything is divided by it, and children are checked before
they are counted.  So the check answers on any value, also where a width is zero.

## Main definitions

* `Inspection` — a check with guarded accesses.
* `Index.check?`, `Artifact.check?` — the guarded checks.

## Main results

* `Index.check?_eq`, `Artifact.check?_eq` — the check always answers.
-/

namespace Proximity

open Guarded

variable {S E A B : Type}

/-! ## Checks with accesses -/

/-- A check that stops at a failed access. -/
abbrev Inspection := ExceptT Inconsistency Option

namespace Inspection

/-- A check without accesses. -/
def plain (x : Except Inconsistency A) : Inspection A := ExceptT.mk (some x)

/-- An access. -/
def access (x : Option A) : Inspection A := ExceptT.mk (x.map .ok)

/-- The inspection answers what the check finds. -/
def Answers (c? : Inspection A) (c : Except Inconsistency A) : Prop := c?.run = some c

theorem answers_plain (x : Except Inconsistency A) : Answers (plain x) x := rfl

/-- A second check needs to answer only if the first one passes. -/
theorem Answers.bind {c? : Inspection A} {c : Except Inconsistency A} {f? : A → Inspection B}
    {f : A → Except Inconsistency B} (h : Answers c? c)
    (hf : ∀ a, c = .ok a → Answers (f? a) (f a)) : Answers (c? >>= f?) (c >>= f) := by
  rw [Answers, ExceptT.run_bind, h]
  cases c with
  | error e => rfl
  | ok a => exact hf a rfl

theorem answers_access {x : Option A} {a : A} (hx : x = some a) {f? : A → Inspection B}
    {c : Except Inconsistency B} (h : Answers (f? a) c) : Answers (access x >>= f?) c := by
  rw [Answers, ExceptT.run_bind, hx]
  exact h

end Inspection

open Inspection

variable [Space S E]

/-! ## Guarded checks -/

/-- The width follows from the dimension, and the elements are whole vectors. -/
def Flat.check? (f : Flat S E) : Inspection Unit := do
  let expected ← plain (((Space.kind f.space).unitLength f.dimension).mapError .dimension)
  plain (refuse (f.unitLength != expected) (.flatWidth f.unitLength f.dimension))
  let rest ← access (remainder? f.data.size f.unitLength)
  plain (refuse (rest != 0) (.flatRemainder f.data.size f.unitLength))

/-- The settings are in range, and the links are over the stored vectors. -/
def Graph.check? (g : Graph S E) : Inspection Unit := do
  g.storage.check?
  let total ← access g.storage.total?
  plain (refuse (decide (g.degree < 2) || g.searchWidth == 0 || g.buildWidth == 0)
    (.graphParameters g.degree g.searchWidth g.buildWidth))
  plain (refuse (g.links.nodes.size != total) (.adjacencyCount g.links.nodes.size total))
  plain (refuse (decide (Links.levelLimit < g.links.topLevel)) (.graphLevel g.links.topLevel))
  plain (Links.checkEntry total g.links.entry)
  plain (Links.checkNodes total 0 g.links.nodes.toList)

/-- The tree is in order. -/
def Index.check? : Index S E → Inspection Unit
  | .flat f => f.check?
  | .graph g => g.check?
  | .invertedFile f quantizer => do
    quantizer.check?
    plain (refuse (quantizer.unitLength != f.unitLength || quantizer.dimension != f.dimension)
      .quantizerWidth)
    let centroids ← access quantizer.total?
    plain (f.check centroids)
  | .composite base copies factor => do
    base.check?
    copies.check?
    plain (refuse (copies.unitLength != base.unitLength) .copyWidth)
    let held ← access copies.total?
    let total ← access base.total?
    plain (refuse (held != total) (.copyTotal held total))
    plain (refuse (!(factor.isFinite && Single.one.le factor)) (.refineFactor factor))

/-- The index is in order, and there is one id to a vector. -/
def IdMap.check? (m : IdMap S E) : Inspection Unit := do
  m.index.check?
  let total ← access m.index.total?
  plain (refuse (m.ids.size != total) (.idCount m.ids.size total))

/-- The stored index is in order. -/
def Stored.check? : Stored S E → Inspection Unit
  | .bare index => index.check?
  | .mapped map => map.check?

/-- The artifact is in order. -/
def Artifact.check? : Artifact → Inspection Unit
  | .float stored => stored.check?
  | .binary stored => stored.check?

/-! ## The check answers -/

theorem Flat.check?_eq (f : Flat S E) : Inspection.Answers f.check? f.check := by
  rw [check?, check]
  refine (answers_plain _).bind fun expected hexpected => ?_
  refine (answers_plain _).bind fun _ hwidth => ?_
  have hpos : 0 < f.unitLength := by
    have hsame : f.unitLength = expected := by simpa using hwidth
    exact hsame ▸ (Kind.unitLength_bounds (Except.mapError_eq_ok_iff.1 hexpected)).1
  exact answers_access (remainder?_eq hpos _) (answers_plain _)

theorem Graph.check?_eq (g : Graph S E) : Inspection.Answers g.check? g.check := by
  rw [check?, check]
  refine (Flat.check?_eq g.storage).bind fun _ hstorage => ?_
  have hpos := (Flat.check_eq_ok_iff.1 hstorage).pos
  refine answers_access (Flat.total?_eq hpos) ?_
  refine (answers_plain _).bind fun _ _ => (answers_plain _).bind fun _ _ => ?_
  refine (answers_plain _).bind fun _ _ => (answers_plain _).bind fun _ _ => ?_
  exact answers_plain _

/-- The check of a tree answers, whatever the tree is. -/
theorem Index.check?_eq (index : Index S E) : Inspection.Answers index.check? index.check := by
  induction index with
  | flat f => exact Flat.check?_eq f
  | graph g => exact Graph.check?_eq g
  | invertedFile f quantizer ih =>
      rw [check?, check]
      refine ih.bind fun _ hquantizer => (answers_plain _).bind fun _ _ => ?_
      exact answers_access (total?_eq (check_eq_ok_iff.1 hquantizer).searchable) (answers_plain _)
  | composite base copies factor ih =>
      rw [check?, check]
      refine ih.bind fun _ hbase => (Flat.check?_eq copies).bind fun _ hcopies => ?_
      have hpos := (Flat.check_eq_ok_iff.1 hcopies).pos
      refine (answers_plain _).bind fun _ _ => answers_access (Flat.total?_eq hpos) ?_
      refine answers_access (total?_eq (check_eq_ok_iff.1 hbase).searchable) ?_
      exact (answers_plain _).bind fun _ _ => answers_plain _

theorem IdMap.check?_eq (m : IdMap S E) : Inspection.Answers m.check? m.check := by
  rw [check?, check]
  refine (Index.check?_eq m.index).bind fun _ hindex => ?_
  have hsearchable := (Index.check_eq_ok_iff.1 hindex).searchable
  exact answers_access (Index.total?_eq hsearchable) (answers_plain _)

theorem Stored.check?_eq (s : Stored S E) : Inspection.Answers s.check? s.check := by
  cases s with
  | bare index => exact Index.check?_eq index
  | mapped map => exact IdMap.check?_eq map

/-- The check of an artifact answers, whatever was decoded. -/
theorem Artifact.check?_eq (a : Artifact) : Inspection.Answers a.check? a.check := by
  cases a with
  | float stored => exact Stored.check?_eq stored
  | binary stored => exact Stored.check?_eq stored

end Proximity

import Proximity.Guarded.Access
import Proximity.Proofs.Vectors

/-!
# When guarded accesses answer

An operation that is written with guarded accesses answers exactly if none of them
fails, and then it answers what the total operation does.  More room never changes an
answer: what an operation answers on one machine it also answers on a machine that lacks
no room, so it is the same on all machines that have room for it.

## Main definitions

* `Guarded.Below` — a guarded function that answers below a bound.
* `Guarded.ExtendedBy` — whatever one operation answers, another one answers too.
* `Guarded.Agrees` — whatever a guarded operation answers is what a total one does.

## Main results

* `Guarded.reserve?_extended` — more room never changes an answer.
* `Flat.candidates?_eq`, `Flat.nearest?_eq`, `Flat.within?_eq` — flat storage answers.
-/

namespace Proximity

namespace Guarded

variable {E A B : Type}

/-! ## Single accesses -/

theorem quotient?_eq {n : Nat} (hpos : 0 < n) (m : Nat) : quotient? m n = some (m / n) :=
  if_neg (Nat.ne_of_gt hpos)

theorem remainder?_eq {n : Nat} (hpos : 0 < n) (m : Nat) : remainder? m n = some (m % n) :=
  if_neg (Nat.ne_of_gt hpos)

theorem slice?_eq {xs : Array E} {start stop : Nat} (hle : start ≤ stop) (hstop : stop ≤ xs.size) :
    slice? xs start stop = some (xs.extract start stop) :=
  if_pos ⟨hle, hstop⟩

theorem chunks?_eq {unitLength : Nat} (hpos : 0 < unitLength) (xs : Array E) :
    chunks? unitLength xs = some (vectorsOf unitLength xs) :=
  if_neg (Nat.ne_of_gt hpos)

theorem reserve?_eq {machine : Machine} {count : Nat} (h : machine.grants count = true) :
    reserve? machine count = some () :=
  need_eq h

theorem reserve?_eq_none {machine : Machine} {count : Nat} (h : machine.grants count = false) :
    reserve? machine count = none :=
  if_neg (by rw [h]; decide)

/-! ## Many accesses -/

/-- Below a bound a guarded function answers what a total one does. -/
def Below (bound : Nat) (f? : Nat → Option B) (f : Nat → B) : Prop :=
  ∀ i, i < bound → f? i = some (f i)

theorem Below.mono {bound bound' : Nat} {f? : Nat → Option B} {f : Nat → B}
    (h : Below bound' f? f) (hle : bound ≤ bound') : Below bound f? f :=
  fun i hi => h i (Nat.lt_of_lt_of_le hi hle)

/-- A filter that never fails. -/
theorem below_some (bound : Nat) (f : Nat → B) : Below bound (fun i => some (f i)) f :=
  fun _ _ => rfl

theorem mapM_eq_some {f? : A → Option B} {f : A → B} {as : List A}
    (h : ∀ a ∈ as, f? a = some (f a)) : as.mapM f? = some (as.map f) := by
  induction as with
  | nil => rfl
  | cons a as ih =>
      have hrest := ih fun b hb => h b (List.mem_cons_of_mem a hb)
      rw [List.mapM_cons, h a List.mem_cons_self, hrest]
      rfl

theorem allM_eq_some {p? : A → Option Bool} {p : A → Bool} {as : List A}
    (h : ∀ a ∈ as, p? a = some (p a)) : as.allM p? = some (as.all p) := by
  induction as with
  | nil => rfl
  | cons a as ih =>
      have hrest := ih fun b hb => h b (List.mem_cons_of_mem a hb)
      rw [List.allM_cons, h a List.mem_cons_self, List.all_cons]
      cases hp : p a with
      | true => simpa using hrest
      | false => rfl

/-- A guarded fold that keeps an invariant under which its steps succeed. -/
theorem foldlM_eq_some {P : B → Prop} {f? : B → A → Option B} {f : B → A → B} {as : List A}
    (hstep : ∀ b, ∀ a ∈ as, P b → f? b a = some (f b a) ∧ P (f b a)) {b : B} (hb : P b) :
    as.foldlM f? b = some (as.foldl f b) ∧ P (as.foldl f b) := by
  induction as generalizing b with
  | nil => exact ⟨rfl, hb⟩
  | cons a as ih =>
      obtain ⟨hfirst, hnext⟩ := hstep b a List.mem_cons_self hb
      have hrest := ih (fun c d hd => hstep c d (List.mem_cons_of_mem a hd)) hnext
      rw [List.foldlM_cons, hfirst]
      exact hrest

/-! ## More room -/

/-- Whatever the first one answers, the second one answers too. -/
def ExtendedBy (x y : Option A) : Prop := ∀ a, x = some a → y = some a

namespace ExtendedBy

theorem refl (x : Option A) : ExtendedBy x x := fun _ h => h

/-- A part that is extended extends the whole, if what follows is extended too. -/
theorem bind {x y : Option A} {f g : A → Option B} (h : ExtendedBy x y)
    (hf : ∀ a, ExtendedBy (f a) (g a)) : ExtendedBy (x >>= f) (y >>= g) := by
  intro b hb
  obtain ⟨a, ha, hfa⟩ := Option.bind_eq_some_iff.1 hb
  rw [h a ha]
  exact hf a b hfa

theorem map {x y : Option A} (h : ExtendedBy x y) (f : A → B) :
    ExtendedBy (x.map f) (y.map f) := by
  intro b hb
  obtain ⟨a, ha, rfl⟩ := Option.map_eq_some_iff.1 hb
  rw [h a ha]
  rfl

theorem mapM {f g : A → Option B} (h : ∀ a, ExtendedBy (f a) (g a)) (as : List A) :
    ExtendedBy (as.mapM f) (as.mapM g) := by
  induction as with
  | nil => exact refl _
  | cons a as ih =>
      rw [List.mapM_cons, List.mapM_cons]
      exact (h a).bind fun _ => ih.bind fun _ => refl _

theorem foldlM {f g : B → A → Option B} (h : ∀ b a, ExtendedBy (f b a) (g b a)) (as : List A)
    (b : B) : ExtendedBy (as.foldlM f b) (as.foldlM g b) := by
  induction as generalizing b with
  | nil => exact refl _
  | cons a as ih =>
      rw [List.foldlM_cons, List.foldlM_cons]
      exact (h b a).bind ih

/-- What is answered is what an extension is known to answer. -/
theorem eq_of_some {x : Option A} {a b : A} (h : ExtendedBy x (some b)) (ha : x = some a) :
    a = b :=
  (Option.some.inj (h a ha)).symm

end ExtendedBy

/-- More room never changes an answer. -/
theorem reserve?_extended (machine : Machine) (count : Nat) :
    ExtendedBy (reserve? machine count) (reserve? .unlimited count) :=
  fun _ _ => rfl

/-! ## Agreement -/

/-- A guarded operation answers nothing but what the total one does, and answers it if there
is room. -/
structure Agrees (room : Prop) (x? : Option A) (x : A) : Prop where
  same : ∀ a, x? = some a → a = x
  answered : room → x? = some x

namespace Agrees

variable {room : Prop} {x? : Option A} {x : A}

/-- What is answered anyway needs no room. -/
theorem some (room : Prop) (x : A) : Agrees room (.some x) x where
  same _ h := (Option.some.inj h).symm
  answered _ := rfl

theorem of_eq (room : Prop) (h : x? = .some x) : Agrees room x? x :=
  h ▸ some room x

/-- An operation that is extended by one that answers what the total one does. -/
theorem of_extended {y : Option A} (h : ExtendedBy x? y) (hy : y = .some x)
    (hroom : room → x? = .some x) : Agrees room x? x where
  same _ ha := (hy ▸ h).eq_of_some ha
  answered := hroom

theorem mono {needed : Prop} (h : Agrees needed x? x) (hroom : room → needed) :
    Agrees room x? x :=
  ⟨h.same, fun hr => h.answered (hroom hr)⟩

theorem map (h : Agrees room x? x) (f : A → B) : Agrees room (x?.map f) (f x) where
  same b hb := by
    obtain ⟨a, ha, rfl⟩ := Option.map_eq_some_iff.1 hb
    rw [h.same a ha]
  answered hr := by
    rw [h.answered hr]
    rfl

/-- What follows has to agree only after the answer of the total operation. -/
theorem bind {f? : A → Option B} {y : B} (h : Agrees room x? x) (hf : Agrees room (f? x) y) :
    Agrees room (x? >>= f?) y where
  same b hb := by
    obtain ⟨a, ha, hb⟩ := Option.bind_eq_some_iff.1 hb
    rw [h.same a ha] at hb
    exact hf.same b hb
  answered hr := by
    rw [h.answered hr]
    exact hf.answered hr

end Agrees

/-! ## Scans -/

theorem scan?_eq {accept? : Nat → Option Bool} {accept : Nat → Bool} {cost : Array E → Single}
    {es : List (Nat × Array E)} (h : ∀ e ∈ es, accept? e.1 = some (accept e.1)) :
    scan? accept? cost es =
      some ((es.filter fun e => accept e.1).map fun e => ⟨cost e.2, e.1⟩) := by
  induction es with
  | nil => rfl
  | cons e es ih =>
      have hrest := ih fun d hd => h d (List.mem_cons_of_mem e hd)
      rw [scan?, h e List.mem_cons_self, hrest]
      cases haccept : accept e.1 with
      | true => simp [haccept]
      | false => simp [haccept]

end Guarded

open Guarded

/-! ## Flat storage -/

namespace Flat

variable {S E : Type}

variable {f : Flat S E}

theorem total?_eq (hpos : 0 < f.unitLength) : f.total? = some f.total := quotient?_eq hpos _

theorem vector?_eq {i : Nat} (hi : i < f.total) : f.vector? i = some (f.vector i) :=
  slice?_eq (Nat.le_add_right _ _) (mul_add_le_of_lt_div hi)

theorem append?_eq (hpos : 0 < f.unitLength) (elements : Array E) :
    f.append? elements = some (f.append elements) := by
  rw [append?, remainder?_eq hpos, append, checkWhole]
  by_cases hwhole : elements.size % f.unitLength = 0
  · simp [hwhole]
  · simp [hwhole]

variable [Space S E]

theorem costTo?_eq (query : Array E) {i : Nat} (hi : i < f.total) :
    f.costTo? query i = some (f.costTo query i) := by
  rw [costTo?, vector?_eq hi]
  rfl

variable {accept? : Nat → Option Bool} {accept : Nat → Bool}

theorem candidates?_eq (hpos : 0 < f.unitLength) (query : Array E)
    (haccept : Below f.total accept? accept) :
    f.candidates? query accept? = some (f.candidates query accept) := by
  have hlabels : (List.range (vectorsOf f.unitLength f.data).length).zip
      (vectorsOf f.unitLength f.data) = (List.range f.total).map fun i => (i, f.vector i) := by
    rw [length_vectorsOf, List.map_prod_left_eq_zip]
    rfl
  have hmem : ∀ e ∈ (List.range f.total).map fun i => (i, f.vector i),
      accept? e.1 = some (accept e.1) := by
    intro e he
    obtain ⟨i, hi, rfl⟩ := List.mem_map.1 he
    exact haccept i (List.mem_range.1 hi)
  rw [candidates?, chunks?_eq hpos, Option.bind_eq_bind, Option.bind_some, hlabels, scan?_eq hmem,
    List.filter_map, List.map_map]
  rfl

theorem nearest?_eq (hpos : 0 < f.unitLength) (query : Array E) (k : Nat)
    (haccept : Below f.total accept? accept) :
    f.nearest? query k accept? = some (f.nearest query k accept) := by
  rw [nearest?, candidates?_eq hpos query haccept]
  rfl

theorem within?_eq (hpos : 0 < f.unitLength) (query : Array E) (bound : Single)
    (haccept : Below f.total accept? accept) :
    f.within? query bound accept? = some (f.within query bound accept) := by
  rw [within?, candidates?_eq hpos query haccept]
  rfl

end Flat

end Proximity

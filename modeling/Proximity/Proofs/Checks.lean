import Proximity.Index.Consistency

/-!
# Sequences of checks

A check either passes or fails with what it found.  A sequence of checks passes
if all of them do, so a passed check comes apart into what each step asked for.

## Main results

* `Except.bind_eq_ok_iff`, `Except.check_bind_eq_ok_iff`, `refuse_eq_ok_iff` — the
  steps of a sequence.
* `Kind.unitLength_bounds` — the widths that are accepted.
-/

namespace Proximity

namespace Except

variable {F A B : Type}

/-- A sequence gives a result if its first step does and the rest does for what
the first step gave. -/
theorem bind_eq_ok_iff {x : Except F A} {f : A → Except F B} {b : B} :
    (x >>= f) = .ok b ↔ ∃ a, x = .ok a ∧ f a = .ok b := by
  cases x with
  | error e => simp [bind, Except.bind]
  | ok a => simp [bind, Except.bind]

/-- A sequence fails if its first step does, or the rest for what the first step
gave. -/
theorem bind_eq_error_iff {x : Except F A} {f : A → Except F B} {e : F} :
    (x >>= f) = .error e ↔ x = .error e ∨ ∃ a, x = .ok a ∧ f a = .error e := by
  cases x with
  | error e' => simp [bind, Except.bind]
  | ok a => simp [bind, Except.bind]

/-- Two checks in turn. -/
theorem check_bind_eq_ok_iff {x : Except F Unit} {f : Unit → Except F B} {b : B} :
    (x >>= f) = .ok b ↔ x = .ok () ∧ f () = .ok b := by
  cases x with
  | error e => simp [bind, Except.bind]
  | ok u => simp [bind, Except.bind]

@[simp] theorem mapError_ok {G : Type} (a : A) (f : F → G) :
    (Except.ok a : Except F A).mapError f = .ok a := rfl

@[simp] theorem mapError_error {G : Type} (e : F) (f : F → G) :
    (Except.error e : Except F A).mapError f = .error (f e) := rfl

theorem mapError_eq_ok_iff {G : Type} {x : Except F A} {f : F → G} {a : A} :
    x.mapError f = .ok a ↔ x = .ok a := by
  cases x with
  | error e => simp
  | ok b => simp

theorem map_eq_ok_iff {x : Except F A} {f : A → B} {b : B} :
    (f <$> x) = .ok b ↔ ∃ a, x = .ok a ∧ f a = b := by
  cases x <;> simp [Functor.map, Except.map]

/-- A sequence goes on after a guard if the guard lets it pass. -/
theorem ite_throw_eq_ok_iff {c : Prop} [Decidable c] {e : F} {x : Except F A} {a : A} :
    (if c then .error e else x) = .ok a ↔ ¬ c ∧ x = .ok a := by
  by_cases hc : c <;> simp [hc]

end Except

@[simp] theorem refuse_eq_ok_iff {condition : Bool} {fault : Inconsistency} {u : Unit} :
    refuse condition fault = .ok u ↔ condition = false := by
  cases condition <;> simp [refuse]

/-! ## Widths -/

namespace Kind

theorem width_eq_ok_iff {kind : Kind} {dimension unitLength : Nat} :
    kind.width dimension = .ok unitLength ↔ kind.unitLength dimension = .ok unitLength :=
  Except.mapError_eq_ok_iff

/-- A width is positive and no greater than the dimension. -/
theorem unitLength_bounds {kind : Kind} {dimension width : Nat}
    (h : kind.unitLength dimension = .ok width) : 0 < width ∧ width ≤ dimension := by
  cases kind with
  | float =>
      rw [unitLength, Except.ite_throw_eq_ok_iff, Except.ok.injEq] at h
      omega
  | binary =>
      rw [unitLength, Except.ite_throw_eq_ok_iff, Except.ok.injEq] at h
      omega

end Kind

end Proximity

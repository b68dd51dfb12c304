import Proximity.Error

/-!
# Traced steps

Hosts may watch which parts of the library a request reaches.  A traced step
has an outcome and the calls it made, in order; a failing step ends a
sequence, and the calls up to it are kept.

## Main definitions

* `Call` — the calls that can be watched.
* `Traced` — a step, as a monad.
-/

namespace Proximity

/-- A call that a host may watch. -/
inductive Call where
  /-- An index is built from its description. -/
  | construct (kind : Kind)
  /-- An index is tuned. -/
  | tune (kind : Kind)
  /-- A template is decoded. -/
  | readTemplate
  /-- An artifact is written, and forced to the disk or not. -/
  | write (sync : Bool)
deriving DecidableEq, Repr

/-- An outcome and the calls made on the way. -/
structure Traced (A : Type) where
  calls : List Call
  outcome : Except Error A

namespace Traced

variable {A B : Type}

/-- Makes a call and has an outcome. -/
def call (c : Call) (outcome : Except Error A) : Traced A := ⟨[c], outcome⟩

/-- Has an outcome without any call. -/
def quiet (outcome : Except Error A) : Traced A := ⟨[], outcome⟩

/-- One step after the other. -/
def andThen (a : Traced A) (f : A → Traced B) : Traced B :=
  match a.outcome with
  | .error e => ⟨a.calls, .error e⟩
  | .ok x => ⟨a.calls ++ (f x).calls, (f x).outcome⟩

instance : Monad Traced where
  pure a := quiet (.ok a)
  bind := andThen

end Traced

end Proximity

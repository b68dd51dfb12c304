import Proximity.Artifact.Basic
import Proximity.Error

/-!
# Loaded artifacts

A registry holds the artifacts that can be queried under handles, which are
handed out in ascending order from one and never again.

## Main definitions

* `Registry.insert`, `Registry.get`, `Registry.remove` — the three changes
  and looks.
-/

namespace Proximity

/-- Artifacts under handles, in ascending order. -/
structure Registry where
  /-- The next handle. -/
  next : Nat
  loaded : List (Nat × Artifact)
deriving DecidableEq, Repr

namespace Registry

/-- A registry that holds nothing. -/
def empty : Registry := ⟨1, []⟩

/-- Registers an artifact under a fresh handle. -/
def insert (r : Registry) (a : Artifact) : Registry × Nat :=
  (⟨r.next + 1, r.loaded ++ [(r.next, a)]⟩, r.next)

/-- The artifact of a handle. -/
def get (r : Registry) (handle : Nat) : Except Error Artifact :=
  match r.loaded.lookup handle with
  | some a => .ok a
  | none => .error (.unknownHandle handle)

/-- Forgets the artifact of a handle. -/
def remove (r : Registry) (handle : Nat) : Registry × Except Error Unit :=
  match r.loaded.lookup handle with
  | some _ => ({ r with loaded := r.loaded.filter fun e => e.1 != handle }, .ok ())
  | none => (r, .error (.unknownHandle handle))

/-- The handles in use, in ascending order. -/
def handles (r : Registry) : List Nat := r.loaded.map (·.1)

end Registry

end Proximity

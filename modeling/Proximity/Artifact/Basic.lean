import Proximity.Index.IdMap

/-!
# Artifacts

An artifact is an index as it is stored: of one kind of vectors, bare if it is
a template to build from, or with external ids.

## Main definitions

* `Stored` — a bare or id-mapped index.
* `Artifact` — a stored index of some kind.
-/

namespace Proximity

/-- An index as it is stored. -/
inductive Stored (S E : Type) where
  | bare (index : Index S E)
  | mapped (map : IdMap S E)
deriving DecidableEq, Repr

namespace Stored

variable {S E : Type} [Space S E]

/-- The index without its ids. -/
def index : Stored S E → Index S E
  | .bare index => index
  | .mapped map => map.index

/-- The ids, if there are any. -/
def ids? : Stored S E → Option (Array Int64)
  | .bare _ => none
  | .mapped map => some map.ids

/-- The stored index is in order. -/
def check : Stored S E → Except Inconsistency Unit
  | .bare index => index.check
  | .mapped map => map.check

end Stored

/-- A stored index of some kind. -/
inductive Artifact where
  | float (stored : Stored FloatSpace Single)
  | binary (stored : Stored BinarySpace UInt8)
deriving DecidableEq, Repr

namespace Artifact

def kind : Artifact → Kind
  | .float _ => .float
  | .binary _ => .binary

def spaceType : Artifact → SpaceType
  | .float stored => Space.spaceType stored.index.space
  | .binary stored => Space.spaceType stored.index.space

def dimension : Artifact → Nat
  | .float stored => stored.index.dimension
  | .binary stored => stored.index.dimension

/-- The number of stored vectors. -/
def total : Artifact → Nat
  | .float stored => stored.index.total
  | .binary stored => stored.index.total

def isTrained : Artifact → Bool
  | .float stored => stored.index.isTrained
  | .binary stored => stored.index.isTrained

/-- The ids, if there are any. -/
def ids? : Artifact → Option (Array Int64)
  | .float stored => stored.ids?
  | .binary stored => stored.ids?

def settings : Artifact → Settings
  | .float stored => stored.index.settings
  | .binary stored => stored.index.settings

/-- The artifact is in order. -/
def check : Artifact → Except Inconsistency Unit
  | .float stored => stored.check
  | .binary stored => stored.check

end Artifact

end Proximity

import Proximity.Number.Single

/-!
# Topologies and settings

The topology of an index is the shape of its root.  The settings of an index
are what may be tuned or was chosen at construction, node by node, without
any vectors.

## Main definitions

* `Topology`, with the tuning keys that each consumes itself.
* `Settings` — a snapshot of an index tree.
-/

namespace Proximity

/-- The shape of one node of an index tree. -/
inductive Topology where
  | flat
  | invertedFile
  | graph
  | composite
deriving DecidableEq, Repr

namespace TuningKey

/-- How many lists of an inverted file are looked at. -/
def probes : String := "nprobe"

/-- The map handed to the quantizer of an inverted file. -/
def quantizer : String := "coarse_quantizer"

/-- The beam's width while a graph is built. -/
def buildWidth : String := "ef_construction"

/-- The beam's width while a graph is searched. -/
def searchWidth : String := "ef_search"

/-- How many candidates a composite fetches for each one asked for. -/
def factor : String := "k_factor"

end TuningKey

namespace Topology

def name : Topology → String
  | .flat => "flat"
  | .invertedFile => "inverted_file"
  | .graph => "graph"
  | .composite => "composite"

/-- The tuning keys that a node consumes itself. -/
def keys : Topology → List String
  | .flat => []
  | .invertedFile => [TuningKey.probes, TuningKey.quantizer]
  | .graph => [TuningKey.buildWidth, TuningKey.searchWidth]
  | .composite => [TuningKey.factor]

end Topology

/-- A snapshot of an index tree without its vectors. -/
inductive Settings where
  | flat
  | invertedFile (listCount probes : Nat) (quantizer : Settings)
  | graph (degree buildWidth searchWidth : Nat)
  | composite (factor : Single) (base : Settings)
deriving DecidableEq, Repr

namespace Settings

/-- The shape of the root. -/
def topology : Settings → Topology
  | .flat => .flat
  | .invertedFile .. => .invertedFile
  | .graph .. => .graph
  | .composite .. => .composite

end Settings

end Proximity

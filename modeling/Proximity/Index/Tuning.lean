import Proximity.Index.Basic
import Proximity.Parameters

/-!
# Tuning

Tuning overlays the settings of an index tree with parameters.  Each node
consumes the keys it knows: an inverted file hands the map under its own key
for the quantizer to its quantizer and nothing else, a composite hands all of
its parameters on to its base.  Keys of a node are checked before any of them
is set, but a refusal further down leaves what was set above.

## Main definitions

* `Index.tune` — the overlay.
-/

namespace Proximity.Index

variable {S E : Type}

/-- Overlays the settings of a graph. -/
def tuneGraph (g : Graph S E) (ps : Parameters) : Except Error (Graph S E) := do
  let buildWidth ← ps.count? TuningKey.buildWidth
  let searchWidth ← ps.count? TuningKey.searchWidth
  return { g with
    buildWidth := (buildWidth.map (max · 1)).getD g.buildWidth
    searchWidth := (searchWidth.map (max · 1)).getD g.searchWidth }

/-- The settings that an inverted file reads for itself and for its
quantizer. -/
def readProbes (ps : Parameters) : Except Error (Option Nat × Option Parameters) := do
  let probes ← ps.count? TuningKey.probes
  let nested ← ps.map? TuningKey.quantizer
  return (probes, nested)

/-- Overlays the settings of a tree. -/
def tune : Index S E → Parameters → Index S E × Except Error Unit
  | .flat f, _ => (.flat f, .ok ())
  | .graph g, ps =>
    match tuneGraph g ps with
    | .error e => (.graph g, .error e)
    | .ok g => (.graph g, .ok ())
  | .invertedFile f quantizer, ps =>
    match readProbes ps with
    | .error e => (.invertedFile f quantizer, .error e)
    | .ok (probes, nested) =>
      let f := { f with probes := probes.getD f.probes }
      match nested with
      | none => (.invertedFile f quantizer, .ok ())
      | some nested =>
        let (quantizer, outcome) := quantizer.tune nested
        (.invertedFile f quantizer, outcome)
  | .composite base copies factor, ps =>
    match ps.atLeast? TuningKey.factor .one with
    | .error e => (.composite base copies factor, .error e)
    | .ok asked =>
      let (base, outcome) := base.tune ps
      (.composite base copies (asked.getD factor), outcome)

end Proximity.Index

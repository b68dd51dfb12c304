import Proximity.Error

/-!
# Metrics

An engine counts its operations by outcome, its failures by category and the
vectors it indexed, and knows how many artifacts are loaded.  The counters can
be exported as lines of text, families by name and counters by label; a
counter that was never touched has no line.

## Main definitions

* `Operation` — what is counted.
* `Metrics.record` — the outcome of an operation.
* `Metrics.lines` — the lines.
-/

namespace Proximity

/-- An operation whose outcomes are counted. -/
inductive Operation where
  | build
  | buildFromTemplate
  | free
  | load
  | train
deriving DecidableEq, Repr

namespace Operation

def name : Operation → String
  | .build => "build_index"
  | .buildFromTemplate => "build_index_from_template"
  | .free => "free"
  | .load => "load_index"
  | .train => "train_index"

/-- All operations, by name. -/
def all : List Operation := [.build, .buildFromTemplate, .free, .load, .train]

end Operation

/-- All categories of errors, by name. -/
def ErrorCategory.all : List ErrorCategory := [.host, .persistence, .topology, .validation]

/-- The counters of an engine. -/
structure Metrics where
  successes : Operation → Nat
  failures : Operation → Nat
  errors : ErrorCategory → Nat
  vectorsIndexed : Nat
  loaded : Nat

namespace Metrics

/-- Counters that were never touched. -/
def empty : Metrics := ⟨fun _ => 0, fun _ => 0, fun _ => 0, 0, 0⟩

/-- Adds one to the counter of `a`. -/
def bump {A : Type} [DecidableEq A] (counter : A → Nat) (a : A) : A → Nat :=
  fun b => if b = a then counter b + 1 else counter b

/-- Counts the outcome of an operation. -/
def record (m : Metrics) (operation : Operation) (failure : Option Error) : Metrics :=
  match failure with
  | none => { m with successes := bump m.successes operation }
  | some e =>
    { m with failures := bump m.failures operation, errors := bump m.errors e.category }

/-- A line, unless the counter was never touched. -/
def line (label : String) (count : Nat) : List String :=
  if count = 0 then [] else [label ++ " " ++ toString count]

/-- A family and labels, in braces. -/
def labelled (family : String) (labels : List (String × String)) : String :=
  "annforge_" ++ family ++ "\x7b" ++
    ",".intercalate (labels.map fun l => l.1 ++ "=\"" ++ l.2 ++ "\"") ++ "\x7d"

/-- The counters as lines of text. -/
def lines (m : Metrics) : List String :=
  (ErrorCategory.all.flatMap fun c =>
    line (labelled "errors_total" [("category", c.name)]) (m.errors c)) ++
  ["annforge_loaded_indexes " ++ toString m.loaded] ++
  (Operation.all.flatMap fun o =>
    line (labelled "operation_duration_seconds_count" [("operation", o.name)])
      (m.successes o + m.failures o)) ++
  (Operation.all.flatMap fun o =>
    line (labelled "operations_total" [("operation", o.name), ("outcome", "failure")])
      (m.failures o) ++
    line (labelled "operations_total" [("operation", o.name), ("outcome", "success")])
      (m.successes o)) ++
  ["annforge_vectors_indexed_total " ++ toString m.vectorsIndexed]

end Metrics

end Proximity

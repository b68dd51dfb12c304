import Proximity.Index.Description
import Proximity.Toml.Reader

/-!
# Configuration

A configuration holds everything that requests leave open.  It is read from a
TOML text and then overridden, setting by setting, by environment variables.
Settings that are absent keep their defaults and settings that nobody knows
are ignored, but a known setting of the wrong shape is refused.

## Main definitions

* `Config` — the settings, with their defaults.
* `Config.ofText` — a configuration from a text.
* `Config.override` — a configuration under an environment.
-/

namespace Proximity

/-- The settings of a host. -/
structure Config where
  /-- Worker threads of a call that asks for none; zero uses the ambient
  ones. -/
  threads : Nat
  /-- The most threads of any call; zero leaves it to the machine. -/
  maxThreads : Nat
  /-- The most worker pools kept between calls. -/
  maxPools : Nat
  /-- Bytes staged per flush of a transfer. -/
  transferLimit : Nat
  /-- Whether written files are forced to the disk. -/
  syncWrites : Bool
  /-- What descriptions leave open. -/
  indexes : IndexDefaults
deriving DecidableEq, Repr

namespace Config

/-- The settings of a host that asks for none. -/
def standard : Config := ⟨0, 0, 4, 64 * 1024 * 1024, true, default⟩

instance : Inhabited Config := ⟨.standard⟩

/-- The most threads of any call, on a machine with the given number of
them. -/
def threadLimit (c : Config) (machine : Nat) : Nat :=
  if 0 < c.maxThreads then c.maxThreads else machine

/-! ## Texts -/

/-- A count. -/
def count? : Toml → Option Nat
  | .integer value => if 0 ≤ value then some value.toNat else none
  | _ => none

/-- A switch. -/
def switch? : Toml → Option Bool
  | .boolean value => some value
  | _ => none

/-- The setting that is read from a value; an absent one has a default. -/
def setting {A : Type} (read? : Toml → Option A) (default : A) : Option Toml → Option A
  | none => some default
  | some value => read? value

/-- Settings of a group by name: those of a table by their keys, and those of
an array by their places.  A moment is a table without known keys. -/
def group? (names : List String) : Toml → Option (String → Option Toml)
  | .table _ members | .inline members => some fun name => members.lookup name
  | .array items => some fun name => (names.zip items).lookup name
  | .tables elements => some fun name => (names.zip (elements.map .inline)).lookup name
  | .moment => some fun _ => none
  | _ => none

/-- The names of the clustering settings, in their order. -/
def clusteringNames : List String :=
  ["iterations", "seed", "min_points_per_centroid", "max_points_per_centroid"]

/-- Clustering settings. -/
def clustering? (value : Toml) : Option ClusteringSettings := do
  let group ← group? clusteringNames value
  let base := ClusteringSettings.standard
  let iterations ← setting count? base.iterations (group "iterations")
  let seed ← setting count? base.seed.toNat (group "seed")
  let minPoints ← setting count? base.minPoints (group "min_points_per_centroid")
  let maxPoints ← setting count? base.maxPoints (group "max_points_per_centroid")
  return ⟨iterations, UInt64.ofNat seed, minPoints, maxPoints⟩

/-- The names of the graph settings, in their order. -/
def graphNames : List String := [TuningKey.buildWidth, TuningKey.searchWidth]

/-- Graph settings. -/
def graph? (value : Toml) : Option GraphDefaults := do
  let group ← group? graphNames value
  let base := GraphDefaults.standard
  let buildWidth ← setting count? base.buildWidth (group TuningKey.buildWidth)
  let searchWidth ← setting count? base.searchWidth (group TuningKey.searchWidth)
  return ⟨buildWidth, searchWidth⟩

/-- The configuration of a document. -/
def ofMembers? (members : Toml.Members) : Option Config := do
  let threads ← setting count? standard.threads (members.lookup "thread_count")
  let maxThreads ← setting count? standard.maxThreads (members.lookup "max_threads")
  let maxPools ← setting count? standard.maxPools (members.lookup "max_pools")
  let transferLimit ←
    setting count? standard.transferLimit (members.lookup "transfer_memory_limit_bytes")
  let syncWrites ← setting switch? standard.syncWrites (members.lookup "sync_on_write")
  let clustering ← setting clustering? standard.indexes.clustering (members.lookup "kmeans")
  let graph ← setting graph? standard.indexes.graph (members.lookup "graph")
  return ⟨threads, maxThreads, maxPools, transferLimit, syncWrites, ⟨graph, clustering⟩⟩

/-- The configuration that a text spells, if it spells one. -/
def ofText? (text : String) : Option Config := (Toml.read? text).bind ofMembers?

/-- What is wrong with a text that spells no configuration: the first line up
to which, and with which, it spells none. -/
def textFault (text : String) : ConfigFault :=
  let lines := text.splitOn "\n"
  let spells (i : Nat) := (ofText? ("\n".intercalate (lines.take (i + 1)))).isSome
  let place := ((List.range lines.length).find? fun i => !spells i).getD 0
  .invalidText (place + 1) (lines.getD place "")

/-- The configuration that a text spells. -/
def ofText (text : String) : Except Error Config :=
  match ofText? text with
  | some config => .ok config
  | none => .error (.config (textFault text))

/-! ## Environments -/

/-- The value of each environment variable that is set. -/
abbrev Environment := String → Option String

namespace Variable

def threads : String := "ANNFORGE_THREAD_COUNT"

def maxThreads : String := "ANNFORGE_MAX_THREADS"

def maxPools : String := "ANNFORGE_MAX_POOLS"

def transferLimit : String := "ANNFORGE_TRANSFER_MEMORY_LIMIT"

def syncWrites : String := "ANNFORGE_SYNC_ON_WRITE"

/-- The environment variables that are looked at. -/
def all : List String := [threads, maxThreads, maxPools, transferLimit, syncWrites]

end Variable

/-- A count from the environment, if the variable is set. -/
def countFrom (env : Environment) (variableName : String) : Except Error (Option Nat) :=
  match env variableName with
  | none => .ok none
  | some value =>
    match Count.read value with
    | .ok n => .ok (some n)
    | .error fault => .error (.config (.environment variableName value fault))

/-- The configuration under an environment. -/
def override (c : Config) (env : Environment) : Except Error Config := do
  let threads ← countFrom env Variable.threads
  let maxThreads ← countFrom env Variable.maxThreads
  let maxPools ← countFrom env Variable.maxPools
  let transferLimit ← countFrom env Variable.transferLimit
  let syncWrites := (env Variable.syncWrites).map fun value => value == "true" || value == "1"
  return { c with
    threads := threads.getD c.threads
    maxThreads := maxThreads.getD c.maxThreads
    maxPools := maxPools.getD c.maxPools
    transferLimit := transferLimit.getD c.transferLimit
    syncWrites := syncWrites.getD c.syncWrites }

end Config

end Proximity

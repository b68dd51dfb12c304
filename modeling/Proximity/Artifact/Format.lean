import Proximity.Artifact.Basic
import Proximity.Artifact.Codec

/-!
# The stored form of artifacts

Every part of an artifact has a codec made of those of its fields, in a fixed
order.  Counts, labels and ids take eight bytes, nodes of a graph four, and
the shape of an index node, its kind and whether it has ids are told by tags
of four bytes.

## Main definitions

* `Codec.flat`, `Codec.graph`, `Codec.invertedFile` — the nodes of a tree.
* `Codec.index` — trees.
* `Codec.artifact` — artifacts.
-/

namespace Proximity.Codec

/-! ## Fields -/

/-- A count, a size or a label. -/
def count : Codec Nat := word 8

/-- A node of a graph. -/
def node : Codec Nat := word 4

def single : Codec Single := (word 4).via (·.bits.toNat) fun n => ⟨UInt32.ofNat n⟩

def double : Codec Double := (word 8).via (·.bits.toNat) fun n => ⟨UInt64.ofNat n⟩

def seed : Codec UInt64 := (word 8).via UInt64.toNat UInt64.ofNat

/-- An external id, as its bit pattern. -/
def externalId : Codec Int64 :=
  (word 8).via (fun i => i.toUInt64.toNat) fun n => (UInt64.ofNat n).toInt64

/-- One element of a bit vector. -/
def byte : Codec UInt8 := (word 1).via UInt8.toNat UInt8.ofNat

def metricTag : Metric → Nat
  | .l2 => 0
  | .innerProduct => 1

def metricOfTag? : Nat → Option Metric
  | 0 => some .l2
  | 1 => some .innerProduct
  | _ => none

def metric : Codec Metric := (word 4).via? metricTag metricOfTag?

def floatSpace : Codec FloatSpace := metric.via (·.metric) FloatSpace.mk

/-- There is one space of bit vectors, so nothing is written. -/
def binarySpace : Codec BinarySpace := constant ⟨⟩

def clustering : Codec ClusteringSettings :=
  (count.pair (seed.pair (count.pair count))).via
    (fun s => (s.iterations, s.seed, s.minPoints, s.maxPoints))
    fun (iterations, seed, minPoints, maxPoints) => ⟨iterations, seed, minPoints, maxPoints⟩

/-! ## Nodes of a tree -/

variable {S E : Type}

def flat (space : Codec S) (element : Codec E) : Codec (Flat S E) :=
  (space.pair (count.pair (count.pair element.array))).via
    (fun f => (f.space, f.dimension, f.unitLength, f.data))
    fun (space, dimension, unitLength, data) => ⟨space, dimension, unitLength, data⟩

/-- The fields of an inverted file before its quantizer. -/
def fileHead (space : Codec S) : Codec (S × Nat × Nat × Nat × Nat × ClusteringSettings) :=
  space.pair (count.pair (count.pair (count.pair (count.pair clustering))))

def postingList (element : Codec E) : Codec (PostingList E) :=
  (count.array.pair element.array).via (fun l => (l.labels, l.codes))
    fun (labels, codes) => ⟨labels, codes⟩

/-- The fields of an inverted file after its quantizer. -/
def fileTail (element : Codec E) : Codec (Array (PostingList E) × Nat) :=
  (postingList element).array.pair count

def links : Codec (Array (List (List Nat))) := node.list.list.array

def graph (space : Codec S) (element : Codec E) : Codec (Graph S E) :=
  ((flat space element).pair
    (count.pair (count.pair (count.pair
      (links.pair (node.option.pair (count.pair (double.pair seed)))))))).via
    (fun g => (g.storage, g.degree, g.buildWidth, g.searchWidth, g.links.nodes, g.links.entry,
      g.links.topLevel, g.levelScale, g.seed))
    fun (storage, degree, buildWidth, searchWidth, nodes, entry, topLevel, levelScale, seed) =>
      ⟨storage, degree, buildWidth, searchWidth, ⟨nodes, entry, topLevel⟩, levelScale, seed⟩

/-! ## Trees -/

/-- Writes a tree. -/
def encodeIndex (space : Codec S) (element : Codec E) : Index S E → List UInt8
  | .flat f => wordBytes 4 0 ++ (flat space element).encode f
  | .invertedFile f quantizer =>
    wordBytes 4 1 ++
      (fileHead space).encode
        (f.space, f.dimension, f.unitLength, f.listCount, f.probes, f.clustering) ++
      encodeIndex space element quantizer ++ (fileTail element).encode (f.lists, f.total)
  | .graph g => wordBytes 4 2 ++ (graph space element).encode g
  | .composite base copies factor =>
    wordBytes 4 3 ++ encodeIndex space element base ++ (flat space element).encode copies ++
      single.encode factor

/-- Reads a tree that is at most `fuel` nodes deep. -/
def decodeIndex (space : Codec S) (element : Codec E) :
    Nat → List UInt8 → Option (Index S E × List UInt8)
  | 0, _ => none
  | fuel + 1, bytes => do
    let (tag, bytes) ← readWord 4 bytes
    match tag with
    | 0 =>
      let (f, bytes) ← (flat space element).decode bytes
      return (.flat f, bytes)
    | 1 =>
      let ((space', dimension, unitLength, listCount, probes, clustering), bytes) ←
        (fileHead space).decode bytes
      let (quantizer, bytes) ← decodeIndex space element fuel bytes
      let ((lists, total), bytes) ← (fileTail element).decode bytes
      return (.invertedFile
        ⟨space', dimension, unitLength, listCount, probes, clustering, lists, total⟩ quantizer,
        bytes)
    | 2 =>
      let (g, bytes) ← (graph space element).decode bytes
      return (.graph g, bytes)
    | 3 =>
      let (base, bytes) ← decodeIndex space element fuel bytes
      let (copies, bytes) ← (flat space element).decode bytes
      let (factor, bytes) ← single.decode bytes
      return (.composite base copies factor, bytes)
    | _ => none

/-- Trees; every node takes at least its tag, so there are fewer nodes than
bytes. -/
def index (space : Codec S) (element : Codec E) : Codec (Index S E) :=
  ⟨encodeIndex space element, fun bytes => decodeIndex space element (bytes.length + 1) bytes⟩

/-! ## Artifacts -/

def idMap (space : Codec S) (element : Codec E) : Codec (IdMap S E) :=
  ((index space element).pair externalId.array).via (fun m => (m.index, m.ids))
    fun (index, ids) => ⟨index, ids⟩

/-- A tag of four bytes and the alternative it names. -/
def stored (space : Codec S) (element : Codec E) : Codec (Stored S E) where
  encode
    | .bare i => wordBytes 4 0 ++ (index space element).encode i
    | .mapped m => wordBytes 4 1 ++ (idMap space element).encode m
  decode bytes := do
    let (tag, bytes) ← readWord 4 bytes
    match tag with
    | 0 =>
      let (i, bytes) ← (index space element).decode bytes
      return (.bare i, bytes)
    | 1 =>
      let (m, bytes) ← (idMap space element).decode bytes
      return (.mapped m, bytes)
    | _ => none

def floatStored : Codec (Stored FloatSpace Single) := stored floatSpace single

def binaryStored : Codec (Stored BinarySpace UInt8) := stored binarySpace byte

/-- A tag of four bytes and the stored index of the kind it names. -/
def artifact : Codec Artifact where
  encode
    | .float s => wordBytes 4 0 ++ floatStored.encode s
    | .binary s => wordBytes 4 1 ++ binaryStored.encode s
  decode bytes := do
    let (tag, bytes) ← readWord 4 bytes
    match tag with
    | 0 =>
      let (s, bytes) ← floatStored.decode bytes
      return (.float s, bytes)
    | 1 =>
      let (s, bytes) ← binaryStored.decode bytes
      return (.binary s, bytes)
    | _ => none

end Proximity.Codec

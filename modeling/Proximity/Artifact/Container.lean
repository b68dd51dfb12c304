import Proximity.Artifact.Format
import Proximity.Hash.Blake3

/-!
# Containers

An artifact travels in a container: a magic text, a format version, the
length of the payload, the payload and its checksum.  Reading checks these in
this order, then decodes the payload and checks that what it holds is in
order.  Bytes of the payload after the artifact are ignored.

The checksum is a parameter of the general functions, so what is proved of
them holds for every hash; `Artifact.toBytes` and `Artifact.ofBytes` use
BLAKE3.

## Main definitions

* `Container.pack`, `Container.unpack` — payloads and containers.
* `Artifact.toBytes`, `Artifact.ofBytes` — artifacts and containers.
-/

namespace Proximity

namespace Container

/-- The first bytes of a container, `ANNFIDX1` in ASCII. -/
def magic : List UInt8 := [0x41, 0x4e, 0x4e, 0x46, 0x49, 0x44, 0x58, 0x31]

/-- The format version. -/
def version : Nat := 1

/-- Bytes before the payload. -/
def headerLength : Nat := 20

/-- Bytes after the payload. -/
def checksumLength : Nat := 32

/-- Puts a payload into a container. -/
def pack (hash : List UInt8 → List UInt8) (payload : List UInt8) : List UInt8 :=
  magic ++ Codec.wordBytes 4 version ++ Codec.wordBytes 8 payload.length ++ payload ++ hash payload

/-- The number that some bytes spell, the lowest byte first. -/
def wordAt (bytes : List UInt8) : Nat := bytes.foldr (fun byte high => byte.toNat + 256 * high) 0

/-- Takes the payload out of a container. -/
def unpack (hash : List UInt8 → List UInt8) (bytes : List UInt8) :
    Except FormatFault (List UInt8) := do
  let size := bytes.length
  if size < headerLength + checksumLength then throw (.tooShort size)
  if bytes.take 8 ≠ magic then throw .badMagic
  let found := wordAt ((bytes.drop 8).take 4)
  if found ≠ version then throw (.version found version)
  let declared := wordAt ((bytes.drop 12).take 8)
  if size - headerLength - checksumLength ≠ declared then throw (.length declared size)
  let rest := bytes.drop headerLength
  let payload := rest.take declared
  if hash payload ≠ rest.drop declared then throw .checksum
  return payload

end Container

namespace Artifact

/-- Decodes a payload; what follows the artifact is ignored. -/
def ofPayload (payload : List UInt8) : Except FormatFault Artifact :=
  match Codec.artifact.decode payload with
  | none => .error .undecodable
  | some (a, _) => a.check.mapError .inconsistent |>.map fun _ => a

/-- The container of an artifact, under a hash. -/
def toBytesWith (hash : List UInt8 → List UInt8) (a : Artifact) : List UInt8 :=
  Container.pack hash (Codec.artifact.encode a)

/-- The artifact in a container, under a hash. -/
def ofBytesWith (hash : List UInt8 → List UInt8) (bytes : List UInt8) :
    Except FormatFault Artifact := do
  ofPayload (← Container.unpack hash bytes)

/-- The container of an artifact. -/
def toBytes (a : Artifact) : List UInt8 := toBytesWith Blake3.hash a

/-- The artifact in a container. -/
def ofBytes (bytes : List UInt8) : Except FormatFault Artifact := ofBytesWith Blake3.hash bytes

end Artifact

end Proximity

import Proximity.Artifact.Container
import Proximity.Proofs.Checks
import Proximity.Proofs.Codec.Trees

/-!
# Containers are read exactly

A container leaves no room: its header says how long the payload is, the
checksum has a fixed length, and nothing may follow.  So a container is
determined by its payload, and the bytes that are accepted are the containers
of payloads that begin with the stored form of an artifact in order.

Everything is stated for an arbitrary hash of `checksumLength` bytes.

## Main results

* `Container.unpack_eq_ok_iff` — a payload comes out of its container only.
* `Artifact.ofPayload_eq_ok_iff` — payloads that hold an artifact.
* `Artifact.ofBytesWith_eq_ok_iff` — the bytes that are accepted.
* `Artifact.ofBytesWith_canonical` — acceptance, and what follows from it for
  re-encoding, for prefixes and for single bytes.
-/

namespace Proximity

namespace Blake3

private theorem length_flatMap_bytesOf (ws : List UInt32) :
    (ws.flatMap bytesOf).length = 4 * ws.length := by
  induction ws with
  | nil => rfl
  | cons w ws ih =>
      simp only [List.flatMap_cons, List.length_append, List.length_cons, ih]
      simp only [bytesOf, List.length_cons, List.length_nil]
      omega

/-- The hash has as many bytes as a container keeps for its checksum. -/
theorem length_hash (bytes : List UInt8) :
    (hash bytes).length = Container.checksumLength := by
  rw [hash, Node.root, length_flatMap_bytesOf, Vector.length_toList]
  rfl

end Blake3

namespace Container

/-! ## Words -/

/-- A word is read back from its bytes. -/
theorem wordAt_wordBytes (width n : Nat) (h : n < Nat.pow 256 width) :
    wordAt (Codec.wordBytes width n) = n := by
  induction width generalizing n with
  | zero =>
      have : n = 0 := by simpa using h
      simp [wordAt, Codec.wordBytes, this]
  | succ width ih =>
      have hn : n / 256 < Nat.pow 256 width := by
        rw [Nat.pow_eq] at h ⊢
        rw [Nat.pow_succ] at h
        exact Nat.div_lt_of_lt_mul (by omega)
      have htail := ih (n / 256) hn
      simp only [wordAt] at htail
      simp only [wordAt, Codec.wordBytes, List.foldr_cons, htail, UInt8.toNat_ofNat']
      omega

/-- Bytes are the word that they spell. -/
theorem wordBytes_wordAt (bytes : List UInt8) :
    Codec.wordBytes bytes.length (wordAt bytes) = bytes := by
  induction bytes with
  | nil => rfl
  | cons byte bytes ih =>
      have hbyte := byte.toNat_lt
      have hhigh : wordAt (byte :: bytes) = byte.toNat + 256 * wordAt bytes := rfl
      have hdiv : wordAt (byte :: bytes) / 256 = wordAt bytes := by omega
      have hlow : UInt8.ofNat (wordAt (byte :: bytes)) = byte := by
        apply UInt8.toNat_inj.1
        rw [UInt8.toNat_ofNat', hhigh]
        omega
      simp only [List.length_cons, Codec.wordBytes, hdiv, hlow, ih]

theorem wordAt_lt (bytes : List UInt8) : wordAt bytes < Nat.pow 256 bytes.length := by
  induction bytes with
  | nil => simp [wordAt]
  | cons byte bytes ih =>
      have hbyte := byte.toNat_lt
      have hhigh : wordAt (byte :: bytes) = byte.toNat + 256 * wordAt bytes := rfl
      rw [Nat.pow_eq] at ih ⊢
      rw [hhigh, List.length_cons, Nat.pow_succ]
      omega

/-! ## The layout -/

variable {hash : List UInt8 → List UInt8}

theorem length_pack (hhash : ∀ p, (hash p).length = checksumLength) (payload : List UInt8) :
    (pack hash payload).length = headerLength + payload.length + checksumLength := by
  simp only [pack, List.length_append, Codec.length_wordBytes, hhash]
  simp only [magic, List.length_cons, List.length_nil, headerLength]

/-- A container starts with a header that depends on the length of the payload
only. -/
def header (length : Nat) : List UInt8 :=
  magic ++ Codec.wordBytes 4 version ++ Codec.wordBytes 8 length

theorem length_header (length : Nat) : (header length).length = headerLength := by
  simp [header, magic, headerLength]

theorem pack_eq (payload : List UInt8) :
    pack hash payload = header payload.length ++ (payload ++ hash payload) := by
  simp only [pack, header, List.append_assoc]

/-- What is accepted passes every check in turn. -/
private theorem unpack_eq_ok_iff_checks {bytes payload : List UInt8} :
    unpack hash bytes = .ok payload ↔
      headerLength + checksumLength ≤ bytes.length ∧ bytes.take 8 = magic ∧
        wordAt ((bytes.drop 8).take 4) = version ∧
        bytes.length - headerLength - checksumLength = wordAt ((bytes.drop 12).take 8) ∧
        hash ((bytes.drop headerLength).take (wordAt ((bytes.drop 12).take 8))) =
          (bytes.drop headerLength).drop (wordAt ((bytes.drop 12).take 8)) ∧
        (bytes.drop headerLength).take (wordAt ((bytes.drop 12).take 8)) = payload := by
  simp only [unpack, bind, Except.bind, pure, Except.pure, throw, throwThe, MonadExceptOf.throw,
    Except.ite_throw_eq_ok_iff, Except.ok.injEq, Nat.not_lt, ne_eq, Classical.not_not]

/-- Bytes are their three header fields and what follows them. -/
private theorem fields_append (bytes : List UInt8) :
    bytes.take 8 ++ ((bytes.drop 8).take 4 ++ ((bytes.drop 12).take 8 ++ bytes.drop 20)) =
      bytes := by
  have h12 := List.take_append_drop 8 (bytes.drop 12)
  have h8 := List.take_append_drop 4 (bytes.drop 8)
  rw [List.drop_drop] at h12 h8
  rw [h12, h8, List.take_append_drop]

/-- The three header fields of a container and what follows them. -/
private theorem fields_pack (hash : List UInt8 → List UInt8) (payload : List UInt8) :
    (pack hash payload).take 8 = magic ∧
      ((pack hash payload).drop 8).take 4 = Codec.wordBytes 4 version ∧
      ((pack hash payload).drop 12).take 8 = Codec.wordBytes 8 payload.length ∧
      (pack hash payload).drop 20 = payload ++ hash payload := by
  have h4 := Codec.length_wordBytes 4 version
  have h8 := Codec.length_wordBytes 8 payload.length
  have hmagic : (magic ++ Codec.wordBytes 4 version).length = 12 := by simp [magic]
  have hheader : (header payload.length).length = 20 := length_header payload.length
  refine ⟨?_, ?_, ?_, ?_⟩
  · simp only [pack, List.append_assoc]
    exact List.take_left' rfl
  · simp only [pack, List.append_assoc]
    rw [List.drop_left' (show magic.length = 8 from rfl), List.take_left' h4]
  · rw [pack, List.append_assoc, List.append_assoc, List.drop_left' hmagic,
      List.take_left' h8]
  · rw [pack_eq, List.drop_left' hheader]

/-- A payload comes out of a container if and only if it was put in. -/
theorem unpack_eq_ok_iff (hhash : ∀ p, (hash p).length = checksumLength)
    {bytes payload : List UInt8} :
    unpack hash bytes = .ok payload ↔
      payload.length < Count.bound ∧ bytes = pack hash payload := by
  rw [unpack_eq_ok_iff_checks]
  constructor
  · rintro ⟨hsize, hmagic, hversion, hlength, hchecksum, rfl⟩
    have hdeclared := wordAt_lt ((bytes.drop 12).take 8)
    have hlengthWord := wordBytes_wordAt ((bytes.drop 12).take 8)
    have hversionWord := wordBytes_wordAt ((bytes.drop 8).take 4)
    rw [hversion] at hversionWord
    generalize wordAt ((bytes.drop 12).take 8) = declared at *
    simp only [headerLength, checksumLength] at *
    have h4 : ((bytes.drop 8).take 4).length = 4 := by
      rw [List.length_take, List.length_drop]
      omega
    have h8 : ((bytes.drop 12).take 8).length = 8 := by
      rw [List.length_take, List.length_drop]
      omega
    have hpayload : ((bytes.drop 20).take declared).length = declared := by
      rw [List.length_take, List.length_drop]
      omega
    rw [h4] at hversionWord
    rw [h8] at hdeclared hlengthWord
    refine ⟨by rw [hpayload]; exact hdeclared, ?_⟩
    rw [pack, hpayload, ← hmagic, hversionWord, hlengthWord, hchecksum]
    simp only [List.append_assoc, List.take_append_drop]
    exact (fields_append bytes).symm
  · rintro ⟨hlength, rfl⟩
    obtain ⟨hmagic, hversion, hword, hrest⟩ := fields_pack hash payload
    have hdeclared := wordAt_wordBytes 8 payload.length hlength
    have hversion' := wordAt_wordBytes 4 version (by decide)
    have hpack := length_pack hhash payload
    rw [hmagic, hversion, hword, hdeclared, show headerLength = 20 from rfl, hrest,
      List.take_left' rfl, List.drop_left' rfl]
    refine ⟨?_, rfl, hversion', ?_, rfl, rfl⟩
    · simp only [hpack, headerLength]
      omega
    · simp only [hpack, headerLength]
      omega

/-! ## Containers and their neighbours -/

theorem header_injective {m n : Nat} (hm : m < Count.bound) (hn : n < Count.bound)
    (h : header m = header n) : m = n := by
  have hword : Codec.wordBytes 8 m = Codec.wordBytes 8 n := List.append_cancel_left h
  calc m = wordAt (Codec.wordBytes 8 m) := (wordAt_wordBytes 8 m hm).symm
    _ = n := by rw [hword, wordAt_wordBytes 8 n hn]

theorem pack_injective (hhash : ∀ p, (hash p).length = checksumLength)
    {payload payload' : List UInt8} (h : pack hash payload = pack hash payload') :
    payload = payload' := by
  have hlengths := congrArg List.length h
  rw [length_pack hhash, length_pack hhash] at hlengths
  have hsize : payload.length = payload'.length := by omega
  rw [pack_eq, pack_eq, hsize] at h
  exact List.append_inj_left (List.append_cancel_left h) hsize

/-- No container is the beginning of another one. -/
theorem eq_of_pack_prefix (hhash : ∀ p, (hash p).length = checksumLength)
    {payload payload' : List UInt8} (hlength : payload.length < Count.bound)
    (hlength' : payload'.length < Count.bound)
    (h : pack hash payload <+: pack hash payload') :
    pack hash payload = pack hash payload' := by
  obtain ⟨rest, hrest⟩ := h
  have hheader : header payload.length = header payload'.length := by
    rw [pack_eq, pack_eq, List.append_assoc] at hrest
    exact List.append_inj_left hrest (by rw [length_header, length_header])
  have hsize := header_injective hlength hlength' hheader
  have htotal := congrArg List.length hrest
  rw [List.length_append, length_pack hhash, length_pack hhash] at htotal
  have hnil : rest = [] := List.length_eq_zero_iff.1 (by omega)
  rw [← hrest, hnil, List.append_nil]

/-- A container with one byte changed before or after its payload is no
container. -/
theorem pack_set_ne_pack (hhash : ∀ p, (hash p).length = checksumLength)
    {payload payload' : List UInt8} {i : Nat} {byte : UInt8}
    (hi : i < (pack hash payload).length)
    (houtside : i < headerLength ∨ headerLength + payload.length ≤ i)
    (hbyte : (pack hash payload)[i] ≠ byte) :
    (pack hash payload).set i byte ≠ pack hash payload' := by
  intro heq
  have hsize : payload'.length = payload.length := by
    have hlengths := congrArg List.length heq
    rw [List.length_set, length_pack hhash, length_pack hhash] at hlengths
    omega
  have hkept : (pack hash payload')[i]? ≠ (pack hash payload)[i]? := by
    rw [← heq, List.getElem?_set_self hi, List.getElem?_eq_getElem hi]
    intro hsome
    exact hbyte (Option.some.inj hsome).symm
  rcases houtside with hheader | hchecksum
  · apply hkept
    rw [pack_eq, pack_eq, hsize,
      List.getElem?_append_left (by rw [length_header]; exact hheader),
      List.getElem?_append_left (by rw [length_header]; exact hheader)]
  · apply hkept
    have hpayload : payload' = payload := by
      calc payload' = ((pack hash payload').drop 20).take payload.length := by
            rw [(fields_pack hash payload').2.2.2, List.take_left' hsize]
        _ = ((pack hash payload).drop 20).take payload.length := by
            rw [← heq, List.drop_set, if_neg (by simp only [headerLength] at hchecksum; omega),
              List.take_set_of_le (by simp only [headerLength] at hchecksum; omega)]
        _ = payload := by rw [(fields_pack hash payload).2.2.2, List.take_left' rfl]
    rw [hpayload]

end Container

namespace Artifact

/-! ## Artifacts in containers -/

/-- A payload holds the artifact whose stored form it begins with, if that is
in order. -/
theorem ofPayload_eq_ok_iff {payload : List UInt8} {a : Artifact} :
    ofPayload payload = .ok a ↔
      a.Fits ∧ a.check = .ok () ∧ Codec.artifact.encode a <+: payload := by
  constructor
  · intro h
    simp only [ofPayload] at h
    cases hdecode : Codec.artifact.decode payload with
    | none =>
        rw [hdecode] at h
        cases h
    | some r =>
        obtain ⟨b, rest⟩ := r
        rw [hdecode] at h
        obtain ⟨u, hcheck, rfl⟩ := Except.map_eq_ok_iff.1 h
        obtain ⟨hbytes, hfits⟩ := Codec.artifact_exact.eq_encode _ _ _ hdecode
        exact ⟨hfits, Except.mapError_eq_ok_iff.1 hcheck, rest, hbytes.symm⟩
  · rintro ⟨hfits, hcheck, rest, rfl⟩
    have hdecode := Codec.artifact_exact.decode_encode a rest hfits
    rw [ofPayload, hdecode]
    exact Except.map_eq_ok_iff.2 ⟨(), Except.mapError_eq_ok_iff.2 hcheck, rfl⟩

/-- Accepted are the containers of payloads that begin with the stored form of
an artifact in order. -/
theorem ofBytesWith_eq_ok_iff {hash : List UInt8 → List UInt8}
    (hhash : ∀ p, (hash p).length = Container.checksumLength) {bytes : List UInt8}
    {a : Artifact} :
    ofBytesWith hash bytes = .ok a ↔
      ∃ payload, payload.length < Count.bound ∧ bytes = Container.pack hash payload ∧
        a.Fits ∧ a.check = .ok () ∧ Codec.artifact.encode a <+: payload := by
  constructor
  · intro h
    cases hunpack : Container.unpack hash bytes with
    | error fault => simp [ofBytesWith, hunpack, bind, Except.bind] at h
    | ok payload =>
        have hpayload : ofPayload payload = .ok a := by
          simpa [ofBytesWith, hunpack, bind, Except.bind] using h
        obtain ⟨hlength, hbytes⟩ := (Container.unpack_eq_ok_iff hhash).1 hunpack
        exact ⟨payload, hlength, hbytes, ofPayload_eq_ok_iff.1 hpayload⟩
  · rintro ⟨payload, hlength, hbytes, hpayload⟩
    have hunpack := (Container.unpack_eq_ok_iff hhash).2 ⟨hlength, hbytes⟩
    simp [ofBytesWith, hunpack, bind, Except.bind, ofPayload_eq_ok_iff.2 hpayload]

/-- The bytes are the container of a payload that begins with the stored form of
an artifact and goes on with some trailing bytes. -/
def IsContainer (hash : List UInt8 → List UInt8) (bytes : List UInt8) (a : Artifact)
    (trailing : List UInt8) : Prop :=
  (Codec.artifact.encode a ++ trailing).length < Count.bound ∧
    bytes = Container.magic ++ Codec.wordBytes 4 1 ++
      Codec.wordBytes 8 (Codec.artifact.encode a ++ trailing).length ++
      (Codec.artifact.encode a ++ trailing) ++ hash (Codec.artifact.encode a ++ trailing)

section Canonical

variable {hash : List UInt8 → List UInt8}

theorem ofBytesWith_eq_ok_iff_isContainer
    (hhash : ∀ p, (hash p).length = Container.checksumLength) {bytes : List UInt8}
    {a : Artifact} :
    ofBytesWith hash bytes = .ok a ↔
      a.Fits ∧ a.check = .ok () ∧ ∃ trailing, IsContainer hash bytes a trailing := by
  rw [ofBytesWith_eq_ok_iff hhash]
  constructor
  · rintro ⟨_, hlength, hbytes, hfits, hcheck, trailing, rfl⟩
    exact ⟨hfits, hcheck, trailing, hlength, hbytes⟩
  · rintro ⟨hfits, hcheck, trailing, hlength, hbytes⟩
    exact ⟨_, hlength, hbytes, hfits, hcheck, trailing, rfl⟩

/-- What was read is written back to the same bytes unless something followed
it. -/
theorem toBytesWith_eq_iff_of_isContainer
    (hhash : ∀ p, (hash p).length = Container.checksumLength) {bytes trailing : List UInt8}
    {a : Artifact} (h : IsContainer hash bytes a trailing) :
    toBytesWith hash a = bytes ↔ trailing = [] := by
  obtain ⟨-, hbytes⟩ := h
  constructor
  · intro heq
    have hlengths : (Container.pack hash (Codec.artifact.encode a)).length =
        (Container.pack hash (Codec.artifact.encode a ++ trailing)).length :=
      congrArg List.length (heq.trans hbytes)
    rw [Container.length_pack hhash, Container.length_pack hhash, List.length_append] at hlengths
    exact List.length_eq_zero_iff.1 (by omega)
  · rintro rfl
    rw [hbytes, List.append_nil]
    rfl

/-- No accepted bytes are the beginning of others. -/
theorem eq_of_ofBytesWith_prefix
    (hhash : ∀ p, (hash p).length = Container.checksumLength) {bytes bytes' : List UInt8}
    {a a' : Artifact} (h : ofBytesWith hash bytes = .ok a)
    (h' : ofBytesWith hash bytes' = .ok a') (hbegins : bytes <+: bytes') :
    bytes = bytes' := by
  obtain ⟨payload, hlength, rfl, -⟩ := (ofBytesWith_eq_ok_iff hhash).1 h
  obtain ⟨payload', hlength', rfl, -⟩ := (ofBytesWith_eq_ok_iff hhash).1 h'
  exact Container.eq_of_pack_prefix hhash hlength hlength' hbegins

/-- A changed byte before or after the payload is noticed. -/
theorem ofBytesWith_set_eq_error
    (hhash : ∀ p, (hash p).length = Container.checksumLength) {bytes : List UInt8}
    {a : Artifact} {i : Nat} {byte : UInt8} (h : ofBytesWith hash bytes = .ok a)
    (hi : i < bytes.length)
    (houtside : i < Container.headerLength ∨ bytes.length ≤ i + Container.checksumLength)
    (hbyte : bytes[i] ≠ byte) :
    ∃ fault, ofBytesWith hash (bytes.set i byte) = .error fault := by
  obtain ⟨payload, -, rfl, -⟩ := (ofBytesWith_eq_ok_iff hhash).1 h
  have hsize := Container.length_pack hhash payload
  cases hread : ofBytesWith hash ((Container.pack hash payload).set i byte) with
  | error fault => exact ⟨fault, rfl⟩
  | ok a' =>
      obtain ⟨payload', -, heq, -⟩ := (ofBytesWith_eq_ok_iff hhash).1 hread
      have hplace : i < Container.headerLength ∨
          Container.headerLength + payload.length ≤ i := by
        rcases houtside with hbefore | hafter
        · exact .inl hbefore
        · exact .inr (by omega)
      exact absurd heq (Container.pack_set_ne_pack hhash hi hplace hbyte)

end Canonical

/-- **Exactly the format is read.**  Bytes are accepted if and only if they are
a container whose payload begins with the stored form of an artifact in order;
all other bytes are a format mismatch.  Hence what was read is written back to
the same bytes exactly if nothing followed it in the payload, no accepted bytes
are a proper beginning of others, and a changed byte outside the payload is
always noticed. -/
theorem ofBytesWith_canonical (hash : List UInt8 → List UInt8)
    (hhash : ∀ p, (hash p).length = Container.checksumLength) :
    (∀ bytes a, ofBytesWith hash bytes = .ok a ↔
      a.Fits ∧ a.check = .ok () ∧ ∃ trailing, IsContainer hash bytes a trailing) ∧
    (∀ bytes, (∀ a trailing, a.Fits → a.check = .ok () →
        ¬ IsContainer hash bytes a trailing) →
      ∃ fault, (ofBytesWith hash bytes).mapError Error.formatMismatch =
        .error (.formatMismatch fault)) ∧
    (∀ bytes a trailing, ofBytesWith hash bytes = .ok a →
      IsContainer hash bytes a trailing → (toBytesWith hash a = bytes ↔ trailing = [])) ∧
    (∀ bytes bytes' a a', ofBytesWith hash bytes = .ok a →
      ofBytesWith hash bytes' = .ok a' → bytes <+: bytes' → bytes = bytes') ∧
    (∀ bytes a i byte, ∀ hi : i < bytes.length, ofBytesWith hash bytes = .ok a →
      (i < Container.headerLength ∨ bytes.length ≤ i + Container.checksumLength) →
      bytes[i] ≠ byte → ∃ fault, ofBytesWith hash (bytes.set i byte) = .error fault) := by
  refine ⟨fun bytes a => ofBytesWith_eq_ok_iff_isContainer hhash, ?_, ?_, ?_, ?_⟩
  · intro bytes hnone
    cases hread : ofBytesWith hash bytes with
    | error fault => exact ⟨fault, rfl⟩
    | ok a =>
        obtain ⟨hfits, hcheck, trailing, hcontainer⟩ :=
          (ofBytesWith_eq_ok_iff_isContainer hhash).1 hread
        exact absurd hcontainer (hnone a trailing hfits hcheck)
  · intro bytes a trailing _ hcontainer
    exact toBytesWith_eq_iff_of_isContainer hhash hcontainer
  · intro bytes bytes' a a' h h' hbegins
    exact eq_of_ofBytesWith_prefix hhash h h' hbegins
  · intro bytes a i byte hi h houtside hbyte
    exact ofBytesWith_set_eq_error hhash h hi houtside hbyte

/-- Two binary vectors of sixteen dimensions under the same id. -/
def twinVectors : Artifact := .binary (.mapped ⟨.flat ⟨⟨⟩, 16, 2, #[1, 2, 3, 4]⟩, #[5, 5]⟩)

/-- Under the hash in use, a byte after the stored form is ignored when read
and is not written back. -/
theorem ofBytes_trailing_byte :
    (∀ p, (Blake3.hash p).length = Container.checksumLength) ∧
      ofBytes (Container.pack Blake3.hash (Codec.artifact.encode twinVectors ++ [7])) =
        .ok twinVectors ∧
      toBytes twinVectors ≠
        Container.pack Blake3.hash (Codec.artifact.encode twinVectors ++ [7]) := by
  have hcanonical := ofBytesWith_canonical Blake3.hash Blake3.length_hash
  have hcontainer : IsContainer Blake3.hash
      (Container.pack Blake3.hash (Codec.artifact.encode twinVectors ++ [7])) twinVectors [7] :=
    ⟨by decide, rfl⟩
  have hread := (hcanonical.1 _ twinVectors).2
    ⟨⟨⟨by decide, by decide, by decide⟩, by decide⟩, rfl, [7], hcontainer⟩
  refine ⟨Blake3.length_hash, hread, ?_⟩
  intro hwritten
  have hnil := (hcanonical.2.2.1 _ _ _ hread hcontainer).1 hwritten
  exact absurd hnil (by decide)

end Artifact

end Proximity

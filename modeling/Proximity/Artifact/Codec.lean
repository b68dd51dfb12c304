/-!
# Codecs

A codec writes values as bytes and reads them back from the front of a byte
list, returning what follows.  Words are written with the low byte first and
in a fixed width, lists with their length in front, and alternatives with a
tag; nothing else is written.  Codecs are put together from smaller ones, and
a law that holds of the parts carries over to the whole.

## Main definitions

* `Codec` — a writer and a reader.
* `Codec.word` — natural numbers in a fixed width.
* `Codec.pair`, `Codec.via`, `Codec.list`, `Codec.option` — combinations.
* `Codec.Exact` — reading accepts what writing produces and nothing else.
-/

namespace Proximity

/-- A writer and a reader of values. -/
structure Codec (A : Type) where
  encode : A → List UInt8
  /-- A value and the bytes that follow it. -/
  decode : List UInt8 → Option (A × List UInt8)

namespace Codec

variable {A B : Type}

/-- Reading gives back what was written, for the values in `Fits`, and
whatever can be read was written from such a value. -/
structure Exact (c : Codec A) (Fits : A → Prop) : Prop where
  decode_encode : ∀ a rest, Fits a → c.decode (c.encode a ++ rest) = some (a, rest)
  eq_encode : ∀ bytes a rest, c.decode bytes = some (a, rest) →
    bytes = c.encode a ++ rest ∧ Fits a

/-! ## Words -/

/-- The low `width` bytes of a number, the lowest first. -/
def wordBytes : Nat → Nat → List UInt8
  | 0, _ => []
  | width + 1, n => UInt8.ofNat n :: wordBytes width (n / 256)

/-- Reads `width` bytes, the lowest first. -/
def readWord : Nat → List UInt8 → Option (Nat × List UInt8)
  | 0, bytes => some (0, bytes)
  | _ + 1, [] => none
  | width + 1, byte :: bytes =>
    match readWord width bytes with
    | none => none
    | some (high, rest) => some (byte.toNat + 256 * high, rest)

/-- Numbers below `256 ^ width`. -/
def word (width : Nat) : Codec Nat := ⟨wordBytes width, readWord width⟩

theorem readWord_wordBytes (width n : Nat) (rest : List UInt8) (h : n < Nat.pow 256 width) :
    readWord width (wordBytes width n ++ rest) = some (n, rest) := by
  induction width generalizing n with
  | zero =>
    have : n = 0 := by simpa using h
    simp [readWord, wordBytes, this]
  | succ width ih =>
    have hn : n / 256 < Nat.pow 256 width := by
      rw [Nat.pow_eq] at h ⊢
      rw [Nat.pow_succ] at h
      exact Nat.div_lt_of_lt_mul (by omega)
    simp only [wordBytes, List.cons_append, readWord, ih _ hn, UInt8.toNat_ofNat']
    simp only [Option.some.injEq, Prod.mk.injEq, and_true]
    omega

theorem eq_wordBytes_of_readWord {width : Nat} {bytes rest : List UInt8} {n : Nat}
    (h : readWord width bytes = some (n, rest)) :
    bytes = wordBytes width n ++ rest ∧ n < Nat.pow 256 width := by
  induction width generalizing bytes n with
  | zero =>
    simp only [readWord, Option.some.injEq, Prod.mk.injEq] at h
    obtain ⟨rfl, rfl⟩ := h
    simp [wordBytes]
  | succ width ih =>
    cases bytes with
    | nil => simp [readWord] at h
    | cons byte bytes =>
      simp only [readWord] at h
      cases hr : readWord width bytes with
      | none => rw [hr] at h; exact absurd h (by simp)
      | some r =>
        obtain ⟨high, rest'⟩ := r
        rw [hr] at h
        simp only [Option.some.injEq, Prod.mk.injEq] at h
        obtain ⟨rfl, rfl⟩ := h
        obtain ⟨hbytes, hhigh⟩ := ih hr
        have hb := byte.toNat_lt
        have hdiv : (byte.toNat + 256 * high) / 256 = high := by omega
        refine ⟨?_, ?_⟩
        · simp only [wordBytes, hdiv, List.cons_append, ← hbytes, List.cons.injEq, and_true]
          apply UInt8.toNat_inj.1
          simp only [UInt8.toNat_ofNat']
          omega
        · rw [Nat.pow_eq] at hhigh ⊢
          rw [Nat.pow_succ]
          omega

theorem word_exact (width : Nat) : (word width).Exact (· < Nat.pow 256 width) :=
  ⟨fun n rest h => readWord_wordBytes width n rest h, fun _ _ _ h => eq_wordBytes_of_readWord h⟩

/-! ## Combinations -/

/-- One value after the other. -/
def pair (a : Codec A) (b : Codec B) : Codec (A × B) where
  encode v := a.encode v.1 ++ b.encode v.2
  decode bytes :=
    match a.decode bytes with
    | none => none
    | some (x, bytes) =>
      match b.decode bytes with
      | none => none
      | some (y, rest) => some ((x, y), rest)

/-- A value written as another one. -/
def via (c : Codec B) (image : A → B) (of : B → A) : Codec A where
  encode a := c.encode (image a)
  decode bytes :=
    match c.decode bytes with
    | none => none
    | some (b, rest) => some (of b, rest)

/-- A value written as another one, where not all of those stand for one. -/
def via? (c : Codec B) (image : A → B) (of? : B → Option A) : Codec A where
  encode a := c.encode (image a)
  decode bytes :=
    match c.decode bytes with
    | none => none
    | some (b, rest) =>
      match of? b with
      | none => none
      | some a => some (a, rest)

/-- A value that is written as nothing. -/
def constant (a : A) : Codec A := ⟨fun _ => [], fun bytes => some (a, bytes)⟩

/-- Reads `count` values after those in `done`, the last of which is first. -/
def readMany (c : Codec A) : Nat → List A → List UInt8 → Option (List A × List UInt8)
  | 0, done, bytes => some (done.reverse, bytes)
  | count + 1, done, bytes =>
    match c.decode bytes with
    | none => none
    | some (a, rest) => readMany c count (a :: done) rest

/-- A 64-bit length, then the values. -/
def list (c : Codec A) : Codec (List A) where
  encode as := wordBytes 8 as.length ++ as.flatMap c.encode
  decode bytes :=
    match readWord 8 bytes with
    | none => none
    | some (count, bytes) => readMany c count [] bytes

/-- An array, as a list. -/
def array (c : Codec A) : Codec (Array A) := c.list.via Array.toList List.toArray

/-- A byte that says whether a value follows. -/
def option (c : Codec A) : Codec (Option A) where
  encode
    | none => [0]
    | some a => 1 :: c.encode a
  decode
    | [] => none
    | tag :: bytes =>
      if tag = 0 then some (none, bytes)
      else if tag = 1 then
        match c.decode bytes with
        | none => none
        | some (a, rest) => some (some a, rest)
      else none

/-! ## Laws of combinations -/

theorem Exact.pair {a : Codec A} {b : Codec B} {P : A → Prop} {Q : B → Prop} (ha : a.Exact P)
    (hb : b.Exact Q) : (a.pair b).Exact fun v => P v.1 ∧ Q v.2 where
  decode_encode v rest h := by
    simp [Codec.pair, List.append_assoc, ha.decode_encode _ _ h.1, hb.decode_encode _ _ h.2]
  eq_encode bytes v rest h := by
    simp only [Codec.pair] at h ⊢
    split at h
    · exact absurd h (by simp)
    · rename_i x mid hx
      split at h
      · exact absurd h (by simp)
      · rename_i y tail hy
        simp only [Option.some.injEq, Prod.mk.injEq] at h
        obtain ⟨rfl, rfl⟩ := h
        obtain ⟨h1, p1⟩ := ha.eq_encode _ _ _ hx
        obtain ⟨h2, p2⟩ := hb.eq_encode _ _ _ hy
        exact ⟨by simp [h1, h2, List.append_assoc], p1, p2⟩

theorem Exact.via {c : Codec B} {P : B → Prop} {image : A → B} {of : B → A} (hc : c.Exact P)
    (himage : ∀ a, of (image a) = a) (hof : ∀ b, P b → image (of b) = b) :
    (c.via image of).Exact fun a => P (image a) where
  decode_encode a rest h := by simp [Codec.via, hc.decode_encode _ _ h, himage]
  eq_encode bytes a rest h := by
    simp only [Codec.via] at h ⊢
    split at h
    · exact absurd h (by simp)
    · rename_i b tail hb
      simp only [Option.some.injEq, Prod.mk.injEq] at h
      obtain ⟨rfl, rfl⟩ := h
      obtain ⟨h1, p1⟩ := hc.eq_encode _ _ _ hb
      simp only [hof _ p1]
      exact ⟨h1, p1⟩

theorem readMany_flatMap {c : Codec A} {P : A → Prop} (hc : c.Exact P) (as done : List A)
    (rest : List UInt8) (h : ∀ a ∈ as, P a) :
    readMany c as.length done (as.flatMap c.encode ++ rest) = some (done.reverse ++ as, rest) := by
  induction as generalizing done with
  | nil => simp [readMany]
  | cons a as ih =>
    have := hc.decode_encode a (as.flatMap c.encode ++ rest) (h a (by simp))
    simp only [List.length_cons, List.flatMap_cons, List.append_assoc, readMany, this]
    rw [ih (a :: done) fun x hx => h x (by simp [hx])]
    simp

theorem eq_flatMap_of_readMany {c : Codec A} {P : A → Prop} (hc : c.Exact P) {count : Nat}
    {done as : List A} {bytes rest : List UInt8}
    (h : readMany c count done bytes = some (as, rest)) :
    ∃ new, as = done.reverse ++ new ∧ new.length = count ∧
      bytes = new.flatMap c.encode ++ rest ∧ ∀ a ∈ new, P a := by
  induction count generalizing done bytes with
  | zero =>
    simp only [readMany, Option.some.injEq, Prod.mk.injEq] at h
    obtain ⟨rfl, rfl⟩ := h
    exact ⟨[], by simp⟩
  | succ count ih =>
    simp only [readMany] at h
    split at h
    · exact absurd h (by simp)
    · rename_i a mid ha
      obtain ⟨h1, p1⟩ := hc.eq_encode _ _ _ ha
      obtain ⟨new, rfl, hlen, hbytes, hall⟩ := ih h
      refine ⟨a :: new, by simp, by simp [hlen], by simp [h1, hbytes], ?_⟩
      intro x hx
      rcases List.mem_cons.1 hx with rfl | hx
      · exact p1
      · exact hall x hx

theorem Exact.list {c : Codec A} {P : A → Prop} (hc : c.Exact P) :
    c.list.Exact fun as => as.length < Nat.pow 256 8 ∧ ∀ a ∈ as, P a where
  decode_encode as rest h := by
    have hw := readWord_wordBytes 8 as.length (as.flatMap c.encode ++ rest) h.1
    simp only [Codec.list, List.append_assoc, hw]
    simpa using readMany_flatMap hc as [] rest h.2
  eq_encode bytes as rest h := by
    simp only [Codec.list] at h ⊢
    split at h
    · exact absurd h (by simp)
    · rename_i count mid hw
      obtain ⟨hbytes, hcount⟩ := eq_wordBytes_of_readWord hw
      obtain ⟨new, hnew, hlen, hmid, hall⟩ := eq_flatMap_of_readMany hc h
      simp only [List.reverse_nil, List.nil_append] at hnew
      subst hnew
      subst hlen
      exact ⟨by rw [hbytes, hmid, List.append_assoc], hcount, hall⟩

theorem Exact.option {c : Codec A} {P : A → Prop} (hc : c.Exact P) :
    c.option.Exact fun o => ∀ a, o = some a → P a where
  decode_encode o rest h := by
    cases o with
    | none => simp [Codec.option]
    | some a => simp [Codec.option, hc.decode_encode _ _ (h a rfl)]
  eq_encode bytes o rest h := by
    cases bytes with
    | nil => simp [Codec.option] at h
    | cons tag bytes =>
      simp only [Codec.option] at h ⊢
      split at h
      · rename_i ht
        simp only [Option.some.injEq, Prod.mk.injEq] at h
        obtain ⟨rfl, rfl⟩ := h
        exact ⟨by simp [ht], by simp⟩
      · split at h
        · rename_i ht
          split at h
          · exact absurd h (by simp)
          · rename_i a tail ha
            simp only [Option.some.injEq, Prod.mk.injEq] at h
            obtain ⟨rfl, rfl⟩ := h
            obtain ⟨h1, p1⟩ := hc.eq_encode _ _ _ ha
            exact ⟨by simp [ht, h1], by simpa using p1⟩
        · exact absurd h (by simp)

end Codec

end Proximity

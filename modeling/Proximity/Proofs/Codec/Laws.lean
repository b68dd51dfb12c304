import Proximity.Artifact.Format
import Proximity.Number.Count

/-!
# Exactness of the fields

`Codec.Exact` says that reading accepts what writing produces and nothing
else.  The law was carried through pairs, images, lists and options beside
their definitions; this module adds the combinations that only the stored form
needs and then goes through the fields one by one.

Numbers of the program are unbounded here and words are not, so exactness of a
field names the values that have a word: counts below `Count.bound`, nodes of a
graph below `Links.nodeBound`.  Every bit pattern has one.

## Main results

* `Exact.congr` — the accepted values may be described in another way.
* `Exact.via?`, `Exact.constant`, `Exact.array` — further combinations.
* `count_exact`, `node_exact`, `single_exact`, … — the fields.
-/

namespace Proximity

/-- Nodes of a stored graph are below this bound. -/
def Links.nodeBound : Nat := 0x100000000

namespace Codec

variable {A B : Type}

/-! ## Combinations -/

/-- The values that a codec fits may be described in another way. -/
theorem Exact.congr {c : Codec A} {P Q : A → Prop} (hc : c.Exact P)
    (h : ∀ a, P a ↔ Q a) : c.Exact Q where
  decode_encode a rest ha := hc.decode_encode a rest ((h a).2 ha)
  eq_encode bytes a rest hdec := by
    obtain ⟨hbytes, ha⟩ := hc.eq_encode bytes a rest hdec
    exact ⟨hbytes, (h a).1 ha⟩

/-- Nothing is written for the only value of a type. -/
theorem Exact.constant [Subsingleton A] (a : A) :
    (Codec.constant a).Exact fun _ => True where
  decode_encode b rest _ := by
    rw [Subsingleton.elim b a]
    rfl
  eq_encode bytes b rest h := by
    simp only [Codec.constant, Option.some.injEq, Prod.mk.injEq] at h ⊢
    exact ⟨by simpa using h.2, trivial⟩

/-- A value written as another one, where the reader refuses exactly those
that stand for nothing. -/
theorem Exact.via? {c : Codec B} {P : B → Prop} {image : A → B}
    {of? : B → Option A} (hc : c.Exact P) (hfits : ∀ a, P (image a))
    (himage : ∀ a, of? (image a) = some a)
    (hof : ∀ b a, of? b = some a → image a = b) :
    (c.via? image of?).Exact fun _ => True where
  decode_encode a rest _ := by
    simp [Codec.via?, hc.decode_encode _ _ (hfits a), himage]
  eq_encode bytes a rest h := by
    simp only [Codec.via?] at h ⊢
    split at h
    · exact absurd h (by simp)
    · rename_i b tail hb
      split at h
      · exact absurd h (by simp)
      · rename_i a' ha
        simp only [Option.some.injEq, Prod.mk.injEq] at h
        obtain ⟨rfl, rfl⟩ := h
        rw [hof b a' ha]
        exact ⟨(hc.eq_encode _ _ _ hb).1, trivial⟩

/-- An array is written as its list. -/
theorem Exact.array {c : Codec A} {P : A → Prop} (hc : c.Exact P) :
    c.array.Exact fun as => as.size < Nat.pow 256 8 ∧ ∀ a ∈ as, P a := by
  have hvia : c.array.Exact fun as => as.toList.length < Nat.pow 256 8 ∧ ∀ a ∈ as.toList, P a :=
    hc.list.via (fun as => by simp) fun as _ => by simp
  exact hvia.congr fun as => by simp

/-! ## Numbers -/

theorem count_exact : count.Exact (· < Count.bound) := word_exact 8

theorem node_exact : node.Exact (· < Links.nodeBound) := word_exact 4

/-- A word of a machine type is written as its number, and every word of that
width is one of the type's. -/
private theorem exact_of_bits {width : Nat} {toNat : A → Nat} {ofNat : Nat → A}
    (hlt : ∀ a, toNat a < Nat.pow 256 width) (hof : ∀ a, ofNat (toNat a) = a)
    (hto : ∀ n, n < Nat.pow 256 width → toNat (ofNat n) = n) :
    ((word width).via toNat ofNat).Exact fun _ => True :=
  ((word_exact width).via hof hto).congr fun a => ⟨fun _ => trivial, fun _ => hlt a⟩

private theorem uint32_toNat_ofNat (n : Nat) (h : n < Nat.pow 256 4) :
    (UInt32.ofNat n).toNat = n := by
  rw [UInt32.toNat_ofNat']
  exact Nat.mod_eq_of_lt h

private theorem uint64_toNat_ofNat (n : Nat) (h : n < Nat.pow 256 8) :
    (UInt64.ofNat n).toNat = n := by
  rw [UInt64.toNat_ofNat']
  exact Nat.mod_eq_of_lt h

theorem single_exact : single.Exact fun _ => True :=
  exact_of_bits (fun x => x.bits.toNat_lt) (fun x => by simp) uint32_toNat_ofNat

theorem double_exact : double.Exact fun _ => True :=
  exact_of_bits (fun x => x.bits.toNat_lt) (fun x => by simp) uint64_toNat_ofNat

theorem seed_exact : seed.Exact fun _ => True :=
  exact_of_bits (fun x => x.toNat_lt) (fun x => by simp) uint64_toNat_ofNat

theorem externalId_exact : externalId.Exact fun _ => True :=
  exact_of_bits (fun i => i.toUInt64.toNat_lt) (fun i => by simp) fun n h => by
    rw [show (UInt64.ofNat n).toInt64.toUInt64 = UInt64.ofNat n from rfl]
    exact uint64_toNat_ofNat n h

theorem byte_exact : byte.Exact fun _ => True :=
  exact_of_bits (fun b => b.toNat_lt) (fun b => by simp) fun n h => by
    rw [UInt8.toNat_ofNat']
    exact Nat.mod_eq_of_lt h

/-! ## Spaces -/

theorem metric_exact : metric.Exact fun _ => True := by
  refine (word_exact 4).via? (fun m => ?_) (fun m => ?_) fun n m h => ?_
  · cases m <;> decide
  · cases m <;> rfl
  · match n, h with
    | 0, h => cases h; rfl
    | 1, h => cases h; rfl

theorem floatSpace_exact : floatSpace.Exact fun _ => True :=
  metric_exact.via (fun _ => rfl) fun _ _ => rfl

theorem binarySpace_exact : binarySpace.Exact fun _ => True :=
  haveI : Subsingleton BinarySpace := ⟨fun _ _ => rfl⟩
  Exact.constant _

end Codec

end Proximity

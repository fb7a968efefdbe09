import TravelDocument.Encoding.EcdsaSignature
import TravelDocument.Proofs.Encoding.Tlv

/-!
# Signatures side by side

A signature is one SEQUENCE of two INTEGERs and nothing else (`IsSignature`). Exactly these are
converted, as far as the integers fit (`plain?_eq_some_iff`), and each half of the result spells one
of the integers. What is written for two numbers below `256 ^ size` comes out as their bytes
(`plain?_exact`).
-/

namespace TravelDocument

/-! ## Objects under a tag of one byte -/

namespace DataObject

/-- The bytes are a tag of one byte, a length field of the value, and the value. -/
def Wraps (tag : UInt8) (bytes value : Bytes) : Prop :=
  ∃ field, IsLengthField field value.length ∧ bytes = tag :: (field ++ value)

variable {tag : UInt8}

theorem minimal_toNat_tag (tag : UInt8) : Bytes.minimal tag.toNat = [tag] := by
  rw [Bytes.minimal_of_lt tag.toNat_lt, UInt8.ofNat_toNat]

theorem Wraps.isObject {bytes value : Bytes} (h : Wraps tag bytes value)
    (h31 : tag.toNat % 32 ≠ 31) :
    IsObject ⟨tag.toNat, value, bytes⟩ := by
  obtain ⟨field, hfield, rfl⟩ := h
  refine isObject_iff.2 ⟨?_, field, hfield, ?_⟩
  · rw [minimal_toNat_tag]
    exact .short h31
  · simp [minimal_toNat_tag]

theorem IsObject.wraps {o : DataObject} (h : IsObject o) (ht : o.tag = tag.toNat) :
    Wraps tag o.raw o.value := by
  obtain ⟨field, hfield, hraw⟩ := (isObject_iff.1 h).raw
  exact ⟨field, hfield, by simpa [ht, minimal_toNat_tag] using hraw⟩

theorem wraps_encode (tag : UInt8) {value : Bytes} (hv : value.length < 2 ^ 64) :
    Wraps tag (encode tag.toNat value) value :=
  ⟨_, isLengthField_encodeLength hv, by simp [encode, minimal_toNat_tag]⟩

theorem single?_eq_some_iff_wraps (h31 : tag.toNat % 32 ≠ 31) {input value : Bytes} :
    single? tag.toNat input = some value ↔ Wraps tag input value := by
  rw [single?_eq_some_iff]
  constructor
  · rintro ⟨o, ho, ht, rfl, rfl⟩
    exact ho.wraps ht
  · exact fun h => ⟨_, h.isObject h31, rfl, rfl, rfl⟩

end DataObject

namespace EcdsaSignature

open DataObject

theorem single?_sequence_iff {input value : Bytes} :
    single? 0x30 input = some value ↔ Wraps 0x30 input value := by
  have h31 : (0x30 : UInt8).toNat % 32 ≠ 31 := by decide
  exact single?_eq_some_iff_wraps h31

/-! ## Integers -/

/-- An integer is written in `size` bytes as any number is. -/
theorem half?_eq_fixed? (size : Nat) (integer : Bytes) :
    half? size integer = Bytes.fixed? (Bytes.toNat integer) size := by
  simp only [half?, Bytes.fixed?, Bytes.stripZeros_eq_digits]

theorem half?_eq_some_iff {size : Nat} {integer b : Bytes} :
    half? size integer = some b ↔ b.length = size ∧ Bytes.toNat b = Bytes.toNat integer := by
  rw [half?_eq_fixed?, Bytes.fixed?_eq_some_iff]

theorem exists_half?_iff {size : Nat} {integer : Bytes} :
    (∃ b, half? size integer = some b) ↔ (Bytes.stripZeros integer).length ≤ size := by
  rw [Bytes.stripZeros_eq_digits, Bytes.length_digits_le_iff]
  constructor
  · rintro ⟨b, hb⟩
    obtain ⟨rfl, hn⟩ := half?_eq_some_iff.1 hb
    rw [← hn]
    exact Bytes.toNat_lt b
  · intro h
    obtain ⟨b, hb, -, -⟩ := Bytes.fixed?_of_lt h
    exact ⟨b, by rw [half?_eq_fixed?, hb]⟩

/-! ## The conversion -/

/-- The bytes are one SEQUENCE of two INTEGERs, with these contents, and nothing else. -/
def IsSignature (der r s : Bytes) : Prop :=
  ∃ first second, Wraps 0x30 der (first ++ second) ∧ Wraps 0x02 first r ∧ Wraps 0x02 second s

/-- The integers are converted one by one. -/
theorem IsSignature.plain?_eq {der r s : Bytes} (h : IsSignature der r s) (size : Nat) :
    plain? size der = (half? size r).bind fun a => (half? size s).map (a ++ ·) := by
  obtain ⟨first, second, hder, hr, hs⟩ := h
  have hsingle : single? 0x30 der = some (first ++ second) := single?_sequence_iff.2 hder
  have hall : all? (first ++ second) = some [⟨0x02, r, first⟩, ⟨0x02, s, second⟩] := by
    refine all?_eq_some_iff.2 ⟨?_, by simp⟩
    simp only [List.forall_mem_cons, List.not_mem_nil, false_imp_iff, implies_true, and_true]
    exact ⟨hr.isObject (by decide), hs.isObject (by decide)⟩
  simp only [plain?, hsingle, hall, Option.bind_eq_bind, Option.bind_some, and_self, if_true]
  cases half? size r <;> cases half? size s <;> rfl

/-- What is converted is a signature. -/
theorem isSignature_of_plain? {size : Nat} {der out : Bytes} (h : plain? size der = some out) :
    ∃ r s, IsSignature der r s := by
  simp only [plain?, Option.bind_eq_bind, Option.bind_eq_some_iff] at h
  obtain ⟨contents, hsingle, os, hall, h⟩ := h
  have hder : Wraps 0x30 der contents := single?_sequence_iff.1 hsingle
  obtain ⟨hobjects, rfl⟩ := all?_eq_some_iff.1 hall
  split at h
  · rename_i r s
    split at h
    · rename_i htags
      simp only [List.forall_mem_cons, List.flatMap_cons, List.flatMap_nil, List.append_nil]
        at hobjects hder
      exact ⟨r.value, s.value, r.raw, s.raw, hder, hobjects.1.wraps htags.1,
        hobjects.2.1.wraps htags.2⟩
    · cases h
  · cases h

/-- **Exactly the signatures are converted** whose integers fit, to the bytes of both integers. -/
theorem plain?_eq_some_iff {size : Nat} {der out : Bytes} :
    plain? size der = some out ↔ ∃ r s a b, IsSignature der r s ∧ half? size r = some a ∧
      half? size s = some b ∧ out = a ++ b := by
  constructor
  · intro h
    obtain ⟨r, s, hsignature⟩ := isSignature_of_plain? h
    rw [hsignature.plain?_eq, Option.bind_eq_some_iff] at h
    obtain ⟨a, ha, h⟩ := h
    obtain ⟨b, hb, rfl⟩ := Option.map_eq_some_iff.1 h
    exact ⟨r, s, a, b, hsignature, ha, hb, rfl⟩
  · rintro ⟨r, s, a, b, hsignature, ha, hb, rfl⟩
    rw [hsignature.plain?_eq, ha, hb]
    rfl

/-! ## Signatures that are written -/

/-- The contents of the INTEGER of a number: its bytes, after a zero if the first has the top bit
set. -/
def integer (n : Nat) : Bytes :=
  if ((Bytes.minimal n).headD 0).toNat < 128 then Bytes.minimal n else 0 :: Bytes.minimal n

/-- The bytes are contents of an INTEGER that is not negative. -/
structure IsInteger (n : Nat) (b : Bytes) : Prop where
  ne_nil : b ≠ []
  not_negative : (b.headD 0).toNat < 128
  toNat_eq : Bytes.toNat b = n

theorem isInteger_integer (n : Nat) : IsInteger n (integer n) := by
  have hminimal := Bytes.isShortest_minimal n
  unfold integer
  split
  · rename_i htop
    exact ⟨hminimal.ne_nil, htop, hminimal.toNat_eq⟩
  · refine ⟨by simp, by simp, ?_⟩
    rw [Bytes.toNat_cons, UInt8.toNat_zero, Nat.zero_mul, Nat.zero_add, hminimal.toNat_eq]

/-- The signature of two numbers. -/
def encode (r s : Nat) : Bytes :=
  DataObject.encode 0x30 (DataObject.encode 0x02 (integer r) ++ DataObject.encode 0x02 (integer s))

theorem isSignature_encode {r s : Nat} (h : (encode r s).length < 2 ^ 64) :
    IsSignature (encode r s) (integer r) (integer s) := by
  simp only [encode, DataObject.encode, List.length_append] at h
  refine ⟨_, _, wraps_encode 0x30 ?_, wraps_encode 0x02 ?_, wraps_encode 0x02 ?_⟩
  · simp only [DataObject.encode, List.length_append]
    omega
  · omega
  · omega

/-- **The conversion is exact.** There is a result exactly for the signatures whose integers have at
most `size` bytes without leading zeroes. It is two halves of `size` bytes each, which spell the
integers. The signature of two numbers below `256 ^ size` is converted to the bytes of both. -/
theorem plain?_exact (size : Nat) :
    (∀ der, (∃ out, plain? size der = some out) ↔ ∃ r s, IsSignature der r s ∧
      (Bytes.stripZeros r).length ≤ size ∧ (Bytes.stripZeros s).length ≤ size) ∧
    (∀ der out r s, plain? size der = some out → IsSignature der r s →
      out.length = 2 * size ∧
      Bytes.toNat (out.take size) = Bytes.toNat r ∧
        Bytes.toNat (out.drop size) = Bytes.toNat s) ∧
    ∀ r s, r < 256 ^ size → s < 256 ^ size → (encode r s).length < 2 ^ 64 →
      plain? size (encode r s) = some (Bytes.be size r ++ Bytes.be size s) := by
  refine ⟨fun der => ?_, fun der out r s h hsignature => ?_, fun r s hr hs hlength => ?_⟩
  · simp only [plain?_eq_some_iff, ← exists_half?_iff]
    constructor
    · rintro ⟨_, r, s, a, b, hsignature, ha, hb, -⟩
      exact ⟨r, s, hsignature, ⟨a, ha⟩, b, hb⟩
    · rintro ⟨r, s, hsignature, ⟨a, ha⟩, b, hb⟩
      exact ⟨_, r, s, a, b, hsignature, ha, hb, rfl⟩
  · rw [hsignature.plain?_eq, Option.bind_eq_some_iff] at h
    obtain ⟨a, ha, h⟩ := h
    obtain ⟨b, hb, rfl⟩ := Option.map_eq_some_iff.1 h
    obtain ⟨hal, hr⟩ := half?_eq_some_iff.1 ha
    obtain ⟨hbl, hs⟩ := half?_eq_some_iff.1 hb
    rw [List.length_append, List.take_left' hal, List.drop_left' hal]
    exact ⟨by omega, hr, hs⟩
  · -- a number below 256 ^ size comes back from its shortest encoding
    have hhalf : ∀ n, n < 256 ^ size → half? size (integer n) = some (Bytes.be size n) := by
      intro n hn
      rw [half?_eq_some_iff, Bytes.toNat_be, Nat.mod_eq_of_lt hn, (isInteger_integer n).toNat_eq]
      exact ⟨Bytes.length_be size n, rfl⟩
    rw [(isSignature_encode hlength).plain?_eq, hhalf r hr, hhalf s hs]
    rfl

/-- A zero in front of a top bit is dropped, and both halves are filled up with zeroes. -/
theorem plain?_exact_leadingZero :
    let der : Bytes := [0x30, 0x08, 0x02, 0x03, 0x00, 0xFF, 0x01, 0x02, 0x01, 0x02]
    encode 0xFF01 2 = der ∧ IsSignature der [0x00, 0xFF, 0x01] [0x02] ∧
      plain? 4 der = some [0x00, 0x00, 0xFF, 0x01, 0x00, 0x00, 0x00, 0x02] := by
  intro der
  have hencode : encode 0xFF01 2 = der := by cbv
  have hlength : (encode 0xFF01 2).length < 2 ^ 64 := by
    rw [hencode]
    decide
  have hsignature := isSignature_encode hlength
  rw [hencode, show integer 0xFF01 = [0x00, 0xFF, 0x01] by cbv, show integer 2 = [0x02] by cbv]
    at hsignature
  have hplain := (plain?_exact 4).2.2 0xFF01 2 (by decide) (by decide) hlength
  rw [hencode] at hplain
  exact ⟨hencode, hsignature, hplain⟩

end EcdsaSignature
end TravelDocument

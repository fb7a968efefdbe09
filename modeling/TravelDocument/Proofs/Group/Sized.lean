import TravelDocument.Group.Sized
import TravelDocument.Proofs.Bytes

/-!
# As many bits and bytes as it takes

`bitLength` bits and `byteLength` bytes hold a number, so every residue is written in as many bytes
as the modulus has (`fixed?_of_lt_modulus`). A number in words that hold it (`IsStored`) keeps its
value in every conversion that succeeds, and each succeeds exactly if the value fits
(`conversions_agree`).
-/

namespace TravelDocument

theorem lt_two_pow_bitLength (n : Nat) : n < 2 ^ bitLength n := by
  rw [bitLength]
  split
  · rename_i h
    rw [h]
    exact Nat.one_pos
  · exact Nat.lt_log2_self

theorem bitLength_le_iff {n bits : Nat} : bitLength n ≤ bits ↔ n < 2 ^ bits := by
  constructor
  · exact fun h => Nat.lt_of_lt_of_le (lt_two_pow_bitLength n) (Nat.pow_le_pow_right Nat.two_pos h)
  · intro h
    rw [bitLength]
    split
    · exact Nat.zero_le _
    · rename_i hn
      exact Nat.succ_le_of_lt ((Nat.log2_lt hn).2 h)

theorem lt_pow_byteLength (n : Nat) : n < 256 ^ byteLength n := by
  calc n < 2 ^ bitLength n := lt_two_pow_bitLength n
    _ ≤ 2 ^ (8 * byteLength n) := Nat.pow_le_pow_right Nat.two_pos (by rw [byteLength]; omega)
    _ = 256 ^ byteLength n := by rw [Nat.pow_mul]

theorem byteLength_pos {n : Nat} (h : 0 < n) : 0 < byteLength n := by
  rw [byteLength, bitLength, if_neg (by omega)]
  omega

/-- Every residue fits in the bytes of the modulus. -/
theorem fixed?_of_lt_modulus {n modulus : Nat} (h : n < modulus) :
    ∃ b, Bytes.fixed? n (byteLength modulus) = some b ∧ b.length = byteLength modulus ∧
      Bytes.toNat b = n :=
  Bytes.fixed?_of_lt (Nat.lt_trans h (lt_pow_byteLength modulus))

/-! ## Numbers in words -/

namespace SizedNat

/-- Stored in whole words, at least one, that hold the value. -/
structure IsStored (n : SizedNat) : Prop where
  words : ∃ k, 0 < k ∧ n.precision = 64 * k
  fits : bitLength n.value ≤ n.precision

theorem wordBits_words {k : Nat} (h : 0 < k) : wordBits (64 * k) = 64 * k := by
  rw [wordBits, Nat.max_eq_right (by omega)]
  omega

theorem le_wordBits (bits : Nat) : bits ≤ wordBits bits := by
  rw [wordBits]
  omega

/-- What fits in some bits is stored in the words that hold these bits. -/
theorem isStored_of_lt {n bits : Nat} (h : n < 2 ^ bits) : IsStored ⟨n, wordBits bits⟩ :=
  ⟨⟨max 1 ((bits + 63) / 64), by omega, rfl⟩, Nat.le_trans (bitLength_le_iff.2 h)
    (le_wordBits bits)⟩

theorem toNat_lt_two_pow (b : Bytes) : Bytes.toNat b < 2 ^ (8 * max 1 b.length) := by
  calc Bytes.toNat b < 256 ^ b.length := Bytes.toNat_lt b
    _ ≤ 256 ^ max 1 b.length := Nat.pow_le_pow_right (by decide) (Nat.le_max_right 1 b.length)
    _ = 2 ^ (8 * max 1 b.length) := by rw [Nat.pow_mul]

/-- What is read from a byte string is stored. -/
theorem isStored_ofBytes (b : Bytes) : (ofBytes b).IsStored :=
  isStored_of_lt (toNat_lt_two_pow b)

/-- The bits of its bytes are enough for a byte string. -/
theorem store?_ofBytes (b : Bytes) : store? (8 * max 1 b.length) b = some (ofBytes b) := by
  rw [store?, if_pos ⟨by omega, bitLength_le_iff.2 (toNat_lt_two_pow b)⟩]
  rfl

/-- A number is read exactly if its value fits, whatever zeroes are in front of it. -/
theorem read?_eq (bits : Nat) (b : Bytes) : read? bits b =
    if Bytes.toNat b < 2 ^ bits then some ⟨Bytes.toNat b, wordBits bits⟩ else none := by
  rw [read?, store?, Bytes.stripZeros_eq_digits, Bytes.toNat_digits]
  refine if_congr ⟨fun h => bitLength_le_iff.1 h.2, fun h => ⟨?_, bitLength_le_iff.2 h⟩⟩ rfl
    rfl
  apply Bytes.length_digits_le
  calc Bytes.toNat b < 2 ^ bits := h
    _ ≤ 2 ^ (8 * ((bits + 7) / 8)) := Nat.pow_le_pow_right Nat.two_pos (by omega)
    _ = 256 ^ ((bits + 7) / 8) := by rw [Nat.pow_mul]

/-- A number is read into whole words if they hold it. -/
theorem read?_words {k : Nat} (h : 0 < k) (b : Bytes) :
    read? (64 * k) b =
      if Bytes.toNat b < 2 ^ (64 * k) then some ⟨Bytes.toNat b, 64 * k⟩ else none := by
  rw [read?_eq, wordBits_words h]

/-- The words of a stored number hold all of it. -/
theorem IsStored.toNat_toBytes {n : SizedNat} (hn : n.IsStored) :
    Bytes.toNat n.toBytes = n.value := by
  obtain ⟨⟨k, -, hk⟩, hfits⟩ := hn
  have hlt : n.value < 256 ^ (n.precision / 8) := by
    calc n.value < 2 ^ n.precision := bitLength_le_iff.1 hfits
      _ = 256 ^ (n.precision / 8) := by
        rw [hk, show 64 * k / 8 = 8 * k by omega, show 64 * k = 8 * (8 * k) by omega, Nat.pow_mul]
  rw [toBytes, Bytes.toNat_be, Nat.mod_eq_of_lt hlt]

theorem IsStored.resize?_eq {n : SizedNat} (hn : n.IsStored) (bits : Nat) :
    n.resize? bits = if n.value < 2 ^ bits then some ⟨n.value, wordBits bits⟩ else none := by
  rw [SizedNat.resize?, read?_eq, hn.toNat_toBytes]

/-- Moving a stored number to another precision keeps its value. -/
theorem IsStored.resize? {n : SizedNat} (hn : n.IsStored) {k : Nat} (h : 0 < k) :
    n.resize? (64 * k) = if n.value < 2 ^ (64 * k) then some ⟨n.value, 64 * k⟩ else none := by
  rw [hn.resize?_eq, wordBits_words h]

/-- What is written for a stored number depends on its value only. -/
theorem IsStored.bytes?_eq {n : SizedNat} (hn : n.IsStored) (width : Nat) :
    n.bytes? width = Bytes.fixed? n.value width := by
  simp only [bytes?, Bytes.fixed?, Bytes.stripZeros_eq_digits, hn.toNat_toBytes]

/-! ## All conversions -/

/-- The conversions of a stored number to byte strings and to other precisions. -/
structure ConvertsExactly (n : SizedNat) : Prop where
  /-- It is what the groups write for the value. -/
  bytes?_eq (width : Nat) : n.bytes? width = Bytes.fixed? n.value width
  writes (width : Nat) : (∃ b, n.bytes? width = some b) ↔ n.value < 256 ^ width
  length_bytes? {width : Nat} {b : Bytes} : n.bytes? width = some b → b.length = width
  ofBytes_bytes? {width : Nat} {b : Bytes} : n.bytes? width = some b → (ofBytes b).value = n.value
  read?_bytes? {width bits : Nat} {b : Bytes} : n.bytes? width = some b → n.value < 2 ^ bits →
    read? bits b = some ⟨n.value, wordBits bits⟩
  /-- The precision of the number makes no difference. -/
  bytes?_congr {m : SizedNat} : m.IsStored → m.value = n.value →
    ∀ width, m.bytes? width = n.bytes? width
  resizes (bits : Nat) : (∃ m, n.resize? bits = some m) ↔ n.value < 2 ^ bits
  value_resize? {bits : Nat} {m : SizedNat} : n.resize? bits = some m →
    m.value = n.value ∧ m.IsStored

theorem IsStored.convertsExactly {n : SizedNat} (hn : n.IsStored) : n.ConvertsExactly where
  bytes?_eq := hn.bytes?_eq
  writes width := by
    simp only [hn.bytes?_eq]
    constructor
    · rintro ⟨b, hb⟩
      obtain ⟨rfl, hvalue⟩ := Bytes.fixed?_eq_some_iff.1 hb
      exact hvalue ▸ Bytes.toNat_lt b
    · intro hlt
      obtain ⟨b, hb, -, -⟩ := Bytes.fixed?_of_lt hlt
      exact ⟨b, hb⟩
  length_bytes? hb := Bytes.length_fixed? (hn.bytes?_eq _ ▸ hb)
  ofBytes_bytes? hb := Bytes.toNat_fixed? (hn.bytes?_eq _ ▸ hb)
  read?_bytes? hb hlt := by
    have hvalue := Bytes.toNat_fixed? (hn.bytes?_eq _ ▸ hb)
    rw [read?_eq, hvalue, if_pos hlt]
  bytes?_congr hm hvalue width := by
    rw [hm.bytes?_eq, hn.bytes?_eq, hvalue]
  resizes bits := by
    rw [hn.resize?_eq]
    split <;> simp [*]
  value_resize? h := by
    rw [hn.resize?_eq] at h
    split at h
    · rename_i hlt
      cases h
      exact ⟨rfl, isStored_of_lt hlt⟩
    · cases h

/-- **Conversions keep the value, and succeed exactly if it fits.** A byte string is read into so
many bits if its value needs no more, however many zeroes stand in front, and always into the bits
of its own bytes. A stored number is written in a width exactly if it is below that power of 256,
independently of its precision, and is read back from what is written; another precision never
changes it. -/
theorem conversions_agree :
    (∀ bits b, read? bits b =
      if Bytes.toNat b < 2 ^ bits then some ⟨Bytes.toNat b, wordBits bits⟩ else none) ∧
    (∀ bits zeroes b, read? bits (List.replicate zeroes 0 ++ b) = read? bits b) ∧
    (∀ b, store? (8 * max 1 b.length) b = some (ofBytes b) ∧
      (ofBytes b).value = Bytes.toNat b) ∧
    ∀ n : SizedNat, n.IsStored → n.ConvertsExactly := by
  refine ⟨read?_eq, fun bits zeroes b => ?_, fun b => ⟨store?_ofBytes b, rfl⟩,
    fun _ => IsStored.convertsExactly⟩
  rw [read?_eq, read?_eq, Bytes.toNat_zeroes_append]

/-- A number of two bytes that is stored in three words. -/
theorem conversions_agree_threeWords :
    let n : SizedNat := ⟨0x0102, 192⟩
    n.IsStored ∧ n.bytes? 3 = some [0x00, 0x01, 0x02] ∧ read? 64 [0x00, 0x01, 0x02] = some
      ⟨0x0102, 64⟩ ∧
      n.bytes? 2 = (ofBytes [0x01, 0x02]).bytes? 2 ∧ ¬ ∃ b, n.bytes? 1 = some b := by
  intro n
  have hn : n.IsStored := ⟨⟨3, by decide, rfl⟩, bitLength_le_iff.2 (by decide)⟩
  have hconverted := conversions_agree.2.2.2 n hn
  have hthree : n.bytes? 3 = some [0x00, 0x01, 0x02] := by decide
  refine ⟨hn, hthree, hconverted.read?_bytes? hthree (by decide), ?_, fun h => ?_⟩
  · exact (hconverted.bytes?_congr (isStored_ofBytes _) rfl 2).symm
  · exact absurd ((hconverted.writes 1).1 h) (by decide)

end SizedNat
end TravelDocument

import TravelDocument.Encoding.Tlv
import TravelDocument.Proofs.Bytes

/-!
# Tags and length fields

`IsTag` and `IsLengthField` say which bytes are a tag and which are the length field of a number.
What is read from the front of a byte string is such bytes, and such bytes are read from the front
of whatever starts with them (`decodeTag?_eq_some_iff`, `decodeLength?_eq_some_iff`).
-/

namespace TravelDocument.DataObject

/-! ## Tags -/

/-- The bytes of a tag: one whose low five bits are not all set, or one where they are and up to
three more, of which the last alone has its top bit clear. -/
inductive IsTag : Bytes → Prop
  | short {b : UInt8} : b.toNat % 32 ≠ 31 → IsTag [b]
  | long {first last : UInt8} {middle : Bytes} : first.toNat % 32 = 31 → middle.length ≤ 2 →
    (∀ b ∈ middle, 128 ≤ b.toNat) → last.toNat < 128 → IsTag (first :: (middle ++ [last]))

theorem IsTag.length_pos {bytes : Bytes} (h : IsTag bytes) : 0 < bytes.length := by
  cases h <;> exact Nat.succ_pos _

theorem decodeTagRest?_append {tag : Nat} {middle : Bytes} {last : UInt8}
    (hm : ∀ b ∈ middle, 128 ≤ b.toNat) (hl : last.toNat < 128)
    (ht : (tag + 1) * 256 ^ (middle.length + 1) ≤ UInt32.size) (tail : Bytes) :
    decodeTagRest? tag (middle ++ last :: tail) =
      some (tag * 256 ^ (middle.length + 1) + Bytes.toNat (middle ++ [last]), tail) := by
  induction middle generalizing tag with
  | nil =>
    rw [List.length_nil, Nat.zero_add, Nat.pow_one] at ht
    rw [List.nil_append, decodeTagRest?, if_neg (by omega), if_pos hl, List.nil_append,
      Bytes.toNat_singleton, List.length_nil, Nat.zero_add, Nat.pow_one, Nat.mul_comm]
  | cons b rest ih =>
    have hb : 128 ≤ b.toNat := hm b List.mem_cons_self
    have hlt : b.toNat < 256 := b.toNat_lt
    have hpow : 0 < 256 ^ (rest.length + 1) := Nat.pow_pos (by decide)
    rw [List.length_cons, Nat.pow_succ', ← Nat.mul_assoc] at ht
    -- there is room for this byte and for those after it
    have hroom : (256 * tag + b.toNat + 1) * 256 ^ (rest.length + 1) ≤ UInt32.size :=
      Nat.le_trans (Nat.mul_le_mul_right _ (by omega)) ht
    have htag : ¬ UInt32.size ≤ 256 * tag := by
      have := Nat.le_trans (Nat.le_mul_of_pos_right _ hpow) ht
      omega
    rw [List.cons_append, decodeTagRest?, if_neg htag, if_neg (by omega),
      ih (fun c hc => hm c (List.mem_cons_of_mem _ hc)) hroom, List.cons_append, Bytes.toNat_cons,
      List.length_cons, List.length_append, List.length_singleton, Nat.add_mul,
      @Nat.pow_succ' 256 (rest.length + 1), ← Nat.mul_assoc, Nat.mul_comm 256 tag, Nat.add_assoc]

/-- **A tag is read from the front of whatever starts with it.** -/
theorem IsTag.decode {bytes : Bytes} (h : IsTag bytes) (tail : Bytes) :
    decodeTag? (bytes ++ tail) = some (Bytes.toNat bytes, tail) := by
  cases h with
  | short hb => rw [List.singleton_append, decodeTag?, if_neg hb, Bytes.toNat_singleton]
  | @long first last middle hf hm hmiddle hl =>
    have hlt : first.toNat < 256 := first.toNat_lt
    have hroom : (first.toNat + 1) * 256 ^ (middle.length + 1) ≤ UInt32.size := by
      have hpow : 256 ^ (middle.length + 1) ≤ 256 ^ 3 :=
        Nat.pow_le_pow_right (by decide) (by omega)
      calc (first.toNat + 1) * 256 ^ (middle.length + 1) ≤ 256 * 256 ^ 3 :=
            Nat.mul_le_mul (by omega) hpow
        _ = UInt32.size := by decide
    rw [List.cons_append, List.append_assoc, List.singleton_append, decodeTag?, if_pos hf,
      decodeTagRest?_append hmiddle hl hroom, Bytes.toNat_cons, List.length_append,
        List.length_singleton]

/-- What is read after the first byte of a tag: bytes with the top bit set and one without it. The
number of the bytes before the last still has room in 32 bits. -/
theorem decodeTagRest?_eq_some {tag t : Nat} {input rest : Bytes}
    (h : decodeTagRest? tag input = some (t, rest)) :
    ∃ (middle : Bytes) (last : UInt8), input = middle ++ last :: rest ∧
      (∀ b ∈ middle, 128 ≤ b.toNat) ∧ last.toNat < 128 ∧
      tag * 256 ^ (middle.length + 1) < UInt32.size ∧
      t = tag * 256 ^ (middle.length + 1) + Bytes.toNat (middle ++ [last]) := by
  induction input generalizing tag with
  | nil => simp [decodeTagRest?] at h
  | cons b input ih =>
    simp only [decodeTagRest?] at h
    split at h
    · cases h
    · rename_i hroom
      split at h
      · rename_i hb
        obtain ⟨rfl, rfl⟩ := Prod.mk.inj (Option.some.inj h)
        exact ⟨[], b, rfl, by simp, hb, by simp; omega, by simp; omega⟩
      · rename_i hb
        obtain ⟨middle, last, rfl, hmiddle, hlast, hlt, rfl⟩ := ih h
        -- the byte just read sits one place above those still to come
        have hsplit : (256 * tag + b.toNat) * 256 ^ (middle.length + 1) =
            tag * 256 ^ (middle.length + 1 + 1) + b.toNat * 256 ^ (middle.length + 1) := by
          rw [Nat.add_mul, Nat.mul_comm 256, Nat.mul_assoc, ← Nat.pow_succ']
        rw [hsplit] at hlt ⊢
        refine ⟨b :: middle, last, rfl, ?_, hlast, by rw [List.length_cons]; omega, ?_⟩
        · simpa using ⟨Nat.not_lt.1 hb, hmiddle⟩
        · rw [List.cons_append, Bytes.toNat_cons, List.length_append, List.length_singleton,
            List.length_cons, Nat.add_assoc]

/-- **What is read is a tag**, and what is left follows it. -/
theorem decodeTag?_eq_some_iff {input rest : Bytes} {t : Nat} :
    decodeTag? input = some (t, rest) ↔
      ∃ bytes, IsTag bytes ∧ Bytes.toNat bytes = t ∧ input = bytes ++ rest := by
  constructor
  · intro h
    cases input with
    | nil => simp [decodeTag?] at h
    | cons b input =>
      simp only [decodeTag?] at h
      split at h
      · rename_i hb
        obtain ⟨middle, last, rfl, hmiddle, hlast, hlt, rfl⟩ := decodeTagRest?_eq_some h
        -- the first byte is at least 31, so a fourth byte after it would not have had room
        have hlength : middle.length ≤ 2 := by
          by_contra hlong
          have hpow : 256 ^ 4 ≤ 256 ^ (middle.length + 1) :=
            Nat.pow_le_pow_right (by decide) (by omega)
          have hmul : 1 * 256 ^ 4 ≤ b.toNat * 256 ^ (middle.length + 1) :=
            Nat.mul_le_mul (by omega) hpow
          have hsize : UInt32.size = 256 ^ 4 := by decide
          omega
        refine ⟨b :: (middle ++ [last]), .long hb hlength hmiddle hlast, ?_, by simp⟩
        rw [Bytes.toNat_cons, List.length_append, List.length_singleton]
      · rename_i hb
        cases h
        exact ⟨[b], .short hb, Bytes.toNat_singleton b, rfl⟩
  · rintro ⟨bytes, hbytes, rfl, rfl⟩
    exact hbytes.decode rest

/-- Where a tag ends does not depend on what follows it. -/
theorem IsTag.append_inj {tag other x y : Bytes} (h : IsTag tag) (ho : IsTag other)
    (heq : tag ++ x = other ++ y) : tag = other ∧ x = y := by
  have hdecode := h.decode x
  rw [heq, ho.decode] at hdecode
  obtain rfl : y = x := (Prod.mk.inj (Option.some.inj hdecode)).2
  exact ⟨List.append_cancel_right heq, rfl⟩

/-- A tag is the shortest byte string of its number. -/
theorem IsTag.minimal_toNat {bytes : Bytes} (h : IsTag bytes) :
    Bytes.minimal (Bytes.toNat bytes) = bytes := by
  cases h with
  | @short b hb =>
    rw [Bytes.toNat_singleton, Bytes.minimal_of_lt b.toNat_lt, UInt8.ofNat_toNat]
  | @long first last middle hf _ _ _ =>
    have hfirst : first ≠ 0 := by
      rintro rfl
      simp at hf
    have hpos : 0 < Bytes.toNat (first :: (middle ++ [last])) := by
      rw [Bytes.toNat_cons]
      exact Nat.add_pos_left (Nat.mul_pos (by omega) (Nat.pow_pos (by decide))) _
    rw [Bytes.minimal, if_neg (by omega), Bytes.digits_toNat (by simpa using hfirst)]

/-! ## Length fields -/

/-- The bytes of a length field for a number: the number itself if it is below 128, or the number of
length bytes with the top bit set and the length bytes, which may start with zeroes. -/
inductive IsLengthField : Bytes → Nat → Prop
  | short {b : UInt8} : b.toNat < 128 → IsLengthField [b] b.toNat
  | long {b : UInt8} {digits : Bytes} : b.toNat = 128 + digits.length → digits ≠ [] →
    Bytes.toNat digits < UInt64.size → IsLengthField (b :: digits) (Bytes.toNat digits)

/-- A short field does not spell a large number. -/
theorem IsLengthField.lt {field : Bytes} {n k : Nat} (h : IsLengthField field n) (hk : 0 < k)
    (hl : field.length ≤ k + 1) : n < 256 ^ k := by
  cases h with
  | short hb =>
    have : 256 ^ 1 ≤ 256 ^ k := Nat.pow_le_pow_right (by decide) hk
    omega
  | @long b digits _ _ _ =>
    rw [List.length_cons] at hl
    exact Nat.lt_of_lt_of_le (Bytes.toNat_lt digits) (Nat.pow_le_pow_right (by decide) (by omega))

/-- **A length field is read from the front of whatever starts with it.** -/
theorem IsLengthField.decode {field : Bytes} {n : Nat} (h : IsLengthField field n) (tail : Bytes) :
    decodeLength? (field ++ tail) = some (n, tail) := by
  cases h with
  | short hb => rw [List.singleton_append, decodeLength?, if_pos hb]
  | @long b digits hb hne hlt =>
    have hpos : 0 < digits.length := List.length_pos_iff.2 hne
    have hcount : b.toNat - 128 = digits.length := by omega
    rw [List.cons_append, decodeLength?, if_neg (by omega)]
    simp only [hcount, List.length_append, List.take_left, List.drop_left]
    rw [if_neg (by omega), if_pos hlt]

/-- Where a length field ends, and what it spells, does not depend on what follows it. -/
theorem IsLengthField.append_inj {field other x y : Bytes} {n m : Nat} (h : IsLengthField field n)
    (ho : IsLengthField other m) (heq : field ++ x = other ++ y) :
    field = other ∧ n = m ∧ x = y := by
  have hdecode := h.decode x
  rw [heq, ho.decode] at hdecode
  obtain ⟨rfl, rfl⟩ := Prod.mk.inj (Option.some.inj hdecode)
  exact ⟨List.append_cancel_right heq, rfl, rfl⟩

/-- **What is read is a length field**, and what is left follows it. -/
theorem decodeLength?_eq_some_iff {input rest : Bytes} {n : Nat} :
    decodeLength? input = some (n, rest) ↔ ∃ field, IsLengthField field n ∧
      input = field ++ rest := by
  constructor
  · intro h
    cases input with
    | nil => simp [decodeLength?] at h
    | cons b input =>
      simp only [decodeLength?] at h
      split at h
      · rename_i hb
        cases h
        exact ⟨[b], .short hb, rfl⟩
      · split at h
        · cases h
        · split at h
          · rename_i hlt
            obtain ⟨rfl, rfl⟩ := Prod.mk.inj (Option.some.inj h)
            have hl : (input.take (b.toNat - 128)).length = b.toNat - 128 := by
              rw [List.length_take]
              omega
            -- 81 and above: that many bytes follow, and all of them are there
            refine ⟨b :: input.take (b.toNat - 128), .long (by omega) ?_ hlt, by simp⟩
            exact List.ne_nil_of_length_pos (by omega)
          · cases h
  · rintro ⟨field, hfield, rfl⟩
    exact hfield.decode rest

end TravelDocument.DataObject

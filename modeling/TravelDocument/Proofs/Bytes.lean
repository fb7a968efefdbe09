import Mathlib.Algebra.Group.Nat.Defs
import Mathlib.Data.List.Induction
import TravelDocument.Bytes

/-!
# Byte strings and numbers are each other's inverse

`toNat` and `be` are inverse up to leading zeroes and up to the bytes that are cut off (`toNat_be`,
`be_toNat`), `digits` is the shortest byte string of a number (`toNat_digits`, `length_digits_le`),
and exclusive or cancels on byte strings of one length (`xor_xor_cancel`).
-/

namespace TravelDocument.Bytes

/-! ## Numbers of byte strings -/

theorem foldl_toNat (b : Bytes) (n : Nat) :
    b.foldl (fun n d => 256 * n + d.toNat) n = n * 256 ^ b.length + toNat b := by
  induction b generalizing n with
  | nil => simp [toNat]
  | cons d b ih =>
    simp only [toNat, List.foldl_cons, List.length_cons] at ih ⊢
    rw [ih, ih (256 * 0 + d.toNat), Nat.pow_succ, Nat.add_mul, Nat.mul_zero, Nat.zero_add,
      ← Nat.add_assoc, Nat.mul_comm 256 n, Nat.mul_assoc, Nat.mul_comm 256]

theorem toNat_append (a b : Bytes) : toNat (a ++ b) = toNat a * 256 ^ b.length + toNat b := by
  show (a ++ b).foldl _ 0 = _
  rw [List.foldl_append, foldl_toNat]
  rfl

@[simp] theorem toNat_singleton (d : UInt8) : toNat [d] = d.toNat := by simp [toNat]

theorem toNat_cons (d : UInt8) (b : Bytes) :
    toNat (d :: b) = d.toNat * 256 ^ b.length + toNat b := by
  rw [← List.singleton_append, toNat_append, toNat_singleton]

theorem toNat_lt (b : Bytes) : toNat b < 256 ^ b.length := by
  induction b with
  | nil => simp
  | cons d b ih =>
    have hd := d.toNat_lt
    rw [toNat_cons, List.length_cons, Nat.pow_succ]
    have : (d.toNat + 1) * 256 ^ b.length ≤ 256 * 256 ^ b.length :=
      Nat.mul_le_mul_right _ (by omega)
    rw [Nat.add_mul] at this
    omega

theorem toNat_be (width n : Nat) : toNat (be width n) = n % 256 ^ width := by
  induction width generalizing n with
  | zero => simp [be, Nat.mod_one]
  | succ w ih =>
    rw [be, toNat_append, ih, toNat_singleton, List.length_singleton, Nat.pow_one, Nat.pow_succ,
      Nat.mul_comm (256 ^ w), Nat.mod_mul, UInt8.toNat_ofNat']
    omega

theorem be_toNat_append (b : Bytes) (m : Nat) :
    be b.length (m * 256 ^ b.length + toNat b) = b := by
  induction b using List.reverseRecOn generalizing m with
  | nil => rfl
  | append_singleton b d ih =>
    have hd := d.toNat_lt
    have hq : (m * 256 ^ (b.length + 1) + toNat (b ++ [d])) / 256 =
        m * 256 ^ b.length + toNat b := by
      rw [toNat_append, toNat_singleton, Nat.pow_succ, ← Nat.mul_assoc]
      simp only [List.length_singleton, Nat.pow_one]
      omega
    have hr : (m * 256 ^ (b.length + 1) + toNat (b ++ [d])) % 2 ^ 8 = d.toNat := by
      rw [toNat_append, toNat_singleton, Nat.pow_succ, ← Nat.mul_assoc]
      simp only [List.length_singleton, Nat.pow_one]
      omega
    rw [List.length_append, List.length_singleton, be, hq, ih, ← UInt8.ofNat_mod_size, hr,
      UInt8.ofNat_toNat]

theorem be_toNat (b : Bytes) : be b.length (toNat b) = b := by
  have := be_toNat_append b 0
  rwa [Nat.zero_mul, Nat.zero_add] at this

theorem be_toNat_of_length {b : Bytes} {width : Nat} (h : b.length = width) :
    be width (toNat b) = b := by
  rw [← h]
  exact be_toNat b

/-- Byte strings of one length spell different integers. -/
theorem eq_of_toNat_eq {a b : Bytes} (hl : a.length = b.length) (h : toNat a = toNat b) :
    a = b := by
  rw [← be_toNat a, hl, h, be_toNat b]

/-! ## Shortest byte strings -/

theorem digitsOnto_eq (n : Nat) (acc : Bytes) : digitsOnto n acc = digits n ++ acc := by
  induction n using Nat.strongRecOn generalizing acc with
  | ind n ih =>
    by_cases h : n = 0
    · subst h
      simp [digits, digitsOnto]
    · have step : ∀ acc, digitsOnto n acc = digits (n / 256) ++ UInt8.ofNat n :: acc := by
        intro acc
        rw [digitsOnto, if_neg h, ih (n / 256) (by omega)]
      rw [digits, step, step, List.append_assoc]
      rfl

@[simp] theorem digits_zero : digits 0 = [] := by simp [digits, digitsOnto]

theorem digits_of_pos {n : Nat} (h : 0 < n) : digits n = digits (n / 256) ++ [UInt8.ofNat n] := by
  rw [digits, digitsOnto, if_neg (by omega), digitsOnto_eq]

@[simp] theorem toNat_digits (n : Nat) : toNat (digits n) = n := by
  induction n using Nat.strongRecOn with
  | ind n ih =>
    by_cases h : n = 0
    · subst h
      simp
    · rw [digits_of_pos (by omega), toNat_append, ih (n / 256) (by omega), toNat_singleton,
        UInt8.toNat_ofNat', List.length_singleton]
      omega

theorem length_digits_le {n k : Nat} (h : n < 256 ^ k) : (digits n).length ≤ k := by
  induction k generalizing n with
  | zero =>
    have : n = 0 := by simpa using h
    simp [this]
  | succ k ih =>
    by_cases hn : n = 0
    · simp [hn]
    · have hq : n / 256 < 256 ^ k := by
        rw [Nat.pow_succ] at h
        omega
      rw [digits_of_pos (by omega), List.length_append, List.length_singleton]
      exact Nat.succ_le_succ (ih hq)

theorem length_digits_le_iff {n k : Nat} : (digits n).length ≤ k ↔ n < 256 ^ k := by
  refine ⟨fun h => ?_, length_digits_le⟩
  calc n = toNat (digits n) := (toNat_digits n).symm
    _ < 256 ^ (digits n).length := toNat_lt _
    _ ≤ 256 ^ k := Nat.pow_le_pow_right (by decide) h

/-- A byte string that does not start with a zero is the digits of its number. -/
theorem digits_toNat {b : Bytes} (h : b.head? ≠ some 0) : digits (toNat b) = b := by
  induction b using List.reverseRecOn with
  | nil => exact digits_zero
  | append_singleton b d ih =>
    have hd := d.toNat_lt
    have hn : toNat (b ++ [d]) = toNat b * 256 + d.toNat := by simp [toNat_append]
    have hfront : b.head? ≠ some 0 := by
      cases b <;> simp_all
    have hpos : 0 < toNat (b ++ [d]) := by
      cases b with
      | nil => simpa [Nat.pos_iff_ne_zero, ← UInt8.toNat_inj] using h
      | cons c b =>
        have hc : 0 < c.toNat := by simpa [Nat.pos_iff_ne_zero, ← UInt8.toNat_inj] using h
        rw [List.cons_append, toNat_cons]
        exact Nat.add_pos_left (Nat.mul_pos hc (Nat.pow_pos (by decide))) _
    have hq : toNat (b ++ [d]) / 256 = toNat b := by omega
    have hr : toNat (b ++ [d]) % 2 ^ 8 = d.toNat := by omega
    rw [digits_of_pos hpos, hq, ih hfront, ← UInt8.ofNat_mod_size, hr, UInt8.ofNat_toNat]

/-- Without its leading zeroes a byte string is the digits of its number. -/
theorem stripZeros_eq_digits (b : Bytes) : stripZeros b = digits (toNat b) := by
  induction b with
  | nil => exact digits_zero.symm
  | cons d b ih =>
    by_cases hd : d = 0
    · subst hd
      rw [toNat_cons, UInt8.toNat_zero, Nat.zero_mul, Nat.zero_add, ← ih]
      rfl
    · rw [digits_toNat (by simpa using hd)]
      simp [stripZeros, hd]

theorem toNat_replicate_zero (k : Nat) : toNat (List.replicate k 0) = 0 := by
  induction k with
  | zero => rfl
  | succ k ih => rw [List.replicate_succ, toNat_cons, ih, UInt8.toNat_zero, Nat.zero_mul]

/-- Zeroes in front do not matter. -/
theorem toNat_zeroes_append (k : Nat) (b : Bytes) : toNat (List.replicate k 0 ++ b) = toNat b := by
  rw [toNat_append, toNat_replicate_zero, Nat.zero_mul, Nat.zero_add]

theorem toNat_fixed? {n width : Nat} {b : Bytes} (h : fixed? n width = some b) : toNat b = n := by
  rw [fixed?] at h
  split at h
  · cases h
    rw [toNat_zeroes_append, toNat_digits]
  · cases h

/-- An integer that fits is written in the given width, and read back. -/
theorem fixed?_of_lt {n width : Nat} (h : n < 256 ^ width) :
    ∃ b, fixed? n width = some b ∧ b.length = width ∧ toNat b = n := by
  obtain ⟨b, hb⟩ : ∃ b, fixed? n width = some b := by
    rw [fixed?]
    exact ⟨_, if_pos (length_digits_le h)⟩
  exact ⟨b, hb, length_fixed? hb, toNat_fixed? hb⟩

/-- What is written in a width is the one byte string of that length that spells the number. -/
theorem fixed?_eq_some_iff {n width : Nat} {b : Bytes} :
    fixed? n width = some b ↔ b.length = width ∧ toNat b = n := by
  refine ⟨fun h => ⟨length_fixed? h, toNat_fixed? h⟩, ?_⟩
  rintro ⟨rfl, rfl⟩
  obtain ⟨b', hb', hl, hn⟩ := fixed?_of_lt (toNat_lt b)
  rw [hb', eq_of_toNat_eq hl hn]

theorem digits_ne_nil {n : Nat} (h : 0 < n) : digits n ≠ [] := by
  rw [digits_of_pos h]
  simp

@[simp] theorem toNat_minimal (n : Nat) : toNat (minimal n) = n := by
  rw [minimal]
  split
  · rename_i h
    rw [h]
    rfl
  · exact toNat_digits n

theorem length_minimal_le {n k : Nat} (h : n < 256 ^ k) (hk : 0 < k) :
    (minimal n).length ≤ k := by
  rw [minimal]
  split
  · exact hk
  · exact length_digits_le h

/-- The bytes of a number, at least one of them and no more than it takes. -/
structure IsShortest (n : Nat) (b : Bytes) : Prop where
  ne_nil : b ≠ []
  toNat_eq : toNat b = n
  length_le (other : Bytes) : other ≠ [] → toNat other = n → b.length ≤ other.length

theorem isShortest_minimal (n : Nat) : IsShortest n (minimal n) where
  ne_nil := by
    rw [minimal]
    split
    · simp
    · exact digits_ne_nil (by omega)
  toNat_eq := toNat_minimal n
  length_le other hne ho := by
    refine length_minimal_le ?_ (List.length_pos_iff.2 hne)
    rw [← ho]
    exact toNat_lt other

theorem minimal_of_lt {n : Nat} (h : n < 256) : minimal n = [UInt8.ofNat n] := by
  by_cases hn : n = 0
  · subst hn
    rfl
  · have hq : n / 256 = 0 := by omega
    rw [minimal, if_neg hn, digits_of_pos (by omega), hq, digits_zero]
    rfl

/-! ## Exclusive or -/

@[simp] theorem xor_nil_left (b : Bytes) : xor [] b = [] := by simp [xor]

theorem xor_cons (c d : UInt8) (a b : Bytes) : xor (c :: a) (d :: b) = (c ^^^ d) :: xor a b := rfl

theorem xor_xor_cancel {a b : Bytes} (h : a.length = b.length) : xor a (xor a b) = b := by
  induction a generalizing b with
  | nil =>
    have : b = [] := List.length_eq_zero_iff.1 h.symm
    simp [this]
  | cons c a ih =>
    cases b with
    | nil => simp at h
    | cons d b =>
      simp only [List.length_cons, Nat.add_right_cancel_iff] at h
      rw [xor_cons, xor_cons, ih h, ← UInt8.xor_assoc, UInt8.xor_self, UInt8.zero_xor]

end TravelDocument.Bytes

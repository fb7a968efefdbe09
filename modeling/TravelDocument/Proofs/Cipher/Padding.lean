import Mathlib.Data.List.TakeWhile
import Mathlib.Order.Bounds.Basic
import TravelDocument.Cipher.Padding

/-!
# Padding is taken off again

`pad` fills up to the next whole number of blocks (`length_pad`), `unpad` undoes it (`unpad_pad`),
and so padded data determines the data (`pad_inj`). What `unpad` takes off is one byte `80` and all
zeroes behind it, and nothing else can be taken off (`unpad_eq_ok_iff`); `padding_exact` puts both
together.
-/

namespace TravelDocument.Padding

/-! ## Whole blocks -/

theorem length_pad {blockSize : Nat} (h : 0 < blockSize) (data : Bytes) :
    (pad blockSize data).length = (data.length / blockSize + 1) * blockSize := by
  have hm := Nat.mod_lt data.length h
  have hd := Nat.div_add_mod data.length blockSize
  rw [Nat.mul_comm] at hd
  simp only [pad, List.length_append, List.length_cons, List.length_replicate]
  rw [Nat.add_mul, Nat.one_mul]
  omega

theorem length_pad_mod {blockSize : Nat} (h : 0 < blockSize) (data : Bytes) :
    (pad blockSize data).length % blockSize = 0 := by
  rw [length_pad h, Nat.mul_mod_left]

/-- The length of padded data is the first whole number of blocks above that of the data. -/
theorem isLeast_length_pad {blockSize : Nat} (h : 0 < blockSize) (data : Bytes) :
    IsLeast {n | blockSize ∣ n ∧ data.length < n} (pad blockSize data).length := by
  rw [length_pad h]
  refine ⟨⟨Nat.dvd_mul_left _ _, ?_⟩, ?_⟩
  · exact (Nat.div_lt_iff_lt_mul h).1 (Nat.lt_succ_self _)
  · rintro n ⟨⟨blocks, rfl⟩, hlt⟩
    rw [Nat.mul_comm] at hlt ⊢
    exact Nat.mul_le_mul_left _ ((Nat.div_lt_iff_lt_mul h).2 hlt)

/-! ## Taking it off -/

theorem dropWhile_replicate_zero (n : Nat) (b : Bytes) :
    (List.replicate n 0 ++ b).dropWhile (· == 0) = b.dropWhile (· == 0) := by
  induction n with
  | zero => rfl
  | succ n ih =>
    rw [List.replicate_succ, List.cons_append, List.dropWhile_cons_of_pos (by rfl)]
    exact ih

/-- The scan from the end stops at the byte `80` that was put there, whatever the data ends in. -/
theorem unpad_append (data : Bytes) (zeroes : Nat) :
    unpad (data ++ 0x80 :: List.replicate zeroes 0) = .ok data := by
  have h : (data ++ 0x80 :: List.replicate zeroes 0).reverse.dropWhile (· == 0) =
      0x80 :: data.reverse := by
    rw [List.reverse_append, List.reverse_cons, List.reverse_replicate, List.append_assoc,
      dropWhile_replicate_zero]
    rfl
  simp only [unpad, h]
  simp

@[simp] theorem unpad_pad (blockSize : Nat) (data : Bytes) :
    unpad (pad blockSize data) = .ok data :=
  unpad_append data _

/-- What the scan from the end skips is zeroes. -/
theorem exists_trailing_zeroes (data : Bytes) : ∃ zeroes,
    data = (data.reverse.dropWhile (· == 0)).reverse ++ List.replicate zeroes 0 := by
  obtain ⟨zeroes, hzeroes⟩ : ∃ zeroes, data.reverse.takeWhile (· == 0) =
    List.replicate zeroes 0 := by
    refine ⟨_, List.eq_replicate_iff.2 ⟨rfl, fun b hb => ?_⟩⟩
    simpa using List.mem_takeWhile_imp hb
  refine ⟨zeroes, ?_⟩
  calc data = (data.reverse.takeWhile (· == 0) ++ data.reverse.dropWhile (· == 0)).reverse := by
        rw [List.takeWhile_append_dropWhile, List.reverse_reverse]
    _ = (data.reverse.dropWhile (· == 0)).reverse ++ List.replicate zeroes 0 := by
        rw [List.reverse_append, hzeroes, List.reverse_replicate]

/-- **Exactly one byte `80` and the zeroes behind it are taken off.** -/
theorem unpad_eq_ok_iff {padded data : Bytes} :
    unpad padded = .ok data ↔ ∃ zeroes, padded = data ++ 0x80 :: List.replicate zeroes 0 := by
  constructor
  · intro h
    obtain ⟨zeroes, hpadded⟩ := exists_trailing_zeroes padded
    rw [unpad] at h
    split at h
    · rename_i b rest hscan
      split at h
      · rename_i hb
        cases h
        refine ⟨zeroes, ?_⟩
        rw [hscan, hb, List.reverse_cons, List.append_assoc] at hpadded
        exact hpadded
      · cases h
    · cases h
  · rintro ⟨zeroes, rfl⟩
    exact unpad_append data zeroes

theorem unpad_eq_error {data : Bytes} {e : CryptoError} (h : unpad data = .error e) :
    e = .invalidPadding := by
  rw [unpad] at h
  split at h
  · split at h
    · cases h
    · cases h
      rfl
  · cases h
    rfl

/-- There is no other failure, and none if there is anything to take off. -/
theorem unpad_eq_error_iff {padded : Bytes} {e : CryptoError} :
    unpad padded = .error e ↔
      e = .invalidPadding ∧ ∀ data zeroes,
        padded ≠ data ++ 0x80 :: List.replicate zeroes 0 := by
  constructor
  · intro h
    refine ⟨unpad_eq_error h, ?_⟩
    rintro data zeroes rfl
    rw [unpad_append] at h
    cases h
  · rintro ⟨rfl, hne⟩
    cases hu : unpad padded with
    | error e => rw [unpad_eq_error hu]
    | ok data =>
      obtain ⟨zeroes, hpadded⟩ := unpad_eq_ok_iff.1 hu
      exact absurd hpadded (hne data zeroes)

theorem length_unpad_le {data plain : Bytes} (h : unpad data = .ok plain) :
    plain.length ≤ data.length := by
  obtain ⟨zeroes, rfl⟩ := unpad_eq_ok_iff.1 h
  rw [List.length_append]
  exact Nat.le_add_right _ _

/-! ## Both ways -/

theorem pad_inj {blockSize : Nat} {d e : Bytes} (h : pad blockSize d = pad blockSize e) :
    d = e := by
  have := congrArg unpad h
  rw [unpad_pad, unpad_pad] at this
  exact Except.ok.inj this

/-- `padded` is `data` and behind it no more than what fills up the last block and can be taken
off. -/
structure IsPadding (blockSize : Nat) (data padded : Bytes) : Prop where
  starts : data <+: padded
  length : IsLeast {n | blockSize ∣ n ∧ data.length < n} padded.length
  unpad_eq : unpad padded = .ok data

theorem isPadding_iff {blockSize : Nat} (h : 0 < blockSize) {data padded : Bytes} :
    IsPadding blockSize data padded ↔ padded = pad blockSize data := by
  constructor
  · intro hp
    obtain ⟨zeroes, rfl⟩ := unpad_eq_ok_iff.1 hp.unpad_eq
    have hl := hp.length.unique (isLeast_length_pad h data)
    simp only [pad, List.length_append, List.length_cons, List.length_replicate] at hl
    rw [pad, show zeroes = blockSize - 1 - data.length % blockSize by omega]
  · rintro rfl
    exact ⟨List.prefix_append _ _, isLeast_length_pad h data, unpad_pad blockSize data⟩

/-- **Padding is exactly inverted.** Padded data starts with the data, is as long as the first whole
number of blocks above it and gives the data back, and nothing else is its padding. What can be
taken off at all is one byte `80` with any number of zeroes; all else is invalid padding. So no two
byte strings have the same padding. -/
theorem padding_exact {blockSize : Nat} (h : 0 < blockSize) :
    (∀ data padded, padded = pad blockSize data ↔ IsPadding blockSize data padded) ∧
    (∀ padded data, unpad padded = .ok data ↔
      ∃ zeroes, padded = data ++ 0x80 :: List.replicate zeroes 0) ∧
    (∀ padded e, unpad padded = .error e ↔
      e = .invalidPadding ∧ ∀ data zeroes,
        padded ≠ data ++ 0x80 :: List.replicate zeroes 0) ∧
    ∀ d e, pad blockSize d = pad blockSize e → d = e :=
  ⟨fun _ _ => (isPadding_iff h).symm, fun _ _ => unpad_eq_ok_iff, fun _ _ => unpad_eq_error_iff,
    fun _ _ => pad_inj⟩

/-- Data that fills a block and looks like padding itself. -/
theorem padding_exact_paddedTwice :
    let data : Bytes := [0x80, 0x00, 0x00, 0x00]
    0 < 4 ∧ IsPadding 4 data (data ++ data) ∧ unpad (data ++ data) = .ok data ∧
      unpad data = .ok [] ∧ unpad [0x00, 0x00] = .error .invalidPadding := by
  intro data
  obtain ⟨hpad, hok, herror, -⟩ := @padding_exact 4 (by decide)
  refine ⟨by decide, (hpad data _).1 (by decide), (hok _ _).2 ⟨3, rfl⟩,
    (hok _ _).2 ⟨3, rfl⟩, (herror _ _).2 ⟨rfl, fun data zeroes h => ?_⟩⟩
  -- there is no byte `80` in it
  have hmem : (0x80 : UInt8) ∈ ([0x00, 0x00] : Bytes) := by
    rw [h]
    simp
  exact absurd hmem (by decide)

end TravelDocument.Padding

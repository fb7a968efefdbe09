import TravelDocument.Proofs.Bytes
import TravelDocument.Cipher.Des

/-!
# Triple DES is lawful

A round of DES undoes itself once the halves have changed places (`round_swap_round`), whatever its
cipher function does, so the round keys in reverse order undo the rounds (`rounds_reverse`). The
initial and the final permutation are inverse as permutations of the bits (`permute_permute`), which
is checked on their tables. `lawful_cipher` and `lawful_tripleCipher` put this together.
-/

namespace TravelDocument.Des

/-! ## Permutations of the bits of a word -/

theorem toNat_shiftRight (x : UInt64) {k : Nat} (h : k < 64) :
    (x >>> k.toUInt64).toNat = x.toNat >>> k := by
  have hk : k.toUInt64.toNat = k := by
    show (UInt64.ofNat k).toNat = k
    rw [UInt64.toNat_ofNat', Nat.mod_eq_of_lt (by omega)]
  rw [UInt64.toNat_shiftRight, hk, Nat.mod_eq_of_lt h]

theorem toNat_shiftLeft_one (x : UInt64) : (x <<< 1).toNat = 2 * x.toNat % 2 ^ 64 := by
  rw [UInt64.toNat_shiftLeft, Nat.shiftLeft_eq, Nat.mul_comm]
  rfl

/-- Pushing bit `k` of `x` into `out` from the right. -/
theorem testBit_push (out x : UInt64) {k i : Nat} (hk : k < 64) (hi : i < 64) :
    ((out <<< 1) ||| ((x >>> k.toUInt64) &&& 1)).toNat.testBit i =
      if i = 0 then x.toNat.testBit k else out.toNat.testBit (i - 1) := by
  have h1 : (1 : UInt64).toNat = 2 ^ 1 - 1 := rfl
  rw [UInt64.toNat_or, UInt64.toNat_and, toNat_shiftLeft_one, toNat_shiftRight x hk, Nat.testBit_or,
    Nat.testBit_mod_two_pow, h1, Nat.testBit_and, Nat.testBit_two_pow_sub_one,
      Nat.testBit_shiftRight]
  cases i with
  | zero => simp
  | succ i => simp [hi, Nat.testBit_succ]

/-- Bit `i` of the bits that a table picks. -/
theorem testBit_foldl_push (width : Nat) (x : UInt64) (table : List Nat) (out : UInt64)
    (ht : ∀ n ∈ table, width - n < 64) {i : Nat} (hi : i < 64) :
    (table.foldl (fun (out : UInt64) n => (out <<< 1) ||| ((x >>> (width - n).toUInt64) &&& 1))
        out).toNat.testBit i =
      if i < table.length then x.toNat.testBit (width - table.getD (table.length - 1 - i) 0)
      else out.toNat.testBit (i - table.length) := by
  induction table generalizing out with
  | nil => simp
  | cons n table ih =>
    rw [List.foldl_cons, ih _ fun m hm => ht m (List.mem_cons_of_mem _ hm), List.length_cons]
    rcases Nat.lt_trichotomy i table.length with h | rfl | h
    · rw [if_pos h, if_pos (by omega), show table.length + 1 - 1 - i =
        table.length - 1 - i + 1 by omega, List.getD_cons_succ]
    · rw [if_neg (by omega), if_pos (by omega), Nat.sub_self, Nat.add_sub_cancel, Nat.sub_self,
        List.getD_cons_zero, testBit_push _ _ (ht n List.mem_cons_self) (by omega), if_pos rfl]
    · rw [if_neg (by omega), if_neg (by omega), testBit_push _ _ (ht n List.mem_cons_self)
        (by omega), if_neg (by omega), Nat.sub_sub]

/-- Where the bit `i` of a permuted word comes from. -/
def sourceBit (table : List Nat) (i : Nat) : Nat :=
  64 - table.getD (table.length - 1 - i) 0

theorem testBit_permute {table : List Nat} (hl : table.length = 64)
    (ht : ∀ n ∈ table, 64 - n < 64) (x : UInt64) {i : Nat} (hi : i < 64) :
    (permute 64 table x).toNat.testBit i = x.toNat.testBit (sourceBit table i) := by
  rw [permute, testBit_foldl_push 64 x table 0 ht hi, if_pos (by omega)]
  rfl

theorem uint64_ext {x y : UInt64} (h : ∀ i < 64, x.toNat.testBit i = y.toNat.testBit i) :
    x = y := by
  apply UInt64.toNat.inj
  apply Nat.eq_of_testBit_eq
  intro i
  by_cases hi : i < 64
  · exact h i hi
  · have big : ∀ z : UInt64, z.toNat.testBit i = false := fun z =>
      Nat.testBit_lt_two_pow (Nat.lt_of_lt_of_le z.toNat_lt
        (Nat.pow_le_pow_right (by decide) (by omega)))
    rw [big x, big y]

/-- Two permutations whose tables lead every bit back to itself. -/
theorem permute_permute {s t : List Nat} (hs : s.length = 64) (ht : t.length = 64)
    (hs' : ∀ n ∈ s, 64 - n < 64) (ht' : ∀ n ∈ t, 64 - n < 64)
    (h : ∀ i < 64, sourceBit t i < 64 ∧ sourceBit s (sourceBit t i) = i) (x : UInt64) :
    permute 64 t (permute 64 s x) = x := by
  apply uint64_ext
  intro i hi
  obtain ⟨hlt, heq⟩ := h i hi
  rw [testBit_permute ht ht' _ hi, testBit_permute hs hs' x hlt, heq]

theorem permute_initial_final (x : UInt64) :
    permute 64 initialPermutation (permute 64 finalPermutation x) = x :=
  permute_permute rfl rfl (by decide) (by decide) (by decide) x

theorem permute_final_initial (x : UInt64) :
    permute 64 finalPermutation (permute 64 initialPermutation x) = x :=
  permute_permute rfl rfl (by decide) (by decide) (by decide) x

/-! ## Halves of a block -/

theorem toNat_toWord (h : Halves) : h.toWord.toNat = h.left.toNat * 2 ^ 32 + h.right.toNat := by
  have hl := h.left.toNat_lt
  have hr := h.right.toNat_lt
  have hs : (h.left.toUInt64 <<< 32).toNat = h.left.toNat <<< 32 := by
    rw [UInt64.toNat_shiftLeft, UInt32.toNat_toUInt64]
    show h.left.toNat <<< 32 % 2 ^ 64 = h.left.toNat <<< 32
    rw [Nat.shiftLeft_eq]
    omega
  rw [Halves.toWord, UInt64.toNat_or, hs, UInt32.toNat_toUInt64,
    ← Nat.shiftLeft_add_eq_or_of_lt hr, Nat.shiftLeft_eq]

theorem toNat_shiftRight_32 (x : UInt64) : (x >>> 32).toNat = x.toNat / 2 ^ 32 := by
  rw [UInt64.toNat_shiftRight, ← Nat.shiftRight_eq_div_pow]
  rfl

@[simp] theorem ofWord_toWord (h : Halves) : Halves.ofWord h.toWord = h := by
  have hl := h.left.toNat_lt
  have hr := h.right.toNat_lt
  have hw := toNat_toWord h
  cases h with
  | mk left right =>
    simp only [Halves.ofWord, Halves.mk.injEq]
    constructor
    · apply UInt32.toNat.inj
      rw [UInt64.toNat_toUInt32, toNat_shiftRight_32, hw]
      simp only at hl hr ⊢
      omega
    · apply UInt32.toNat.inj
      rw [UInt64.toNat_toUInt32, hw]
      simp only at hl hr ⊢
      omega

@[simp] theorem toWord_ofWord (x : UInt64) : (Halves.ofWord x).toWord = x := by
  have hx := x.toNat_lt
  apply UInt64.toNat.inj
  rw [toNat_toWord]
  simp only [Halves.ofWord, UInt64.toNat_toUInt32, toNat_shiftRight_32]
  omega

/-! ## Rounds -/

theorem round_swap_round (h : Halves) (key : UInt64) : round (round h key).swap key = h.swap := by
  simp only [round, Halves.swap, UInt32.xor_assoc, UInt32.xor_self, UInt32.xor_zero]

theorem foldl_round_reverse (keys : List UInt64) (h : Halves) :
    keys.reverse.foldl round (keys.foldl round h).swap = h.swap := by
  induction keys generalizing h with
  | nil => rfl
  | cons key keys ih =>
    rw [List.foldl_cons, List.reverse_cons, List.foldl_append, ih, List.foldl_cons, List.foldl_nil,
      round_swap_round]

/-- The round keys in reverse order undo the rounds. -/
theorem rounds_reverse (keys : List UInt64) (h : Halves) :
    rounds keys.reverse (rounds keys h) = h := by
  rw [rounds, rounds, foldl_round_reverse]
  rfl

theorem cryptWord_reverse (keys : List UInt64) (x : UInt64) :
    cryptWord keys.reverse (cryptWord keys x) = x := by
  rw [cryptWord, cryptWord, permute_initial_final, ofWord_toWord, rounds_reverse, toWord_ofWord,
    permute_final_initial]

/-! ## Blocks -/

@[simp] theorem length_crypt (keys : List UInt64) (block : Bytes) :
    (crypt keys block).length = 8 := by
  rw [crypt, Bytes.length_be]

theorem crypt_reverse (keys : List UInt64) {block : Bytes} (h : block.length = 8) :
    crypt keys.reverse (crypt keys block) = block := by
  have hw : ∀ w : UInt64, UInt64.ofNat (Bytes.toNat (Bytes.be 8 w.toNat)) = w := by
    intro w
    have := w.toNat_lt
    rw [Bytes.toNat_be, Nat.mod_eq_of_lt (by omega), UInt64.ofNat_toNat]
  have hb := Bytes.toNat_lt block
  rw [h] at hb
  rw [crypt, crypt, hw, cryptWord_reverse, UInt64.toNat_ofNat', Nat.mod_eq_of_lt (by omega),
    Bytes.be_toNat_of_length h]

/-- **Single DES is lawful under every key schedule.** -/
theorem lawful_ofSchedule (keys : List UInt64) : (ofSchedule keys).Lawful where
  pos := show 0 < 8 by decide
  length_encrypt _ _ := length_crypt _ _
  length_decrypt _ _ := length_crypt _ _
  decrypt_encrypt _ h := crypt_reverse keys h

theorem ofSchedule_reverse (keys : List UInt64) :
    ofSchedule keys.reverse = ⟨8, (ofSchedule keys).decrypt, (ofSchedule keys).encrypt⟩ := by
  simp only [ofSchedule, List.reverse_reverse]

theorem encrypt_decrypt (key : Bytes) {block : Bytes} (h : block.length = 8) :
    (cipher key).encrypt ((cipher key).decrypt block) = block := by
  have := (lawful_ofSchedule (schedule key).reverse).decrypt_encrypt block h
  rwa [ofSchedule_reverse] at this

/-- **Triple DES is lawful under every key.** -/
theorem lawful_tripleCipher (key : Bytes) : (tripleCipher key).Lawful where
  pos := show 0 < 8 by decide
  length_encrypt _ _ := length_crypt _ _
  length_decrypt _ _ := length_crypt _ _
  decrypt_encrypt block h := by
    -- the outer two ciphers have the same key, so the middle one meets its own inverse
    have first := (lawful_ofSchedule (schedule (key.take 8))).decrypt_encrypt
    show (cipher (key.take 8)).decrypt ((cipher (key.drop 8)).encrypt ((cipher (key.take 8)).decrypt
      ((cipher (key.take 8)).encrypt ((cipher (key.drop 8)).decrypt
        ((cipher (key.take 8)).encrypt block))))) = block
    generalize hx : (cipher (key.take 8)).encrypt block = x
    have hl : x.length = 8 := by
      rw [← hx]
      exact length_crypt _ _
    have inner : (cipher (key.take 8)).decrypt ((cipher (key.take 8)).encrypt
        ((cipher (key.drop 8)).decrypt x)) = (cipher (key.drop 8)).decrypt x :=
      first _ (length_crypt _ _)
    rw [inner, encrypt_decrypt _ hl, ← hx]
    exact first block h

end TravelDocument.Des

import TravelDocument.Proofs.Bytes
import TravelDocument.Cipher.Block

/-!
# Cipher block chaining under a lawful cipher

Over whole blocks `cbcEncrypt` keeps the length (`length_cbcEncrypt`) and `cbcDecrypt` undoes it
(`cbcDecrypt_cbcEncrypt`); both are by induction on the number of blocks.
-/

namespace TravelDocument.BlockCipher

variable {c : BlockCipher}

/-! ## One block at a time -/

theorem cbcEncrypt_nil (c : BlockCipher) (iv : Bytes) : c.cbcEncrypt iv [] = [] := by
  rw [cbcEncrypt]
  simp

theorem cbcDecrypt_nil (c : BlockCipher) (iv : Bytes) : c.cbcDecrypt iv [] = [] := by
  rw [cbcDecrypt]
  simp

theorem cbcEncrypt_append (hc : c.Lawful) (iv : Bytes) {block : Bytes} (rest : Bytes)
    (hb : block.length = c.blockSize) :
    c.cbcEncrypt iv (block ++ rest) =
      c.encrypt (Bytes.xor iv block) ++ c.cbcEncrypt (c.encrypt (Bytes.xor iv block)) rest := by
  have hpos := hc.pos
  rw [cbcEncrypt, if_neg (by rw [List.length_append]; omega), List.take_left' hb,
    List.drop_left' hb]

theorem cbcDecrypt_append (hc : c.Lawful) (iv : Bytes) {block : Bytes} (rest : Bytes)
    (hb : block.length = c.blockSize) :
    c.cbcDecrypt iv (block ++ rest) =
      Bytes.xor iv (c.decrypt block) ++ c.cbcDecrypt block rest := by
  have hpos := hc.pos
  rw [cbcDecrypt, if_neg (by rw [List.length_append]; omega), List.take_left' hb,
    List.drop_left' hb]

/-- Induction on the number of blocks of data. -/
theorem blocks_induction {blockSize : Nat} {P : Bytes → Prop} (nil : P [])
    (append : ∀ block rest : Bytes, block.length = blockSize → P rest → P (block ++ rest))
    {data : Bytes} (h : data.length % blockSize = 0) : P data := by
  obtain ⟨n, hn⟩ := Nat.dvd_of_mod_eq_zero h
  induction n generalizing data with
  | zero =>
    have : data = [] := List.length_eq_zero_iff.1 (by simpa using hn)
    exact this ▸ nil
  | succ n ih =>
    rw [Nat.mul_succ] at hn
    have hd : (data.drop blockSize).length = blockSize * n := by rw [List.length_drop]; omega
    have hr := ih (by rw [hd, Nat.mul_mod_right]) hd
    have ht : (data.take blockSize).length = blockSize := by
      rw [List.length_take, Nat.min_eq_left (by omega)]
    have := append _ _ ht hr
    rwa [List.take_append_drop] at this

/-! ## Whole messages -/

theorem length_cbcEncrypt (hc : c.Lawful) {iv data : Bytes} (hiv : iv.length = c.blockSize)
    (hd : data.length % c.blockSize = 0) : (c.cbcEncrypt iv data).length = data.length := by
  refine blocks_induction
    (P := fun data => ∀ iv, iv.length = c.blockSize →
      (c.cbcEncrypt iv data).length = data.length)
    ?_ ?_ hd iv hiv
  · intro iv _
    rw [cbcEncrypt_nil]
  · intro block rest hb ih iv hiv
    have hx : (c.encrypt (Bytes.xor iv block)).length = c.blockSize :=
      hc.length_encrypt _ (by rw [Bytes.length_xor, hiv, hb, Nat.min_self])
    rw [cbcEncrypt_append hc iv rest hb, List.length_append, List.length_append, ih _ hx, hx, hb]

theorem length_cbcDecrypt (hc : c.Lawful) {iv data : Bytes} (hiv : iv.length = c.blockSize)
    (hd : data.length % c.blockSize = 0) : (c.cbcDecrypt iv data).length = data.length := by
  refine blocks_induction
    (P := fun data => ∀ iv, iv.length = c.blockSize →
      (c.cbcDecrypt iv data).length = data.length)
    ?_ ?_ hd iv hiv
  · intro iv _
    rw [cbcDecrypt_nil]
  · intro block rest hb ih iv hiv
    rw [cbcDecrypt_append hc iv rest hb, List.length_append, List.length_append,
      Bytes.length_xor, hiv, hc.length_decrypt block hb, Nat.min_self, ih _ hb, hb]

/-- **Decryption in cipher block chaining mode undoes encryption.** -/
theorem cbcDecrypt_cbcEncrypt (hc : c.Lawful) {iv data : Bytes} (hiv : iv.length = c.blockSize)
    (hd : data.length % c.blockSize = 0) : c.cbcDecrypt iv (c.cbcEncrypt iv data) = data := by
  refine blocks_induction
    (P := fun data => ∀ iv, iv.length = c.blockSize →
      c.cbcDecrypt iv (c.cbcEncrypt iv data) = data)
    ?_ ?_ hd iv hiv
  · intro iv _
    rw [cbcEncrypt_nil, cbcDecrypt_nil]
  · intro block rest hb ih iv hiv
    have hl : (Bytes.xor iv block).length = c.blockSize := by
      rw [Bytes.length_xor, hiv, hb, Nat.min_self]
    have hx := hc.length_encrypt _ hl
    rw [cbcEncrypt_append hc iv rest hb, cbcDecrypt_append hc iv _ hx, hc.decrypt_encrypt _ hl,
      Bytes.xor_xor_cancel (hiv.trans hb.symm), ih _ hx]

end TravelDocument.BlockCipher

import TravelDocument.Proofs.Cipher.Aes
import TravelDocument.Proofs.Cipher.Chaining
import TravelDocument.Proofs.Cipher.Des
import TravelDocument.Proofs.Cipher.Padding
import TravelDocument.Cipher.Suite

/-!
# What every cipher suite does with keys of the right length

Under a key of the suite's size the block cipher is lawful (`lawful_cipher`). So encryption of whole
blocks never fails, keeps the length and is undone by decryption (`encrypt_spec`), and a MAC never
fails and has eight bytes (`mac_spec`).
-/

namespace TravelDocument

/-! ## Lengths of MACs -/

namespace Mac

/-- The number of bytes of every MAC that is sent. -/
def size : Nat := 8

@[simp] theorem length_retail (key data : Bytes) : (retail key data).length = size :=
  Des.length_crypt _ _

@[simp] theorem length_doubleBlock (block : Bytes) : (doubleBlock block).length = 16 := by
  rw [doubleBlock, Bytes.length_be]

theorem length_cmacFrom {cipher : BlockCipher} (hc : cipher.Lawful) (hs : cipher.blockSize = 16)
    {k1 k2 : Bytes} (h1 : k1.length = 16) (h2 : k2.length = 16) (chain data : Bytes)
    (hchain : chain.length = 16) : (cmacFrom cipher k1 k2 chain data).length = 16 := by
  have encrypted : ∀ {b : Bytes}, b.length = 16 →
      (cipher.encrypt (Bytes.xor chain b)).length = 16 := by
    intro b hb
    rw [hc.length_encrypt _ (by rw [Bytes.length_xor, hchain, hb, hs, Nat.min_self]), hs]
  by_cases hd : 16 < data.length
  · rw [cmacFrom, if_pos hd]
    exact length_cmacFrom hc hs h1 h2 _ _ (encrypted (by rw [List.length_take]; omega))
  · rw [cmacFrom, if_neg hd]
    apply encrypted
    split
    · rw [Bytes.length_xor]
      omega
    · rw [Bytes.length_xor, List.length_append, List.length_cons, List.length_replicate]
      omega
termination_by data.length
decreasing_by
  simp only [List.length_drop]
  omega

theorem length_cmac {cipher : BlockCipher} (hc : cipher.Lawful) (hs : cipher.blockSize = 16)
    (data : Bytes) : (cmac cipher data).length = 16 :=
  length_cmacFrom hc hs (length_doubleBlock _) (length_doubleBlock _) _ _ List.length_replicate

end Mac

namespace CipherSuite

variable (suite : CipherSuite)

theorem blockSize_pos : 0 < suite.blockSize := by cases suite <;> decide

@[simp] theorem blockSize_cipher (key : Bytes) :
    (suite.cipher key).blockSize = suite.blockSize := by
  cases suite <;> rfl

@[simp] theorem length_zeroIv : suite.zeroIv.length = suite.blockSize := List.length_replicate

/-! ## Ciphers -/

variable {suite} {key : Bytes} (hk : key.length = suite.keySize)
include hk

theorem lawful_cipher : (suite.cipher key).Lawful := by
  cases suite with
  | tdes => exact Des.lawful_tripleCipher key
  | aes128 => exact Aes.lawful_cipher (by rw [hk]; decide)
  | aes192 => exact Aes.lawful_cipher (by rw [hk]; decide)
  | aes256 => exact Aes.lawful_cipher (by rw [hk]; decide)

theorem checkLengths_ok {iv data : Bytes} (hiv : iv.length = suite.blockSize)
    (hd : data.length % suite.blockSize = 0) : suite.checkLengths key iv data = .ok () := by
  rw [checkLengths, if_neg (by omega), if_neg (by omega)]

/-- **Whole blocks are encrypted to as many blocks, and decryption gives them back.** -/
theorem encrypt_spec {iv data : Bytes} (hiv : iv.length = suite.blockSize)
    (hd : data.length % suite.blockSize = 0) :
    ∃ ciphertext, suite.encrypt key iv data = .ok ciphertext ∧
      ciphertext.length = data.length ∧ suite.decrypt key iv ciphertext = .ok data := by
  have hc := lawful_cipher hk
  have hiv' : iv.length = (suite.cipher key).blockSize := by rw [blockSize_cipher, hiv]
  have hd' : data.length % (suite.cipher key).blockSize = 0 := by rw [blockSize_cipher, hd]
  have hl := BlockCipher.length_cbcEncrypt hc hiv' hd'
  refine ⟨(suite.cipher key).cbcEncrypt iv data, ?_, hl, ?_⟩
  · rw [encrypt, checkLengths_ok hk hiv hd]
    rfl
  · rw [decrypt, checkLengths_ok hk hiv (by rw [hl, hd])]
    show Except.ok ((suite.cipher key).cbcDecrypt iv _) = _
    rw [BlockCipher.cbcDecrypt_cbcEncrypt hc hiv' hd']

omit hk in
/-- What is decrypted is a whole number of blocks. -/
theorem length_mod_of_decrypt_eq_ok {iv data plain : Bytes}
    (h : suite.decrypt key iv data = .ok plain) : data.length % suite.blockSize = 0 := by
  obtain ⟨_, hcheck, -⟩ := Except.bind_eq_ok.1 h
  rw [checkLengths] at hcheck
  split at hcheck
  · cases hcheck
  · split at hcheck
    · cases hcheck
    · omega

/-- Decryption keeps the length. -/
theorem length_decrypt {iv data plain : Bytes} (hiv : iv.length = suite.blockSize)
    (h : suite.decrypt key iv data = .ok plain) : plain.length = data.length := by
  have hd := length_mod_of_decrypt_eq_ok h
  rw [decrypt, checkLengths_ok hk hiv hd] at h
  cases h
  apply BlockCipher.length_cbcDecrypt (lawful_cipher hk)
  · rw [blockSize_cipher, hiv]
  · rw [blockSize_cipher, hd]

/-- The only data that is not decrypted is data that is not a whole number of blocks. -/
theorem decrypt_eq_error {iv data : Bytes} {e : CryptoError} (hiv : iv.length = suite.blockSize)
    (h : suite.decrypt key iv data = .error e) :
    data.length % suite.blockSize ≠ 0 ∧ e = .invalidDataLength suite.blockSize data.length := by
  by_cases hd : data.length % suite.blockSize = 0
  · rw [decrypt, checkLengths_ok hk hiv hd] at h
    cases h
  · rw [decrypt, checkLengths, if_neg (not_not.2 hk), if_pos (.inr hd)] at h
    cases h
    exact ⟨hd, rfl⟩

theorem decrypt_nil {iv : Bytes} (hiv : iv.length = suite.blockSize) :
    suite.decrypt key iv [] = .ok [] := by
  rw [decrypt, checkLengths_ok hk hiv (Nat.zero_mod _)]
  exact congrArg Except.ok (BlockCipher.cbcDecrypt_nil _ iv)

/-! ## MACs -/

/-- **A MAC never fails and has eight bytes.** -/
theorem mac_spec (data : Bytes) : ∃ m, suite.mac key data = .ok m ∧ m.length = Mac.size := by
  have cmac : ∀ {s : CipherSuite}, key.length = s.keySize → s.blockSize = 16 →
      ((Mac.cmac (s.cipher key) data).take 8).length = Mac.size := by
    intro s hs h16
    rw [List.length_take, Mac.length_cmac (lawful_cipher hs) (by rw [blockSize_cipher, h16])]
    rfl
  have hn : ¬ key.length ≠ suite.keySize := by omega
  cases suite with
  | tdes => exact ⟨_, if_neg hn, Mac.length_retail key data⟩
  | aes128 => exact ⟨_, if_neg hn, cmac hk rfl⟩
  | aes192 => exact ⟨_, if_neg hn, cmac hk rfl⟩
  | aes256 => exact ⟨_, if_neg hn, cmac hk rfl⟩

end CipherSuite
end TravelDocument

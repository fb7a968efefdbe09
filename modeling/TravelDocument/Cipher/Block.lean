import TravelDocument.Bytes

/-!
# Block ciphers and chaining

A block cipher under a fixed key is a pair of functions on blocks. `cbcEncrypt` and `cbcDecrypt` run
it in cipher block chaining mode over data that is a whole number of blocks.
-/

namespace TravelDocument

/-- A block cipher under a fixed key. -/
structure BlockCipher where
  blockSize : Nat
  encrypt : Bytes → Bytes
  decrypt : Bytes → Bytes

namespace BlockCipher

/-- What makes `decrypt` undo `encrypt`: both keep the block size, and they are inverse on
blocks. -/
structure Lawful (c : BlockCipher) : Prop where
  pos : 0 < c.blockSize
  length_encrypt : ∀ b : Bytes, b.length = c.blockSize → (c.encrypt b).length = c.blockSize
  length_decrypt : ∀ b : Bytes, b.length = c.blockSize → (c.decrypt b).length = c.blockSize
  decrypt_encrypt : ∀ b : Bytes, b.length = c.blockSize → c.decrypt (c.encrypt b) = b

/-- Encrypts whole blocks, each after adding the ciphertext of the one before or at first `iv`. -/
def cbcEncrypt (c : BlockCipher) (iv data : Bytes) : Bytes :=
  if c.blockSize = 0 ∨ data.length = 0 then []
  else
    let block := c.encrypt (Bytes.xor iv (data.take c.blockSize))
    block ++ c.cbcEncrypt block (data.drop c.blockSize)
termination_by data.length
decreasing_by
  simp only [List.length_drop]
  omega

/-- Decrypts whole blocks, adding to each the ciphertext of the one before or at first `iv`. -/
def cbcDecrypt (c : BlockCipher) (iv data : Bytes) : Bytes :=
  if c.blockSize = 0 ∨ data.length = 0 then []
  else
    let block := data.take c.blockSize
    Bytes.xor iv (c.decrypt block) ++ c.cbcDecrypt block (data.drop c.blockSize)
termination_by data.length
decreasing_by
  simp only [List.length_drop]
  omega

/-- The last ciphertext block of chaining over `data`, or `chain` if there is none. -/
def cbcLast (c : BlockCipher) (chain data : Bytes) : Bytes :=
  if c.blockSize = 0 ∨ data.length = 0 then chain
  else c.cbcLast (c.encrypt (Bytes.xor chain (data.take c.blockSize))) (data.drop c.blockSize)
termination_by data.length
decreasing_by
  simp only [List.length_drop]
  omega

end BlockCipher
end TravelDocument

import TravelDocument.Cipher.Aes
import TravelDocument.Cipher.Des

/-!
# Message authentication codes

Retail MAC (algorithm 3 of ISO/IEC 9797-1 with DES) and CMAC. Both chain over the data from a zero
block on; they differ in what is done to the last block.
-/

namespace TravelDocument.Mac

def fillZeros (blockSize : Nat) (data : Bytes) : Bytes :=
  data ++ List.replicate ((blockSize - data.length % blockSize) % blockSize) 0

/-- Retail MAC: chaining under the first half of the key, then decryption under the second half and
encryption under the first. -/
def retail (key data : Bytes) : Bytes :=
  let first := Des.cipher (key.take 8)
  let second := Des.cipher (key.drop 8)
  first.encrypt (second.decrypt (first.cbcLast (List.replicate 8 0) (fillZeros 8 data)))

/-- Doubles a sixteen-byte block as an element of the field of CMAC. -/
def doubleBlock (block : Bytes) : Bytes :=
  let n := Bytes.toNat block
  Bytes.be 16 (if n < 1 <<< 127 then 2 * n else (2 * n) ^^^ 0x87)

/-- Chains over all blocks but the last; the last one, if whole, is added to `k1`, and otherwise
padded and added to `k2`. -/
def cmacFrom (cipher : BlockCipher) (k1 k2 chain data : Bytes) : Bytes :=
  if 16 < data.length then
    cmacFrom cipher k1 k2 (cipher.encrypt (Bytes.xor chain (data.take 16))) (data.drop 16)
  else
    let last :=
      if data.length = 16 then Bytes.xor k1 data
      else Bytes.xor k2 (data ++ 0x80 :: List.replicate (15 - data.length) 0)
    cipher.encrypt (Bytes.xor chain last)
termination_by data.length
decreasing_by
  simp only [List.length_drop]
  omega

/-- CMAC with a cipher of sixteen-byte blocks. -/
def cmac (cipher : BlockCipher) (data : Bytes) : Bytes :=
  let k1 := doubleBlock (cipher.encrypt (List.replicate 16 0))
  cmacFrom cipher k1 (doubleBlock k1) (List.replicate 16 0) data

end TravelDocument.Mac

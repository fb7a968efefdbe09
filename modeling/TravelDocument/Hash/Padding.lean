import TravelDocument.Bytes

/-!
# Message padding of the SHA family

Both hash functions used here take blocks of 64 bytes as sixteen 32-bit words. A message is followed
by `80`, zeroes and its length in bits as a 64-bit integer.
-/

namespace TravelDocument.Hash

/-- A message followed by its padding; the length is a multiple of 64. -/
def padMessage (m : Bytes) : Bytes :=
  m ++ 0x80 :: (List.replicate ((119 - m.length % 64) % 64) 0 ++ Bytes.be 8 (8 * m.length))

/-- The 32-bit words of a byte string. -/
def wordsOfBytes : Bytes → List UInt32
  | a :: b :: c :: d :: rest =>
    ((a.toUInt32 <<< 24) ||| (b.toUInt32 <<< 16) ||| (c.toUInt32 <<< 8) ||| d.toUInt32) ::
      wordsOfBytes rest
  | _ => []

/-- The bytes of a 32-bit word. -/
def bytesOfWord (w : UInt32) : Bytes :=
  [(w >>> 24).toUInt8, (w >>> 16).toUInt8, (w >>> 8).toUInt8, w.toUInt8]

/-- Feeds the blocks of sixteen words to a compression function. -/
def foldBlocks {σ : Type} (compress : σ → List UInt32 → σ) (state : σ) (words : List UInt32) : σ :=
  if words.isEmpty then state
  else foldBlocks compress (compress state (words.take 16)) (words.drop 16)
termination_by words.length
decreasing_by
  cases words with
  | nil => simp_all
  | cons w ws =>
    simp only [List.length_drop, List.length_cons]
    omega

/-- Rotates a word to the left. -/
def rotl (w : UInt32) (n : UInt32) : UInt32 :=
  (w <<< n) ||| (w >>> (32 - n))

/-- Rotates a word to the right. -/
def rotr (w : UInt32) (n : UInt32) : UInt32 :=
  (w >>> n) ||| (w <<< (32 - n))

@[simp] theorem length_bytesOfWord (w : UInt32) : (bytesOfWord w).length = 4 := rfl

end TravelDocument.Hash

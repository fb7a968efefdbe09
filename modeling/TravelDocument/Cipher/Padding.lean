import TravelDocument.CryptoError
import TravelDocument.Bytes

/-!
# Padding method 2 of ISO/IEC 9797-1

A byte `80` and then zeroes up to the next whole number of blocks; a full block is added to data
that is a whole number of blocks already.
-/

namespace TravelDocument.Padding

/-- Pads data to a whole number of blocks. -/
def pad (blockSize : Nat) (data : Bytes) : Bytes :=
  data ++ 0x80 :: List.replicate (blockSize - 1 - data.length % blockSize) 0

/-- Takes the padding off again. -/
def unpad (data : Bytes) : Except CryptoError Bytes :=
  match data.reverse.dropWhile (· == 0) with
  | b :: rest => if b = 0x80 then .ok rest.reverse else .error .invalidPadding
  | [] => .error .invalidPadding

end TravelDocument.Padding

import TravelDocument.Bytes

/-!
# Unsigned integers with a precision

Integers are stored in 64-bit words, and how many bits an integer may occupy depends on where it
came from: one read from a byte string gets the bits of all bytes, leading zeroes included. The
precision of a modulus bounds the other numbers of its group. Conversions between precisions and to
byte strings keep the value or fail.
-/

namespace TravelDocument

/-- The number of bits of `n` without leading zeroes. -/
def bitLength (n : Nat) : Nat :=
  if n = 0 then 0 else Nat.log2 n + 1

/-- The number of bytes of `n` without leading zeroes. -/
def byteLength (n : Nat) : Nat :=
  (bitLength n + 7) / 8

/-- The bits of the words that hold `bits` bits; at least one word. -/
def wordBits (bits : Nat) : Nat :=
  64 * max 1 ((bits + 63) / 64)

/-- An unsigned integer and the number of bits it is stored in. -/
structure SizedNat where
  value : Nat
  precision : Nat
  deriving DecidableEq, Repr

namespace SizedNat

/-- The bytes of the words an integer is stored in, leading zeroes included. -/
def toBytes (n : SizedNat) : Bytes :=
  Bytes.be (n.precision / 8) n.value

/-- Stores a byte string in `bits` bits, if there are not more bytes than bytes of these bits and
its value needs no more than these bits. -/
def store? (bits : Nat) (b : Bytes) : Option SizedNat :=
  if b.length ≤ (bits + 7) / 8 ∧ bitLength (Bytes.toNat b) ≤ bits then
    some ⟨Bytes.toNat b, wordBits bits⟩
  else none

/-- Reads a byte string with the precision of its length. Left out is the limit that this number of
bits is one of 32 bits: the program stops at byte strings of `2 ^ 29` bytes (512 MiB) and more. -/
def ofBytes (b : Bytes) : SizedNat :=
  ⟨Bytes.toNat b, wordBits (8 * max 1 b.length)⟩

/-- Reads a byte string into `bits` bits. Leading zeroes are skipped. -/
def read? (bits : Nat) (b : Bytes) : Option SizedNat :=
  store? bits (Bytes.stripZeros b)

/-- Moves an integer to another precision, if its value fits. -/
def resize? (bits : Nat) (n : SizedNat) : Option SizedNat :=
  read? bits n.toBytes

/-- The integer in exactly `width` bytes, if it fits. -/
def bytes? (width : Nat) (n : SizedNat) : Option Bytes :=
  let significant := Bytes.stripZeros n.toBytes
  if significant.length ≤ width then
    some (List.replicate (width - significant.length) 0 ++ significant)
  else none

end SizedNat
end TravelDocument

import TravelDocument.Bytes

/-!
# Hexadecimal text

Upper-case digits, two a byte, without separators.
-/

namespace TravelDocument.Hex

/-- The upper-case hexadecimal digit of `n < 16`. -/
def digit (n : Nat) : Char :=
  if n < 10 then Char.ofNat (48 + n) else Char.ofNat (55 + n)

/-- The two digits of a byte. -/
def ofByte (b : UInt8) : List Char :=
  [digit (b.toNat / 16), digit (b.toNat % 16)]

def ofBytes (b : Bytes) : String :=
  String.ofList (b.flatMap ofByte)

end TravelDocument.Hex

import TravelDocument.Encoding.Tlv

/-!
# ECDSA signatures

Signers return `SEQUENCE { r INTEGER, s INTEGER }`; the card wants the two integers side by side,
each in as many bytes as an element of the field.
-/

namespace TravelDocument.EcdsaSignature

/-- The magnitude of a non-negative INTEGER in exactly `size` bytes. -/
def half? (size : Nat) (integer : Bytes) : Option Bytes :=
  let magnitude := Bytes.stripZeros integer
  if magnitude.length ≤ size then some (List.replicate (size - magnitude.length) 0 ++ magnitude)
  else none

def plain? (size : Nat) (der : Bytes) : Option Bytes := do
  let contents ← DataObject.single? 0x30 der
  match ← DataObject.all? contents with
  | [r, s] =>
    if r.tag = 0x02 ∧ s.tag = 0x02 then
      return (← half? size r.value) ++ (← half? size s.value)
    else none
  | _ => none

end TravelDocument.EcdsaSignature

import TravelDocument.Text.Quoted

/-!
# Check digits of the machine-readable zone

The characters of a field are weighted with 7, 3, 1, 7, 3, 1, … and summed modulo ten. Digits
count their own value, `A` to `Z` count 10 to 35, and every other character counts nothing but still
takes a weight.
-/

namespace TravelDocument.Mrz

/-- The weight of the character at a position. -/
def weight (position : Nat) : UInt8 :=
  match position % 3 with
  | 0 => 7
  | 1 => 3
  | _ => 1

def characterValue (b : UInt8) : UInt8 :=
  if 48 ≤ b ∧ b ≤ 57 then b - 48
  else if 65 ≤ b ∧ b ≤ 90 then b + 10 - 65
  else 0

/-- The check digit of further characters, the first of them at `position`, after ones that have
come to `digit` so far. Eight bits suffice: `35 * 7 + 9` is 254. -/
def checkDigitFrom (position : Nat) (digit : UInt8) : Bytes → UInt8
  | [] => digit
  | b :: rest =>
    checkDigitFrom (position + 1) ((digit + characterValue b * weight position) % 10) rest

def checkDigit (field : Bytes) : UInt8 :=
  checkDigitFrom 0 0 field

def checkCharacter (field : List Char) : Char :=
  Char.ofNat (48 + (checkDigit (field.flatMap String.utf8EncodeChar)).toNat)

end TravelDocument.Mrz

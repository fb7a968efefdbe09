/-!
# Reading unsigned integers

An optional plus sign followed by at least one digit. Reading goes from left to right and the first
fault met decides what is reported, so `10000g` is too large in sixteen bits while `1000g` holds an
invalid digit.
-/

namespace TravelDocument.Text

/-- Why a text is no unsigned integer. -/
inductive UnsignedError where
  | empty
  | invalidDigit
  | tooLarge
  deriving DecidableEq, Repr

namespace UnsignedError

def message : UnsignedError → String
  | .empty => "cannot parse integer from empty string"
  | .invalidDigit => "invalid digit found in string"
  | .tooLarge => "number too large to fit in target type"

end UnsignedError

/-- The value of a digit in bases up to 36; letters of either case. -/
def digitValue? (c : Char) : Option Nat :=
  if '0' ≤ c ∧ c ≤ '9' then some (c.toNat - '0'.toNat)
  else if 'a' ≤ c ∧ c ≤ 'z' then some (c.toNat - 'a'.toNat + 10)
  else if 'A' ≤ c ∧ c ≤ 'Z' then some (c.toNat - 'A'.toNat + 10)
  else none

/-- Reads further digits after a number of value `n`. -/
def readDigits (base limit n : Nat) : List Char → Except UnsignedError Nat
  | [] => .ok n
  | c :: cs =>
    match (digitValue? c).filter (· < base) with
    | none => .error .invalidDigit
    | some d => if limit ≤ base * n + d then .error .tooLarge else readDigits base limit
      (base * n + d) cs

/-- Reads an unsigned integer below `limit`. -/
def readUnsigned (base limit : Nat) : List Char → Except UnsignedError Nat
  | [] => .error .empty
  | ['+'] => .error .invalidDigit
  | '+' :: cs => readDigits base limit 0 cs
  | cs => readDigits base limit 0 cs

end TravelDocument.Text

import Mathlib.Data.Nat.ModEq
import TravelDocument.Mrz.CheckDigit

/-!
# Check digits are weighted sums

* The digit that is computed byte by byte, reduced at every character, is the remainder of one sum
  without any bound on it (`toNat_checkDigit`), and eight bits suffice for every number on the way
  (`checkedDigitFrom_eq`).
* The weights repeat after three characters and have no factor in common with ten. So fields can be
  taken together, and exactly the replacements by a character of the same value modulo ten go
  unnoticed (`checkDigit_exact`).
-/

namespace TravelDocument.Mrz

/-! ## The weighted sum -/

/-- The characters that count anything, in the order of what they count: the digits and the
letters. -/
def alphabet : List Nat :=
  List.range' 48 10 ++ List.range' 65 26

example : "0123456789ABCDEFGHIJKLMNOPQRSTUVWXYZ".toList.map Char.toNat = alphabet := by decide

/-- The place of a character in the alphabet; other characters count nothing. -/
def numericValue (b : UInt8) : Nat :=
  (alphabet.idxOf? b.toNat).getD 0

/-- The weights are 7, 3, 1, 7, 3, 1, … -/
def weightAt (position : Nat) : Nat :=
  [7, 3, 1].getD (position % 3) 0

/-- The sum of value times weight over characters of which the first is at `position`. -/
def weightedSumFrom (position : Nat) (field : Bytes) : Nat :=
  (field.mapIdx fun i b => numericValue b * weightAt (position + i)).sum

def weightedSum (field : Bytes) : Nat :=
  weightedSumFrom 0 field

/-- What can be looked through for all bytes holds for each of them. -/
theorem forall_byte {p : UInt8 → Prop} (h : ∀ n < 256, p (UInt8.ofNat n)) (b : UInt8) :
    p b := by
  simpa using h b.toNat b.toNat_lt

theorem toNat_characterValue (b : UInt8) : (characterValue b).toNat = numericValue b :=
  forall_byte (p := fun b => (characterValue b).toNat = numericValue b) (by decide +kernel) b

theorem characterValue_le (b : UInt8) : (characterValue b).toNat ≤ 35 :=
  forall_byte (p := fun b => (characterValue b).toNat ≤ 35) (by decide +kernel) b

theorem weightAt_cases (position : Nat) :
    weightAt position = 7 ∨ weightAt position = 3 ∨ weightAt position = 1 := by
  have h : position % 3 = 0 ∨ position % 3 = 1 ∨ position % 3 = 2 := by omega
  rcases h with h | h | h <;> simp [weightAt, h]

theorem toNat_weight (position : Nat) : (weight position).toNat = weightAt position := by
  have h : position % 3 = 0 ∨ position % 3 = 1 ∨ position % 3 = 2 := by omega
  rcases h with h | h | h <;> simp [weight, weightAt, h]

/-- No weight has a factor in common with ten. -/
theorem gcd_weightAt (position : Nat) : Nat.gcd 10 (weightAt position) = 1 := by
  rcases weightAt_cases position with h | h | h <;> rw [h] <;> rfl

theorem weightAt_add {first : Nat} (h : 3 ∣ first) (position : Nat) :
    weightAt (first + position) = weightAt position := by
  rw [weightAt, weightAt, Nat.add_mod, Nat.mod_eq_zero_of_dvd h, Nat.zero_add, Nat.mod_mod]

theorem weightedSumFrom_cons (position : Nat) (b : UInt8) (rest : Bytes) :
    weightedSumFrom position (b :: rest) =
      numericValue b * weightAt position + weightedSumFrom (position + 1) rest := by
  rw [weightedSumFrom, List.mapIdx_cons, List.sum_cons, weightedSumFrom]
  simp only [Nat.add_zero, Nat.add_assoc, Nat.add_comm 1]

theorem weightedSumFrom_append (position : Nat) (a b : Bytes) :
    weightedSumFrom position (a ++ b) =
      weightedSumFrom position a + weightedSumFrom (position + a.length) b := by
  rw [weightedSumFrom, List.mapIdx_append, List.sum_append, weightedSumFrom, weightedSumFrom]
  simp only [Nat.add_assoc, Nat.add_comm a.length]

/-- The weights start again after a multiple of three characters. -/
theorem weightedSumFrom_of_dvd {position : Nat} (h : 3 ∣ position) (field : Bytes) :
    weightedSumFrom position field = weightedSum field := by
  simp only [weightedSum, weightedSumFrom, weightAt_add h, Nat.zero_add]

/-! ## Eight bits -/

/-- Sum, difference and product of bytes, unless that takes more than eight bits or is below
zero. -/
def checkedAdd (a b : UInt8) : Option UInt8 :=
  if a.toNat + b.toNat < 256 then some (a + b) else none

def checkedSub (a b : UInt8) : Option UInt8 :=
  if b.toNat ≤ a.toNat then some (a - b) else none

def checkedMul (a b : UInt8) : Option UInt8 :=
  if a.toNat * b.toNat < 256 then some (a * b) else none

/-- `characterValue` with every operation checked. -/
def checkedValue (b : UInt8) : Option UInt8 :=
  if 48 ≤ b ∧ b ≤ 57 then checkedSub b 48
  else if 65 ≤ b ∧ b ≤ 90 then (checkedAdd b 10).bind (checkedSub · 65)
  else some 0

/-- `checkDigitFrom` with every operation checked. -/
def checkedDigitFrom (position : Nat) (digit : UInt8) : Bytes → Option UInt8
  | [] => some digit
  | b :: rest => do
    let value ← checkedValue b
    let weighted ← checkedMul value (weight position)
    let sum ← checkedAdd digit weighted
    checkedDigitFrom (position + 1) (sum % 10) rest

theorem checkedValue_eq (b : UInt8) : checkedValue b = some (characterValue b) :=
  forall_byte (p := fun b => checkedValue b = some (characterValue b)) (by decide +kernel) b

/-- The largest product is `35 * 7`. -/
theorem weighted_le (position : Nat) (b : UInt8) :
    (characterValue b).toNat * (weight position).toNat ≤ 245 := by
  have hweight : weightAt position ≤ 7 := by
    rcases weightAt_cases position with h | h | h <;> omega
  rw [toNat_weight]
  exact Nat.mul_le_mul (characterValue_le b) hweight

/-- One character: what is left of the digit and its weighted value. -/
theorem toNat_step {digit : UInt8} (hd : digit.toNat < 10) (position : Nat) (b : UInt8) :
    ((digit + characterValue b * weight position) % 10).toNat =
      (digit.toNat + numericValue b * weightAt position) % 10 := by
  have hle := weighted_le position b
  rw [← toNat_characterValue, ← toNat_weight, UInt8.toNat_mod, UInt8.toNat_add, UInt8.toNat_mul]
  simp only [UInt8.reduceToNat]
  omega

theorem toNat_step_lt (digit : UInt8) (position : Nat) (b : UInt8) :
    ((digit + characterValue b * weight position) % 10).toNat < 10 := by
  rw [UInt8.toNat_mod]
  exact Nat.mod_lt _ (by decide)

/-- **No operation on the way to a check digit overflows.** -/
theorem checkedDigitFrom_eq {position : Nat} {digit : UInt8} {field : Bytes}
    (hd : digit.toNat < 10) :
    checkedDigitFrom position digit field = some (checkDigitFrom position digit field) := by
  induction field generalizing position digit with
  | nil => rfl
  | cons b rest ih =>
    have hle := weighted_le position b
    have hmul : checkedMul (characterValue b) (weight position) =
        some (characterValue b * weight position) := if_pos (by omega)
    have hadd : checkedAdd digit (characterValue b * weight position) =
        some (digit + characterValue b * weight position) := by
      refine if_pos ?_
      rw [UInt8.toNat_mul]
      omega
    simp only [checkedDigitFrom, checkedValue_eq, hmul, hadd, Option.bind_eq_bind, Option.bind_some]
    exact ih (toNat_step_lt digit position b)

/-! ## The digit of a field -/

theorem toNat_checkDigitFrom {position : Nat} {digit : UInt8} {field : Bytes}
    (hd : digit.toNat < 10) :
    (checkDigitFrom position digit field).toNat =
      (digit.toNat + weightedSumFrom position field) % 10 := by
  induction field generalizing position digit with
  | nil => exact (Nat.mod_eq_of_lt hd).symm
  | cons b rest ih =>
    rw [checkDigitFrom, ih (toNat_step_lt digit position b), toNat_step hd, weightedSumFrom_cons,
      Nat.mod_add_mod, Nat.add_assoc]

/-- **The check digit is the weighted sum modulo ten.** -/
theorem toNat_checkDigit (field : Bytes) : (checkDigit field).toNat = weightedSum field % 10 := by
  rw [checkDigit, toNat_checkDigitFrom (by decide), UInt8.toNat_zero, Nat.zero_add, weightedSum]

theorem checkDigit_eq_iff {a b : Bytes} :
    checkDigit a = checkDigit b ↔ weightedSum a ≡ weightedSum b [MOD 10] := by
  rw [← UInt8.toNat_inj, toNat_checkDigit, toNat_checkDigit, Nat.ModEq]

theorem weightedSum_append {a : Bytes} (h : 3 ∣ a.length) (b : Bytes) :
    weightedSum (a ++ b) = weightedSum a + weightedSum b := by
  rw [weightedSum, weightedSumFrom_append, Nat.zero_add, weightedSumFrom_of_dvd h, weightedSum,
    weightedSum]

/-- What one character contributes to the sum. -/
theorem weightedSum_replace (front : Bytes) (c : UInt8) (back : Bytes) :
    weightedSum (front ++ c :: back) = weightedSum front +
      (numericValue c * weightAt front.length + weightedSumFrom (front.length + 1) back) := by
  rw [weightedSum, weightedSumFrom_append, Nat.zero_add, weightedSumFrom_cons, weightedSum]

theorem checkDigit_replace_iff (front : Bytes) (c d : UInt8) (back : Bytes) :
    checkDigit (front ++ c :: back) = checkDigit (front ++ d :: back) ↔
      numericValue c ≡ numericValue d [MOD 10] := by
  rw [checkDigit_eq_iff, weightedSum_replace, weightedSum_replace]
  constructor
  · intro h
    have hweighted := (h.add_left_cancel' _).add_right_cancel' _
    exact hweighted.cancel_right_of_coprime (gcd_weightAt front.length)
  · intro h
    exact ((h.mul_right _).add_right _).add_left _

/-- **Check digits are weighted sums and catch substitutions.** The digit of a field is the sum of
value times weight modulo ten, and no operation on the way overflows eight bits. The digits of
fields that are put together add up, if the first has a multiple of three characters. One character
put in the place of another changes the digit, at any position of any field, exactly if their values
differ modulo ten. -/
theorem checkDigit_exact :
    (∀ field, (checkDigit field).toNat = weightedSum field % 10) ∧
    (∀ field, checkedDigitFrom 0 0 field = some (checkDigit field)) ∧
    (∀ a b, 3 ∣ a.length →
      (checkDigit (a ++ b)).toNat = ((checkDigit a).toNat + (checkDigit b).toNat) % 10) ∧
    ∀ front c d back, checkDigit (front ++ c :: back) ≠ checkDigit (front ++ d :: back) ↔
      numericValue c % 10 ≠ numericValue d % 10 := by
  refine ⟨toNat_checkDigit, fun field => checkedDigitFrom_eq (by decide), fun a b h => ?_, ?_⟩
  · rw [toNat_checkDigit, toNat_checkDigit, toNat_checkDigit, weightedSum_append h, Nat.add_mod]
  · intro front c d back
    exact not_congr (checkDigit_replace_iff front c d back)

/-- The dates of the specimen, with the digits 1 and 6 of their own. `L` counts 21 and may be taken
for a one, but not for an `I`. -/
theorem checkDigit_exact_specimen :
    let birth : Bytes := [0x36, 0x39, 0x30, 0x38, 0x30, 0x36]
    let expiry : Bytes := [0x39, 0x34, 0x30, 0x36, 0x32, 0x33]
    let back : Bytes := [0x38, 0x39, 0x38, 0x39, 0x30, 0x32, 0x43, 0x3C]
    3 ∣ birth.length ∧ (checkDigit (birth ++ expiry)).toNat = (1 + 6) % 10 ∧
      checkDigit (0x4C :: back) = checkDigit (0x31 :: back) ∧
      checkDigit (0x4C :: back) ≠ checkDigit (0x49 :: back) := by
  intro birth expiry back
  obtain ⟨-, -, happend, hreplace⟩ := checkDigit_exact
  have hdvd : 3 ∣ birth.length := by decide
  refine ⟨hdvd, happend birth expiry hdvd, ?_, (hreplace [] 0x4C 0x49 back).2 (by decide)⟩
  exact not_ne_iff.1 ((not_congr (hreplace [] 0x4C 0x31 back)).2 (by decide))

end TravelDocument.Mrz

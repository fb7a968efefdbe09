/-!
# Byte strings and the unsigned integers they spell

All integers on the card interface are unsigned and big-endian. `Bytes.toNat` reads a byte string
of any length, `Bytes.digits` writes the shortest one, `Bytes.be` the one of a given width and
`Bytes.fixed?` the one of a given width if the integer fits.
-/

namespace TravelDocument

abbrev Bytes := List UInt8

namespace Bytes

/-- The unsigned integer with the big-endian digits `b`; leading zeroes do not matter. -/
def toNat (b : Bytes) : Nat :=
  b.foldl (fun n d => 256 * n + d.toNat) 0

/-- The big-endian digits of `n` in front of `acc`. -/
def digitsOnto (n : Nat) (acc : Bytes) : Bytes :=
  if n = 0 then acc else digitsOnto (n / 256) (UInt8.ofNat n :: acc)
termination_by n
decreasing_by omega

/-- The big-endian digits of `n` without leading zeroes, so none at all for zero. -/
def digits (n : Nat) : Bytes :=
  digitsOnto n []

/-- The big-endian digits of `n`, at least one of them. -/
def minimal (n : Nat) : Bytes :=
  if n = 0 then [0] else digits n

/-- The low-order `width` bytes of `n`. -/
def be : Nat → Nat → Bytes
  | 0, _ => []
  | width + 1, n => be width (n / 256) ++ [UInt8.ofNat n]

/-- `n` in exactly `width` bytes, if it fits. -/
def fixed? (n width : Nat) : Option Bytes :=
  let d := digits n
  if d.length ≤ width then some (List.replicate (width - d.length) 0 ++ d) else none

def stripZeros (b : Bytes) : Bytes :=
  b.dropWhile (· == 0)

/-- Bytewise exclusive or, as long as the shorter operand. -/
def xor (a b : Bytes) : Bytes :=
  List.zipWith (· ^^^ ·) a b

@[simp] theorem toNat_nil : toNat [] = 0 := rfl

@[simp] theorem length_be (width n : Nat) : (be width n).length = width := by
  induction width generalizing n with
  | zero => rfl
  | succ w ih => simp [be, ih]

theorem length_fixed? {n width : Nat} {b : Bytes} (h : fixed? n width = some b) :
    b.length = width := by
  simp only [fixed?] at h
  split at h
  · cases h
    simp only [List.length_append, List.length_replicate]
    omega
  · cases h

@[simp] theorem length_xor (a b : Bytes) : (xor a b).length = min a.length b.length := by
  simp [xor]

end Bytes
end TravelDocument

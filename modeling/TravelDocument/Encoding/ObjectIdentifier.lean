import TravelDocument.Bytes

/-!
# Object identifiers

An object identifier is a list of 32-bit arcs. The contents of its encoding are subidentifiers in
base 128, the first of which combines the first two arcs.
-/

namespace TravelDocument

/-- The arcs of an object identifier. -/
abbrev ObjectIdentifier := List UInt32

namespace ObjectIdentifier

/-- The base-128 digits of `n`, none for zero, each with the top bit set. -/
def leadingGroups (n : Nat) : Bytes :=
  if n = 0 then [] else leadingGroups (n / 128) ++ [UInt8.ofNat (128 + n % 128)]
termination_by n
decreasing_by omega

/-- The base-128 digits of `n`, all but the last with the top bit set. -/
def subidentifier (n : Nat) : Bytes :=
  leadingGroups (n / 128) ++ [UInt8.ofNat (n % 128)]

/-- Why an object identifier has no encoding. -/
inductive EncodeError where
  /-- The first two arcs are not those of an object identifier. -/
  | invalid
  /-- The number of the first two arcs does not fit in 32 bits. The program does not refuse it; the
  addition stops it. -/
  | overflow
  deriving DecidableEq, Repr

/-- The contents of the encoding. The first arc is 0, 1 or 2, and the second below 40 unless the
first is 2; the first subidentifier is `40 * a + b`, computed in 32 bits. -/
def encode : ObjectIdentifier → Except EncodeError Bytes
  | a :: b :: arcs =>
    let combined := 40 * a.toNat + b.toNat
    if 2 < a ∨ (a < 2 ∧ 39 < b) then .error .invalid
    else if UInt32.size ≤ combined then .error .overflow
    else .ok (subidentifier combined ++ arcs.flatMap fun arc => subidentifier arc.toNat)
  | _ => .error .invalid

/-- The contents of the encoding of an object identifier that has one. -/
def encode? (oid : ObjectIdentifier) : Option Bytes := (encode oid).toOption

/-- Reads the subidentifiers in the input after one that has come to `n` so far. Each is kept to its
low 32 bits; an unfinished one is refused. -/
def subidentifiersFrom? (n : UInt32) : Bytes → Option (List UInt32)
  | [] => none
  | [b] => if b.toNat < 128 then some [n * 128 + b.toUInt32] else none
  | b :: rest =>
    if b.toNat < 128 then (subidentifiersFrom? 0 rest).map ((n * 128 + b.toUInt32) :: ·)
    else subidentifiersFrom? (n * 128 + (b.toUInt32 - 128)) rest

/-- Splits the first subidentifier into the first two arcs. -/
def splitFirst (g : UInt32) : ObjectIdentifier :=
  if 119 < g then [2, g - 80] else [g / 40, g % 40]

/-- Reads the contents of an encoding. -/
def decode? (contents : Bytes) : Option ObjectIdentifier :=
  match subidentifiersFrom? 0 contents with
  | some (g :: arcs) => some (splitFirst g ++ arcs)
  | _ => none

/-- The arcs in decimal, separated by dots. -/
def dotted (oid : ObjectIdentifier) : String :=
  ".".intercalate (oid.map fun arc => arc.toNat.repr)

end ObjectIdentifier
end TravelDocument

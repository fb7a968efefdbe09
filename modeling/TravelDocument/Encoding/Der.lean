import TravelDocument.Bytes

/-!
# Elements of a DER value

Files that are ASN.1 values are read by class, constructed bit and number of their identifiers. The
reader is lenient where a number or a length has leading zeroes and strict on truncation.
-/

namespace TravelDocument.Der

/-- The identifier of an element: class 0 is universal. -/
structure Identifier where
  cls : Nat
  constructed : Bool
  number : Nat
  deriving DecidableEq, Repr

/-- One element: its identifier and contents. -/
structure Element where
  identifier : Identifier
  contents : Bytes
  deriving DecidableEq, Repr

namespace Identifier

/-- A universal identifier with the given number, whatever the constructed bit. -/
def isUniversal (i : Identifier) (number : Nat) : Bool :=
  i.cls == 0 && i.number == number

end Identifier

/-- Reads a long-form number after digits that have come to `n` so far; only its low 32 bits are
kept. -/
def decodeNumber? (n : Nat) : Bytes → Option (Nat × Bytes)
  | [] => none
  | b :: rest =>
    let n := (n * 128 + b.toNat % 128) % UInt32.size
    if b.toNat < 128 then some (n, rest) else decodeNumber? n rest

/-- The number of an identifier whose first byte has the low five bits `low`: those bits, or the
bytes that follow if they are all set. -/
def decodeNumberAfter? (low : Nat) (rest : Bytes) : Option (Nat × Bytes) :=
  if low = 31 then decodeNumber? 0 rest else some (low, rest)

/-- Reads an identifier; the universal number 0 is refused. -/
def decodeIdentifier? : Bytes → Option (Identifier × Bytes)
  | [] => none
  | b :: rest => do
    let (number, rest) ← decodeNumberAfter? (b.toNat % 32) rest
    let identifier : Identifier := ⟨b.toNat / 64, b.toNat / 32 % 2 == 1, number⟩
    if identifier.isUniversal 0 then none else some (identifier, rest)

/-- Reads a definite length of at most eight length bytes; `80` and `FF` are refused. -/
def decodeLength? : Bytes → Option (Nat × Bytes)
  | [] => none
  | b :: rest =>
    if b.toNat < 128 then some (b.toNat, rest)
    else
      let count := b.toNat - 128
      if count = 0 ∨ 8 < count ∨ rest.length < count then none
      else some (Bytes.toNat (rest.take count), rest.drop count)

/-- Reads an element from the front of the input. -/
def decode? (input : Bytes) : Option (Element × Bytes) := do
  let (identifier, afterIdentifier) ← decodeIdentifier? input
  let (length, afterLength) ← decodeLength? afterIdentifier
  if afterLength.length < length then none
  else some (⟨identifier, afterLength.take length⟩, afterLength.drop length)

theorem length_decodeNumber? {n m : Nat} {input rest : Bytes}
    (h : decodeNumber? n input = some (m, rest)) : rest.length < input.length := by
  induction input generalizing n with
  | nil => simp [decodeNumber?] at h
  | cons b bs ih =>
    simp only [decodeNumber?] at h
    split at h
    · cases h
      simp
    · have := ih h
      simp only [List.length_cons]
      omega

theorem length_decodeNumberAfter? {low m : Nat} {input rest : Bytes}
    (h : decodeNumberAfter? low input = some (m, rest)) : rest.length ≤ input.length := by
  simp only [decodeNumberAfter?] at h
  split at h
  · exact Nat.le_of_lt (length_decodeNumber? h)
  · cases h
    exact Nat.le_refl _

theorem length_decodeIdentifier? {input rest : Bytes} {i : Identifier}
    (h : decodeIdentifier? input = some (i, rest)) : rest.length < input.length := by
  cases input with
  | nil => simp [decodeIdentifier?] at h
  | cons b bs =>
    simp only [decodeIdentifier?, Option.bind_eq_bind, Option.bind_eq_some_iff] at h
    obtain ⟨⟨number, r⟩, hr, h⟩ := h
    have := length_decodeNumberAfter? hr
    simp only at h
    split at h
    · cases h
    · cases h
      simp only [List.length_cons]
      omega

theorem length_decodeLength? {input rest : Bytes} {n : Nat}
    (h : decodeLength? input = some (n, rest)) : rest.length < input.length := by
  cases input with
  | nil => simp [decodeLength?] at h
  | cons b bs =>
    simp only [decodeLength?] at h
    split at h
    · cases h
      simp
    · split at h
      · cases h
      · obtain ⟨-, rfl⟩ := Prod.mk.inj (Option.some.inj h)
        simp only [List.length_drop, List.length_cons]
        omega

/-- Reading an element consumes input. -/
theorem length_decode? {input rest : Bytes} {e : Element}
    (h : decode? input = some (e, rest)) : rest.length < input.length := by
  simp only [decode?, Option.bind_eq_bind, Option.bind_eq_some_iff] at h
  obtain ⟨⟨i, r⟩, hi, ⟨n, r'⟩, hn, h⟩ := h
  have h1 := length_decodeIdentifier? hi
  have h2 := length_decodeLength? hn
  simp only at h h2
  split at h
  · cases h
  · cases h
    simp only [List.length_drop]
    omega

/-- Reads elements up to the end of the input. -/
def decodeAll? (input : Bytes) : Option (List Element) :=
  if input.isEmpty then some []
  else
    match h : decode? input with
    | none => none
    | some (e, rest) =>
      have := length_decode? h
      (decodeAll? rest).map (e :: ·)
termination_by input.length

/-- The elements of a constructed element with the given universal number. -/
def Element.children? (e : Element) (number : Nat) : Option (List Element) :=
  if e.identifier.isUniversal number && e.identifier.constructed then decodeAll? e.contents
  else none

/-- The contents of an INTEGER as a 32-bit unsigned integer. Contents of more than four bytes first
lose every leading byte that only extends the sign; then one to four bytes have to remain, and they
are read without sign. -/
def unsigned32? (contents : Bytes) : Option UInt32 :=
  let significant :=
    if contents.length ≤ 4 then contents
    else
      let filler : UInt8 := if 128 ≤ (contents.headD 0).toNat then 0xFF else 0
      contents.dropWhile (· == filler)
  if significant.isEmpty ∨ 4 < significant.length then none
  else some (UInt32.ofNat (Bytes.toNat significant))

end TravelDocument.Der

import TravelDocument.Bytes

/-!
# BER-TLV data objects

A data object is a tag, a length and that many bytes of value. Tags are taken as the big-endian
integer of their bytes and have at most four of them; lengths are below `2 ^ 64` and definite.

`DataObject.encode` writes one object with the shortest length field, `DataObject.decode?` reads one
from the front of a byte string, and `walk` reads as many as there are.
-/

namespace TravelDocument

/-- A data object as found in a byte string. -/
structure DataObject where
  tag : Nat
  value : Bytes
  /-- Tag, length field and value as they stood in the input. -/
  raw : Bytes
  deriving DecidableEq, Repr

namespace DataObject

/-! ## Lengths -/

/-- The shortest length field of `n`: one byte below 128, otherwise the number of length bytes with
the top bit set and the length bytes. -/
def encodeLength (n : Nat) : Bytes :=
  if n < 128 then [UInt8.ofNat n]
  else UInt8.ofNat (128 + (Bytes.digits n).length) :: Bytes.digits n

/-- Reads a length field; the rest of the input comes with it. Any number of length bytes from 1 to
127 is accepted as long as they spell less than `2 ^ 64`. -/
def decodeLength? : Bytes → Option (Nat × Bytes)
  | [] => none
  | b :: rest =>
    if b.toNat < 128 then some (b.toNat, rest)
    else
      let count := b.toNat - 128
      if count = 0 ∨ rest.length < count then none
      else
        let n := Bytes.toNat (rest.take count)
        if n < UInt64.size then some (n, rest.drop count) else none

/-! ## Tags -/

/-- Reads the bytes of a tag that follow the ones spelling `tag`, up to the first without top
bit. -/
def decodeTagRest? (tag : Nat) : Bytes → Option (Nat × Bytes)
  | [] => none
  | b :: rest =>
    if UInt32.size ≤ 256 * tag then none
    else if b.toNat < 128 then some (256 * tag + b.toNat, rest)
    else decodeTagRest? (256 * tag + b.toNat) rest

/-- Reads a tag; the rest of the input comes with it. -/
def decodeTag? : Bytes → Option (Nat × Bytes)
  | [] => none
  | b :: rest =>
    if b.toNat % 32 = 31 then decodeTagRest? b.toNat rest else some (b.toNat, rest)

/-! ## Objects -/

def encode (tag : Nat) (value : Bytes) : Bytes :=
  Bytes.minimal tag ++ encodeLength value.length ++ value

/-- Reads a data object from the front of the input. -/
def decode? (input : Bytes) : Option (DataObject × Bytes) := do
  let (tag, afterTag) ← decodeTag? input
  let (length, afterLength) ← decodeLength? afterTag
  if afterLength.length < length then none
  else
    let rest := afterLength.drop length
    some (⟨tag, afterLength.take length, input.take (input.length - rest.length)⟩, rest)

theorem length_decodeLength? {input rest : Bytes} {n : Nat}
    (h : decodeLength? input = some (n, rest)) : rest.length < input.length := by
  cases input with
  | nil => simp [decodeLength?] at h
  | cons b bs =>
    simp only [decodeLength?] at h
    split at h
    · cases h
      simp
    · split at h
      · cases h
      · split at h
        · obtain ⟨-, rfl⟩ := Prod.mk.inj (Option.some.inj h)
          simp only [List.length_drop, List.length_cons]
          omega
        · cases h

theorem length_decodeTagRest? {tag t : Nat} {input rest : Bytes}
    (h : decodeTagRest? tag input = some (t, rest)) : rest.length < input.length := by
  induction input generalizing tag with
  | nil => simp [decodeTagRest?] at h
  | cons b bs ih =>
    simp only [decodeTagRest?] at h
    split at h
    · cases h
    · split at h
      · obtain ⟨-, rfl⟩ := Prod.mk.inj (Option.some.inj h)
        simp
      · have := ih h
        simp only [List.length_cons]
        omega

theorem length_decodeTag? {input rest : Bytes} {t : Nat}
    (h : decodeTag? input = some (t, rest)) : rest.length < input.length := by
  cases input with
  | nil => simp [decodeTag?] at h
  | cons b bs =>
    simp only [decodeTag?] at h
    split at h
    · have := length_decodeTagRest? h
      simp only [List.length_cons]
      omega
    · cases h
      simp

/-- Reading an object consumes input. -/
theorem length_decode? {input rest : Bytes} {object : DataObject}
    (h : decode? input = some (object, rest)) : rest.length < input.length := by
  simp only [decode?, Option.bind_eq_bind, Option.bind_eq_some_iff] at h
  obtain ⟨⟨t, afterTag⟩, ht, ⟨n, afterLength⟩, hn, h⟩ := h
  have h1 := length_decodeTag? ht
  have h2 := length_decodeLength? hn
  simp only at h h2
  split at h
  · cases h
  · cases h
    simp only [List.length_drop]
    omega

/-! ## Sequences of objects -/

/-- What reading data objects from the front of a byte string gives: the objects, and the part that
starts with none. -/
structure Walk where
  objects : List DataObject
  remainder : Bytes
  deriving DecidableEq, Repr

/-- Reads data objects until the input is used up or no object can be read. -/
def walk (input : Bytes) : Walk :=
  match h : decode? input with
  | none => ⟨[], input⟩
  | some (object, rest) =>
    have := length_decode? h
    let w := walk rest
    ⟨object :: w.objects, w.remainder⟩
termination_by input.length

/-- All data objects of the input, if it consists of data objects. -/
def all? (input : Bytes) : Option (List DataObject) :=
  let w := walk input
  if w.remainder.isEmpty then some w.objects else none

/-- The value of the data object that spans the whole input, if it has the given tag. -/
def single? (tag : Nat) (input : Bytes) : Option Bytes :=
  match decode? input with
  | some (object, []) => if object.tag = tag then some object.value else none
  | _ => none

/-- The value of the first data object with the given tag. -/
def find? (tag : Nat) (input : Bytes) : Option Bytes :=
  ((walk input).objects.find? (·.tag == tag)).map (·.value)

end DataObject
end TravelDocument

import Mathlib.Data.List.Basic
import TravelDocument.File.Reading
import TravelDocument.Proofs.Encoding.Tlv

/-!
# The length of a file

The first bytes of a file tell its length if they contain tag and length field
(`length?_eq_some_iff`). What they say they go on saying when more bytes are known
(`length?_append`), and they say how long the contents of the file are (`IsContents.length?_take`).
With fewer bytes the length is the same or unknown (`length?_consistent`).
-/

namespace TravelDocument.File

open DataObject

/-! ## Which bytes tell a length -/

/-- The bytes, which may go on in any way, start with tag and length field of an object that is `n`
bytes long. The file that starts with `42` has a fixed length. -/
inductive Tells : Bytes → Nat → Prop
  | cvca {rest : Bytes} : Tells (0x42 :: rest) 36
  | object {tag field rest : Bytes} {m : Nat} : tag.head? ≠ some 0x42 → IsTag tag →
    IsLengthField field m → (tag ++ field).length + m < UInt64.size →
    Tells (tag ++ field ++ rest) ((tag ++ field).length + m)

theorem Tells.append {bytes : Bytes} {n : Nat} (h : Tells bytes n) (tail : Bytes) :
    Tells (bytes ++ tail) n := by
  cases h with
  | cvca => exact .cvca
  | object hh ht hf hn =>
    rw [List.append_assoc]
    exact .object hh ht hf hn

theorem Tells.length?_eq {bytes : Bytes} {n : Nat} (h : Tells bytes n) :
    length? bytes = some n := by
  cases h with
  | cvca => rfl
  | @object tag field rest m hh ht hf hn =>
    have hhead : (tag ++ field ++ rest).head? = tag.head? := by
      rw [List.append_assoc]
      exact List.head?_append_of_ne_nil _ (List.ne_nil_of_length_pos ht.length_pos)
    have hlength : (tag ++ field ++ rest).length - rest.length = (tag ++ field).length := by
      rw [@List.length_append _ (tag ++ field), Nat.add_sub_cancel]
    rw [length?, hhead, cvcaTag, if_neg hh]
    simp only [Option.bind_eq_bind, List.append_assoc, ht.decode, Option.bind_some, hf.decode]
    rw [← List.append_assoc, hlength, if_pos hn]

theorem tells_of_length? {bytes : Bytes} {n : Nat} (h : length? bytes = some n) :
    Tells bytes n := by
  rw [length?] at h
  split at h
  · rename_i hh
    cases h
    obtain ⟨rest, rfl⟩ := List.head?_eq_some_iff.1 hh
    exact .cvca
  · rename_i hh
    simp only [Option.bind_eq_bind, Option.bind_eq_some_iff] at h
    obtain ⟨⟨t, afterTag⟩, ht, ⟨m, value⟩, hm, h⟩ := h
    obtain ⟨tag, htag, -, rfl⟩ := decodeTag?_eq_some_iff.1 ht
    obtain ⟨field, hfield, hafter⟩ := decodeLength?_eq_some_iff.1 hm
    dsimp only at hafter h
    subst hafter
    -- the header is what the input is longer by than the rest
    rw [← List.append_assoc, List.length_append, Nat.add_sub_cancel] at h
    rw [List.head?_append_of_ne_nil _ (List.ne_nil_of_length_pos htag.length_pos)] at hh
    split at h
    · rename_i hn
      cases h
      rw [← List.append_assoc]
      exact .object hh htag hfield hn
    · cases h

theorem length?_eq_some_iff {bytes : Bytes} {n : Nat} : length? bytes = some n ↔ Tells bytes n :=
  ⟨tells_of_length?, Tells.length?_eq⟩

/-- **More bytes do not change the length that a file is found to have.** -/
theorem length?_append {header : Bytes} {n : Nat} (h : length? header = some n) (tail : Bytes) :
    length? (header ++ tail) = some n :=
  length?_eq_some_iff.2 ((length?_eq_some_iff.1 h).append tail)

/-! ## The contents of a file -/

/-- The contents of a file are its first data object. The one file that starts with `42` has
contents of fixed length. -/
inductive IsContents (file : Bytes) : Bytes → Prop
  /-- Tag and length field are at most eight bytes long. -/
  | object {tag field value rest : Bytes} : file = tag ++ field ++ value ++ rest → IsTag tag →
    IsLengthField field value.length → (tag ++ field).length ≤ 8 →
      file.head? ≠ some 0x42 →
    IsContents file (tag ++ field ++ value)
  | cvca : file.head? = some 0x42 → 36 ≤ file.length → IsContents file (file.take 36)

namespace IsContents

variable {file contents : Bytes}

theorem take_length (h : IsContents file contents) : file.take contents.length = contents := by
  cases h with
  | object hf _ _ _ _ => rw [hf, List.take_left]
  | cvca _ hl => rw [List.length_take, Nat.min_eq_left hl]

theorem length_le (h : IsContents file contents) : contents.length ≤ file.length := by
  rw [← h.take_length, List.length_take]
  exact Nat.min_le_right _ _

theorem length_pos (h : IsContents file contents) : 0 < contents.length := by
  cases h with
  | object _ ht _ _ _ =>
    have := ht.length_pos
    rw [List.length_append, List.length_append]
    omega
  | cvca _ hl =>
    rw [List.length_take]
    omega

/-- Lengths of files are found with 64-bit numbers. -/
theorem length_lt (h : IsContents file contents) : contents.length < UInt64.size := by
  cases h with
  | @object tag field value _ _ ht hf hl _ =>
    have hpos := ht.length_pos
    rw [List.length_append] at hl
    have hv : value.length < 256 ^ 6 := hf.lt (by decide) (by omega)
    have hsize : UInt64.size = 2 ^ 64 := rfl
    rw [List.length_append, List.length_append, hsize]
    omega
  | cvca _ _ =>
    rw [List.length_take]
    exact Nat.lt_of_le_of_lt (Nat.min_le_left _ _) (by decide)

/-- **Eight bytes of a file tell how long its contents are.** -/
theorem length?_take (h : IsContents file contents) {k : Nat} (hk : 8 ≤ k) :
    length? (file.take k) = some contents.length := by
  have hlt := h.length_lt
  cases h with
  | @object tag field value rest hf ht hfield hl hh =>
    have hhead : tag.head? ≠ some 0x42 := by
      rwa [hf, List.append_assoc, List.append_assoc,
        List.head?_append_of_ne_nil _ (List.ne_nil_of_length_pos ht.length_pos)] at hh
    have htake : file.take k = tag ++ field ++ (value ++ rest).take
        (k - (tag ++ field).length) := by
      rw [hf, List.append_assoc (tag ++ field), List.take_append, List.take_of_length_le (by omega)]
    rw [List.length_append] at hlt
    rw [htake, @List.length_append _ (tag ++ field)]
    exact (Tells.object hhead ht hfield hlt).length?_eq
  | cvca hh hl =>
    have hhead : (file.take k).head? = some cvcaTag := by
      rw [List.head?_take, if_neg (by omega)]
      exact hh
    rw [length?, if_pos hhead, List.length_take, Nat.min_eq_left hl]
    rfl

/-- Fewer bytes tell the same or nothing. -/
theorem eq_of_length?_take (h : IsContents file contents) {k n : Nat}
    (hn : length? (file.take k) = some n) : n = contents.length := by
  have happend := length?_append hn (file.drop k)
  rw [List.take_append_drop] at happend
  have hfile := h.length?_take (Nat.le_max_left 8 file.length)
  rw [List.take_of_length_le (Nat.le_max_right _ _), happend] at hfile
  exact Option.some.inj hfile

end IsContents

/-! ## Reading on in the header -/

/-- Tag and length field of an object, as they stand in its raw bytes. -/
structure IsHeader (o : DataObject) (header : Bytes) : Prop where
  parts : ∃ field, IsTag (Bytes.minimal o.tag) ∧ IsLengthField field o.value.length ∧
    header = Bytes.minimal o.tag ++ field
  raw : o.raw = header ++ o.value

theorem IsHeader.tells_iff {o : DataObject} {header rest front : Bytes} (h : IsHeader o header)
    (hh : (o.raw ++ rest).head? ≠ some 0x42) (hfront : front <+: o.raw ++ rest) {n : Nat} :
    Tells front n ↔ header <+: front ∧ n = o.raw.length ∧ n < UInt64.size := by
  obtain ⟨⟨field, htag, hfield, hheader⟩, hraw⟩ := h
  obtain ⟨behind, hbehind⟩ := hfront
  have hlength : o.raw.length = (Bytes.minimal o.tag ++ field).length + o.value.length := by
    rw [hraw, hheader, @List.length_append _ (Bytes.minimal o.tag ++ field)]
  have hfile : o.raw ++ rest = Bytes.minimal o.tag ++ (field ++ (o.value ++ rest)) := by
    rw [hraw, hheader]
    simp only [List.append_assoc]
  -- what the front tells is the header of some object, and a file starts with one header only
  constructor
  · intro htells
    cases htells with
    | cvca =>
      rw [← hbehind] at hh
      exact absurd rfl hh
    | @object tag' field' after m _ htag' hfield' hn =>
      -- both headers stand at the beginning of the file
      rw [hfile, List.append_assoc, List.append_assoc] at hbehind
      obtain ⟨rfl, hfields⟩ := htag'.append_inj htag hbehind
      obtain ⟨rfl, rfl, -⟩ := hfield'.append_inj hfield hfields
      exact ⟨hheader ▸ List.prefix_append _ _, hlength.symm, hn⟩
  · rintro ⟨⟨after, rfl⟩, rfl, hn⟩
    have hhead : (Bytes.minimal o.tag).head? ≠ some 0x42 := by
      rwa [hfile, List.head?_append_of_ne_nil _ (List.ne_nil_of_length_pos htag.length_pos)] at hh
    rw [hlength] at hn ⊢
    rw [hheader]
    exact .object hhead htag hfield hn

/-- **The length does not depend on how much of the header was read.** What some bytes say any bytes
say that start with them. Of a file that starts with a data object, the bytes at the front tell the
length of that object's encoding as soon as they contain its whole tag and length field, and nothing
before. A length of `2 ^ 64` or more counts as unknown; no object that is there in memory has it. -/
theorem length?_consistent :
    (∀ header n, length? header = some n → ∀ tail, length? (header ++ tail) = some n) ∧
    ∀ file o rest, file.head? ≠ some 0x42 → decode? file = some (o, rest) →
      ∃ header, IsHeader o header ∧ ∀ front, front <+: file →
        ∀ n, length? front = some n ↔
        header <+: front ∧ n = o.raw.length ∧ n < UInt64.size := by
  refine ⟨fun _ _ => length?_append, fun file o rest hh hdecode => ?_⟩
  obtain ⟨ho, rfl⟩ := decode?_eq_some_iff.1 hdecode
  obtain ⟨field, hfield, hraw⟩ := ho.raw
  have hheader : IsHeader o (Bytes.minimal o.tag ++ field) :=
    ⟨⟨field, ho.tag, hfield, rfl⟩, hraw⟩
  exact ⟨_, hheader, fun front hfront n => length?_eq_some_iff.trans
    (hheader.tells_iff hh hfront)⟩

/-- A header of six bytes: two of the tag and four of the length field, two of them zeroes. -/
theorem length?_consistent_longHeader :
    let file : Bytes := [0x7F, 0x61, 0x83, 0x00, 0x00, 0x01, 0xAA, 0xFF]
    let o : DataObject := ⟨0x7F61, [0xAA], [0x7F, 0x61, 0x83, 0x00, 0x00, 0x01, 0xAA]⟩
    file.head? ≠ some 0x42 ∧ decode? file = some (o, [0xFF]) ∧
      length? (file.take 6) = some 7 ∧
      (∀ n, length? (file.take 5) ≠ some n) ∧ length? (file.take 6 ++ [0x00]) = some 7 := by
  intro file o
  have hh : file.head? ≠ some 0x42 := by decide
  have hdecode : decode? file = some (o, [0xFF]) := by decide
  obtain ⟨header, ⟨-, hraw⟩, hiff⟩ := length?_consistent.2 file o [0xFF] hh hdecode
  obtain rfl : file.take 6 = header :=
    List.append_cancel_right (show file.take 6 ++ [0xAA] = _ from hraw)
  have hsix := (hiff _ (List.take_prefix 6 file) 7).2 ⟨List.prefix_rfl, rfl, by decide⟩
  refine ⟨hh, hdecode, hsix, fun n hn => ?_, length?_consistent.1 _ _ hsix _⟩
  have hle := ((hiff _ (List.take_prefix 5 file) n).1 hn).1.length_le
  exact absurd hle (by decide)

end TravelDocument.File

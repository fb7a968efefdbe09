import TravelDocument.Encoding.Der
import TravelDocument.Proofs.Encoding.EcdsaSignature
import TravelDocument.Proofs.Encoding.ObjectIdentifier

/-!
# Elements are read back from their bytes

An element is written with the shortest identifier and length field that there are
(`Element.encode`). It is read from the front of whatever starts with its bytes (`decode?_encode`),
with the low 32 bits of its number, and elements that are written one behind the other are read in
their order (`decodeAll?_flatMap`).
-/

namespace TravelDocument.Der

open ObjectIdentifier (push subidentifier isSubidentifier_subidentifier)

/-! ## Identifiers -/

namespace Identifier

/-- The first byte: the class, the constructed bit, and the number if that is below 31. -/
def lead (i : Identifier) : Nat :=
  64 * i.cls + (if i.constructed then 32 else 0) + min i.number 31

def encode (i : Identifier) : Bytes :=
  UInt8.ofNat i.lead :: if i.number < 31 then [] else subidentifier i.number

/-- There are four classes, and the numbers of the universal one are not arbitrary. -/
structure IsValid (i : Identifier) : Prop where
  cls_lt : i.cls < 4
  universal : i.cls = 0 → 0 < i.number ∧ i.number < UInt32.size

theorem IsValid.of_universal (constructed : Bool) {number : Nat} (h : 0 < number)
    (hlt : number < UInt32.size) : IsValid ⟨0, constructed, number⟩ where
  cls_lt := by
    show 0 < 4
    decide
  universal _ := ⟨h, hlt⟩

/-- What is read of an identifier. -/
def kept (i : Identifier) : Identifier :=
  { i with number := i.number % UInt32.size }

/-- Universal identifiers are read as they are, and no other is read as one of them. -/
theorem IsValid.isUniversal_kept {i : Identifier} (h : i.IsValid) (number : Nat) :
    i.kept.isUniversal number = i.isUniversal number := by
  by_cases hc : i.cls = 0
  · rw [kept, Nat.mod_eq_of_lt (h.universal hc).2]
  · have hne : (i.cls == 0) = false := beq_false_of_ne hc
    simp only [isUniversal, kept, hne, Bool.false_and]

end Identifier

/-- Of the number so far only the low 32 bits matter. -/
theorem push_mod (n : Nat) (b : UInt8) :
    (n % UInt32.size * 128 + b.toNat % 128) % UInt32.size = push n b % UInt32.size := by
  rw [push, UInt32.size]
  omega

/-- The groups of a long number are read up to the first that is not continued. -/
theorem decodeNumber?_append {front : Bytes} {last : UInt8} (hf : ∀ c ∈ front, 128 ≤ c.toNat)
    (hl : last.toNat < 128) (n : Nat) (rest : Bytes) :
    decodeNumber? (n % UInt32.size) (front ++ last :: rest) =
      some ((front ++ [last]).foldl push n % UInt32.size, rest) := by
  induction front generalizing n with
  | nil =>
    simp only [List.nil_append, decodeNumber?, push_mod, if_pos hl, List.foldl_cons, List.foldl_nil]
  | cons b front ih =>
    have hb : 128 ≤ b.toNat := hf b List.mem_cons_self
    simp only [List.cons_append, decodeNumber?, push_mod, List.foldl_cons]
    rw [if_neg (by omega)]
    exact ih (fun c hc => hf c (List.mem_cons_of_mem _ hc)) (push n b)

theorem decodeNumber?_subidentifier (n : Nat) (rest : Bytes) :
    decodeNumber? 0 (subidentifier n ++ rest) = some (n % UInt32.size, rest) := by
  obtain ⟨⟨front, last, hgroups, hf, hl⟩, hvalue⟩ := isSubidentifier_subidentifier n
  have hread := decodeNumber?_append hf hl 0 rest
  rw [← hgroups, hvalue] at hread
  rw [hgroups, List.append_assoc, List.singleton_append]
  exact hread

theorem decodeIdentifier?_encode {i : Identifier} (h : i.IsValid) (tail : Bytes) :
    decodeIdentifier? (i.encode ++ tail) = some (i.kept, tail) := by
  have hcls := h.cls_lt
  -- as a number the bit can stand in the arithmetic of the leading byte
  obtain ⟨bit, hbit, hthirtytwo, hconstructed⟩ : ∃ bit, bit ≤ 1 ∧
      (if i.constructed then 32 else 0) = 32 * bit ∧ (bit == 1) = i.constructed := by
    cases i.constructed
    · exact ⟨0, by decide⟩
    · exact ⟨1, by decide⟩
  have hlead : i.lead = 64 * i.cls + 32 * bit + min i.number 31 := by
    rw [Identifier.lead, hthirtytwo]
  have hb : (UInt8.ofNat i.lead).toNat = i.lead := by
    rw [UInt8.toNat_ofNat', Nat.mod_eq_of_lt]
    omega
  have hclass : i.lead / 64 = i.cls := by omega
  have hmiddle : i.lead / 32 % 2 = bit := by omega
  have hlow : i.lead % 32 = min i.number 31 := by omega
  have hnumber : decodeNumberAfter? (i.lead % 32)
      ((if i.number < 31 then [] else subidentifier i.number) ++ tail) =
        some (i.number % UInt32.size, tail) := by
    rw [hlow, decodeNumberAfter?]
    by_cases hshort : i.number < 31
    · rw [if_neg (by omega), if_pos hshort, List.nil_append, Nat.min_eq_left (by omega),
        Nat.mod_eq_of_lt (by rw [UInt32.size]; omega)]
    · rw [if_pos (by omega), if_neg hshort, decodeNumber?_subidentifier]
  -- the number zero of the universal class is not valid, and is what reading would refuse
  have huniversal : i.kept.isUniversal 0 = false := by
    rw [h.isUniversal_kept, Identifier.isUniversal, Bool.and_eq_false_iff]
    by_cases hc : i.cls = 0
    · exact .inr (beq_false_of_ne (Nat.pos_iff_ne_zero.1 (h.universal hc).1))
    · exact .inl (beq_false_of_ne hc)
  rw [Identifier.encode, List.cons_append, decodeIdentifier?]
  simp only [hb, hnumber, hclass, hmiddle, hconstructed, Option.bind_eq_bind, Option.bind_some]
  exact if_neg (by rw [← Identifier.kept, huniversal]; decide)

/-! ## Lengths -/

/-- A length field of up to nine bytes is read as that of any data object is. -/
theorem decodeLength?_append {field : Bytes} {n : Nat} (h : DataObject.IsLengthField field n)
    (hl : field.length ≤ 9) (tail : Bytes) : decodeLength? (field ++ tail) = some (n, tail) := by
  cases h with
  | short hb => rw [List.singleton_append, decodeLength?, if_pos hb]
  | @long b digits hb hne _ =>
    have hpos : 0 < digits.length := List.length_pos_iff.2 hne
    have hcount : b.toNat - 128 = digits.length := by omega
    rw [List.length_cons] at hl
    rw [List.cons_append, decodeLength?, if_neg (by omega)]
    simp only [hcount, List.length_append, List.take_left, List.drop_left]
    rw [if_neg (by omega)]

theorem decodeLength?_encodeLength {n : Nat} (h : n < 2 ^ 64) (tail : Bytes) :
    decodeLength? (DataObject.encodeLength n ++ tail) = some (n, tail) := by
  refine decodeLength?_append (DataObject.isLengthField_encodeLength h) ?_ tail
  rw [DataObject.encodeLength]
  split
  · simp
  · exact Nat.succ_le_succ (Bytes.length_digits_le (by omega))

/-! ## Elements -/

namespace Element

def encode (e : Element) : Bytes :=
  e.identifier.encode ++ DataObject.encodeLength e.contents.length ++ e.contents

def kept (e : Element) : Element :=
  { e with identifier := e.identifier.kept }

theorem length_contents_le (e : Element) : e.contents.length ≤ e.encode.length := by
  rw [encode, List.length_append]
  exact Nat.le_add_left _ _

theorem length_encode_le {e : Element} {es : List Element} (h : e ∈ es) :
    e.encode.length ≤ (es.flatMap encode).length := by
  rw [List.flatMap_def]
  exact (List.sublist_flatten_of_mem (List.mem_map_of_mem h)).length_le

/-- A universal element that contains elements. -/
def ofChildren (number : Nat) (children : List Element) : Element :=
  ⟨⟨0, true, number⟩, children.flatMap encode⟩

end Element

/-- **An element is read from the front of whatever starts with its bytes.** -/
theorem decode?_encode {e : Element} (h : e.identifier.IsValid) (hl : e.contents.length < 2 ^ 64)
    (tail : Bytes) : decode? (e.encode ++ tail) = some (e.kept, tail) := by
  rw [Element.encode, decode?, List.append_assoc, List.append_assoc, decodeIdentifier?_encode h]
  simp only [Option.bind_eq_bind, Option.bind_some, decodeLength?_encodeLength hl]
  rw [if_neg (by rw [List.length_append]; omega), List.take_left, List.drop_left]
  rfl

theorem decodeAll?_of_decode? {input rest : Bytes} {e : Element}
    (h : decode? input = some (e, rest)) :
    decodeAll? input = (decodeAll? rest).map (e :: ·) := by
  have hne : input.isEmpty = false := by
    cases input with
    | nil => cases h
    | cons _ _ => rfl
  rw [decodeAll?, hne, if_neg (by decide)]
  split
  · rename_i hnone
    cases hnone.symm.trans h
  · rename_i hsome
    cases hsome.symm.trans h
    rfl

/-- **Elements that are written one behind the other are read in their order.** -/
theorem decodeAll?_flatMap {es : List Element} (h : ∀ e ∈ es, e.identifier.IsValid)
    (hl : (es.flatMap Element.encode).length < 2 ^ 64) :
    decodeAll? (es.flatMap Element.encode) = some (es.map Element.kept) := by
  induction es with
  | nil => rw [List.flatMap_nil, decodeAll?, if_pos List.isEmpty_nil, List.map_nil]
  | cons e es ih =>
    obtain ⟨he, hes⟩ := List.forall_mem_cons.1 h
    rw [List.flatMap_cons, List.length_append] at hl
    have hcontents := e.length_contents_le
    rw [List.flatMap_cons, decodeAll?_of_decode? (decode?_encode he (by omega) _),
      ih hes (by omega)]
    rfl

/-- The elements in a constructed element are found. -/
theorem children?_ofChildren {es : List Element} (number : Nat)
    (h : ∀ e ∈ es, e.identifier.IsValid) (hl : (es.flatMap Element.encode).length < 2 ^ 64) :
    (Element.ofChildren number es).children? number = some (es.map Element.kept) := by
  rw [Element.children?, Element.ofChildren, Identifier.isUniversal, if_pos (by simp)]
  exact decodeAll?_flatMap h hl

/-! ## Integers -/

/-- **A number of 32 bits is read back from its INTEGER**, also if that has a fifth byte for the
sign. -/
theorem unsigned32?_integer (n : UInt32) :
    unsigned32? (EcdsaSignature.integer n.toNat) = some n := by
  have hminimal := Bytes.isShortest_minimal n.toNat
  have hl : (Bytes.minimal n.toNat).length ≤ 4 := Bytes.length_minimal_le n.toNat_lt (by decide)
  -- any bytes of the number do, as long as there are no more than four
  have hread : ∀ b : Bytes, b ≠ [] → b.length ≤ 4 → Bytes.toNat b = n.toNat →
      (if b.isEmpty ∨ 4 < b.length then none else some (UInt32.ofNat (Bytes.toNat b))) =
        some n := by
    intro b hne hlength hn
    rw [if_neg (by simp [hne, hlength]), hn, UInt32.ofNat_toNat]
  rw [unsigned32?]
  by_cases hshort : (EcdsaSignature.integer n.toNat).length ≤ 4
  · have hinteger := EcdsaSignature.isInteger_integer n.toNat
    rw [if_pos hshort]
    exact hread _ hinteger.ne_nil hshort hinteger.toNat_eq
  · -- the zero in front is dropped, and nothing behind it
    have htop : ¬ ((Bytes.minimal n.toNat).headD 0).toNat < 128 := by
      intro htop
      rw [EcdsaSignature.integer, if_pos htop] at hshort
      exact hshort hl
    have hdrop : (0 :: Bytes.minimal n.toNat).dropWhile (· == 0) = Bytes.minimal n.toNat := by
      rw [List.dropWhile_cons_of_pos (by decide)]
      cases hb : Bytes.minimal n.toNat with
      | nil => rfl
      | cons d b =>
        rw [hb] at htop
        refine List.dropWhile_cons_of_neg fun hd => htop ?_
        rw [List.headD_cons, beq_iff_eq.1 hd]
        decide
    rw [if_neg hshort, EcdsaSignature.integer, if_neg htop]
    have h := hread _ hminimal.ne_nil hl hminimal.toNat_eq
    rw [← hdrop] at h
    exact h

end TravelDocument.Der

import TravelDocument.Text.Quoted

/-!
# UTF-8 tells texts apart

Texts with the same bytes are the same (`utf8_inj`), and a text has as many bytes as characters
exactly if all of them are ASCII (`length_encodeChars_eq_iff`).
-/

namespace TravelDocument.Text

theorem encodeChars_inj {a b : List Char}
    (h : a.flatMap String.utf8EncodeChar = b.flatMap String.utf8EncodeChar) : a = b := by
  have hbytes : a.utf8Encode = b.utf8Encode := List.toByteArray_inj.2 h
  rw [← String.toByteArray_ofList, ← String.toByteArray_ofList, String.toByteArray_inj,
    String.ofList_inj] at hbytes
  exact hbytes

theorem utf8_inj {s t : String} : utf8 s = utf8 t ↔ s = t :=
  ⟨fun h => String.toList_inj.1 (encodeChars_inj h), fun h => h ▸ rfl⟩

theorem length_encodeChar_eq_one_iff {c : Char} :
    (String.utf8EncodeChar c).length = 1 ↔ c.toNat < 128 := by
  rw [String.length_utf8EncodeChar, Char.utf8Size_eq_one_iff, UInt32.le_iff_toNat_le]
  exact Nat.lt_succ_iff.symm

theorem length_le_length_encodeChars (chars : List Char) :
    chars.length ≤ (chars.flatMap String.utf8EncodeChar).length := by
  induction chars with
  | nil => exact Nat.le_refl 0
  | cons c rest ih =>
    have hc := Char.utf8Size_pos c
    rw [List.flatMap_cons, List.length_append, String.length_utf8EncodeChar, List.length_cons]
    omega

/-- **As many bytes as characters** is what ASCII text has, and no other. -/
theorem length_encodeChars_eq_iff {chars : List Char} :
    (chars.flatMap String.utf8EncodeChar).length = chars.length ↔ ∀ c ∈ chars,
      c.toNat < 128 := by
  induction chars with
  | nil => simp
  | cons c rest ih =>
    have hc := Char.utf8Size_pos c
    have hrest := length_le_length_encodeChars rest
    rw [List.forall_mem_cons, ← ih, ← length_encodeChar_eq_one_iff, List.flatMap_cons,
      List.length_append, String.length_utf8EncodeChar, List.length_cons]
    omega

end TravelDocument.Text

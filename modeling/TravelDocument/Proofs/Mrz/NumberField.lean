import Mathlib.Data.List.DropRight
import TravelDocument.Mrz.AccessKey
import TravelDocument.Proofs.Text.Utf8

/-!
# The field of a document number

A document number goes into its field without the fillers at its end, which are put anew there. So
the field says everything about the number but how many fillers it had (`numberField_inj`), and a
number of the width of the field that is taken out of it goes back as it was (`fieldText_of_width`).
This holds of every text, also of one that is longer than the field.
-/

namespace TravelDocument.Mrz

/-! ## Fillers at the end -/

/-- `trimmed` is the text without the fillers at its end. -/
structure IsTrimmed (text trimmed : List Char) : Prop where
  fillers : ∃ count, text = trimmed ++ List.replicate count '<'
  getLast?_ne : trimmed.getLast? ≠ some '<'

/-- The texts differ by nothing but the fillers at their ends. -/
def AgreeUpToFillers (a b : List Char) : Prop :=
  ∃ common count count', a = common ++ List.replicate count '<' ∧
    b = common ++ List.replicate count' '<'

theorem trimFillers_eq_rdropWhile (text : List Char) :
    trimFillers text = text.rdropWhile (· == '<') := rfl

theorem trimFillers_append_replicate (text : List Char) (count : Nat) :
    trimFillers (text ++ List.replicate count '<') = trimFillers text := by
  induction count with
  | zero => rw [List.replicate_zero, List.append_nil]
  | succ count ih =>
    rw [List.replicate_succ', ← List.append_assoc, trimFillers_eq_rdropWhile,
      List.rdropWhile_concat_pos _ _ _ (by rfl)]
    exact ih

theorem isTrimmed_trimFillers (text : List Char) : IsTrimmed text (trimFillers text) where
  fillers := by
    -- from the back, as the fillers are taken away
    induction text using List.reverseRecOn with
    | nil => exact ⟨0, rfl⟩
    | append_singleton text c ih =>
      obtain ⟨count, hcount⟩ := ih
      rw [trimFillers_eq_rdropWhile, List.rdropWhile_concat]
      split
      · rename_i hc
        refine ⟨count + 1, ?_⟩
        rw [List.replicate_succ', ← List.append_assoc, ← trimFillers_eq_rdropWhile, ← hcount,
          beq_iff_eq.1 hc]
      · exact ⟨0, (List.append_nil _).symm⟩
  getLast?_ne := by
    intro h
    have hne : trimFillers text ≠ [] := by
      intro hnil
      rw [hnil] at h
      cases h
    rw [List.getLast?_eq_some_getLast hne, Option.some.injEq] at h
    exact List.rdropWhile_last_not _ _ hne (beq_iff_eq.2 h)

/-- **Nothing else is left of a text** when its fillers are taken off. -/
theorem isTrimmed_iff {text trimmed : List Char} :
    IsTrimmed text trimmed ↔ trimFillers text = trimmed := by
  constructor
  · rintro ⟨⟨count, rfl⟩, hlast⟩
    rw [trimFillers_append_replicate, trimFillers_eq_rdropWhile, List.rdropWhile_eq_self_iff]
    intro hne hc
    exact hlast (by rw [List.getLast?_eq_some_getLast hne, beq_iff_eq.1 hc])
  · rintro rfl
    exact isTrimmed_trimFillers text

theorem trimFillers_idem (text : List Char) : trimFillers (trimFillers text) = trimFillers text :=
  List.rdropWhile_idempotent _ text

theorem trimFillers_eq_iff {a b : List Char} :
    trimFillers a = trimFillers b ↔ AgreeUpToFillers a b := by
  constructor
  · intro h
    obtain ⟨⟨count, ha⟩, -⟩ := isTrimmed_trimFillers a
    obtain ⟨⟨count', hb⟩, -⟩ := isTrimmed_trimFillers b
    exact ⟨trimFillers a, count, count', ha, by rw [h]; exact hb⟩
  · rintro ⟨common, count, count', rfl, rfl⟩
    rw [trimFillers_append_replicate, trimFillers_append_replicate]

/-! ## The field -/

/-- A document number as it stands in its field. -/
def fieldText (number : List Char) : List Char :=
  trimFillers number ++
    List.replicate (numberWidth - ((trimFillers number).flatMap String.utf8EncodeChar).length) '<'

theorem numberField_eq (number : List Char) :
    numberField number = fieldText number ++ [checkCharacter (fieldText number)] := rfl

/-- The fillers that were put anew can be taken off again. -/
theorem trimFillers_fieldText (number : List Char) :
    trimFillers (fieldText number) = trimFillers number := by
  rw [fieldText, trimFillers_append_replicate, trimFillers_idem]

/-- **The field tells the number up to fillers at its end**, however long the number is. -/
theorem numberField_inj {a b : List Char} :
    numberField a = numberField b ↔ AgreeUpToFillers a b := by
  rw [← trimFillers_eq_iff]
  constructor
  · intro h
    have htext : fieldText a = fieldText b := by
      rw [numberField_eq, numberField_eq] at h
      exact List.append_inj_left' h rfl
    rw [← trimFillers_fieldText a, htext, trimFillers_fieldText]
  · intro h
    rw [numberField_eq, numberField_eq, fieldText, fieldText, h]

/-- A number of ASCII characters that fits is filled up to the width. -/
theorem fieldText_of_ascii {number : List Char} (h : ∀ c ∈ trimFillers number, c.toNat < 128) :
    fieldText number =
      trimFillers number ++ List.replicate (numberWidth - (trimFillers number).length) '<' := by
  rw [fieldText, Text.length_encodeChars_eq_iff.2 h]

/-- A number that is as wide as the field is put back as it was. -/
theorem fieldText_of_width {number : List Char} (h : ∀ c ∈ number, c.toNat < 128)
    (hw : number.length = numberWidth) : fieldText number = number := by
  obtain ⟨⟨count, hcount⟩, -⟩ := isTrimmed_trimFillers number
  have hascii : ∀ c ∈ trimFillers number, c.toNat < 128 := fun c hc =>
    h c (by rw [hcount]; exact List.mem_append_left _ hc)
  have hlength : numberWidth - (trimFillers number).length = count := by
    have := congrArg List.length hcount
    rw [List.length_append, List.length_replicate] at this
    omega
  rw [fieldText_of_ascii hascii, hlength, ← hcount]

end TravelDocument.Mrz

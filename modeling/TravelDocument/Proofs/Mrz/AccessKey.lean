import TravelDocument.Proofs.Mrz.NumberField

/-!
# What an access key is made of

`AccessKey.make` accepts exactly the fields of a machine-readable zone (`make_eq_ok_iff`). The MRZ
information of the key has a fixed width, and from it the fields can be told again, so different
keys never share it (`information_identifies`). A key that is taken from a line of a passport has
the information that is printed there (`ofPassportLine_printed`).
-/

namespace TravelDocument.Mrz

/-! ## Fields -/

/-- A document number: without the fillers at its end one to nine characters, which are letters from
`A` to `Z`, digits and fillers. -/
def IsDocumentNumber (number : List Char) : Prop :=
  ∃ trimmed, IsTrimmed number trimmed ∧ 1 ≤ trimmed.length ∧ trimmed.length ≤ 9 ∧
    ∀ c ∈ trimmed, ('A' ≤ c ∧ c ≤ 'Z') ∨ ('0' ≤ c ∧ c ≤ '9') ∨ c = '<'

/-- Six digits, as dates are written. -/
def IsSixDigits (date : List Char) : Prop :=
  date.length = 6 ∧ ∀ c ∈ date, '0' ≤ c ∧ c ≤ '9'

theorem isNumberCharacter_iff {c : Char} :
    isNumberCharacter c = true ↔ ('A' ≤ c ∧ c ≤ 'Z') ∨ ('0' ≤ c ∧ c ≤ '9') ∨
      c = '<' := by
  simp [isNumberCharacter, or_assoc]

theorem isNumber_iff {trimmed : List Char} : isNumber trimmed = true ↔
    1 ≤ trimmed.length ∧ trimmed.length ≤ 9 ∧ ∀ c ∈ trimmed,
      isNumberCharacter c = true := by
  rw [isNumber, Bool.and_eq_true, Bool.and_eq_true, and_assoc, List.all_eq_true, decide_eq_true_iff,
    Bool.not_eq_true', List.isEmpty_eq_false_iff, ← List.length_pos_iff]
  rfl

theorem isDocumentNumber_iff {number : List Char} :
    IsDocumentNumber number ↔ isNumber (trimFillers number) = true := by
  simp only [IsDocumentNumber, isTrimmed_iff, exists_eq_left', isNumber_iff, isNumberCharacter_iff]

theorem isSixDigits_iff {date : List Char} : IsSixDigits date ↔ isDate date = true := by
  simp [IsSixDigits, isDate]

/-- The characters of a document number are ASCII. -/
theorem lt_of_isNumberCharacter {c : Char} (h : isNumberCharacter c = true) : c.toNat < 128 := by
  rcases isNumberCharacter_iff.1 h with ⟨-, h⟩ | ⟨-, h⟩ | rfl
  · exact Nat.lt_of_le_of_lt (UInt32.le_iff_toNat_le.1 h) (by decide)
  · exact Nat.lt_of_le_of_lt (UInt32.le_iff_toNat_le.1 h) (by decide)
  · decide

/-- A document number is filled up to nine characters. -/
theorem fieldText_of_isNumber {number : List Char} (h : isNumber (trimFillers number) = true) :
    fieldText number =
      trimFillers number ++ List.replicate (9 - (trimFillers number).length) '<' :=
  fieldText_of_ascii fun c hc => lt_of_isNumberCharacter ((isNumber_iff.1 h).2.2 c hc)

theorem length_numberField {number : List Char} (h : isNumber (trimFillers number) = true) :
    (numberField number).length = 10 := by
  have hle := (isNumber_iff.1 h).2.1
  rw [numberField_eq, fieldText_of_isNumber h, List.length_append, List.length_append,
    List.length_replicate, List.length_singleton]
  omega

theorem length_dateField {date : List Char} (h : IsSixDigits date) :
    (dateField date).length = 7 := by
  rw [dateField, List.length_append, h.1, List.length_singleton]

theorem dateField_inj {date date' : List Char} :
    dateField date = dateField date' ↔ date = date' :=
  ⟨fun h => List.append_inj_left' h rfl, fun h => h ▸ rfl⟩

namespace AccessKey

variable {number birth expiry number' birth' expiry' : String} {key key' : AccessKey}

/-! ## Making keys -/

/-- **A key is made of a document number and two dates**, and of nothing else. -/
theorem make_eq_ok_iff : make number birth expiry = .ok key ↔
    (IsDocumentNumber number.toList ∧ IsSixDigits birth.toList ∧ IsSixDigits expiry.toList) ∧
      ⟨String.ofList (trimFillers number.toList), birth, expiry⟩ = key := by
  rw [isDocumentNumber_iff, isSixDigits_iff, isSixDigits_iff, make]
  by_cases hn : isNumber (trimFillers number.toList) = true
  · by_cases hb : isDate birth.toList = true
    · by_cases he : isDate expiry.toList = true
      · simp [hn, hb, he]
      · simp [hn, hb, he]
    · simp [hn, hb]
  · simp [hn]

/-- The information of a key is the one of the number it was made of. -/
theorem toList_information (h : make number birth expiry = .ok key) : key.information.toList =
    numberField number.toList ++ dateField birth.toList ++ dateField expiry.toList := by
  obtain ⟨-, rfl⟩ := make_eq_ok_iff.1 h
  have hnumber : numberField (trimFillers number.toList) = numberField number.toList :=
    numberField_inj.2 (trimFillers_eq_iff.1 (trimFillers_idem _))
  rw [information, String.toList_ofList, String.toList_ofList, hnumber]

theorem information_eq_iff (h : make number birth expiry = .ok key)
    (h' : make number' birth' expiry' = .ok key') : key.information = key'.information ↔
      AgreeUpToFillers number.toList number'.toList ∧ birth = birth' ∧ expiry = expiry' := by
  obtain ⟨⟨hn, hb, he⟩, -⟩ := make_eq_ok_iff.1 h
  obtain ⟨⟨hn', hb', he'⟩, -⟩ := make_eq_ok_iff.1 h'
  have hnumber : (numberField number.toList).length = (numberField number'.toList).length := by
    rw [length_numberField (isDocumentNumber_iff.1 hn), length_numberField
      (isDocumentNumber_iff.1 hn')]
  have hbirth : (dateField birth.toList).length = (dateField birth'.toList).length := by
    rw [length_dateField hb, length_dateField hb']
  rw [← String.toList_inj, toList_information h, toList_information h', List.append_assoc,
    List.append_assoc, ← numberField_inj]
  constructor
  · intro heq
    -- the three fields have fixed lengths, so they part at the same places
    obtain ⟨hfield, hdates⟩ := List.append_inj heq hnumber
    obtain ⟨hfirst, hsecond⟩ := List.append_inj hdates hbirth
    exact ⟨hfield, String.toList_inj.1 (dateField_inj.1 hfirst),
      String.toList_inj.1 (dateField_inj.1 hsecond)⟩
  · rintro ⟨hfield, rfl, rfl⟩
    rw [hfield]

/-- Keys are equal exactly if they are made of the same number, up to fillers, and of the same
dates. -/
theorem eq_iff_of_make (h : make number birth expiry = .ok key)
    (h' : make number' birth' expiry' = .ok key') : key = key' ↔
      AgreeUpToFillers number.toList number'.toList ∧ birth = birth' ∧ expiry = expiry' := by
  obtain ⟨-, rfl⟩ := make_eq_ok_iff.1 h
  obtain ⟨-, rfl⟩ := make_eq_ok_iff.1 h'
  rw [mk.injEq, String.ofList_inj, trimFillers_eq_iff]

/-! ## The information of a key -/

/-- **The MRZ information identifies the key.** A key is made of a document number with one to nine
characters and of two dates, and of nothing else. Its information has 24 characters: the number
filled up to nine, each date, and a check digit after each of the three. Two keys have the same
information, and the same bytes go into the hash that the key seeds are taken from, exactly if their
numbers agree up to fillers at the end and their dates agree, so if they are the same key. -/
theorem information_identifies :
    (∀ number birth expiry, (∃ key, make number birth expiry = .ok key) ↔
      IsDocumentNumber number.toList ∧ IsSixDigits birth.toList ∧ IsSixDigits expiry.toList) ∧
    (∀ number birth expiry key, make number birth expiry = .ok key →
      key.information.length = 24 ∧ ∃ trimmed field, IsTrimmed number.toList trimmed ∧
        field = trimmed ++ List.replicate (9 - trimmed.length) '<' ∧ field.length = 9 ∧
        key.information.toList = field ++ [checkCharacter field] ++
          (birth.toList ++ [checkCharacter birth.toList]) ++
          (expiry.toList ++ [checkCharacter expiry.toList])) ∧
    (∀ number birth expiry key number' birth' expiry' key', make number birth expiry = .ok key →
      make number' birth' expiry' = .ok key' →
      (key.information = key'.information ↔
        AgreeUpToFillers number.toList number'.toList ∧ birth = birth' ∧ expiry = expiry') ∧
      (Text.utf8 key.information = Text.utf8 key'.information ↔ key = key')) ∧
    ∀ key : AccessKey, key.paceSeed = Sha1.hash (Text.utf8 key.information) ∧
      key.bacSeed = (Sha1.hash (Text.utf8 key.information)).take 16 := by
  refine ⟨fun number birth expiry => ?_, fun number birth expiry key h => ?_, ?_, fun key =>
    ⟨rfl, rfl⟩⟩
  · simp only [make_eq_ok_iff, exists_and_left, exists_eq', and_true]
  · obtain ⟨⟨hn, hb, he⟩, -⟩ := make_eq_ok_iff.1 h
    have hinformation := toList_information h
    have hn' := isDocumentNumber_iff.1 hn
    refine ⟨?_, trimFillers number.toList, fieldText number.toList, isTrimmed_trimFillers _,
      fieldText_of_isNumber hn', ?_, ?_⟩
    · rw [← String.length_toList, hinformation, List.length_append, List.length_append,
        length_numberField hn', length_dateField hb, length_dateField he]
    · have hlength := length_numberField hn'
      rw [numberField_eq, List.length_append, List.length_singleton] at hlength
      omega
    · rw [hinformation, numberField_eq, dateField, dateField]
  · intro number birth expiry key number' birth' expiry' key' h h'
    refine ⟨information_eq_iff h h', ?_⟩
    rw [Text.utf8_inj, information_eq_iff h h', eq_iff_of_make h h']

/-- The specimen, its number with and without the filler at the end of the field. -/
theorem information_identifies_specimen :
    make "L898902C<" "690806" "940623" = .ok ⟨"L898902C", "690806", "940623"⟩ ∧
    make "L898902C" "690806" "940623" = .ok ⟨"L898902C", "690806", "940623"⟩ ∧
    (AccessKey.mk "L898902C" "690806" "940623").information.length = 24 ∧
    AgreeUpToFillers "L898902C<".toList "L898902C".toList := by
  have h : make "L898902C<" "690806" "940623" = .ok ⟨"L898902C", "690806", "940623"⟩ := by
    decide
  have h' : make "L898902C" "690806" "940623" = .ok ⟨"L898902C", "690806", "940623"⟩ := by
    decide
  obtain ⟨-, hshape, hidentifies, -⟩ := information_identifies
  exact ⟨h, h', (hshape _ _ _ _ h).1, ((hidentifies _ _ _ _ _ _ _ _ h h').1.1 rfl).1⟩

example : (AccessKey.mk "L898902C" "690806" "940623").information = "L898902C<369080619406236" := by
  decide

/-! ## Lines of a passport -/

/-- The characters of a line from one position up to another one. -/
def characters (line : String) (first last : Nat) : List Char :=
  (line.toList.take last).drop first

/-- A line of 44 ASCII characters. -/
def IsLine (line : String) : Prop :=
  line.length = 44 ∧ ∀ c ∈ line.toList, c.toNat < 128

variable {line line' : String}

theorem isLine_iff : IsLine line ↔
    (Text.utf8 line).length = 44 ∧ line.toList.all (·.toNat < 128) = true := by
  have hall : line.toList.all (·.toNat < 128) = true ↔ ∀ c ∈ line.toList, c.toNat < 128 := by
    simp
  rw [IsLine, hall, ← String.length_toList]
  constructor
  · rintro ⟨hlength, hascii⟩
    exact ⟨(Text.length_encodeChars_eq_iff.2 hascii).trans hlength, hascii⟩
  · rintro ⟨hlength, hascii⟩
    exact ⟨(Text.length_encodeChars_eq_iff.2 hascii).symm.trans hlength, hascii⟩

/-- The three fields are taken out of a line by their positions. -/
theorem ofPassportLine_of_isLine (h : IsLine line) : ofPassportLine line =
    make (String.ofList (characters line 0 9)) (String.ofList (characters line 13 19))
      (String.ofList (characters line 21 27)) := by
  obtain ⟨hlength, hascii⟩ := isLine_iff.1 h
  rw [ofPassportLine, if_neg (by simp [hlength, hascii]), characters, characters, characters,
    List.drop_take, List.drop_take, List.drop_take, List.drop_zero]

theorem ofPassportLine_of_not_isLine (h : ¬ IsLine line) :
    ofPassportLine line = .error (.lineLength (Text.utf8 line).length) := by
  rw [isLine_iff, not_and_or] at h
  rw [ofPassportLine, if_pos (h.imp id (by simp))]

theorem length_characters (h : IsLine line) {first last : Nat} (hl : last ≤ 44) :
    (characters line first last).length = last - first := by
  rw [characters, List.length_drop, List.length_take, String.length_toList, h.1, Nat.min_eq_left hl]

/-- A field and the character behind it. -/
theorem characters_succ {first last : Nat} {c : Char} (hf : first ≤ last)
    (hc : line.toList[last]? = some c) :
    characters line first (last + 1) = characters line first last ++ [c] := by
  obtain ⟨hl, rfl⟩ := List.getElem?_eq_some_iff.1 hc
  rw [characters, List.take_succ_eq_append_getElem hl, List.drop_append_of_le_length, characters]
  rw [List.length_take]
  omega

theorem eq_of_ofPassportLine (h : ofPassportLine line = .ok key) : IsLine line ∧
    make (String.ofList (characters line 0 9)) (String.ofList (characters line 13 19))
      (String.ofList (characters line 21 27)) = .ok key := by
  by_cases hl : IsLine line
  · exact ⟨hl, ofPassportLine_of_isLine hl ▸ h⟩
  · rw [ofPassportLine_of_not_isLine hl] at h
    cases h

/-- **A key from a line has the information that is printed there.** A line gives a key exactly if
it has 44 ASCII characters and a key can be made of the characters 0 to 8, 13 to 18 and 21 to 26; no
other character has any influence. If the characters 9, 19 and 27 are the check digits of these
fields, then the information of the key is what stands in the line, character for character. -/
theorem ofPassportLine_printed :
    (∀ line key, ofPassportLine line = .ok key ↔ IsLine line ∧
      make (String.ofList (characters line 0 9)) (String.ofList (characters line 13 19))
        (String.ofList (characters line 21 27)) = .ok key) ∧
    (∀ line line', IsLine line → IsLine line' →
      (∀ i, i < 9 ∨ 13 ≤ i ∧ i < 19 ∨ 21 ≤ i ∧ i < 27 →
        line.toList[i]? = line'.toList[i]?) →
      ofPassportLine line = ofPassportLine line') ∧
    ∀ line key, ofPassportLine line = .ok key →
      line.toList[9]? = some (checkCharacter (characters line 0 9)) →
      line.toList[19]? = some (checkCharacter (characters line 13 19)) →
      line.toList[27]? = some (checkCharacter (characters line 21 27)) →
      key.information.toList =
        characters line 0 10 ++ characters line 13 20 ++ characters line 21 28 := by
  refine ⟨fun line key =>
    ⟨eq_of_ofPassportLine, fun ⟨hl, h⟩ => ofPassportLine_of_isLine hl ▸ h⟩, ?_, ?_⟩
  · intro line line' hl hl' hagree
    have hfield : ∀ first last,
        (∀ i, first ≤ i → i < last → line.toList[i]? = line'.toList[i]?) →
        characters line first last = characters line' first last := by
      intro first last h
      apply List.ext_getElem?
      intro i
      rw [characters, characters, List.getElem?_drop, List.getElem?_drop, List.getElem?_take,
        List.getElem?_take]
      split
      · exact h _ (Nat.le_add_right _ _) ‹_›
      · rfl
    rw [ofPassportLine_of_isLine hl, ofPassportLine_of_isLine hl',
      hfield 0 9 fun i _ hi => hagree i (.inl hi),
      hfield 13 19 fun i hi hi' => hagree i (.inr (.inl ⟨hi, hi'⟩)),
      hfield 21 27 fun i hi hi' => hagree i (.inr (.inr ⟨hi, hi'⟩))]
  · intro line key h hnumber hbirth hexpiry
    obtain ⟨hl, hmake⟩ := eq_of_ofPassportLine h
    have hinformation := toList_information hmake
    have hascii : ∀ c ∈ characters line 0 9, c.toNat < 128 := fun c hc =>
      hl.2 c (List.mem_of_mem_take (List.mem_of_mem_drop hc))
    -- the number stands in the line with the fillers that its field is given again
    have hfield : fieldText (characters line 0 9) = characters line 0 9 :=
      fieldText_of_width hascii (length_characters hl (by decide))
    rw [String.toList_ofList, String.toList_ofList, String.toList_ofList, numberField_eq, hfield,
      dateField, dateField] at hinformation
    rw [hinformation, characters_succ (by decide) hnumber, characters_succ (by decide) hbirth,
      characters_succ (by decide) hexpiry]

/-- The line of the specimen carries the right check digits. -/
theorem ofPassportLine_printed_specimen :
    let line := "L898902C<3UTO6908061F9406236ZE184226B<<<<<14"
    let key : AccessKey := ⟨"L898902C", "690806", "940623"⟩
    ofPassportLine line = .ok key ∧
    line.toList[9]? = some (checkCharacter (characters line 0 9)) ∧
    line.toList[19]? = some (checkCharacter (characters line 13 19)) ∧
    line.toList[27]? = some (checkCharacter (characters line 21 27)) ∧
    key.information.toList =
      characters line 0 10 ++ characters line 13 20 ++ characters line 21 28 := by
  intro line key
  have h : ofPassportLine line = .ok key := by decide
  have hnumber : line.toList[9]? = some (checkCharacter (characters line 0 9)) := by decide
  have hbirth : line.toList[19]? = some (checkCharacter (characters line 13 19)) := by decide
  have hexpiry : line.toList[27]? = some (checkCharacter (characters line 21 27)) := by decide
  exact ⟨h, hnumber, hbirth, hexpiry, ofPassportLine_printed.2.2 line key h hnumber
    hbirth hexpiry⟩

end AccessKey
end TravelDocument.Mrz

import TravelDocument.Proofs.Encoding.Header

/-!
# Data objects are read back from their bytes

* `IsDefinite o`: the raw bytes of `o` are a tag, a length field and a value. That is what `decode?`
  finds in front of a byte string (`decode?_eq_some_iff`).
* `IsObject o`: `o` is what is read from the front of any byte string that starts with the raw bytes
  of `o`. These are the same objects (`isObject_iff`), and so is what `encode` writes under a tag
  that ends itself (`isObject_encode`).
* `find?_eq_some_iff`: an object is found if objects with other tags stand before it, whatever
  follows.
* `all?_eq_some_iff`: a byte string consists of data objects exactly if it is the concatenation of
  their raw bytes. So the raw bytes of a list of objects determine the list (`raws_inj`).
-/

namespace TravelDocument.DataObject

/-! ## Lengths -/

theorem encodeLength_short {n : Nat} (h : n < 128) : encodeLength n = [UInt8.ofNat n] := by
  rw [encodeLength, if_pos h]

/-- What is written for a length is a length field. -/
theorem isLengthField_encodeLength {n : Nat} (h : n < 2 ^ 64) :
    IsLengthField (encodeLength n) n := by
  by_cases hn : n < 128
  · have hb : (UInt8.ofNat n).toNat = n := by
      rw [UInt8.toNat_ofNat', Nat.mod_eq_of_lt (by omega)]
    have hshort := @IsLengthField.short (UInt8.ofNat n) (by omega)
    rwa [hb, ← encodeLength_short hn] at hshort
  · have hk : (Bytes.digits n).length ≤ 8 := Bytes.length_digits_le (by omega)
    have hb : (UInt8.ofNat (128 + (Bytes.digits n).length)).toNat =
        128 + (Bytes.digits n).length := by
      rw [UInt8.toNat_ofNat', Nat.mod_eq_of_lt (by omega)]
    have hlong := IsLengthField.long hb (Bytes.digits_ne_nil (by omega))
      (by rwa [Bytes.toNat_digits])
    rw [encodeLength, if_neg hn]
    rwa [Bytes.toNat_digits] at hlong

/-! ## Tags -/

/-- The bytes of the tag say themselves where it ends. -/
def EndsItself (tag : Nat) : Prop :=
  ∀ tail, decodeTag? (Bytes.minimal tag ++ tail) = some (tag, tail)

theorem endsItself_iff {tag : Nat} : EndsItself tag ↔ IsTag (Bytes.minimal tag) := by
  constructor
  · intro h
    obtain ⟨bytes, hbytes, rfl, -⟩ := decodeTag?_eq_some_iff.1 (h [])
    rwa [hbytes.minimal_toNat]
  · intro h tail
    rw [h.decode, Bytes.toNat_minimal]

/-- A tag of one byte whose low five bits are not all set. -/
theorem endsItself_of_lt {tag : Nat} (h : tag < 256) (h31 : tag % 32 ≠ 31) : EndsItself tag := by
  have hb : (UInt8.ofNat tag).toNat = tag := by rw [UInt8.toNat_ofNat', Nat.mod_eq_of_lt h]
  rw [endsItself_iff, Bytes.minimal_of_lt h]
  exact .short (by rwa [hb])

/-! ## Objects -/

/-- An object of definite length: its bytes are those of its tag, a length field of its value, and
the value. -/
structure IsDefinite (o : DataObject) : Prop where
  tag : IsTag (Bytes.minimal o.tag)
  raw : ∃ field, IsLengthField field o.value.length ∧
    o.raw = Bytes.minimal o.tag ++ field ++ o.value

/-- `o` is read from the front of whatever starts with its raw bytes. -/
def IsObject (o : DataObject) : Prop :=
  ∀ tail, decode? (o.raw ++ tail) = some (o, tail)

theorem IsObject.decode?_raw {o : DataObject} (h : IsObject o) : decode? o.raw = some (o, []) := by
  simpa using h []

/-- An object is read off its tag, its length field and its value. -/
theorem IsDefinite.isObject {o : DataObject} (h : IsDefinite o) : IsObject o := by
  intro tail
  obtain ⟨field, hfield, hraw⟩ := h.raw
  have hinput : o.raw ++ tail = Bytes.minimal o.tag ++ (field ++ (o.value ++ tail)) := by
    rw [hraw]
    simp only [List.append_assoc]
  have hl : (o.raw ++ tail).length - tail.length = o.raw.length := by
    rw [List.length_append, Nat.add_sub_cancel]
  rw [decode?, hinput]
  simp only [h.tag.decode, hfield.decode, Option.bind_eq_bind, Option.bind_some, List.take_left,
    List.drop_left, Bytes.toNat_minimal]
  rw [if_neg (by rw [List.length_append]; omega), ← hinput, hl, List.take_left]

/-- **What is read from the front of a byte string is an object of definite length**, and what is
left follows its raw bytes. -/
theorem decode?_eq_some_iff {input rest : Bytes} {o : DataObject} :
    decode? input = some (o, rest) ↔ IsDefinite o ∧ input = o.raw ++ rest := by
  constructor
  · intro h
    simp only [decode?, Option.bind_eq_bind, Option.bind_eq_some_iff] at h
    obtain ⟨⟨t, afterTag⟩, ht, ⟨n, afterLength⟩, hn, h⟩ := h
    obtain ⟨tag, htag, rfl, rfl⟩ := decodeTag?_eq_some_iff.1 ht
    obtain ⟨field, hfield, hafter⟩ := decodeLength?_eq_some_iff.1 hn
    dsimp only at hafter h
    subst hafter
    split at h
    · cases h
    · rename_i hl
      obtain ⟨rfl, rfl⟩ := Prod.mk.inj (Option.some.inj h)
      have hv : (afterLength.take n).length = n := by
        rw [List.length_take]
        omega
      -- the raw bytes are what the input is longer by than the rest
      have hraw : (tag ++ (field ++ afterLength)).take
          ((tag ++ (field ++ afterLength)).length - (afterLength.drop n).length) =
          tag ++ field ++ afterLength.take n := by
        conv_lhs => rw [← List.take_append_drop n afterLength, ← List.append_assoc,
          ← List.append_assoc]
        apply List.take_left'
        simp only [List.length_append, List.length_drop, hv, List.take_append_drop]
        omega
      rw [hraw]
      refine ⟨⟨?_, field, ?_, ?_⟩, ?_⟩
      · rwa [htag.minimal_toNat]
      · rwa [hv]
      · rw [htag.minimal_toNat]
      · simp only [List.append_assoc, List.take_append_drop]
  · rintro ⟨ho, rfl⟩
    exact ho.isObject rest

theorem isObject_iff {o : DataObject} : IsObject o ↔ IsDefinite o :=
  ⟨fun h => (decode?_eq_some_iff.1 (h [])).1, IsDefinite.isObject⟩

/-- **What is written under a tag that ends itself is read back.** -/
theorem isObject_encode {tag : Nat} (ht : EndsItself tag) {value : Bytes}
    (hv : value.length < 2 ^ 64) :
    IsObject ⟨tag, value, encode tag value⟩ :=
  isObject_iff.2 ⟨endsItself_iff.1 ht, _, isLengthField_encodeLength hv, rfl⟩

/-- An object is little longer than its value. -/
theorem length_encode_le {tag : Nat} (h : tag < 256) (value : Bytes) (hv : value.length < 2 ^ 64) :
    (encode tag value).length ≤ value.length + 10 := by
  have hlength : (encodeLength value.length).length ≤ 9 := by
    rw [encodeLength]
    split
    · simp
    · have hk : (Bytes.digits value.length).length ≤ 8 := Bytes.length_digits_le (by omega)
      rw [List.length_cons]
      omega
  rw [encode, List.length_append, List.length_append, Bytes.minimal_of_lt h, List.length_singleton]
  omega

/-! ## Sequences of objects -/

theorem walk_nil : walk [] = ⟨[], []⟩ := by
  rw [walk]
  rfl

theorem walk_raw_append {o : DataObject} (h : IsObject o) (tail : Bytes) :
    walk (o.raw ++ tail) = ⟨o :: (walk tail).objects, (walk tail).remainder⟩ := by
  rw [walk]
  split
  · rename_i hn
    rw [h tail] at hn
    cases hn
  · rename_i o' rest hd
    rw [h tail] at hd
    cases hd
    rfl

/-- What is walked over is objects, and they and the remainder make up the input. -/
theorem walk_spec (input : Bytes) :
    (∀ o ∈ (walk input).objects, IsObject o) ∧
      input = (walk input).objects.flatMap (·.raw) ++ (walk input).remainder := by
  rw [walk]
  split
  · exact ⟨by simp, rfl⟩
  · rename_i o rest hd
    obtain ⟨ho, hi⟩ := decode?_eq_some_iff.1 hd
    obtain ⟨hos, hrest⟩ := walk_spec rest
    refine ⟨?_, ?_⟩
    · intro o' ho'
      rcases List.mem_cons.1 ho' with rfl | ho'
      · exact ho.isObject
      · exact hos o' ho'
    · rw [List.flatMap_cons, List.append_assoc, ← hrest]
      exact hi
termination_by input.length
decreasing_by exact length_decode? (by assumption)

theorem walk_flatMap_raw_append {os : List DataObject} (h : ∀ o ∈ os, IsObject o) (tail : Bytes) :
    walk (os.flatMap (·.raw) ++ tail) =
      ⟨os ++ (walk tail).objects, (walk tail).remainder⟩ := by
  induction os with
  | nil => rfl
  | cons o os ih =>
    rw [List.flatMap_cons, List.append_assoc, walk_raw_append (h o List.mem_cons_self),
      ih fun o' ho' => h o' (List.mem_cons_of_mem _ ho'), List.cons_append]

theorem walk_flatMap_raw {os : List DataObject} (h : ∀ o ∈ os, IsObject o) :
    walk (os.flatMap (·.raw)) = ⟨os, []⟩ := by
  have hw := walk_flatMap_raw_append h []
  rwa [List.append_nil, walk_nil, List.append_nil] at hw

/-! ## Finding an object -/

/-- The input is one object with this tag and this value. -/
def IsSingle (tag : Nat) (input value : Bytes) : Prop :=
  ∃ o, IsObject o ∧ o.tag = tag ∧ o.raw = input ∧ o.value = value

/-- The input starts with objects, of which the last one is the first with this tag, and has this
value. What follows it may be anything. -/
def Finds (tag : Nat) (input value : Bytes) : Prop :=
  ∃ (before : List DataObject) (found : DataObject) (behind : Bytes),
    (∀ o ∈ before, IsObject o ∧ o.tag ≠ tag) ∧ IsObject found ∧ found.tag = tag ∧
    found.value = value ∧ input = before.flatMap (·.raw) ++ (found.raw ++ behind)

theorem single?_eq_some_iff {tag : Nat} {input value : Bytes} :
    single? tag input = some value ↔ IsSingle tag input value := by
  constructor
  · intro h
    rw [single?] at h
    split at h
    · rename_i o hd
      obtain ⟨ho, hraw⟩ := decode?_eq_some_iff.1 hd
      rw [List.append_nil] at hraw
      split at h
      · rename_i ht
        cases h
        exact ⟨o, ho.isObject, ht, hraw.symm, rfl⟩
      · cases h
    · cases h
  · rintro ⟨o, ho, ht, rfl, rfl⟩
    rw [single?, ho.decode?_raw]
    exact if_pos ht

theorem single?_encode {tag : Nat} (ht : EndsItself tag) {value : Bytes}
    (hv : value.length < 2 ^ 64) :
    single? tag (encode tag value) = some value :=
  single?_eq_some_iff.2 ⟨_, isObject_encode ht hv, rfl, rfl, rfl⟩

theorem find?_eq_some_iff {tag : Nat} {input value : Bytes} :
    find? tag input = some value ↔ Finds tag input value := by
  constructor
  · intro h
    obtain ⟨found, hfind, hvalue⟩ := Option.map_eq_some_iff.1 h
    obtain ⟨ht, before, after, hsplit, hbefore⟩ := List.find?_eq_some_iff_append.1 hfind
    obtain ⟨hobjects, hinput⟩ := walk_spec input
    rw [hsplit] at hobjects hinput
    refine ⟨before, found, after.flatMap (·.raw) ++ (walk input).remainder, ?_, ?_,
      ?_, hvalue, ?_⟩
    · intro o ho
      exact ⟨hobjects o (List.mem_append_left _ ho), by simpa using hbefore o ho⟩
    · exact hobjects found (List.mem_append_right _ List.mem_cons_self)
    · simpa using ht
    · rw [List.flatMap_append, List.flatMap_cons, List.append_assoc, List.append_assoc] at hinput
      exact hinput
  · rintro ⟨before, found, behind, hbefore, hfound, ht, rfl, rfl⟩
    have hnone : before.find? (·.tag == tag) = none := by
      rw [List.find?_eq_none]
      intro o ho
      simpa using (hbefore o ho).2
    -- a walk gets over the definite objects before the one that is looked for
    rw [find?, walk_flatMap_raw_append fun o ho => (hbefore o ho).1, walk_raw_append hfound,
      List.find?_append, hnone, Option.none_or, List.find?_cons_of_pos (by simpa using ht),
      Option.map_some]

theorem find?_encode {tag : Nat} (ht : EndsItself tag) {value : Bytes}
    (hv : value.length < 2 ^ 64) :
    find? tag (encode tag value) = some value :=
  find?_eq_some_iff.2 ⟨[], _, [], by simp, isObject_encode ht hv, rfl, rfl, by simp⟩

theorem IsSingle.unique {tag : Nat} {input a b : Bytes} (ha : IsSingle tag input a)
    (hb : IsSingle tag input b) : a = b := by
  have h := single?_eq_some_iff.2 ha
  rw [single?_eq_some_iff.2 hb] at h
  exact (Option.some.inj h).symm

theorem Finds.unique {tag : Nat} {input a b : Bytes} (ha : Finds tag input a)
    (hb : Finds tag input b) :
    a = b := by
  have h := find?_eq_some_iff.2 ha
  rw [find?_eq_some_iff.2 hb] at h
  exact (Option.some.inj h).symm

/-! ## Byte strings of objects only -/

/-- **A byte string consists of data objects exactly if it is the concatenation of their raw
bytes.** -/
theorem all?_eq_some_iff {input : Bytes} {os : List DataObject} :
    all? input = some os ↔ (∀ o ∈ os, IsObject o) ∧ input = os.flatMap (·.raw) := by
  constructor
  · intro h
    obtain ⟨ho, hi⟩ := walk_spec input
    simp only [all?] at h
    split at h
    · rename_i hr
      cases h
      refine ⟨ho, ?_⟩
      rwa [List.isEmpty_iff.1 hr, List.append_nil] at hi
    · cases h
  · rintro ⟨ho, rfl⟩
    simp only [all?, walk_flatMap_raw ho]
    rfl

/-- No value is longer than the input. -/
theorem length_value_le_of_all? {input : Bytes} {os : List DataObject} (h : all? input = some os)
    {o : DataObject} (ho : o ∈ os) : o.value.length ≤ input.length := by
  obtain ⟨hos, rfl⟩ := all?_eq_some_iff.1 h
  obtain ⟨_, -, hraw⟩ := (isObject_iff.1 (hos o ho)).raw
  obtain ⟨before, after, rfl⟩ := List.append_of_mem ho
  simp only [List.flatMap_append, List.flatMap_cons, List.length_append, hraw]
  omega

/-- The raw bytes of objects determine the objects. -/
theorem raws_inj {os ps : List DataObject} (ho : ∀ o ∈ os, IsObject o)
    (hp : ∀ p ∈ ps, IsObject p) (h : os.flatMap (·.raw) = ps.flatMap (·.raw)) : os = ps := by
  have ho' := all?_eq_some_iff.2 ⟨ho, rfl⟩
  rw [h, all?_eq_some_iff.2 ⟨hp, rfl⟩] at ho'
  exact (Option.some.inj ho').symm

end TravelDocument.DataObject

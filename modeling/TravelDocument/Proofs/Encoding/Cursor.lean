import TravelDocument.Proofs.Encoding.Tlv

/-!
# One data object at a time

A `Cursor` hands out the objects of a byte string one behind the other. Where no object can be read
it reports that once, and then it hands out nothing more; these are the objects and the remainder of
`walk` (`Cursor.yields_iff`). A walk is the one way to split the input into objects of definite
length and a part that starts with none (`walk_eq_iff`), so no byte is lost, and none is read twice
(`walk_lossless`).
-/

namespace TravelDocument.DataObject

/-! ## The split of the input -/

/-- The bytes start with an object of definite length. -/
def StartsWithObject (bytes : Bytes) : Prop :=
  ∃ o rest, IsDefinite o ∧ bytes = o.raw ++ rest

theorem decode?_eq_none_iff {bytes : Bytes} :
    decode? bytes = none ↔ ¬ StartsWithObject bytes := by
  rw [Option.eq_none_iff_forall_ne_some]
  simp only [StartsWithObject, ← decode?_eq_some_iff, ne_eq, Prod.forall, not_exists]

theorem walk_of_not_startsWithObject {bytes : Bytes} (h : ¬ StartsWithObject bytes) :
    walk bytes = ⟨[], bytes⟩ := by
  rw [walk]
  split
  · rfl
  · rename_i hd
    rw [decode?_eq_none_iff.2 h] at hd
    cases hd

/-- What is left over starts with no object. -/
theorem not_startsWithObject_remainder (input : Bytes) :
    ¬ StartsWithObject (walk input).remainder := by
  rw [walk]
  split
  · rename_i hd
    exact decode?_eq_none_iff.1 hd
  · rename_i rest _
    exact not_startsWithObject_remainder rest
termination_by input.length
decreasing_by exact length_decode? (by assumption)

/-- **A walk is the one split of the input** into objects and a part that starts with none. -/
theorem walk_eq_iff {input remainder : Bytes} {os : List DataObject} :
    walk input = ⟨os, remainder⟩ ↔ (∀ o ∈ os, IsDefinite o) ∧
      input = os.flatMap (·.raw) ++ remainder ∧ ¬ StartsWithObject remainder := by
  constructor
  · intro h
    obtain ⟨hobjects, hinput⟩ := walk_spec input
    have hend := not_startsWithObject_remainder input
    rw [h] at hobjects hinput hend
    exact ⟨fun o ho => isObject_iff.1 (hobjects o ho), hinput, hend⟩
  · rintro ⟨hobjects, rfl, hend⟩
    rw [walk_flatMap_raw_append fun o ho => (hobjects o ho).isObject,
      walk_of_not_startsWithObject hend, List.append_nil]

/-- Behind objects the walk goes on as if they were not there. -/
theorem walk_append {input : Bytes} (h : (walk input).remainder = []) (other : Bytes) :
    walk (input ++ other) =
      ⟨(walk input).objects ++ (walk other).objects, (walk other).remainder⟩ := by
  obtain ⟨hobjects, hinput⟩ := walk_spec input
  rw [h, List.append_nil] at hinput
  conv_lhs => rw [hinput]
  exact walk_flatMap_raw_append hobjects other

/-! ## The cursor -/

/-- What a cursor hands out. -/
inductive Item where
  | object (o : DataObject)
  | malformed
  deriving DecidableEq, Repr

/-- The bytes that are still to be read, and whether an object could not be read. -/
structure Cursor where
  rest : Bytes
  failed : Bool
  deriving DecidableEq, Repr

/-- The objects of a walk, and an error if anything is left over. -/
def Walk.items (w : Walk) : List Item :=
  w.objects.map .object ++ if w.remainder = [] then [] else [.malformed]

namespace Cursor

def start (input : Bytes) : Cursor := ⟨input, false⟩

/-- The next item and the cursor behind it. There is none at the end of the input and none after a
failure. -/
def next? (c : Cursor) : Option (Item × Cursor) :=
  if c.failed || c.rest.isEmpty then none
  else
    match decode? c.rest with
    | some (o, rest) => some (.object o, { c with rest := rest })
    | none => some (.malformed, { c with failed := true })

/-- Asked again and again until there is no more, the cursor hands out these items. -/
inductive Yields : Cursor → List Item → Prop
  | done {c : Cursor} : c.next? = none → Yields c []
  | item {c next : Cursor} {x : Item} {items : List Item} : c.next? = some (x, next) →
    Yields next items → Yields c (x :: items)

theorem Yields.unique {c : Cursor} {items items' : List Item} (h : Yields c items)
    (h' : Yields c items') : items = items' := by
  induction h generalizing items' with
  | done hnone =>
    cases h' with
    | done _ => rfl
    | item hsome _ => cases hnone.symm.trans hsome
  | item hsome _ ih =>
    cases h' with
    | done hnone => cases hnone.symm.trans hsome
    | item hsome' hrest =>
      cases hsome.symm.trans hsome'
      rw [ih hrest]

theorem yields_of_failed (rest : Bytes) : Yields ⟨rest, true⟩ [] :=
  .done rfl

/-- **The cursor comes to an end**, and has handed out the items of the walk. -/
theorem yields_items (input : Bytes) : Yields (start input) (walk input).items := by
  rw [walk]
  split
  · rename_i hd
    by_cases hi : input = []
    · subst hi
      exact .done rfl
    · have hnext : (start input).next? = some (.malformed, ⟨input, true⟩) := by
        simp [next?, start, hi, hd]
      simpa [Walk.items, hi] using Yields.item hnext (yields_of_failed input)
  · rename_i o rest hd
    have hi : input ≠ [] := List.ne_nil_of_length_pos (Nat.zero_lt_of_lt (length_decode? hd))
    have hnext : (start input).next? = some (.object o, start rest) := by
      simp [next?, start, hi, hd]
    exact .item hnext (yields_items rest)
termination_by input.length
decreasing_by exact length_decode? (by assumption)

theorem yields_iff {input : Bytes} {items : List Item} :
    Yields (start input) items ↔ items = (walk input).items := by
  constructor
  · exact fun h => h.unique (yields_items input)
  · rintro rfl
    exact yields_items input

end Cursor

/-! ## Nothing is lost -/

/-- Every byte of the input is accounted for, as part of an object of definite length or of a
remainder that starts with none. -/
structure Lossless (input : Bytes) : Prop where
  /-- One at a time there are the objects, then at most one error, and then nothing. -/
  yields (items : List Item) : (Cursor.start input).Yields items ↔
    items = (walk input).objects.map .object ++
      if (walk input).remainder = [] then [] else [.malformed]
  raws : (walk input).objects.flatMap (·.raw) ++ (walk input).remainder = input
  /-- An object is found exactly where there is one. -/
  decode (o : DataObject) (rest : Bytes) :
    decode? input = some (o, rest) ↔ IsDefinite o ∧ input = o.raw ++ rest
  /-- Found objects stand where the one before ends, up to where there is none. -/
  split (os : List DataObject) (remainder : Bytes) : walk input = ⟨os, remainder⟩ ↔
    (∀ o ∈ os, IsDefinite o) ∧ input = os.flatMap (·.raw) ++ remainder ∧
      ¬ StartsWithObject remainder
  append : (walk input).remainder = [] → ∀ other, walk (input ++ other) =
    ⟨(walk input).objects ++ (walk other).objects, (walk other).remainder⟩
  alone : ∀ o ∈ (walk input).objects, decode? o.raw = some (o, [])

/-- **Walking loses nothing and finds exactly the objects of definite length**, in every byte
string. -/
theorem walk_lossless (input : Bytes) : Lossless input where
  yields _ := Cursor.yields_iff
  raws := (walk_spec input).2.symm
  decode _ _ := decode?_eq_some_iff
  split _ _ := walk_eq_iff
  append := walk_append
  alone o ho := ((walk_spec input).1 o ho).decode?_raw

/-- Two objects, the second with a leading zero in its length field, and an object that is cut
off. -/
example : (walk [0x7F, 0x49, 0x01, 0xAA, 0x99, 0x82, 0x00, 0x01, 0x90, 0x8E, 0x02, 0x01]).items =
    [.object ⟨0x7F49, [0xAA], [0x7F, 0x49, 0x01, 0xAA]⟩,
      .object ⟨0x99, [0x90], [0x99, 0x82, 0x00, 0x01, 0x90]⟩, .malformed] := by
  cbv

end TravelDocument.DataObject

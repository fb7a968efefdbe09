import TravelDocument.Proofs.Encoding.Tlv

/-!
# Walking over what was written

Tags and values that are written one behind the other (`encodeAll`) are read back in their order,
whatever the number of bytes of the tags and of the length fields (`walk_encodeAll`). Finding a tag
gives the first value under it, and looks into what follows only if there is none.
-/

namespace TravelDocument.DataObject

/-- A tag and a value that can be read back: the bytes of the tag are one, and the length of the
value has a length field. -/
structure Writable (field : Nat × Bytes) : Prop where
  tag : IsTag (Bytes.minimal field.1)
  length : field.2.length < 2 ^ 64

/-- Tags and values as data objects one behind the other. -/
def encodeAll (fields : List (Nat × Bytes)) : Bytes :=
  fields.flatMap fun field => encode field.1 field.2

/-- The object that a tag and a value are written as. -/
def ofField (field : Nat × Bytes) : DataObject :=
  ⟨field.1, field.2, encode field.1 field.2⟩

variable {field : Nat × Bytes} {fields : List (Nat × Bytes)}

theorem Writable.isObject (h : Writable field) : IsObject (ofField field) :=
  isObject_encode (endsItself_iff.2 h.tag) h.length

theorem isObject_of_mem_map (h : ∀ field ∈ fields, Writable field) :
    ∀ o ∈ fields.map ofField, IsObject o := by
  intro o ho
  obtain ⟨field, hfield, rfl⟩ := List.mem_map.1 ho
  exact (h field hfield).isObject

theorem flatMap_raw_map (fields : List (Nat × Bytes)) :
    (fields.map ofField).flatMap (·.raw) = encodeAll fields :=
  List.flatMap_map _ _ _

/-- An object that spans the whole input is found under its own tag and no other. -/
theorem single?_of_isObject {o : DataObject} (h : IsObject o) (tag : Nat) :
    single? tag o.raw = if tag = o.tag then some o.value else none := by
  rw [single?, h.decode?_raw]
  simp only [eq_comm]

/-- Objects in front are looked at first. -/
theorem find?_flatMap_raw_append {os : List DataObject} (h : ∀ o ∈ os, IsObject o) (tag : Nat)
    (tail : Bytes) : find? tag (os.flatMap (·.raw) ++ tail) =
      ((os.find? (·.tag == tag)).map (·.value)).or (find? tag tail) := by
  rw [find?, walk_flatMap_raw_append h, List.find?_append, Option.map_or, find?]

/-- **Walking gives back what was written**, in its order and with every byte accounted for. One
object is found under its own tag only, and among several the first one with the tag is found,
whatever follows. -/
theorem walk_encodeAll (fields : List (Nat × Bytes)) (h : ∀ field ∈ fields, Writable field) :
    walk (encodeAll fields) = ⟨fields.map ofField, []⟩ ∧
    (∀ field, fields = [field] →
      ∀ tag, single? tag (encodeAll fields) = if tag = field.1 then some field.2 else none) ∧
    ∀ tag behind, find? tag (encodeAll fields ++ behind) =
      ((fields.find? (·.1 == tag)).map (·.2)).or (find? tag behind) := by
  have hobjects := isObject_of_mem_map h
  rw [← flatMap_raw_map]
  refine ⟨walk_flatMap_raw hobjects, ?_, ?_⟩
  · rintro field rfl tag
    rw [List.map_singleton, List.flatMap_singleton]
    exact single?_of_isObject (h field List.mem_cons_self).isObject tag
  · intro tag behind
    rw [find?_flatMap_raw_append hobjects, List.find?_map, Option.map_map]
    rfl

/-- A tag of two bytes, a value of 128 bytes, and a tag that comes twice. -/
theorem walk_encodeAll_twoByteTag :
    let fields : List (Nat × Bytes) :=
      [(0x7F49, [0x86, 0x00]), (0x99, List.replicate 128 0xAA), (0x99, [0x90, 0x00])]
    walk (encodeAll fields) = ⟨fields.map ofField, []⟩ ∧
      find? 0x99 (encodeAll fields ++ [0xFF]) = some (List.replicate 128 0xAA) := by
  intro fields
  have hlong : Bytes.minimal 0x7F49 = [0x7F, 0x49] := by
    simp [Bytes.minimal, Bytes.digits, Bytes.digitsOnto]
  have hshort : IsTag (Bytes.minimal 0x99) := by
    rw [Bytes.minimal_of_lt (by decide)]
    exact .short (by decide)
  have hwritable : ∀ field ∈ fields, Writable field := by
    simp only [fields, List.forall_mem_cons]
    refine ⟨⟨?_, by decide⟩, ⟨hshort, by simp⟩, ⟨hshort, by decide⟩,
      List.forall_mem_nil _⟩
    rw [hlong]
    exact @IsTag.long 0x7F 0x49 [] (by decide) (by decide) (List.forall_mem_nil _) (by decide)
  obtain ⟨hwalk, -, hfind⟩ := walk_encodeAll fields hwritable
  exact ⟨hwalk, hfind 0x99 [0xFF]⟩

end TravelDocument.DataObject

import Mathlib.Data.List.Forall2
import TravelDocument.Encoding.ObjectIdentifier
import TravelDocument.Proofs.Bytes

/-!
# Object identifiers and their encodings

A number is written in groups of seven bits, as few as it takes (`isShortest_subidentifier`), and
the groups say themselves where a number ends, so the numbers of an object identifier are read back
one by one (`subidentifiers?_flatMap`). The first number is that of the first two arcs, and it must
have 32 bits: a valid object identifier of which it has more has no encoding, and every other one is
read back as it was, so no two have the same encoding (`encode_faithful`).
-/

namespace TravelDocument.ObjectIdentifier

/-! ## Subidentifiers -/

/-- One more group of seven bits. -/
def push (n : Nat) (b : UInt8) : Nat := 128 * n + b.toNat % 128

/-- The bytes are groups of seven bits that spell the number. All but the last have their top bit
set. -/
structure IsSubidentifier (n : Nat) (b : Bytes) : Prop where
  groups : ∃ front last, b = front ++ [last] ∧ (∀ c ∈ front, 128 ≤ c.toNat) ∧
    last.toNat < 128
  value : b.foldl push 0 = n

/-- The groups of the number, and no more of them than it takes. -/
structure IsShortest (n : Nat) (b : Bytes) : Prop where
  isSubidentifier : IsSubidentifier n b
  length_le (other : Bytes) : IsSubidentifier n other → b.length ≤ other.length

theorem leadingGroups_of_pos {n : Nat} (h : 0 < n) :
    leadingGroups n = leadingGroups (n / 128) ++ [UInt8.ofNat (128 + n % 128)] := by
  rw [leadingGroups, if_neg (by omega)]

@[simp] theorem leadingGroups_zero : leadingGroups 0 = [] := by
  rw [leadingGroups, if_pos rfl]

theorem toNat_leadingGroup (n : Nat) : (UInt8.ofNat (128 + n % 128)).toNat = 128 + n % 128 := by
  rw [UInt8.toNat_ofNat', Nat.mod_eq_of_lt (by omega)]

theorem toNat_lastGroup (n : Nat) : (UInt8.ofNat (n % 128)).toNat = n % 128 := by
  rw [UInt8.toNat_ofNat', Nat.mod_eq_of_lt (by omega)]

/-- The leading groups are marked as continued and spell the number. -/
theorem leadingGroups_spec (n : Nat) :
    (∀ c ∈ leadingGroups n, 128 ≤ c.toNat) ∧ (leadingGroups n).foldl push 0 = n := by
  induction n using Nat.strongRecOn with
  | ind n ih =>
    by_cases h : n = 0
    · subst h
      simp
    · obtain ⟨hcontinued, hvalue⟩ := ih (n / 128) (by omega)
      rw [leadingGroups_of_pos (by omega)]
      constructor
      · intro c hc
        rcases List.mem_append.1 hc with hc | hc
        · exact hcontinued c hc
        · rw [List.mem_singleton.1 hc, toNat_leadingGroup]
          omega
      · rw [List.foldl_append, hvalue, List.foldl_cons, List.foldl_nil, push, toNat_leadingGroup]
        omega

theorem length_leadingGroups_le {n k : Nat} (h : n < 128 ^ k) : (leadingGroups n).length ≤ k := by
  induction k generalizing n with
  | zero =>
    have : n = 0 := by simpa using h
    simp [this]
  | succ k ih =>
    by_cases hn : n = 0
    · simp [hn]
    · have hq : n / 128 < 128 ^ k := by
        rw [Nat.pow_succ] at h
        omega
      rw [leadingGroups_of_pos (by omega), List.length_append, List.length_singleton]
      exact Nat.succ_le_succ (ih hq)

theorem isSubidentifier_subidentifier (n : Nat) : IsSubidentifier n (subidentifier n) := by
  obtain ⟨hcontinued, hvalue⟩ := leadingGroups_spec (n / 128)
  refine ⟨⟨_, _, rfl, hcontinued, by rw [toNat_lastGroup]; omega⟩, ?_⟩
  rw [subidentifier, List.foldl_append, hvalue, List.foldl_cons, List.foldl_nil, push,
    toNat_lastGroup]
  omega

theorem foldl_push_lt (b : Bytes) : b.foldl push 0 < 128 ^ b.length := by
  induction b using List.reverseRecOn with
  | nil => simp
  | append_singleton b c ih =>
    rw [List.foldl_append, List.foldl_cons, List.foldl_nil, push, List.length_append,
      List.length_singleton, Nat.pow_succ]
    omega

/-- **A number is written in as few groups as there can be.** -/
theorem isShortest_subidentifier (n : Nat) : IsShortest n (subidentifier n) := by
  refine ⟨isSubidentifier_subidentifier n, fun other h => ?_⟩
  obtain ⟨front, last, rfl, -, -⟩ := h.groups
  have hlt := foldl_push_lt (front ++ [last])
  rw [h.value, List.length_append, List.length_singleton, Nat.pow_succ] at hlt
  have hfront : (leadingGroups (n / 128)).length ≤ front.length :=
    length_leadingGroups_le (by omega)
  rw [subidentifier, List.length_append, List.length_append]
  exact Nat.add_le_add_right hfront _

/-! ## Reading subidentifiers -/

theorem push_continued (n : Nat) {b : UInt8} (h : 128 ≤ b.toNat) :
    UInt32.ofNat n * 128 + (b.toUInt32 - 128) = UInt32.ofNat (push n b) := by
  have hb := b.toNat_lt
  have h128 : (128 : UInt32).toNat = 128 := rfl
  apply UInt32.toNat.inj
  rw [UInt32.toNat_add, UInt32.toNat_mul, UInt32.toNat_sub, UInt8.toNat_toUInt32,
    UInt32.toNat_ofNat', UInt32.toNat_ofNat', h128, push]
  omega

theorem push_last (n : Nat) {b : UInt8} (h : b.toNat < 128) :
    UInt32.ofNat n * 128 + b.toUInt32 = UInt32.ofNat (push n b) := by
  have h128 : (128 : UInt32).toNat = 128 := rfl
  apply UInt32.toNat.inj
  rw [UInt32.toNat_add, UInt32.toNat_mul, UInt8.toNat_toUInt32, UInt32.toNat_ofNat',
    UInt32.toNat_ofNat', h128, push]
  omega

/-- The numbers of a byte string that may be empty. -/
def subidentifiers? (b : Bytes) : Option (List UInt32) :=
  if b = [] then some [] else subidentifiersFrom? 0 b

/-- Groups are read up to the first that is not continued. -/
theorem subidentifiersFrom?_append {front : Bytes} {last : UInt8}
    (hf : ∀ c ∈ front, 128 ≤ c.toNat) (hl : last.toNat < 128) (n : Nat) (rest : Bytes) :
    subidentifiersFrom? (UInt32.ofNat n) (front ++ last :: rest) =
      (subidentifiers? rest).map (UInt32.ofNat ((front ++ [last]).foldl push n) :: ·) := by
  induction front generalizing n with
  | nil =>
    cases rest with
    | nil => simp [subidentifiersFrom?, subidentifiers?, hl, push_last]
    | cons c rest => simp [subidentifiersFrom?, subidentifiers?, hl, push_last]
  | cons b front ih =>
    have hb : 128 ≤ b.toNat := hf b List.mem_cons_self
    have hstep : subidentifiersFrom? (UInt32.ofNat n) (b :: (front ++ last :: rest)) =
        subidentifiersFrom? (UInt32.ofNat (push n b)) (front ++ last :: rest) := by
      rw [subidentifiersFrom?.eq_3 _ _ _ (by simp), if_neg (by omega), push_continued n hb]
    rw [List.cons_append, hstep, ih fun c hc => hf c (List.mem_cons_of_mem _ hc)]
    rfl

/-- **What is written for numbers is read as these numbers**, kept to their low 32 bits. -/
theorem subidentifiers?_flatMap (ns : List Nat) :
    subidentifiers? (ns.flatMap subidentifier) = some (ns.map UInt32.ofNat) := by
  induction ns with
  | nil => rfl
  | cons n ns ih =>
    obtain ⟨⟨front, last, hgroups, hf, hl⟩, hvalue⟩ := isSubidentifier_subidentifier n
    have hread := subidentifiersFrom?_append hf hl 0 (ns.flatMap subidentifier)
    rw [← hgroups, hvalue, ih] at hread
    rw [List.flatMap_cons, hgroups, List.append_assoc, List.singleton_append, subidentifiers?,
      if_neg (by simp)]
    exact hread

/-! ## Object identifiers -/

/-- At least two arcs, the first 0, 1 or 2, and the second at most 39 unless the first is 2. -/
def IsValid : ObjectIdentifier → Prop
  | a :: b :: _ => a ≤ 2 ∧ (a < 2 → b ≤ 39)
  | _ => False

/-- The number of the first two arcs has 32 bits. -/
def Fits : ObjectIdentifier → Prop
  | a :: b :: _ => 40 * a.toNat + b.toNat < UInt32.size
  | _ => False

/-- The numbers of the subidentifiers: one for the first two arcs, and one for every other arc. -/
def numbers : ObjectIdentifier → List Nat
  | a :: b :: arcs => (40 * a.toNat + b.toNat) :: arcs.map (·.toNat)
  | _ => []

variable {a b : UInt32} {arcs oid : ObjectIdentifier} {contents : Bytes}

instance : DecidablePred IsValid
  | [] | [_] => .isFalse id
  | a :: b :: _ => inferInstanceAs (Decidable (a ≤ 2 ∧ (a < 2 → b ≤ 39)))

instance : DecidablePred Fits
  | [] | [_] => .isFalse id
  | a :: b :: _ => inferInstanceAs (Decidable (40 * a.toNat + b.toNat < UInt32.size))

/-- The first two arcs of a valid object identifier as numbers. -/
theorem IsValid.toNat_le (hv : IsValid (a :: b :: arcs)) :
    a.toNat ≤ 2 ∧ (a.toNat < 2 → b.toNat ≤ 39) :=
  ⟨UInt32.le_iff_toNat_le.1 hv.1,
    fun h => UInt32.le_iff_toNat_le.1 (hv.2 (UInt32.lt_iff_toNat_lt.2 h))⟩

/-- Only with a first arc 2 can the number be too large, and then the second arc is among the last
80. -/
theorem not_fits_iff (hv : IsValid (a :: b :: arcs)) :
    ¬ Fits (a :: b :: arcs) ↔ a.toNat = 2 ∧ 4294967216 ≤ b.toNat := by
  obtain ⟨ha, hb⟩ := hv.toNat_le
  rw [Fits, UInt32.size]
  omega

/-! ### The outcomes of encoding -/

theorem encode_eq (oid : ObjectIdentifier) :
    encode oid =
      if IsValid oid then
        if Fits oid then .ok ((numbers oid).flatMap subidentifier) else .error .overflow
      else .error .invalid := by
  match oid with
  | [] | [_] => rfl
  | a :: b :: arcs =>
    have hvalid : IsValid (a :: b :: arcs) ↔ ¬ (2 < a ∨ (a < 2 ∧ 39 < b)) := by
      simp [IsValid]
    have hfits : Fits (a :: b :: arcs) ↔ ¬ UInt32.size ≤ 40 * a.toNat + b.toNat :=
      Nat.not_le.symm
    simp only [encode, hvalid, hfits, ite_not, numbers, List.flatMap_cons, List.flatMap_map]

/-- **The encoding is that of the numbers**, if they are those of a valid object identifier and the
first one fits. -/
theorem encode_eq_ok_iff :
    encode oid = .ok contents ↔
      IsValid oid ∧ Fits oid ∧ contents = (numbers oid).flatMap subidentifier := by
  rw [encode_eq]
  split <;> rename_i hv
  · split <;> rename_i hf <;> simp [hv, hf, eq_comm]
  · simp [hv]

theorem encode_eq_overflow (hv : IsValid oid) (hf : ¬ Fits oid) :
    encode oid = .error .overflow := by
  rw [encode_eq, if_pos hv, if_neg hf]

/-! ### Reading an encoding -/

/-- The low 32 bits of the first number are split, and the other numbers are arcs. -/
theorem decode?_flatMap_cons (n : Nat) (ns : List Nat) :
    decode? ((n :: ns).flatMap subidentifier) =
      some (splitFirst (UInt32.ofNat n) ++ ns.map UInt32.ofNat) := by
  have hread := subidentifiers?_flatMap (n :: ns)
  rw [subidentifiers?, if_neg (by simp [subidentifier])] at hread
  rw [decode?, hread]
  rfl

/-- Numbers above 119 are those of a first arc 2. -/
theorem splitFirst_eq_iff_toNat {g : UInt32} : splitFirst g = [a, b] ↔
    if 119 < g.toNat then a.toNat = 2 ∧ b.toNat + 80 = g.toNat
    else a.toNat = g.toNat / 40 ∧ b.toNat = g.toNat % 40 := by
  have h119 : 119 < g ↔ 119 < g.toNat := UInt32.lt_iff_toNat_lt
  simp only [splitFirst, h119]
  split
  · have hle : 80 ≤ g := UInt32.le_iff_toNat_le.2 (show 80 ≤ g.toNat by omega)
    have hsub : (g - 80).toNat = g.toNat - 80 := UInt32.toNat_sub_of_le g 80 hle
    have h2 : (2 : UInt32).toNat = 2 := rfl
    simp only [List.cons.injEq, and_true, ← UInt32.toNat_inj, hsub, h2]
    omega
  · simp only [List.cons.injEq, and_true, ← UInt32.toNat_inj, UInt32.toNat_div, UInt32.toNat_mod]
    exact and_congr eq_comm eq_comm

/-- The first two arcs come out of their number. -/
theorem splitFirst_combined (hv : IsValid (a :: b :: arcs)) (hf : Fits (a :: b :: arcs)) :
    splitFirst (UInt32.ofNat (40 * a.toNat + b.toNat)) = [a, b] := by
  obtain ⟨ha, hb⟩ := hv.toNat_le
  rw [splitFirst_eq_iff_toNat, UInt32.toNat_ofNat_of_lt' hf]
  -- only a first arc 2 comes to more than 119
  split <;> omega

theorem decode?_numbers (hv : IsValid oid) (hf : Fits oid) :
    decode? ((numbers oid).flatMap subidentifier) = some oid := by
  match oid, hv, hf with
  | a :: b :: arcs, hv, hf =>
    rw [numbers, decode?_flatMap_cons, splitFirst_combined hv hf, List.map_map]
    simp [Function.comp_def]

/-- Numbers that have 32 bits are not cut off. -/
theorem toNat_ofNat_numbers (hf : Fits oid) :
    ((numbers oid).map UInt32.ofNat).map UInt32.toNat = numbers oid := by
  have hlt : ∀ n ∈ numbers oid, n < UInt32.size := by
    match oid, hf with
    | a :: b :: arcs, hf =>
      exact List.forall_mem_cons.2 ⟨hf, List.forall_mem_map.2 fun arc _ => arc.toNat_lt⟩
  rw [List.map_map]
  exact (List.map_congr_left fun n hn => Nat.mod_eq_of_lt (hlt n hn)).trans (List.map_id _)

/-- What the encoding of an object identifier tells about it. -/
structure IsEncoded (oid : ObjectIdentifier) (contents : Bytes) : Prop where
  encode : encode oid = .ok contents
  subidentifiers : ∃ parts, contents = parts.flatten ∧
    List.Forall₂ IsShortest (numbers oid) parts
  decode : decode? contents = some oid
  /-- No other object identifier has the same encoding. -/
  unique {other : ObjectIdentifier} : ObjectIdentifier.encode other = .ok contents → other = oid

/-- **Every valid object identifier of which the first number fits has an encoding**, which consists
of the shortest subidentifiers of its numbers, is read back as the same arcs, and is that of no
other object identifier. If the first number does not fit there is none: the computation
overflows. -/
theorem encode_faithful (hv : IsValid oid) :
    (Fits oid → ∃ contents, IsEncoded oid contents) ∧
      (¬ Fits oid → encode oid = .error .overflow) := by
  refine ⟨fun hf => ⟨(numbers oid).flatMap subidentifier, ?_, ?_, decode?_numbers hv hf, ?_⟩,
    encode_eq_overflow hv⟩
  · exact encode_eq_ok_iff.2 ⟨hv, hf, rfl⟩
  · refine ⟨(numbers oid).map subidentifier, List.flatMap_def .., ?_⟩
    simp only [List.forall₂_map_right_iff, List.forall₂_same]
    exact fun n _ => isShortest_subidentifier n
  · -- both are what is read from the same bytes
    intro other he
    obtain ⟨hvalid, hfits, hsame⟩ := encode_eq_ok_iff.1 he
    have hread := decode?_numbers hvalid hfits
    rw [← hsame, decode?_numbers hv hf] at hread
    exact (Option.some.inj hread).symm

/-- The largest second arc with which the first number fits, and arcs of one, two and five bytes. -/
theorem encode_faithful_largest :
    let oid : ObjectIdentifier := [2, 4294967215, 127, 128, 4294967295]
    IsValid oid ∧ Fits oid ∧ ∃ contents, IsEncoded oid contents := by
  intro oid
  have hvalid : IsValid oid := by decide
  have hfits : Fits oid := by decide
  exact ⟨hvalid, hfits, (encode_faithful hvalid).1 hfits⟩

/-- One more in the second arc, and there is no encoding: the object identifier is valid, and the
number of its first two arcs has a shortest subidentifier of five bytes, but it does not have 32
bits. -/
theorem encode_overflows :
    let oid : ObjectIdentifier := [2, 4294967216]
    IsValid oid ∧ numbers oid = [4294967296] ∧
      IsShortest 4294967296 [0x90, 0x80, 0x80, 0x80, 0x00] ∧ encode oid = .error .overflow := by
  intro oid
  have hbytes : subidentifier 4294967296 = [0x90, 0x80, 0x80, 0x80, 0x00] := by
    simp [subidentifier, leadingGroups]
  have hvalid : IsValid oid := by decide
  have hfits : ¬ Fits oid := (not_fits_iff hvalid).2 ⟨rfl, Nat.le_refl _⟩
  exact ⟨hvalid, rfl, hbytes ▸ isShortest_subidentifier _, encode_eq_overflow hvalid hfits⟩

end TravelDocument.ObjectIdentifier

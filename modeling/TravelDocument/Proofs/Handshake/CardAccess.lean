import Mathlib.Data.Set.List
import TravelDocument.Handshake.CardAccess
import TravelDocument.Proofs.Encoding.Der

/-!
# EF.CardAccess is filtered without loss

A file is written from security infos (`file`), each with any fields. Reading it looks for those
that start with the identifier of a PACE variant (`IsPace`) and takes no notice of the others
(`decode?_file`): the offers are found in their order, and a variant without a version has the whole
file refused (`decode_filters`).
-/

namespace TravelDocument.CardAccess

open Der (Element)
open ObjectIdentifier (subidentifier numbers)

/-! ## Fields -/

/-- An OBJECT IDENTIFIER, by the numbers of its subidentifiers. -/
def identifierElement (ns : List Nat) : Element :=
  ⟨⟨0, false, identifierNumber⟩, ns.flatMap subidentifier⟩

/-- An INTEGER. -/
def integerElement (n : UInt32) : Element :=
  ⟨⟨0, false, integerNumber⟩, EcdsaSignature.integer n.toNat⟩

/-- The protocol identifier `id-PACE.mapping.cipher`. -/
def variant (mapping cipher : UInt32) : ObjectIdentifier :=
  PaceParameters.root ++ [mapping, cipher]

/-- The number of its first two arcs is 4. -/
theorem fits_variant (mapping cipher : UInt32) :
    ObjectIdentifier.Fits (variant mapping cipher) := by
  show 40 * (0 : UInt32).toNat + (4 : UInt32).toNat < UInt32.size
  decide

theorem version?_integerElement (n : UInt32) : version? (integerElement n) = some n :=
  Der.unsigned32?_integer n

theorem map_ofNat_numbers_variant (mapping cipher : UInt32) :
    (numbers (variant mapping cipher)).map UInt32.ofNat = 4 :: (variant mapping cipher).drop 2 := by
  simp only [variant, PaceParameters.root, numbers, List.cons_append, List.nil_append,
    List.map_cons, List.map_nil, UInt32.ofNat_toNat, List.drop_succ_cons, List.drop_zero]
  rfl

/-- Exactly the numbers of a variant are read as its identifier, in 32 bits. -/
theorem paceProtocol?_identifierElement {ns : List Nat} {protocol : ObjectIdentifier} :
    paceProtocol? (identifierElement ns) = some protocol ↔ ∃ mapping cipher,
      protocol = variant mapping cipher ∧
        ns.map UInt32.ofNat = (numbers (variant mapping cipher)).map UInt32.ofNat := by
  have hread : identifier? (identifierElement ns) =
      ObjectIdentifier.decode? (ns.flatMap subidentifier) := rfl
  rw [paceProtocol?, Option.filter_eq_some_iff, hread]
  constructor
  · rintro ⟨hdecode, hvariant⟩
    obtain ⟨⟨mapping, cipher⟩, harcs⟩ := Option.isSome_iff_exists.1 hvariant
    obtain rfl := PaceParameters.variantArcs?_eq_some_iff.1 harcs
    refine ⟨mapping, cipher, rfl, ?_⟩
    cases ns with
    | nil => cases hdecode
    | cons n ns =>
      rw [ObjectIdentifier.decode?_flatMap_cons, Option.some_inj] at hdecode
      change ObjectIdentifier.splitFirst (UInt32.ofNat n) ++ ns.map UInt32.ofNat =
        [0, 4] ++ (variant mapping cipher).drop 2 at hdecode
      -- the first number always gives two arcs, so both sides split at the same place
      have hlength : (ObjectIdentifier.splitFirst (UInt32.ofNat n)).length = 2 := by
        rw [ObjectIdentifier.splitFirst]
        split <;> rfl
      obtain ⟨hfirst, hrest⟩ := List.append_inj hdecode hlength
      have hn : UInt32.ofNat n = 4 := by
        have harc : (0 : UInt32).toNat = 0 ∧ (4 : UInt32).toNat = 4 := ⟨rfl, rfl⟩
        rw [ObjectIdentifier.splitFirst_eq_iff_toNat, harc.1, harc.2] at hfirst
        apply UInt32.toNat.inj
        rw [harc.2]
        split at hfirst <;> omega
      rw [List.map_cons, hn, hrest, map_ofNat_numbers_variant]
  · rintro ⟨mapping, cipher, rfl, hns⟩
    refine ⟨?_, rfl⟩
    rw [map_ofNat_numbers_variant] at hns
    cases ns with
    | nil => cases hns
    | cons n ns =>
      obtain ⟨hn, hrest⟩ := List.cons.inj hns
      rw [ObjectIdentifier.decode?_flatMap_cons, hn, hrest]
      rfl

/-! ## Security infos -/

/-- The fields of a security info. -/
abbrev SecurityInfo := List Element

/-- It starts with the identifier of a PACE variant. -/
def IsPace (info : SecurityInfo) : Prop :=
  ∃ mapping cipher, info.head? = some (identifierElement (numbers (variant mapping cipher)))

theorem isPace_iff {info : SecurityInfo} :
    (∃ protocol ∈ info.head?.bind paceProtocol?,
      info.head? = some (identifierElement (numbers protocol))) ↔ IsPace info := by
  constructor
  · rintro ⟨protocol, hprotocol, hhead⟩
    rw [hhead] at hprotocol
    obtain ⟨mapping, cipher, rfl, -⟩ := paceProtocol?_identifierElement.1 hprotocol
    exact ⟨mapping, cipher, hhead⟩
  · rintro ⟨mapping, cipher, hhead⟩
    refine ⟨variant mapping cipher, ?_, hhead⟩
    rw [hhead]
    exact paceProtocol?_identifierElement.2 ⟨mapping, cipher, rfl, rfl⟩

instance : DecidablePred IsPace := fun _ => decidable_of_iff _ isPace_iff

/-- What a chip says of a PACE variant. -/
structure Offer where
  mapping : UInt32
  cipher : UInt32
  version : UInt32
  parameterId : Option UInt32
  deriving DecidableEq, Repr

namespace Offer

def paceInfo (o : Offer) : PaceInfo :=
  ⟨variant o.mapping o.cipher, o.version, o.parameterId⟩

/-- The fields that say it. -/
def fields (o : Offer) : SecurityInfo :=
  identifierElement (numbers (variant o.mapping o.cipher)) :: integerElement o.version ::
    (o.parameterId.map integerElement).toList

end Offer

/-- The numbers are not cut off to those of a PACE variant when they are read in 32 bits: what is
read as such an identifier is one. -/
def Unmistaken (ns : List Nat) : Prop :=
  ∀ mapping cipher, ns.map UInt32.ofNat = (numbers (variant mapping cipher)).map UInt32.ofNat →
    ns = numbers (variant mapping cipher)

/-- Numbers of 32 bits are not cut off at all. -/
theorem unmistaken_of_lt {ns : List Nat} (h : ∀ n ∈ ns, n < UInt32.size) : Unmistaken ns := by
  intro mapping cipher hns
  have hback : (ns.map UInt32.ofNat).map UInt32.toNat = ns := by
    rw [List.map_map]
    exact (List.map_congr_left fun n hn => Nat.mod_eq_of_lt (h n hn)).trans (List.map_id _)
  rw [← hback, hns, ObjectIdentifier.toNat_ofNat_numbers (fits_variant mapping cipher)]

/-- The fields are any elements. Only an OBJECT IDENTIFIER in front has to be one: it is primitive
and consists of subidentifiers, and it is not mistaken. -/
structure IsReadable (info : SecurityInfo) : Prop where
  isValid : ∀ e ∈ info, e.identifier.IsValid
  unmistaken : ∀ first, info.head? = some first →
    first.identifier.isUniversal identifierNumber →
    ∃ ns, first = identifierElement ns ∧ Unmistaken ns

variable {first e : Element} {fields info : SecurityInfo} {infos : List SecurityInfo}

theorem isValid_identifierElement (ns : List Nat) : (identifierElement ns).identifier.IsValid :=
  .of_universal false (by decide) (by decide)

theorem isValid_integerElement (n : UInt32) : (integerElement n).identifier.IsValid :=
  .of_universal false (by decide) (by decide)

theorem isReadable_nil : IsReadable [] :=
  ⟨List.forall_mem_nil _, nofun⟩

theorem isReadable_cons {ns : List Nat} (h : Unmistaken ns)
    (hf : ∀ e ∈ fields, e.identifier.IsValid) :
    IsReadable (identifierElement ns :: fields) where
  isValid := List.forall_mem_cons.2 ⟨isValid_identifierElement ns, hf⟩
  unmistaken := by
    rintro _ ⟨⟩ _
    exact ⟨ns, rfl, h⟩

theorem unmistaken_variant (mapping cipher : UInt32) :
    Unmistaken (numbers (variant mapping cipher)) := by
  intro mapping' cipher' h
  rw [← ObjectIdentifier.toNat_ofNat_numbers (fits_variant mapping cipher), h,
    ObjectIdentifier.toNat_ofNat_numbers (fits_variant mapping' cipher')]

/-- Every offer can be in a file. -/
theorem Offer.isReadable (o : Offer) : IsReadable o.fields := by
  refine isReadable_cons (unmistaken_variant _ _)
    (List.forall_mem_cons.2 ⟨isValid_integerElement _, ?_⟩)
  intro e he
  obtain ⟨number, -, rfl⟩ := Option.map_eq_some_iff.1 (Option.mem_toList.1 he)
  exact isValid_integerElement number

/-- A security info of another protocol is not taken for one of PACE. -/
theorem IsReadable.paceProtocol?_eq_none (h : IsReadable (first :: fields))
    (hp : ¬ IsPace (first :: fields)) : paceProtocol? first = none := by
  rw [Option.eq_none_iff_forall_ne_some]
  intro protocol hprotocol
  by_cases hfirst : first.identifier.isUniversal identifierNumber
  · obtain ⟨ns, rfl, hns⟩ := h.unmistaken first rfl hfirst
    obtain ⟨mapping, cipher, -, hsame⟩ := paceProtocol?_identifierElement.1 hprotocol
    exact hp ⟨mapping, cipher, by rw [hns mapping cipher hsame]; rfl⟩
  · rw [paceProtocol?, identifier?, if_neg hfirst] at hprotocol
    cases hprotocol

/-! ## Reading fields -/

theorem paceProtocol?_kept (h : e.identifier.IsValid) : paceProtocol? e.kept = paceProtocol? e := by
  rw [paceProtocol?, identifier?, Element.kept, h.isUniversal_kept]
  rfl

theorem version?_kept (h : e.identifier.IsValid) : version? e.kept = version? e := by
  rw [version?, Element.kept, h.isUniversal_kept]
  rfl

/-- Nothing depends on how much of the numbers of other fields is kept. -/
theorem paceInfo?_kept (h : ∀ e ∈ fields, e.identifier.IsValid) (protocol : ObjectIdentifier) :
    paceInfo? protocol (fields.map Element.kept) = paceInfo? protocol fields := by
  match fields, h with
  | [], _ => rfl
  | [version], h =>
    simp only [List.map_cons, List.map_nil, paceInfo?, version?_kept (h version (by simp))]
  | [version, parameter], h =>
    have hparameter := (h parameter (by simp)).isUniversal_kept
    simp only [List.map_cons, List.map_nil, paceInfo?, version?_kept (h version (by simp))]
    rw [Element.kept, hparameter]
  | _ :: _ :: _ :: _, _ => rfl

theorem paceInfo?_offer (o : Offer) :
    paceInfo? (variant o.mapping o.cipher) (integerElement o.version ::
      (o.parameterId.map integerElement).toList) = some o.paceInfo := by
  obtain ⟨mapping, cipher, version, parameterId⟩ := o
  cases parameterId with
  | none => exact congrArg (Option.map _) (version?_integerElement version)
  | some number =>
    have hnumber : Der.unsigned32? (integerElement number).contents = some number :=
      Der.unsigned32?_integer number
    simp only [Option.map_some, Option.toList_some, paceInfo?, version?_integerElement, hnumber]
    rfl

/-- What a security info of a PACE variant is read as. -/
def offered? : SecurityInfo → Option PaceInfo
  | [] => none
  | first :: fields => (paceProtocol? first).bind fun protocol => paceInfo? protocol fields

theorem offered?_fields (o : Offer) : offered? o.fields = some o.paceInfo := by
  have hprotocol : paceProtocol? (identifierElement (numbers (variant o.mapping o.cipher))) =
      some (variant o.mapping o.cipher) := paceProtocol?_identifierElement.2 ⟨_, _, rfl, rfl⟩
  rw [Offer.fields, offered?, hprotocol, Option.bind_some, paceInfo?_offer]

/-- Offers are told apart by their fields. -/
theorem Offer.fields_injective : Function.Injective Offer.fields := by
  intro o o' h
  have hinfo : o.paceInfo = o'.paceInfo := by
    rw [← Option.some_inj, ← offered?_fields, h, offered?_fields]
  obtain ⟨mapping, cipher, version, parameterId⟩ := o
  obtain ⟨mapping', cipher', version', parameterId'⟩ := o'
  rw [Offer.paceInfo, Offer.paceInfo, PaceInfo.mk.injEq] at hinfo
  obtain ⟨hvariant, rfl, rfl⟩ := hinfo
  obtain ⟨rfl, rfl⟩ : mapping = mapping' ∧ cipher = cipher' := by
    simpa [variant] using hvariant
  rfl

/-- A PACE variant has to come with a version. -/
theorem paceInfo?_eq_none (protocol : ObjectIdentifier)
    (h : ∀ version, fields.head? = some version → version? version = none) :
    paceInfo? protocol fields = none := by
  match fields, h with
  | [], _ => rfl
  | [version], h => rw [paceInfo?, h version rfl, Option.map_none]
  | [version, parameter], h =>
    rw [paceInfo?, h version rfl, Option.map_none]
    exact ite_self _
  | _ :: _ :: _ :: _, _ => rfl

theorem offered?_eq_none (h : ∀ version, info[1]? = some version →
    version.identifier.isUniversal integerNumber = false) : offered? info = none := by
  cases info with
  | nil => rfl
  | cons first fields =>
    rw [offered?, Option.bind_eq_none_iff]
    intro protocol _
    refine paceInfo?_eq_none protocol fun version hversion => ?_
    have hnumber := h version (by rwa [List.getElem?_cons_succ, ← List.head?_eq_getElem?])
    rw [version?, hnumber, if_neg (by decide)]

/-! ## Reading the file -/

/-- A security info is a SEQUENCE of its fields. -/
def sequence (info : SecurityInfo) : Element :=
  .ofChildren sequenceNumber info

/-- The file is a SET OF security infos. -/
def file (infos : List SecurityInfo) : Bytes :=
  (Element.ofChildren setNumber (infos.map sequence)).encode

/-- These security infos can be in a file. -/
structure IsFile (infos : List SecurityInfo) : Prop where
  isReadable : ∀ info ∈ infos, IsReadable info
  length_lt : (file infos).length < 2 ^ 64

theorem offers?_of_isPace (h : IsReadable info) (hl : (info.flatMap Element.encode).length < 2 ^ 64)
    (hp : IsPace info) : offers? (sequence info).kept = (offered? info).map ([·]) := by
  have hchildren : (sequence info).kept.children? sequenceNumber = some (info.map Element.kept) :=
    Der.children?_ofChildren sequenceNumber h.isValid hl
  obtain ⟨mapping, cipher, hhead⟩ := hp
  cases info with
  | nil => cases hhead
  | cons first fields =>
    obtain rfl := Option.some.inj hhead
    obtain ⟨hfirst, hfields⟩ := List.forall_mem_cons.1 h.isValid
    have hprotocol := paceProtocol?_identifierElement.2 ⟨mapping, cipher, rfl, rfl⟩
    rw [offers?, hchildren]
    simp only [List.map_cons, Option.bind_eq_bind, Option.bind_some, offered?,
      paceProtocol?_kept hfirst, hprotocol, paceInfo?_kept hfields]
    cases paceInfo? (variant mapping cipher) fields <;> rfl

theorem offers?_of_not_isPace (h : IsReadable info)
    (hl : (info.flatMap Element.encode).length < 2 ^ 64)
    (hp : ¬ IsPace info) : offers? (sequence info).kept = some [] := by
  have hchildren : (sequence info).kept.children? sequenceNumber = some (info.map Element.kept) :=
    Der.children?_ofChildren sequenceNumber h.isValid hl
  rw [offers?, hchildren]
  cases info with
  | nil => rfl
  | cons first fields =>
    have hfirst := h.isValid first List.mem_cons_self
    simp only [List.map_cons, Option.bind_eq_bind, Option.bind_some, paceProtocol?_kept hfirst,
      h.paceProtocol?_eq_none hp]
    rfl

/-- What is read of a file is what its PACE variants are read as, and every other security info is
passed over. -/
theorem mapM_offers? (h : ∀ info ∈ infos, IsReadable info)
    (hl : ∀ info ∈ infos, (info.flatMap Element.encode).length < 2 ^ 64) :
    ((infos.map fun info => (sequence info).kept).mapM offers?).map List.flatten =
      (infos.filter (IsPace ·)).mapM offered? := by
  induction infos with
  | nil => rfl
  | cons info infos ih =>
    obtain ⟨hinfo, hinfos⟩ := List.forall_mem_cons.1 h
    obtain ⟨hsize, hsizes⟩ := List.forall_mem_cons.1 hl
    have ih := ih hinfos hsizes
    by_cases hp : IsPace info
    · rw [List.filter_cons_of_pos (by simpa using hp), List.map_cons, List.mapM_cons,
        List.mapM_cons, offers?_of_isPace hinfo hsize hp, ← ih]
      cases offered? info with
      | none => rfl
      | some offer => cases (infos.map fun info => (sequence info).kept).mapM offers? <;> rfl
    · rw [List.filter_cons_of_neg (by simpa using hp), List.map_cons, List.mapM_cons,
        offers?_of_not_isPace hinfo hsize hp, ← ih]
      cases (infos.map fun info => (sequence info).kept).mapM offers? <;> rfl

theorem decode?_file (h : IsFile infos) :
    decode? (file infos) = (infos.filter (IsPace ·)).mapM offered? := by
  have hset := Der.Identifier.IsValid.of_universal true (show 0 < setNumber by decide) (by decide)
  have hsequence := Der.Identifier.IsValid.of_universal true (show 0 < sequenceNumber by decide)
    (by decide)
  have hinfos : ∀ e ∈ infos.map sequence, e.identifier.IsValid :=
    List.forall_mem_map.2 fun _ _ => hsequence
  -- what is in the file is no longer than the file
  have hcontents : ((infos.map sequence).flatMap Element.encode).length < 2 ^ 64 :=
    Nat.lt_of_le_of_lt (Element.length_contents_le (.ofChildren setNumber (infos.map sequence)))
      h.length_lt
  have hsizes : ∀ info ∈ infos, (info.flatMap Element.encode).length < 2 ^ 64 := by
    intro info hinfo
    refine Nat.lt_of_le_of_lt (Element.length_contents_le (sequence info)) ?_
    exact Nat.lt_of_le_of_lt (Element.length_encode_le (List.mem_map_of_mem hinfo)) hcontents
  have hread : Der.decode? (file infos) =
      some (Element.ofChildren setNumber (infos.map sequence), []) := by
    have := Der.decode?_encode (e := .ofChildren setNumber (infos.map sequence)) hset hcontents []
    rwa [List.append_nil] at this
  rw [decode?, hread, ← mapM_offers? h.isReadable hsizes]
  simp only [Option.bind_eq_bind, Option.bind_some, Der.children?_ofChildren setNumber
    hinfos hcontents, List.map_map, Option.map_eq_bind]
  rfl

theorem mapM_eq_none {α β : Type} {f : α → Option β} {l : List α} {a : α} (h : a ∈ l)
    (ha : f a = none) :
    l.mapM f = none := by
  induction l with
  | nil => cases h
  | cons b l ih =>
    rw [List.mapM_cons]
    rcases List.mem_cons.1 h with rfl | h
    · rw [ha]
      rfl
    · rw [ih h]
      cases f b <;> rfl

/-- **EF.CardAccess is filtered without loss.** If the PACE variants in it are all there with
version and optional parameter, they are found as they are written, in their order. The other
security infos do not matter at all, and a PACE variant without a version has the file refused. -/
theorem decode_filters (h : IsFile infos) :
    ((∀ info ∈ infos, IsPace info → ∃ o : Offer, info = o.fields) →
      ∃ offers : List Offer, infos.filter (IsPace ·) = offers.map Offer.fields ∧
        decode (file infos) = .ok (offers.map Offer.paceInfo)) ∧
    (∀ others, IsFile others → others.filter (IsPace ·) = infos.filter (IsPace ·) →
      decode (file others) = decode (file infos)) ∧
    ((∃ info ∈ infos, IsPace info ∧ ∀ version, info[1]? = some version →
        version.identifier.isUniversal integerNumber = false) →
      decode (file infos) = .error .cardAccess) := by
  refine ⟨fun hform => ?_, fun others hothers hsame => ?_, ?_⟩
  · -- each entry is an offer on its own, so the whole list is one of offers
    have hmem : infos.filter (IsPace ·) ∈ Set.range (List.map Offer.fields) := by
      rw [Set.range_list_map]
      intro info hinfo
      obtain ⟨hinfo, hp⟩ := List.mem_filter.1 hinfo
      obtain ⟨o, rfl⟩ := hform info hinfo (of_decide_eq_true hp)
      exact ⟨o, rfl⟩
    obtain ⟨offers, hoffers⟩ := hmem
    refine ⟨offers, hoffers.symm, ?_⟩
    have hentries : (offers.map Offer.fields).mapM offered? = some (offers.map Offer.paceInfo) := by
      rw [List.mapM_map, show offered? ∘ Offer.fields = fun o =>
        pure o.paceInfo from funext offered?_fields]
      exact List.mapM_pure
    rw [decode, decode?_file h, ← hoffers, hentries]
  · rw [decode, decode, decode?_file h, decode?_file hothers, hsame]
  · rintro ⟨info, hinfo, hp, hversion⟩
    have hmem : info ∈ infos.filter (IsPace ·) :=
      List.mem_filter.2 ⟨hinfo, decide_eq_true hp⟩
    rw [decode, decode?_file h, mapM_eq_none hmem (offered?_eq_none hversion)]

/-- The security infos of Chip Authentication and of PACE, and an empty one; and PACE with a version
that is an OCTET STRING. -/
theorem decode_filters_chipAuthentication :
    let chipAuthentication : SecurityInfo :=
      [identifierElement [4, 0, 127, 0, 7, 2, 2, 3, 2, 2], integerElement 1]
    let offer : Offer := ⟨2, 2, 2, some 13⟩
    let malformed : SecurityInfo :=
      [identifierElement (numbers (variant 2 2)), ⟨⟨0, false, 4⟩, [0x02]⟩]
    IsFile [chipAuthentication, offer.fields, []] ∧
      decode (file [chipAuthentication, offer.fields, []]) = .ok [offer.paceInfo] ∧
      IsFile [offer.fields] ∧
      decode (file [offer.fields]) = decode (file [chipAuthentication, offer.fields, []]) ∧
      IsFile [malformed, chipAuthentication] ∧
      decode (file [malformed, chipAuthentication]) = .error .cardAccess := by
  intro chipAuthentication offer malformed
  have hchip : IsReadable chipAuthentication :=
    isReadable_cons (unmistaken_of_lt (by decide))
      (List.forall_mem_singleton.2 (isValid_integerElement 1))
  have hmalformed : IsReadable malformed :=
    isReadable_cons (unmistaken_variant 2 2)
      (List.forall_mem_singleton.2 (.of_universal false (by decide) (by decide)))
  have hfile : IsFile [chipAuthentication, offer.fields, []] :=
    ⟨by simp [hchip, offer.isReadable, isReadable_nil],
      Nat.lt_of_le_of_lt (Nat.le_of_eq (by cbv : _ = 41)) (by decide)⟩
  have hsingle : IsFile [offer.fields] :=
    ⟨by simp [offer.isReadable], Nat.lt_of_le_of_lt (Nat.le_of_eq (by cbv : _ = 22))
      (by decide)⟩
  have hbad : IsFile [malformed, chipAuthentication] :=
    ⟨by simp [hchip, hmalformed], Nat.lt_of_le_of_lt (Nat.le_of_eq (by cbv : _ = 36))
      (by decide)⟩
  have hpace : IsPace offer.fields := ⟨2, 2, rfl⟩
  -- nothing but a PACE variant is read as one, and this identifier is not
  have hskipped : ¬ IsPace chipAuthentication := by
    rintro ⟨mapping, cipher, h⟩
    have hnone : paceProtocol? (identifierElement [4, 0, 127, 0, 7, 2, 2, 3, 2, 2]) = none := by cbv
    rw [Option.some.inj h, paceProtocol?_identifierElement.2 ⟨mapping, cipher, rfl, rfl⟩]
      at hnone
    cases hnone
  have hselected : [chipAuthentication, offer.fields, []].filter (IsPace ·) = [offer.fields] := by
    rw [List.filter_cons_of_neg (by simpa using hskipped), List.filter_cons_of_pos
      (by simpa using hpace)]
    rfl
  have hsame : [offer.fields].filter (IsPace ·) = [offer.fields] :=
    List.filter_cons_of_pos (by simpa using hpace)
  obtain ⟨offers, hoffers, hdecode⟩ := (decode_filters hfile).1 <| by
    intro info hinfo hp
    have hmem : info ∈ [chipAuthentication, offer.fields, []].filter (IsPace ·) :=
      List.mem_filter.2 ⟨hinfo, decide_eq_true hp⟩
    rw [hselected] at hmem
    exact ⟨offer, List.mem_singleton.1 hmem⟩
  -- the offers are told by their fields, and those of the one that is left are known
  obtain rfl : [offer] = offers := by
    refine Offer.fields_injective.list_map ?_
    rw [← hoffers, hselected]
    rfl
  refine ⟨hfile, hdecode, hsingle, ?_, hbad, ?_⟩
  · exact (decode_filters hfile).2.1 _ hsingle (hsame.trans hselected.symm)
  · refine (decode_filters hbad).2.2 ⟨malformed, List.mem_cons_self, ⟨2, 2, rfl⟩, ?_⟩
    rintro _ ⟨⟩
    rfl

/-- A number is read in 32 bits, so this identifier, which is not one of PACE, is mistaken for
one. -/
example : decode (file [[identifierElement [4, 0, 127, 0, 7, 2, 2, 4294967300, 2, 2],
    integerElement 2]]) = .ok [⟨variant 2 2, 2, none⟩] := by
  cbv

end TravelDocument.CardAccess

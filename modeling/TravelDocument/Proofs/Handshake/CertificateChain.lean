import Mathlib.Data.List.Chain
import TravelDocument.Handshake.CertificateChain

/-!
# Which certificate chains are valid

`IsValid` says what a chain has to be like, and `Finds` what each check finds wrong with one. A
chain is accepted exactly if it is valid. Otherwise the error is what the first check finds that
finds anything, in the order of `Check` (`validate_exact`). That there is no certificate is noticed
twice: at the beginning, and after the certificate of the CVCA has been taken off.
-/

namespace TravelDocument.CertificateChain

/-! ## Parts of a chain -/

/-- The certificate of a CVCA at the front of a chain. -/
def cvca? : List Certificate → Option Certificate
  | [] => none
  | first :: _ => if first.role = .cvca then some first else none

/-- The certificates that are sent: all but the one of a CVCA at the front. -/
def toSend : List Certificate → List Certificate
  | [] => []
  | first :: rest => if first.role = .cvca then rest else first :: rest

/-- The reference that is known before the first certificate that is sent: the expected one, or else
the one of the CVCA. -/
def reference? (expected : Option String) (chain : List Certificate) : Option String :=
  expected.or ((cvca? chain).map (·.holder))

def Issues (issuer subject : Certificate) : Prop :=
  subject.authority = issuer.holder

/-- The certificate behind the one at the index is not issued by its holder. -/
def BrokenAfter (certificates : List Certificate) (index : Nat) : Prop :=
  ∃ issuer subject, certificates[index]? = some issuer ∧
    certificates[index + 1]? = some subject ∧ ¬ Issues issuer subject

/-! ## Validity -/

/-- The chain is sound, and `result` is the reference of its CVCA with the certificates that are
sent. -/
structure IsValid (expected : Option String) (chain : List Certificate) (result : ValidatedChain) :
    Prop where
  certificates : result.certificates = toSend chain
  ne_nil : result.certificates ≠ []
  leaf : ∀ leaf ∈ result.certificates.getLast?, leaf.role = .inspectionSystem
  linked : result.certificates.IsChain Issues
  cvca : ∀ cvca ∈ cvca? chain, cvca.holder = result.caReference
  first : ∀ first ∈ result.certificates.head?, first.authority = result.caReference
  expected : ∀ reference ∈ expected, reference = result.caReference

/-- What is checked, in this order. -/
inductive Check where
  /-- There is a certificate. -/
  | present
  /-- The CVCA at the front is the expected one. -/
  | cvcaReference
  /-- There is a certificate to send. -/
  | remaining
  /-- The first certificate that is sent is issued by the CVCA. -/
  | authorityReference
  /-- Every other one is issued by the holder of the one before. -/
  | links
  /-- The last one is the certificate of an inspection system. -/
  | leafRole

def Check.rank : Check → Nat
  | .present => 0
  | .cvcaReference => 1
  | .remaining => 2
  | .authorityReference => 3
  | .links => 4
  | .leafRole => 5

/-- The check finds an error in the chain, whatever the other checks find. -/
inductive Finds (expected : Option String) (chain : List Certificate) :
    Check → ChainError → Prop
  | present : chain = [] → Finds expected chain .present .empty
  | cvcaReference {cvca : Certificate} {reference : String} : cvca ∈ cvca? chain →
    reference ∈ expected → reference ≠ cvca.holder →
    Finds expected chain .cvcaReference (.cvcaReference reference cvca.holder)
  | remaining : toSend chain = [] → Finds expected chain .remaining .empty
  | authorityReference {first : Certificate} {reference : String} :
    first ∈ (toSend chain).head? →
    reference ∈ reference? expected chain → reference ≠ first.authority →
    Finds expected chain .authorityReference (.authorityReference reference first.authority)
  | links {index : Nat} : BrokenAfter (toSend chain) index →
    (∀ earlier < index, ¬ BrokenAfter (toSend chain) earlier) →
    Finds expected chain .links (.brokenLink (index + 1))
  | leafRole {leaf : Certificate} : leaf ∈ (toSend chain).getLast? →
    leaf.role ≠ .inspectionSystem → Finds expected chain .leafRole (.leafRole leaf.role)

/-- The first `n` checks find nothing. -/
def PassesFirst (expected : Option String) (chain : List Certificate) (n : Nat) : Prop :=
  ∀ check : Check, check.rank < n → ∀ error, ¬ Finds expected chain check error

/-- The error is what a check finds after those before it have found nothing. -/
def IsFirstError (expected : Option String) (chain : List Certificate) (error : ChainError) :
    Prop :=
  ∃ check, Finds expected chain check error ∧ PassesFirst expected chain check.rank

variable {expected : Option String} {chain : List Certificate} {error error' : ChainError}
  {result result' : ValidatedChain} {check : Check}

theorem Check.rank_inj {a b : Check} (h : a.rank = b.rank) : a = b := by
  cases a <;> cases b <;> first | rfl | cases h

/-- A check finds one error only. -/
theorem Finds.unique (h : Finds expected chain check error)
    (h' : Finds expected chain check error') :
    error = error' := by
  cases h with
  | present _ | remaining _ =>
    cases h'
    rfl
  | cvcaReference hc hr _ =>
    cases h' with
    | cvcaReference hc' hr' _ => rw [Option.mem_unique hc hc', Option.mem_unique hr hr']
  | authorityReference hf hr _ =>
    cases h' with
    | authorityReference hf' hr' _ => rw [Option.mem_unique hf hf', Option.mem_unique hr hr']
  | @links index hb hleast =>
    cases h' with
    | @links index' hb' hleast' =>
      -- both are the least broken link
      have hle : index ≤ index' := Nat.le_of_not_lt fun hlt => hleast _ hlt hb'
      have hge : index' ≤ index := Nat.le_of_not_lt fun hlt => hleast' _ hlt hb
      rw [Nat.le_antisymm hle hge]
  | leafRole hl _ =>
    cases h' with
    | leafRole hl' _ => rw [Option.mem_unique hl hl']

theorem PassesFirst.next (h : PassesFirst expected chain check.rank)
    (hc : ∀ error, ¬ Finds expected chain check error) :
    PassesFirst expected chain (check.rank + 1) := by
  intro other hlt
  rcases Nat.lt_succ_iff_lt_or_eq.1 hlt with hlt | heq
  · exact h other hlt
  · rwa [Check.rank_inj heq]

theorem PassesFirst.mono {m n : Nat} (h : PassesFirst expected chain n) (hmn : m ≤ n) :
    PassesFirst expected chain m :=
  fun other hlt => h other (Nat.lt_of_lt_of_le hlt hmn)

theorem IsFirstError.unique (h : IsFirstError expected chain error)
    (h' : IsFirstError expected chain error') : error = error' := by
  obtain ⟨check, hf, hfirst⟩ := h
  obtain ⟨check', hf', hfirst'⟩ := h'
  -- neither of the two checks can come before the other
  have hle : check.rank ≤ check'.rank := Nat.le_of_not_lt fun hlt => hfirst _ hlt _ hf'
  have hge : check'.rank ≤ check.rank := Nat.le_of_not_lt fun hlt => hfirst' _ hlt _ hf
  obtain rfl := Check.rank_inj (Nat.le_antisymm hle hge)
  exact hf.unique hf'

/-! ## Links -/

theorem not_brokenAfter {certificates : List Certificate} (h : certificates.IsChain Issues)
    (index : Nat) :
    ¬ BrokenAfter certificates index := by
  rintro ⟨issuer, subject, hi, hs, hne⟩
  obtain ⟨hlt, rfl⟩ := List.getElem?_eq_some_iff.1 hs
  obtain ⟨_, rfl⟩ := List.getElem?_eq_some_iff.1 hi
  exact hne (List.isChain_iff_getElem.1 h index hlt)

/-- The link between the first two certificates comes before the others. -/
theorem brokenAfter_cons {issuer subject : Certificate} {rest : List Certificate} {index : Nat} :
    BrokenAfter (issuer :: subject :: rest) (index + 1) ↔ BrokenAfter (subject :: rest) index :=
  Iff.rfl

theorem isChain_of_brokenLink?_eq_none {start : Nat} {previous : Certificate}
    {rest : List Certificate}
    (h : brokenLink? start previous rest = none) : (previous :: rest).IsChain Issues := by
  induction rest generalizing start previous with
  | nil => exact .singleton previous
  | cons c rest ih =>
    rw [brokenLink?] at h
    split at h
    · cases h
    · rename_i hissued
      exact .cons_cons (not_not.1 hissued) (ih h)

/-- The index that is found is the one of the first certificate that its predecessor's holder has
not issued. -/
theorem brokenAfter_of_brokenLink?_eq_some {start found : Nat} {previous : Certificate}
    {rest : List Certificate} (h : brokenLink? (start + 1) previous rest = some found) :
    ∃ index, found = start + index + 1 ∧ BrokenAfter (previous :: rest) index ∧
      ∀ earlier < index, ¬ BrokenAfter (previous :: rest) earlier := by
  induction rest generalizing start previous with
  | nil => cases h
  | cons c rest ih =>
    rw [brokenLink?] at h
    split at h
    · rename_i hne
      cases h
      exact ⟨0, rfl, ⟨previous, c, rfl, rfl, hne⟩, nofun⟩
    · rename_i hissued
      obtain ⟨index, rfl, hbroken, hleast⟩ := ih h
      refine ⟨index + 1, by omega, brokenAfter_cons.2 hbroken, ?_⟩
      rintro (_ | earlier) hlt
      · rintro ⟨_, _, hi, hs, hne⟩
        cases hi
        cases hs
        exact hissued hne
      · rw [brokenAfter_cons]
        exact hleast earlier (Nat.lt_of_succ_lt_succ hlt)

/-! ## Valid chains -/

/-- The reference that is known beforehand is the one of a valid chain. -/
theorem IsValid.eq_of_mem_reference? (h : IsValid expected chain result) {reference : String}
    (hr : reference ∈ reference? expected chain) : reference = result.caReference := by
  cases expected with
  | some expected =>
    cases hr
    exact h.expected _ rfl
  | none =>
    obtain ⟨cvca, hc, rfl⟩ := Option.map_eq_some_iff.1 hr
    exact h.cvca cvca hc

theorem IsValid.unique (h : IsValid expected chain result) (h' : IsValid expected chain result') :
    result = result' := by
  obtain ⟨reference, certificates⟩ := result
  obtain ⟨reference', certificates'⟩ := result'
  obtain rfl : certificates = certificates' := h.certificates.trans h'.certificates.symm
  obtain ⟨first, rest, rfl⟩ := List.exists_cons_of_ne_nil h.ne_nil
  obtain rfl : reference = reference' := (h.first first rfl).symm.trans (h'.first first rfl)
  rfl

/-- In a valid chain no check finds anything. -/
theorem IsValid.not_finds (h : IsValid expected chain result) :
    ¬ Finds expected chain check error := by
  intro hf
  have hne := h.ne_nil
  have hleaf := h.leaf
  have hlinked := h.linked
  have hfirst := h.first
  rw [h.certificates] at hne hleaf hlinked hfirst
  cases hf with
  | present hnil =>
    rw [hnil] at hne
    exact hne rfl
  | cvcaReference hc hr hdiffer => exact hdiffer ((h.expected _ hr).trans (h.cvca _ hc).symm)
  | remaining hnil => exact hne hnil
  | authorityReference hf hr hdiffer =>
    exact hdiffer ((h.eq_of_mem_reference? hr).trans (hfirst _ hf).symm)
  | links hbroken _ => exact not_brokenAfter hlinked _ hbroken
  | leafRole hl hrole => exact hrole (hleaf _ hl)

/-! ## The two parts of the validation -/

/-- Taking the CVCA certificate off fails at one of the first two checks, or gives the reference
that is known and the certificates that are sent. -/
theorem dropCvca_cases (expected : Option String) (chain : List Certificate) :
    (∃ error, dropCvca expected chain = .error error ∧ IsFirstError expected chain error) ∨
    dropCvca expected chain = .ok (reference? expected chain, toSend chain) ∧
      PassesFirst expected chain 2 := by
  cases chain with
  | nil => exact .inl ⟨_, rfl, .present, .present rfl, nofun⟩
  | cons first rest =>
    have hpresent : PassesFirst expected (first :: rest) 1 :=
      @PassesFirst.next _ _ .present nofun fun _ => nofun
    -- only with the certificate of a CVCA in front is there a reference to compare
    by_cases hrole : first.role = .cvca
    · have hc : cvca? (first :: rest) = some first := if_pos hrole
      have hs : toSend (first :: rest) = rest := if_pos hrole
      rw [reference?, hc, hs]
      simp only [dropCvca, hrole, ↓reduceIte]
      cases expected with
      | none =>
        refine .inr ⟨rfl, @PassesFirst.next _ _ .cvcaReference hpresent fun error hf => ?_⟩
        cases hf with
        | cvcaReference _ hr _ => cases hr
      | some reference =>
        dsimp only
        split
        · rename_i hne
          exact .inl ⟨_, rfl, .cvcaReference, .cvcaReference hc rfl hne, hpresent⟩
        · rename_i heq
          refine .inr ⟨rfl, @PassesFirst.next _ _ .cvcaReference hpresent fun error hf => ?_⟩
          cases hf with
          | cvcaReference hc' hr hne =>
            cases hr
            rw [Option.mem_unique hc' hc] at hne
            exact heq hne
    · have hc : cvca? (first :: rest) = none := if_neg hrole
      have hs : toSend (first :: rest) = first :: rest := if_neg hrole
      rw [reference?, hc, hs, Option.map_none, Option.or_none]
      refine .inr ⟨if_neg hrole,
        @PassesFirst.next _ _ .cvcaReference hpresent fun error hf => ?_⟩
      cases hf with
      | cvcaReference hc' _ _ =>
        rw [hc] at hc'
        cases hc'

/-- If the first two checks find nothing, what is known beforehand agrees with the CVCA
certificate. -/
theorem PassesFirst.holder_eq (h : PassesFirst expected chain 2) {cvca : Certificate}
    (hc : cvca ∈ cvca? chain) : reference? expected chain = some cvca.holder := by
  cases expected with
  | none =>
    rw [reference?, Option.mem_def.1 hc]
    rfl
  | some expected =>
    by_contra hne
    exact h .cvcaReference (by decide) _ (.cvcaReference hc rfl fun heq => hne (congrArg some heq))

/-- Checking the links, once the first certificate has the right authority. -/
theorem checkLinks_of_authority {first : Certificate} {rest : List Certificate}
    (hs : toSend chain = first :: rest) (h : PassesFirst expected chain 4)
    (ha : ∀ reference ∈ reference? expected chain, reference = first.authority) :
    (∃ error, checkLinks (reference? expected chain) (first :: rest) = .error error ∧
      IsFirstError expected chain error) ∨
    ∃ result, checkLinks (reference? expected chain) (first :: rest) = .ok result ∧
      IsValid expected chain result := by
  -- the reference can only be the authority of the first certificate, given or not
  have hgetD : (reference? expected chain).getD first.authority = first.authority := by
    cases hr : reference? expected chain with
    | none => rfl
    | some reference => exact ha reference hr
  simp only [checkLinks, hgetD, ne_eq, not_true_eq_false, ↓reduceIte]
  cases hb : brokenLink? 1 first rest with
  | some found =>
    obtain ⟨index, rfl, hbroken, hleast⟩ := @brokenAfter_of_brokenLink?_eq_some 0 _ _ _ hb
    rw [← hs] at hbroken hleast
    rw [Nat.zero_add]
    exact .inl ⟨_, rfl, .links, .links hbroken hleast, h⟩
  | none =>
    have hlinked := isChain_of_brokenLink?_eq_none hb
    have hpasses : PassesFirst expected chain 5 := by
      refine @PassesFirst.next _ _ .links h fun error hf => ?_
      cases hf with
      | links hbroken _ =>
        rw [hs] at hbroken
        exact not_brokenAfter hlinked _ hbroken
    have hlast : (first :: rest).getLast? = some (rest.getLast?.getD first) := List.getLast?_cons
    -- all links hold, so the role of the last certificate is what is left to check
    by_cases hrole : (rest.getLast?.getD first).role = .inspectionSystem
    · refine .inr ⟨⟨first.authority, first :: rest⟩, if_neg (not_not.2 hrole), hs.symm,
        List.cons_ne_nil _ _, ?_, hlinked, ?_, ?_, ?_⟩
      · intro leaf hleaf
        rw [Option.mem_unique hleaf hlast]
        exact hrole
      · exact fun cvca hc => ha _ ((h.mono (by decide)).holder_eq hc)
      · rintro _ ⟨⟩
        rfl
      · intro reference hr
        refine ha reference ?_
        rw [reference?, Option.mem_def.1 hr]
        rfl
    · rw [← hs] at hlast
      exact .inl ⟨_, if_pos hrole, .leafRole, .leafRole hlast hrole, hpasses⟩

/-- Checking the links fails at one of the later checks, or the chain is valid. -/
theorem checkLinks_cases (h : PassesFirst expected chain 2) :
    (∃ error, checkLinks (reference? expected chain) (toSend chain) = .error error ∧
      IsFirstError expected chain error) ∨
    ∃ result, checkLinks (reference? expected chain) (toSend chain) = .ok result ∧
      IsValid expected chain result := by
  cases hs : toSend chain with
  | nil => exact .inl ⟨_, rfl, .remaining, .remaining hs, h⟩
  | cons first rest =>
    have hremaining : PassesFirst expected chain 3 := by
      refine @PassesFirst.next _ _ .remaining h fun error hf => ?_
      cases hf with
      | remaining hnil =>
        rw [hs] at hnil
        cases hnil
    have hhead : (toSend chain).head? = some first := by
      rw [hs]
      rfl
    -- the comparison with the authority fails at the first reference that differs from it
    by_cases ha : ∀ reference ∈ reference? expected chain, reference = first.authority
    · refine checkLinks_of_authority hs
        (@PassesFirst.next _ _ .authorityReference hremaining fun error hf => ?_) ha
      cases hf with
      | authorityReference hfirst hr hne =>
        rw [Option.mem_unique hfirst hhead] at hne
        exact hne (ha _ hr)
    · obtain ⟨reference, hr, hne⟩ := not_forall₂.1 ha
      rw [Option.mem_def.1 hr]
      exact .inl ⟨_, if_pos hne, .authorityReference,
        .authorityReference hhead hr hne, hremaining⟩

/-! ## The whole validation -/

theorem validate_cases (expected : Option String) (chain : List Certificate) :
    (∃ error, validate expected chain = .error error ∧ IsFirstError expected chain error) ∨
    ∃ result, validate expected chain = .ok result ∧ IsValid expected chain result := by
  rcases dropCvca_cases expected chain with ⟨error, hd, hfirst⟩ | ⟨hd, hpasses⟩
  · refine .inl ⟨error, ?_, hfirst⟩
    rw [validate, hd]
    rfl
  · rw [validate, hd]
    exact checkLinks_cases hpasses

/-- **Exactly the valid chains are accepted**, with the reference of their CVCA and the certificates
that are sent. Every other chain is refused with the error of the first check that finds one. -/
theorem validate_exact (expected : Option String) (chain : List Certificate) :
    (∀ result, validate expected chain = .ok result ↔ IsValid expected chain result) ∧
    ∀ error, validate expected chain = .error error ↔ IsFirstError expected chain error := by
  -- the code ends in one of the two, and the two descriptions exclude each other
  rcases validate_cases expected chain with ⟨error, hv, hfirst⟩ | ⟨result, hv, hvalid⟩
  · refine ⟨fun result => ?_, fun error' => ?_⟩
    · rw [hv]
      obtain ⟨check, hf, -⟩ := hfirst
      exact iff_of_false nofun fun h => h.not_finds hf
    · rw [hv, Except.error.injEq]
      exact ⟨fun h => h ▸ hfirst, hfirst.unique⟩
  · refine ⟨fun result' => ?_, fun error => ?_⟩
    · rw [hv, Except.ok.injEq]
      exact ⟨fun h => h ▸ hvalid, hvalid.unique⟩
    · rw [hv]
      exact iff_of_false nofun fun ⟨_, hf, _⟩ => hvalid.not_finds hf

/-- A CVCA alone: its reference is checked before it turns out that nothing remains. -/
example : validate (some "UTCVCA00002") [⟨"UTCVCA00001", "UTCVCA00001", .cvca, [], []⟩] =
    .error (.cvcaReference "UTCVCA00002" "UTCVCA00001") := by
  decide

end TravelDocument.CertificateChain

import Mathlib.Algebra.Ring.Parity
import Mathlib.Logic.Relation
import TravelDocument.Proofs.Group.KeyAgreement
import TravelDocument.Proofs.Group.Sized

/-!
# Values stay in the subgroup

The public value of another party is taken exactly if it is an element of the subgroup
(`decodePublic_eq_ok`). If the generator is one and the order is odd, then everything that is
computed is one too, for powers and products of elements are elements (`InSubgroup.pow_mod`,
`InSubgroup.mul_mod`). The order has to be odd because `p - 1` is refused, although one side could
come to it otherwise (`InSubgroup.lt_pred`). A mapped generator is again an element, so this goes on
after any number of mapping steps (`stays_in_subgroup`).
-/

namespace TravelDocument.DhGroup

variable {g : DhGroup}

/-! ## Parameters and elements -/

/-- The parameters pass the checks that are made of new ones. -/
def Passes (g : DhGroup) : Prop :=
  make ⟨g.modulus, g.precision⟩ g.generator g.order = .ok g

theorem passes_iff : g.Passes ↔
    g.modulus % 2 = 1 ∧ 1 < g.generator ∧ g.generator < g.modulus ∧ 1 < g.order ∧
      g.order < g.modulus := by
  rw [Passes, make]
  constructor
  · intro h
    split at h
    · assumption
    · cases h
  · exact fun h => if_pos h

theorem passes_of_make {modulus : SizedNat} {generator order : Nat}
    (h : make modulus generator order = .ok g) : g.Passes := by
  have hg := h
  rw [make] at hg
  split at hg
  · cases hg
    exact h
  · cases hg

theorem Passes.two_lt (h : g.Passes) : 2 < g.modulus := by
  have := passes_iff.1 h
  omega

/-- The order of the number modulo `p` divides that of the subgroup. -/
def InSubgroup (g : DhGroup) (v : Nat) : Prop :=
  v ^ g.order ≡ 1 [MOD g.modulus]

theorem inSubgroup_iff {v : Nat} : g.InSubgroup v ↔ (v : ZMod g.modulus) ^ g.order = 1 := by
  rw [InSubgroup, ← ZMod.natCast_eq_natCast_iff, Nat.cast_pow, Nat.cast_one]

/-- **Powers of elements are elements.** -/
theorem InSubgroup.pow_mod {v : Nat} (h : g.InSubgroup v) (k : Nat) :
    g.InSubgroup (v ^ k % g.modulus) := by
  rw [inSubgroup_iff] at h ⊢
  rw [ZMod.natCast_mod, Nat.cast_pow, ← pow_mul, mul_comm, pow_mul, h, one_pow]

/-- **Products of elements are elements.** -/
theorem InSubgroup.mul_mod {v w : Nat} (hv : g.InSubgroup v) (hw : g.InSubgroup w) :
    g.InSubgroup (v * w % g.modulus) := by
  rw [inSubgroup_iff] at hv hw ⊢
  rw [ZMod.natCast_mod, Nat.cast_mul, mul_pow, hv, hw, one_mul]

/-- No odd power of `p - 1` is one. -/
theorem InSubgroup.lt_pred {v : Nat} (h : g.InSubgroup v) (hg : g.Passes) (hodd : Odd g.order)
    (hv : v < g.modulus) : v < g.modulus - 1 := by
  have htwo := hg.two_lt
  by_contra hge
  obtain rfl : v = g.modulus - 1 := by omega
  rw [inSubgroup_iff, Nat.cast_sub (by omega), ZMod.natCast_self, Nat.cast_one, zero_sub,
    hodd.neg_one_pow] at h
  have hzero : ((2 : Nat) : ZMod g.modulus) = 0 := by
    rw [Nat.cast_two]
    linear_combination -h
  exact absurd (Nat.le_of_dvd Nat.two_pos ((ZMod.natCast_eq_zero_iff _ _).1 hzero)) (by omega)

theorem isElement_iff (hg : g.Passes) {v : Nat} :
    g.isElement v = true ↔ 1 < v ∧ v < g.modulus - 1 ∧ g.InSubgroup v := by
  have hone : 1 % g.modulus = 1 := Nat.mod_eq_of_lt (by have := hg.two_lt; omega)
  simp only [isElement, Bool.and_eq_true, decide_eq_true_eq, beq_iff_eq, Modular.pow_eq, InSubgroup,
    Nat.ModEq, hone, and_assoc]

/-- **A public value is taken exactly if it is an element**, of any length up to that of the
modulus. -/
theorem decodePublic_eq_ok (hg : g.Passes) {b : Bytes} {v : Nat} : g.decodePublic b = .ok v ↔
    b ≠ [] ∧ b.length ≤ g.modulusSize ∧ v = Bytes.toNat b ∧
      1 < v ∧ v < g.modulus - 1 ∧ g.InSubgroup v := by
  rw [decodePublic]
  -- first the length of the encoding, then the element it encodes
  by_cases hb : b.isEmpty ∨ g.modulusSize < b.length
  · rw [if_pos hb]
    constructor
    · intro h
      cases h
    · rintro ⟨hne, hl, -⟩
      rcases hb with hb | hb
      · exact absurd (List.isEmpty_iff.1 hb) hne
      · omega
  · rw [if_neg hb]
    obtain ⟨hne, hl⟩ : b ≠ [] ∧ b.length ≤ g.modulusSize := by
      simpa [not_or] using hb
    dsimp only
    split
    · rename_i he
      have he' := (isElement_iff hg).1 he
      constructor
      · intro h
        cases h
        exact ⟨hne, hl, rfl, he'⟩
      · rintro ⟨-, -, rfl, -⟩
        rfl
    · rename_i he
      constructor
      · intro h
        cases h
      · rintro ⟨-, -, rfl, he'⟩
        exact absurd ((isElement_iff hg).2 he') he

/-! ## Operations -/

theorem one_lt_publicValue {privateKey v : Nat} (h : g.publicValue privateKey = .ok v) : 1 < v := by
  rw [publicValue] at h
  split at h
  · cases h
  · rename_i hv
    cases h
    exact Nat.not_le.1 hv

theorem one_lt_sharedValue {privateKey other v : Nat} (h : g.sharedValue privateKey other = .ok v) :
    1 < v := by
  rw [sharedValue] at h
  split at h
  · cases h
  · dsimp only at h
    split at h
    · cases h
    · rename_i hv
      cases h
      exact Nat.not_le.1 hv

/-- A mapped generator is the generator's power times the shared value. -/
theorem mapNonce_generator {nonce shared : Nat} {mapped : DhGroup}
    (h : g.mapNonce nonce shared = .ok mapped) :
    mapped = { g with generator := mapped.generator } ∧ 1 < mapped.generator ∧
      mapped.generator = g.generator ^ nonce % g.modulus * (shared % g.modulus) % g.modulus := by
  rw [mapNonce] at h
  dsimp only at h
  split at h
  · cases h
  · split at h
    · cases h
    · rename_i hv
      cases h
      exact ⟨rfl, Nat.not_le.1 hv, by rw [Modular.pow_eq]⟩

/-- Parameters with a generator in the subgroup, whose order is odd. -/
structure Generated (g : DhGroup) : Prop where
  passes : g.Passes
  generator : g.InSubgroup g.generator
  odd : Odd g.order

/-- One mapping step, with a nonce and the public key of another party, leads from a group to
another. -/
def MapsTo (g mapped : DhGroup) : Prop :=
  ∃ nonce privateKey other,
    (KeyAgreement.finiteField g).mapNonce nonce privateKey other = .ok (.finiteField mapped)

namespace Generated

/-- **The other side takes every public key.** -/
theorem publicKey (hg : g.Generated) {privateKey v : Nat} (h : g.publicValue privateKey = .ok v) :
    ∃ b, (KeyAgreement.finiteField g).publicKey privateKey = .ok b ∧
      b.length = g.modulusSize ∧ g.decodePublic b = .ok v := by
  have hv := publicValue_eq h
  have hlt : v < g.modulus := by
    rw [hv]
    exact Nat.mod_lt _ (by have := hg.passes.two_lt; omega)
  have hmem : g.InSubgroup v := by
    rw [hv]
    exact hg.generator.pow_mod privateKey
  obtain ⟨b, hb, hl, hto⟩ := fixed?_of_lt_modulus hlt
  refine ⟨b, ?_, hl, ?_⟩
  · refine Except.bind_eq_ok.2 ⟨v, h, ?_⟩
    rw [KeyAgreement.fixedOr, modulusSize, hb]
  · refine (decodePublic_eq_ok hg.passes).2 ⟨?_, hl.le, hto.symm, one_lt_publicValue h,
      hmem.lt_pred hg.passes hg.odd hlt, hmem⟩
    exact List.ne_nil_of_length_pos (hl ▸ byteLength_pos (by omega))

/-- What is shared with the holder of a public key is an element. -/
theorem sharedValue (hg : g.Generated) {privateKey other v : Nat} {b : Bytes}
    (ho : g.decodePublic b = .ok other) (h : g.sharedValue privateKey other = .ok v) :
    1 < v ∧ g.InSubgroup v := by
  obtain ⟨-, -, -, -, -, hmem⟩ := (decodePublic_eq_ok hg.passes).1 ho
  refine ⟨one_lt_sharedValue h, ?_⟩
  rw [sharedValue_eq h]
  exact hmem.pow_mod privateKey

/-- **A shared secret is an element**, in as many bytes as the modulus. -/
theorem sharedSecret (hg : g.Generated) {privateKey : Nat} {other secret : Bytes}
    (h : (KeyAgreement.finiteField g).sharedSecret privateKey other = .ok secret) :
    secret.length = g.modulusSize ∧ 1 < Bytes.toNat secret ∧
      g.InSubgroup (Bytes.toNat secret) := by
  obtain ⟨y, hy, h⟩ := Except.bind_eq_ok.1 h
  obtain ⟨z, hz, h⟩ := Except.bind_eq_ok.1 h
  obtain ⟨hl, rfl⟩ := KeyAgreement.fixedOr_eq_ok h
  exact ⟨hl, hg.sharedValue hy hz⟩

/-- **A mapped generator is an element**, and nothing else changes. -/
theorem mapNonce (hg : g.Generated) {nonce privateKey : Nat} {other : Bytes} {mapped : KeyAgreement}
    (h : (KeyAgreement.finiteField g).mapNonce nonce privateKey other = .ok mapped) :
    ∃ v, mapped = .finiteField { g with generator := v } ∧ 1 < v ∧ v < g.modulus ∧
      g.InSubgroup v := by
  obtain ⟨y, hy, h⟩ := Except.bind_eq_ok.1 h
  obtain ⟨z, hz, h⟩ := Except.bind_eq_ok.1 h
  obtain ⟨m, hm, h⟩ := Except.bind_eq_ok.1 h
  cases h
  obtain ⟨hsame, hone, hv⟩ := mapNonce_generator hm
  have hz' : z % g.modulus = z := by
    rw [sharedValue_eq hz, Nat.mod_mod]
  refine ⟨m.generator, congrArg _ hsame, hone, ?_, ?_⟩
  · rw [hv]
    exact Nat.mod_lt _ (by have := hg.passes.two_lt; omega)
  · rw [hv, hz']
    exact (hg.generator.pow_mod nonce).mul_mod (hg.sharedValue hy hz).2

theorem mapsTo (hg : g.Generated) {mapped : DhGroup} (h : g.MapsTo mapped) :
    mapped.Generated ∧ mapped = { g with generator := mapped.generator } := by
  obtain ⟨nonce, privateKey, other, h⟩ := h
  obtain ⟨v, heq, hone, hlt, hmem⟩ := hg.mapNonce h
  obtain ⟨hodd, -, -, horder⟩ := passes_iff.1 hg.passes
  cases heq
  exact ⟨⟨passes_iff.2 ⟨hodd, hone, hlt, horder⟩, hmem, hg.odd⟩, rfl⟩

end Generated

/-- Any number of mapping steps changes nothing but the generator, which stays in the subgroup. -/
theorem generated_of_mapping {start : DhGroup} (h : Relation.ReflTransGen MapsTo start g)
    (hs : start.Generated) : g.Generated ∧ g = { start with generator := g.generator } := by
  induction h with
  | refl => exact ⟨hs, rfl⟩
  | tail _ hstep ih =>
    obtain ⟨hg, hsame⟩ := ih
    obtain ⟨hm, hnext⟩ := hg.mapsTo hstep
    refine ⟨hm, ?_⟩
    rw [hnext, hsame]

/-! ## The subgroup -/

/-- What is computed in a group stays in the subgroup, and the other side takes it. -/
structure KeepsSubgroup (g : DhGroup) : Prop where
  passes : g.Passes
  publicKey {privateKey v : Nat} : g.publicValue privateKey = .ok v →
    ∃ b, (KeyAgreement.finiteField g).publicKey privateKey = .ok b ∧
      b.length = g.modulusSize ∧ g.decodePublic b = .ok v
  sharedSecret {privateKey : Nat} {other secret : Bytes} :
    (KeyAgreement.finiteField g).sharedSecret privateKey other = .ok secret →
    secret.length = g.modulusSize ∧ 1 < Bytes.toNat secret ∧
      Bytes.toNat secret ^ g.order ≡ 1 [MOD g.modulus]
  mapNonce {nonce privateKey : Nat} {other : Bytes} {mapped : KeyAgreement} :
    (KeyAgreement.finiteField g).mapNonce nonce privateKey other = .ok mapped →
    ∃ v, mapped = .finiteField { g with generator := v } ∧ 1 < v ∧ v < g.modulus ∧
      v ^ g.order ≡ 1 [MOD g.modulus]

theorem Generated.keepsSubgroup (hg : g.Generated) : g.KeepsSubgroup :=
  ⟨hg.passes, hg.publicKey, hg.sharedSecret, hg.mapNonce⟩

/-- **Values stay in the subgroup.** Of all accepted parameters a public value is taken if and only
if it is an element of the subgroup other than one and `p - 1`. If the generator is an element and
the order is odd, everything computed is an element that the other side takes, after any number of
mapping steps. -/
theorem stays_in_subgroup {modulus : SizedNat} {generator order : Nat} {start : DhGroup}
    (hmake : make modulus generator order = .ok start) :
    (∀ (b : Bytes) (v : Nat), start.decodePublic b = .ok v ↔
      b ≠ [] ∧ b.length ≤ start.modulusSize ∧ v = Bytes.toNat b ∧
        1 < v ∧ v < start.modulus - 1 ∧ v ^ start.order ≡ 1 [MOD start.modulus]) ∧
    (start.generator ^ start.order ≡ 1 [MOD start.modulus] → Odd start.order →
      ∀ g, Relation.ReflTransGen MapsTo start g →
        g.KeepsSubgroup ∧ g = { start with generator := g.generator } ∧
          1 < g.generator ∧ g.generator < start.modulus ∧
          g.generator ^ start.order ≡ 1 [MOD start.modulus]) := by
  have hpasses := passes_of_make hmake
  refine ⟨fun b v => decodePublic_eq_ok hpasses, ?_⟩
  intro hgenerator hodd g hmapped
  obtain ⟨hg, hsame⟩ := generated_of_mapping hmapped ⟨hpasses, hgenerator, hodd⟩
  obtain ⟨-, hone, hlt, -⟩ := passes_iff.1 hg.passes
  have hmodulus : g.modulus = start.modulus := by rw [hsame]
  have horder : g.order = start.order := by rw [hsame]
  have hmem := hg.generator
  rw [InSubgroup, horder, hmodulus] at hmem
  exact ⟨hg.keepsSubgroup, hsame, hone, hmodulus ▸ hlt, hmem⟩

/-- The standardized group, and a mapping step in it with a party whose public key is the
generator. -/
theorem stays_in_subgroup_modp1024 :
    let mapped := { modp1024 with
      generator := Modular.pow modp1024.modulus modp1024.generator 5 }
    make ⟨modp1024.modulus, modp1024.precision⟩ modp1024.generator modp1024.order =
      .ok modp1024 ∧
      modp1024.generator ^ modp1024.order ≡ 1 [MOD modp1024.modulus] ∧ Odd modp1024.order ∧
      modp1024.decodePublic (Bytes.minimal modp1024.generator) = .ok modp1024.generator ∧
      modp1024.MapsTo mapped ∧ mapped.KeepsSubgroup := by
  intro mapped
  have hmake : make ⟨modp1024.modulus, modp1024.precision⟩ modp1024.generator modp1024.order =
      .ok modp1024 := by decide +kernel
  have hgenerator : modp1024.generator ^ modp1024.order ≡ 1 [MOD modp1024.modulus] := by
    have hone : 1 % modp1024.modulus = 1 := by decide +kernel
    have hpow : Modular.pow modp1024.modulus modp1024.generator modp1024.order = 1 := by
      decide +kernel
    rw [Nat.ModEq, ← Modular.pow_eq, hpow, hone]
  have hodd : Odd modp1024.order := Nat.odd_iff.2 (by decide +kernel)
  have hmapped : modp1024.MapsTo mapped :=
    ⟨3, 2, Bytes.minimal modp1024.generator, by decide +kernel⟩
  obtain ⟨hdecode, hkeeps⟩ := stays_in_subgroup hmake
  have hpublic : modp1024.decodePublic (Bytes.minimal modp1024.generator) =
      .ok modp1024.generator :=
    (hdecode _ _).2 ⟨by decide +kernel, by decide +kernel, (Bytes.toNat_minimal _).symm,
      by decide +kernel, by decide +kernel, hgenerator⟩
  exact ⟨hmake, hgenerator, hodd, hpublic, hmapped,
    (hkeeps hgenerator hodd _ (.single hmapped)).1⟩

end TravelDocument.DhGroup

import TravelDocument.Group.KeyAgreement
import TravelDocument.Proofs.Group.Weierstrass

/-!
# Both parties come to the same

Two parties that have each computed a public key agree on the shared secret (`sharedSecret_comm`)
and on the group of the generic mapping (`mapNonce_comm`), as far as their computations succeed. In
a finite field that is a law of powers and holds for any modulus; on a curve it is a law of the
group, so the curve has to be smooth.
-/

namespace TravelDocument

/-! ## Finite fields -/

namespace DhGroup

variable {g : DhGroup}

theorem publicValue_eq {privateKey v : Nat} (h : g.publicValue privateKey = .ok v) :
    v = g.generator ^ privateKey % g.modulus := by
  rw [publicValue] at h
  split at h
  · cases h
  · cases h
    exact Modular.pow_eq _ _ _

theorem sharedValue_eq {privateKey other v : Nat} (h : g.sharedValue privateKey other = .ok v) :
    v = other ^ privateKey % g.modulus := by
  rw [sharedValue] at h
  split at h
  · cases h
  · dsimp only at h
    split at h
    · cases h
    · cases h
      rw [Modular.pow_eq, ← Nat.pow_mod]

theorem sharedValue_comm {a b va vb u v : Nat} (ha : g.publicValue a = .ok va)
    (hb : g.publicValue b = .ok vb) (hu : g.sharedValue a vb = .ok u)
    (hv : g.sharedValue b va = .ok v) :
    u = v := by
  rw [sharedValue_eq hu, sharedValue_eq hv, publicValue_eq ha, publicValue_eq hb, ← Nat.pow_mod,
    ← Nat.pow_mod, ← Nat.pow_mul, ← Nat.pow_mul, Nat.mul_comm]

/-- The mapped group differs in nothing but the generator. -/
theorem mapNonce_eq {nonce shared : Nat} {mapped : DhGroup}
    (h : g.mapNonce nonce shared = .ok mapped) :
    ∃ v, mapped = { g with generator := v } := by
  rw [mapNonce] at h
  dsimp only at h
  split at h
  · cases h
  · split at h
    · cases h
    · cases h
      exact ⟨_, rfl⟩

theorem decodePublic_eq {b : Bytes} {v : Nat} (h : g.decodePublic b = .ok v) :
    b.length ≤ g.modulusSize ∧ v = Bytes.toNat b := by
  rw [decodePublic] at h
  split at h
  · cases h
  · rename_i hl
    dsimp only at h
    split at h
    · cases h
      exact ⟨Nat.not_lt.1 fun h => hl (.inr h), rfl⟩
    · cases h

end DhGroup

/-! ## Curves -/

namespace WeierstrassCurve

variable {c : WeierstrassCurve}

/-- **A point is written** with its coordinates in the bytes of the prime, if they fit. -/
theorem encodePoint_eq_ok_iff {p : AffinePoint} {b : Bytes} :
    c.encodePoint p = .ok b ↔ ∃ x y, b = 0x04 :: (x ++ y) ∧ x.length = c.fieldSize ∧
      y.length = c.fieldSize ∧ Bytes.toNat x = p.x ∧ Bytes.toNat y = p.y := by
  constructor
  · intro h
    rw [encodePoint] at h
    split at h
    · rename_i x y hx hy
      cases h
      exact ⟨x, y, rfl, Bytes.length_fixed? hx, Bytes.length_fixed? hy, Bytes.toNat_fixed? hx,
        Bytes.toNat_fixed? hy⟩
    · cases h
  · rintro ⟨x, y, rfl, hx, hy, hpx, hpy⟩
    rw [encodePoint, Bytes.fixed?_eq_some_iff.2 ⟨hx, hpx⟩, Bytes.fixed?_eq_some_iff.2
      ⟨hy, hpy⟩]

/-- **A point is read** from coordinates in the bytes of the prime, if it passes the check. -/
theorem decodePoint_eq_ok_iff {b : Bytes} {p : AffinePoint} :
    c.decodePoint b = .ok p ↔ ∃ x y, b = 0x04 :: (x ++ y) ∧ x.length = c.fieldSize ∧
      y.length = c.fieldSize ∧ p = ⟨Bytes.toNat x, Bytes.toNat y⟩ ∧
        c.contains p = true := by
  constructor
  · intro h
    match b, h with
    | format :: coordinates, h =>
      rw [decodePoint] at h
      split at h
      · cases h
      · rename_i hf
        dsimp only at h
        split at h
        · rename_i hc
          cases h
          -- the coordinates are the two halves, since there are exactly that many bytes
          obtain ⟨rfl, hl⟩ : format = 0x04 ∧ coordinates.length = 2 * c.fieldSize := by
            simpa only [not_or, not_not] using hf
          refine ⟨_, _, by rw [List.take_append_drop], ?_, ?_, rfl, hc⟩
          · rw [List.length_take, hl]
            omega
          · rw [List.length_drop, hl]
            omega
        · cases h
  · rintro ⟨x, y, rfl, hx, hy, rfl, hc⟩
    have hl : (x ++ y).length = 2 * c.fieldSize := by
      rw [List.length_append]
      omega
    rw [decodePoint, if_neg (by simp [hl]), List.take_left' hx, List.drop_left' hx]
    exact if_pos hc

/-- What is read as a point is what is written for it. -/
theorem encodePoint_of_decodePoint {bytes : Bytes} {p : AffinePoint}
    (h : c.decodePoint bytes = .ok p) :
    c.encodePoint p = .ok bytes := by
  obtain ⟨x, y, rfl, hx, hy, rfl, -⟩ := decodePoint_eq_ok_iff.1 h
  exact encodePoint_eq_ok_iff.2 ⟨x, y, rfl, hx, hy, rfl, rfl⟩

/-- What is written for a point is read as no other point. -/
theorem decodePoint_encodePoint {p q : AffinePoint} {b : Bytes} (he : c.encodePoint p = .ok b)
    (hd : c.decodePoint b = .ok q) : q = p := by
  obtain ⟨x, y, rfl, hx, -, hpx, hpy⟩ := encodePoint_eq_ok_iff.1 he
  obtain ⟨x', y', hb, hx', -, rfl, -⟩ := decodePoint_eq_ok_iff.1 hd
  obtain ⟨rfl, rfl⟩ := List.append_inj (List.cons.inj hb).2 (hx.trans hx'.symm)
  rw [hpx, hpy]

theorem sharedPoint_comm (hs : c.Smooth) {a b : Nat} {pa pb p q : AffinePoint}
    (ha : c.publicPoint a = .ok pa) (hb : c.publicPoint b = .ok pb)
    (hp : c.sharedPoint a pb = .ok p) (hq : c.sharedPoint b pa = .ok q) : p = q := by
  have : Fact c.prime.Prime := ⟨hs.prime⟩
  obtain ⟨G, hG⟩ := hs.denotes_generator
  have hA := denotes_publicPoint hG ha
  have hB := denotes_publicPoint hG hb
  have hP := denotes_sharedPoint hB hp
  have hQ := denotes_sharedPoint hA hq
  have hcomm : a • c.clearing • b • G = b • c.clearing • a • G := by
    simp only [← mul_nsmul']
    congr 1
    ring
  rw [hcomm] at hP
  exact hP.unique hQ

/-- The mapped curve differs in nothing but the generator, and is as smooth. -/
theorem Smooth.mapNonce (hs : c.Smooth) {nonce : Nat} {other : AffinePoint} {privateKey : Nat}
    {shared : AffinePoint} {mapped : WeierstrassCurve} (ho : c.contains other = true)
    (hp : c.sharedPoint privateKey other = .ok shared) (hm : c.mapNonce nonce shared = .ok mapped) :
    mapped.Smooth ∧ ∃ p, mapped = { c with generator := p } := by
  have : Fact c.prime.Prime := ⟨hs.prime⟩
  obtain ⟨G, hG⟩ := hs.denotes_generator
  obtain ⟨Q, hQ⟩ := (contains_iff hs).1 ho
  obtain ⟨p, hd, rfl⟩ := denotes_mapNonce hG (denotes_sharedPoint hQ hp) hm
  refine ⟨⟨hs.prime, hs.discriminant, ?_⟩, p, rfl⟩
  exact (contains_iff hs).2 ⟨_, hd⟩

end WeierstrassCurve

/-! ## Either kind of group -/

namespace KeyAgreement

variable {k : KeyAgreement}

/-- A curve is smooth. Of a finite field nothing is asked. -/
def Sound : KeyAgreement → Prop
  | .finiteField _ => True
  | .ellipticCurve c => c.Smooth

/-- Bytes of a public key. -/
def publicKeySize : KeyAgreement → Nat
  | .finiteField g => g.modulusSize
  | .ellipticCurve c => 1 + 2 * c.fieldSize

theorem fixedOr_eq_ok {e : CryptoError} {width n : Nat} {b : Bytes}
    (h : fixedOr e width n = .ok b) :
    b.length = width ∧ Bytes.toNat b = n := by
  rw [fixedOr] at h
  split at h
  · rename_i hb
    cases h
    exact ⟨Bytes.length_fixed? hb, Bytes.toNat_fixed? hb⟩
  · cases h

theorem publicKey_finiteField {g : DhGroup} {privateKey : Nat} {key : Bytes}
    (h : (finiteField g).publicKey privateKey = .ok key) :
    g.publicValue privateKey = .ok (Bytes.toNat key) ∧ key.length = g.modulusSize := by
  obtain ⟨v, hv, hkey⟩ := Except.bind_eq_ok.1 h
  obtain ⟨hl, rfl⟩ := fixedOr_eq_ok hkey
  exact ⟨hv, hl⟩

theorem publicKey_ellipticCurve {c : WeierstrassCurve} {privateKey : Nat} {key : Bytes}
    (h : (ellipticCurve c).publicKey privateKey = .ok key) :
    ∃ p, c.publicPoint privateKey = .ok p ∧ c.encodePoint p = .ok key :=
  Except.bind_eq_ok.1 h

theorem length_publicKey {privateKey : Nat} {key : Bytes} (h : k.publicKey privateKey = .ok key) :
    key.length = k.publicKeySize := by
  cases k with
  | finiteField g => exact (publicKey_finiteField h).2
  | ellipticCurve c =>
    obtain ⟨p, -, hkey⟩ := publicKey_ellipticCurve h
    obtain ⟨x, y, rfl, hx, hy, -, -⟩ := WeierstrassCurve.encodePoint_eq_ok_iff.1 hkey
    rw [List.length_cons, List.length_append, hx, hy, publicKeySize]
    omega

section Parties

variable {a b : Nat} {keyA keyB : Bytes}

/-- In a finite field both parties share the same value. -/
theorem shared_finiteField {g : DhGroup} (ha : (finiteField g).publicKey a = .ok keyA)
    (hb : (finiteField g).publicKey b = .ok keyB) {va vb u v : Nat}
    (hvb : g.decodePublic keyB = .ok vb)
    (hu : g.sharedValue a vb = .ok u) (hva : g.decodePublic keyA = .ok va)
    (hv : g.sharedValue b va = .ok v) : u = v := by
  obtain ⟨-, rfl⟩ := DhGroup.decodePublic_eq hva
  obtain ⟨-, rfl⟩ := DhGroup.decodePublic_eq hvb
  exact DhGroup.sharedValue_comm (publicKey_finiteField ha).1 (publicKey_finiteField hb).1 hu hv

/-- On a smooth curve both parties share the same point. -/
theorem shared_ellipticCurve {c : WeierstrassCurve} (hs : c.Smooth)
    (ha : (ellipticCurve c).publicKey a = .ok keyA) (hb : (ellipticCurve c).publicKey b = .ok keyB)
    {pa pb p q : AffinePoint} (hpb : c.decodePoint keyB = .ok pb) (hp : c.sharedPoint a pb = .ok p)
    (hpa : c.decodePoint keyA = .ok pa) (hq : c.sharedPoint b pa = .ok q) : p = q := by
  obtain ⟨pa', ha, hkeyA⟩ := publicKey_ellipticCurve ha
  obtain ⟨pb', hb, hkeyB⟩ := publicKey_ellipticCurve hb
  obtain rfl := WeierstrassCurve.decodePoint_encodePoint hkeyA hpa
  obtain rfl := WeierstrassCurve.decodePoint_encodePoint hkeyB hpb
  exact WeierstrassCurve.sharedPoint_comm hs ha hb hp hq

/-- **Both parties share the same secret.** -/
theorem sharedSecret_comm (hs : k.Sound) (ha : k.publicKey a = .ok keyA)
    (hb : k.publicKey b = .ok keyB)
    {secretA secretB : Bytes} (hsa : k.sharedSecret a keyB = .ok secretA)
    (hsb : k.sharedSecret b keyA = .ok secretB) : secretA = secretB := by
  cases k with
  | finiteField g =>
    obtain ⟨vb, hvb, hsa⟩ := Except.bind_eq_ok.1 hsa
    obtain ⟨u, hu, hsa⟩ := Except.bind_eq_ok.1 hsa
    obtain ⟨va, hva, hsb⟩ := Except.bind_eq_ok.1 hsb
    obtain ⟨v, hv, hsb⟩ := Except.bind_eq_ok.1 hsb
    obtain rfl := shared_finiteField ha hb hvb hu hva hv
    exact Except.ok.inj (hsa.symm.trans hsb)
  | ellipticCurve c =>
    obtain ⟨pb, hpb, hsa⟩ := Except.bind_eq_ok.1 hsa
    obtain ⟨p, hp, hsa⟩ := Except.bind_eq_ok.1 hsa
    obtain ⟨pa, hpa, hsb⟩ := Except.bind_eq_ok.1 hsb
    obtain ⟨q, hq, hsb⟩ := Except.bind_eq_ok.1 hsb
    obtain rfl := shared_ellipticCurve hs ha hb hpb hp hpa hq
    exact Except.ok.inj (hsa.symm.trans hsb)

/-- **Both parties map a nonce to the same group.** -/
theorem mapNonce_comm (hs : k.Sound) (ha : k.publicKey a = .ok keyA) (hb : k.publicKey b = .ok keyB)
    {nonce : Nat} {mappedA mappedB : KeyAgreement} (hma : k.mapNonce nonce a keyB = .ok mappedA)
    (hmb : k.mapNonce nonce b keyA = .ok mappedB) : mappedA = mappedB := by
  cases k with
  | finiteField g =>
    obtain ⟨vb, hvb, hma⟩ := Except.bind_eq_ok.1 hma
    obtain ⟨u, hu, hma⟩ := Except.bind_eq_ok.1 hma
    obtain ⟨va, hva, hmb⟩ := Except.bind_eq_ok.1 hmb
    obtain ⟨v, hv, hmb⟩ := Except.bind_eq_ok.1 hmb
    obtain rfl := shared_finiteField ha hb hvb hu hva hv
    exact Except.ok.inj (hma.symm.trans hmb)
  | ellipticCurve c =>
    obtain ⟨pb, hpb, hma⟩ := Except.bind_eq_ok.1 hma
    obtain ⟨p, hp, hma⟩ := Except.bind_eq_ok.1 hma
    obtain ⟨pa, hpa, hmb⟩ := Except.bind_eq_ok.1 hmb
    obtain ⟨q, hq, hmb⟩ := Except.bind_eq_ok.1 hmb
    obtain rfl := shared_ellipticCurve hs ha hb hpb hp hpa hq
    exact Except.ok.inj (hma.symm.trans hmb)

end Parties

/-- The mapped group is as sound, and its public keys look the same. -/
theorem Sound.mapNonce (hs : k.Sound) {nonce privateKey : Nat} {other : Bytes}
    {mapped : KeyAgreement} (h : k.mapNonce nonce privateKey other = .ok mapped) :
    mapped.Sound ∧ mapped.publicKeySize = k.publicKeySize ∧
      mapped.publicKeyTag = k.publicKeyTag := by
  cases k with
  | finiteField g =>
    obtain ⟨_, -, h⟩ := Except.bind_eq_ok.1 h
    obtain ⟨_, -, h⟩ := Except.bind_eq_ok.1 h
    obtain ⟨m, hm, h⟩ := Except.bind_eq_ok.1 h
    cases h
    obtain ⟨v, rfl⟩ := DhGroup.mapNonce_eq hm
    exact ⟨trivial, rfl, rfl⟩
  | ellipticCurve c =>
    obtain ⟨q, hq, h⟩ := Except.bind_eq_ok.1 h
    obtain ⟨p, hp, h⟩ := Except.bind_eq_ok.1 h
    obtain ⟨m, hm, h⟩ := Except.bind_eq_ok.1 h
    cases h
    obtain ⟨_, _, _, _, _, -, ho⟩ := WeierstrassCurve.decodePoint_eq_ok_iff.1 hq
    obtain ⟨hsm, v, rfl⟩ := WeierstrassCurve.Smooth.mapNonce hs ho hp hm
    exact ⟨hsm, rfl, rfl⟩

/-! ## Accepted groups -/

/-- A group whose parameters are accepted. A curve has to be over a prime and not singular besides,
which is not checked. -/
inductive Accepted : KeyAgreement → Prop
  | finiteField {modulus : SizedNat} {generator order : Nat} {g : DhGroup} :
    DhGroup.make modulus generator order = .ok g → Accepted (.finiteField g)
  | ellipticCurve {prime : SizedNat} {a b : Nat} {generator : AffinePoint} {cofactor : Nat}
      {c : WeierstrassCurve} :
    WeierstrassCurve.make prime a b generator cofactor = .ok c → c.prime.Prime →
    (4 * c.a ^ 3 + 27 * c.b ^ 2) % c.prime ≠ 0 → Accepted (.ellipticCurve c)

theorem Accepted.sound (h : k.Accepted) : k.Sound := by
  cases h with
  | finiteField _ => trivial
  | ellipticCurve hmake hprime hdiscriminant =>
    exact WeierstrassCurve.Smooth.of_make hmake hprime hdiscriminant

/-- Two parties that know each other's public keys come to the same, if they come to anything. -/
structure PartiesAgree (k : KeyAgreement) : Prop where
  secret {a b : Nat} {keyA keyB secretA secretB : Bytes} :
    k.publicKey a = .ok keyA → k.publicKey b = .ok keyB →
    k.sharedSecret a keyB = .ok secretA → k.sharedSecret b keyA = .ok secretB →
      secretA = secretB
  mapped {nonce a b : Nat} {keyA keyB : Bytes} {mappedA mappedB : KeyAgreement} :
    k.publicKey a = .ok keyA → k.publicKey b = .ok keyB →
    k.mapNonce nonce a keyB = .ok mappedA → k.mapNonce nonce b keyA = .ok mappedB →
      mappedA = mappedB

/-- **Both parties agree** in every group that is accepted, whatever its cofactor, their private
keys and the nonce. -/
theorem parties_agree (h : k.Accepted) : k.PartiesAgree where
  secret ha hb := sharedSecret_comm h.sound ha hb
  mapped ha hb := mapNonce_comm h.sound ha hb

/-- The squares modulo 263, and the subgroup of order 7 of a curve modulo 23. -/
theorem parties_agree_small :
    let g : DhGroup := ⟨263, 64, 4, 131⟩
    let c : WeierstrassCurve := ⟨23, 64, 1, 1, ⟨13, 16⟩, 4, rfl⟩
    (finiteField g).Accepted ∧ (ellipticCurve c).Accepted ∧
      (∃ keyA keyB secretA secretB,
        (finiteField g).publicKey 3 = .ok keyA ∧ (finiteField g).publicKey 7 = .ok keyB ∧
        (finiteField g).sharedSecret 3 keyB = .ok secretA ∧
        (finiteField g).sharedSecret 7 keyA = .ok secretB ∧ secretA = secretB) ∧
      ∃ keyA keyB mappedA mappedB,
        (ellipticCurve c).publicKey 5 = .ok keyA ∧ (ellipticCurve c).publicKey 3 = .ok keyB ∧
        (ellipticCurve c).mapNonce 6 5 keyB = .ok mappedA ∧
        (ellipticCurve c).mapNonce 6 3 keyA = .ok mappedB ∧ mappedA = mappedB := by
  intro g c
  have hg : (finiteField g).Accepted :=
    .finiteField (show DhGroup.make ⟨263, 64⟩ 4 131 = .ok g by decide)
  have hvA : (finiteField g).publicKey 3 = .ok [0x00, 0x40] := by decide +kernel
  have hvB : (finiteField g).publicKey 7 = .ok [0x00, 0x4E] := by decide +kernel
  have hsA : (finiteField g).sharedSecret 3 [0x00, 0x4E] = .ok [0x00, 0x64] := by decide +kernel
  have hsB : (finiteField g).sharedSecret 7 [0x00, 0x40] = .ok [0x00, 0x64] := by decide +kernel
  have hc : (ellipticCurve c).Accepted :=
    .ellipticCurve (show WeierstrassCurve.make ⟨23, 64⟩ 1 1 ⟨13, 16⟩ 4 = .ok c from rfl)
      (by decide)
      (by decide)
  have hpA : (ellipticCurve c).publicKey 5 = .ok [4, 5, 4] := by decide +kernel
  have hpB : (ellipticCurve c).publicKey 3 = .ok [4, 17, 20] := by decide +kernel
  have hmA : (ellipticCurve c).mapNonce 6 5 [4, 17, 20] =
      .ok (.ellipticCurve { c with generator := ⟨17, 20⟩ }) := by decide +kernel
  have hmB : (ellipticCurve c).mapNonce 6 3 [4, 5, 4] =
      .ok (.ellipticCurve { c with generator := ⟨17, 20⟩ }) := by decide +kernel
  exact ⟨hg, hc, ⟨_, _, _, _, hvA, hvB, hsA, hsB, (parties_agree hg).secret hvA hvB hsA hsB⟩,
    _, _, _, _, hpA, hpB, hmA, hmB, (parties_agree hc).mapped hpA hpB hmA hmB⟩

end KeyAgreement
end TravelDocument

import TravelDocument.Proofs.Group.Completeness
import TravelDocument.Proofs.Group.Weierstrass

/-!
# The arithmetic of a curve is its group law

On a smooth curve without points of order two a computation with triples is one with points, in all
cases: `StandsFor` is kept by addition, doubling and double-and-add, and a triple has affine
coordinates unless it stands for infinity (`StandsFor.normalize?_eq_none_iff`). So a public key and
a shared point are missing exactly if the multiple is infinity. `FollowsGroupLaw` puts this
together.
-/

namespace TravelDocument.WeierstrassCurve

variable {c : WeierstrassCurve} [Fact c.prime.Prime]

/-- Over the integers modulo the prime, the triple is one of the point. -/
def StandsFor (c : WeierstrassCurve) [Fact c.prime.Prime] (p : Projective (Fin c.prime))
    (A : c.Group) :
    Prop :=
  Projective.StandsFor (p.map c.toField) A

theorem StandsFor.represents {p : Projective (Fin c.prime)} {A : c.Group} (h : c.StandsFor p A) :
    c.Represents p A :=
  Projective.StandsFor.tracks h

theorem toField_eq_zero_iff {x : Fin c.prime} : c.toField x = 0 ↔ x.val = 0 := by
  rw [toField, ZMod.natCast_eq_zero_iff]
  exact ⟨fun h => Nat.eq_zero_of_dvd_of_lt h x.isLt, fun h => h ▸ dvd_zero _⟩

/-- **The triples of the points** are those on the curve, less the one of zeroes. -/
theorem exists_standsFor_iff (hs : c.Smooth) {p : Projective (Fin c.prime)} :
    (∃ A, c.StandsFor p A) ↔ ¬ (p.x.val = 0 ∧ p.y.val = 0 ∧ p.z.val = 0) ∧
      p.y * p.y * p.z = p.x * p.x * p.x + c.aResidue * p.x * (p.z * p.z) +
        c.residue c.b * (p.z * p.z * p.z) := by
  have hzero : p.map c.toField = ⟨0, 0, 0⟩ ↔ p.x.val = 0 ∧ p.y.val = 0 ∧ p.z.val = 0 := by
    simp only [Projective.map, Projective.mk.injEq, toField_eq_zero_iff]
  simp only [StandsFor]
  rw [Projective.exists_standsFor_iff hs.Δ_ne_zero, ne_eq, hzero, ← toField_inj]
  simp only [Projective.map, respects_toField.add, respects_toField.mul, aResidue,
    toField_residue, pow_two, pow_three, ← mul_assoc]

/-! ## Affine coordinates -/

/-- The last coordinate has no inverse only if the triple stands for infinity. -/
theorem StandsFor.normalize?_eq_none_iff {p : Projective (Fin c.prime)} {A : c.Group}
    (h : c.StandsFor p A) : c.normalize? p = none ↔ A = 0 := by
  have hp : c.prime.Prime := Fact.out
  have hz : c.toField p.z = 0 ↔ A = 0 := Projective.StandsFor.z_eq_zero_iff h
  rw [normalize?, Option.map_eq_none_iff, Modular.inverse?_eq_none_iff, ← hz, toField,
    ZMod.natCast_eq_zero_iff, Nat.coprime_comm, hp.coprime_iff_not_dvd, not_not]

theorem StandsFor.normalize?_eq_some_iff {p : Projective (Fin c.prime)} {A : c.Group}
    (h : c.StandsFor p A) {q : AffinePoint} : c.normalize? p = some q ↔ c.Denotes q A := by
  refine ⟨h.represents.denotes, fun hq => ?_⟩
  cases hn : c.normalize? p with
  | none =>
    obtain ⟨-, -, hns, hA⟩ := hq
    exact absurd (hA.symm.trans (h.normalize?_eq_none_iff.1 hn))
      (WeierstrassCurve.Affine.Point.some_ne_zero hns)
  | some q' => rw [(h.represents.denotes hn).unique hq]

/-- The computation gives the affine coordinates of the point, and fails for infinity only. -/
def Computes (c : WeierstrassCurve) [Fact c.prime.Prime] (result : Except CryptoError AffinePoint)
    (failure : CryptoError) (A : c.Group) : Prop :=
  (result = .error failure ↔ A = 0) ∧ ∀ p, result = .ok p ↔ c.Denotes p A

theorem StandsFor.computes {p : Projective (Fin c.prime)} {A : c.Group} (h : c.StandsFor p A)
    (failure : CryptoError) :
    c.Computes (match c.normalize? p with | some q => .ok q | none => .error failure)
      failure A := by
  constructor
  · rw [← h.normalize?_eq_none_iff]
    cases c.normalize? p <;> simp
  · intro q
    rw [← h.normalize?_eq_some_iff]
    cases c.normalize? p <;> simp

/-! ## Curves without points of order two -/

/-- The arithmetic with triples is that of the group, and so is what is computed with it for a key
agreement. -/
structure FollowsGroupLaw (c : WeierstrassCurve) [Fact c.prime.Prime] : Prop where
  /-- The triples of the points are all on the curve but the one of zeroes. -/
  triples (p : Projective (Fin c.prime)) :
    (∃ A, c.StandsFor p A) ↔ ¬ (p.x.val = 0 ∧ p.y.val = 0 ∧ p.z.val = 0) ∧
      p.y * p.y * p.z = p.x * p.x * p.x + c.aResidue * p.x * (p.z * p.z) +
        c.residue c.b * (p.z * p.z * p.z)
  add {p q : Projective (Fin c.prime)} {A B : c.Group} :
    c.StandsFor p A → c.StandsFor q B → c.StandsFor (c.add p q) (A + B)
  double {p : Projective (Fin c.prime)} {A : c.Group} :
    c.StandsFor p A → c.StandsFor (Projective.double c.aResidue c.b3Residue p) (2 • A)
  multiply (k : Nat) {p : Projective (Fin c.prime)} {A : c.Group} :
    c.StandsFor p A → c.StandsFor (c.multiply k p) (k • A)
  publicPoint : ∃ G, c.Denotes c.generator G ∧
    ∀ privateKey, c.Computes (c.publicPoint privateKey) .invalidPublicKey (privateKey • G)
  sharedPoint {other : AffinePoint} : c.contains other = true → ∃ Q, c.Denotes other Q ∧
    ∀ privateKey, c.Computes (c.sharedPoint privateKey other) .invalidSharedSecret
      (privateKey • (if 1 < c.cofactor then c.cofactor else 1) • Q)

theorem Denotes.standsFor_lift {p : AffinePoint} {A : c.Group} (h : c.Denotes p A) :
    c.StandsFor (c.lift p) A := by
  refine Projective.Tracks.standsFor h.represents_lift fun hz => ?_
  have hone : c.toField (c.residue 1) = 0 := congrArg Projective.z hz
  rw [toField_residue, Nat.cast_one] at hone
  exact one_ne_zero hone

theorem standsFor_infinity : c.StandsFor c.infinity 0 := by
  refine Projective.Tracks.standsFor represents_infinity fun hz => ?_
  have hone : c.toField (c.residue 1) = 0 := congrArg Projective.y hz
  rw [toField_residue, Nat.cast_one] at hone
  exact one_ne_zero hone

section

variable (hodd : ∀ A : c.Group, addOrderOf A ≠ 2)
include hodd

theorem StandsFor.add {p q : Projective (Fin c.prime)} {A B : c.Group} (hp : c.StandsFor p A)
    (hq : c.StandsFor q B) : c.StandsFor (c.add p q) (A + B) := by
  rw [StandsFor, WeierstrassCurve.add, Projective.map_add respects_toField, toField_aResidue,
    toField_b3Residue]
  exact Projective.StandsFor.add c.field_two_ne_zero hodd hp hq

theorem StandsFor.double {p : Projective (Fin c.prime)} {A : c.Group} (h : c.StandsFor p A) :
    c.StandsFor (Projective.double c.aResidue c.b3Residue p) (2 • A) := by
  rw [StandsFor, Projective.map_double respects_toField, toField_aResidue,
    toField_b3Residue, two_nsmul]
  exact Projective.StandsFor.double c.field_two_ne_zero hodd h

theorem StandsFor.multiply {p : Projective (Fin c.prime)} {A : c.Group}
    (h : c.StandsFor p A) (k : Nat) :
    c.StandsFor (c.multiply k p) (k • A) := by
  rw [StandsFor, WeierstrassCurve.multiply, Projective.map_addMultiple respects_toField,
    toField_aResidue, toField_b3Residue, ← zero_add (k • A)]
  exact Projective.StandsFor.addMultiple c.field_two_ne_zero hodd standsFor_infinity h k

theorem StandsFor.clearCofactor {p : Projective (Fin c.prime)} {A : c.Group} (h : c.StandsFor p A) :
    c.StandsFor (c.clearCofactor p) (c.clearing • A) := by
  rw [WeierstrassCurve.clearCofactor, clearing]
  split
  · exact h.multiply hodd _
  · rwa [one_nsmul]

/-- A public key is the generator times the private key, and there is none if that is infinity. -/
theorem publicPoint_computes {G : c.Group} (hG : c.Denotes c.generator G) (privateKey : Nat) :
    c.Computes (c.publicPoint privateKey) .invalidPublicKey (privateKey • G) :=
  (hG.standsFor_lift.multiply hodd privateKey).computes _

/-- A shared point is the other party's point times the cofactor and the private key, and there is
none if that is infinity. -/
theorem sharedPoint_computes {other : AffinePoint} {Q : c.Group} (hc : c.contains other = true)
    (hQ : c.Denotes other Q) (privateKey : Nat) :
    c.Computes (c.sharedPoint privateKey other) .invalidSharedSecret
      (privateKey • c.clearing • Q) := by
  rw [WeierstrassCurve.sharedPoint, hc]
  exact ((hQ.standsFor_lift.clearCofactor hodd).multiply hodd privateKey).computes _

theorem Smooth.followsGroupLaw (hs : c.Smooth) : c.FollowsGroupLaw where
  triples _ := exists_standsFor_iff hs
  add hp hq := hp.add hodd hq
  double h := h.double hodd
  multiply k _ _ h := h.multiply hodd k
  publicPoint :=
    let ⟨G, hG⟩ := hs.denotes_generator
    ⟨G, hG, publicPoint_computes hodd hG⟩
  sharedPoint hc :=
    let ⟨Q, hQ⟩ := (contains_iff hs).1 hc
    ⟨Q, hQ, sharedPoint_computes hodd hc hQ⟩

end

end TravelDocument.WeierstrassCurve

import Mathlib.Algebra.Field.ZMod
import TravelDocument.Group.Weierstrass
import TravelDocument.Proofs.Bytes
import TravelDocument.Proofs.Group.Modular
import TravelDocument.Proofs.Group.Projective

/-!
# Computing in the group of a curve

On a smooth curve every affine point that is computed is the point of the group it should be: `d ·
G` for a public key (`denotes_publicPoint`), `d · (h · Q)` for a shared point
(`denotes_sharedPoint`) and `s · G + H` for a mapped generator (`denotes_mapNonce`). The group is
that of the curve over the integers modulo the prime, and a computation that meets an exceptional
case of the formulas fails.
-/

namespace TravelDocument

/-! ## Triples over another ring -/

namespace Projective

variable {F G : Type} [Add F] [Sub F] [Mul F] [Add G] [Sub G] [Mul G] {f : F → G}

/-- A triple with `f` applied to every coordinate. -/
def map (f : F → G) (p : Projective F) : Projective G := ⟨f p.x, f p.y, f p.z⟩

/-- `f` goes along with the operations of the formulas. -/
structure Respects (f : F → G) : Prop where
  add : ∀ x y, f (x + y) = f x + f y
  sub : ∀ x y, f (x - y) = f x - f y
  mul : ∀ x y, f (x * y) = f x * f y

theorem map_add (hf : Respects f) (a b3 : F) (p q : Projective F) :
    map f (add a b3 p q) = add (f a) (f b3) (map f p) (map f q) := by
  simp only [map, add, hf.add, hf.sub, hf.mul]

theorem map_double (hf : Respects f) (a b3 : F) (p : Projective F) :
    map f (double a b3 p) = double (f a) (f b3) (map f p) := by
  simp only [map, double, hf.add, hf.sub, hf.mul]

theorem map_addMultiple (hf : Respects f) (a b3 : F) (k : Nat) (p q : Projective F) :
    map f (addMultiple a b3 k p q) = addMultiple (f a) (f b3) k (map f p) (map f q) := by
  induction k using Nat.strongRecOn generalizing p q with
  | ind k ih =>
    rw [addMultiple, addMultiple.eq_def (f a)]
    split
    · rfl
    · rw [ih (k / 2) (by omega), map_double hf]
      split
      · rw [map_add hf]
      · rfl

end Projective

namespace WeierstrassCurve

variable {c : WeierstrassCurve}

/-- A smooth curve over the integers modulo a prime, with a generator on it. -/
structure Smooth (c : WeierstrassCurve) : Prop where
  prime : c.prime.Prime
  discriminant : (4 * c.a ^ 3 + 27 * c.b ^ 2) % c.prime ≠ 0
  generator : c.contains c.generator = true

/-- A curve is accepted with the given values, a generator on it and coefficients of its
precision. -/
theorem make_eq_ok {prime : SizedNat} {a b : Nat} {generator : AffinePoint} {cofactor : Nat}
    (h : make prime a b generator cofactor = .ok c) :
    ∃ hodd, c = ⟨prime.value, prime.precision, a, b, generator, cofactor, hodd⟩ ∧
      bitLength a ≤ prime.precision ∧ bitLength b ≤ prime.precision ∧
        c.contains generator = true := by
  rw [make] at h
  split at h
  · rename_i hodd
    dsimp only at h
    split at h
    · rename_i hchecks
      cases h
      exact ⟨hodd, rfl, hchecks⟩
    · cases h
  · cases h

theorem Smooth.of_make {prime : SizedNat} {a b : Nat} {generator : AffinePoint} {cofactor : Nat}
    (h : make prime a b generator cofactor = .ok c) (hprime : c.prime.Prime)
    (hdiscriminant : (4 * c.a ^ 3 + 27 * c.b ^ 2) % c.prime ≠ 0) : c.Smooth := by
  obtain ⟨_, rfl, -, -, hgenerator⟩ := make_eq_ok h
  exact ⟨hprime, hdiscriminant, hgenerator⟩

/-- An element of the field, as an integer modulo the prime. -/
def toField (c : WeierstrassCurve) (x : Fin c.prime) : ZMod c.prime := (x.val : ZMod c.prime)

theorem toField_residue (n : Nat) : c.toField (c.residue n) = n :=
  ZMod.natCast_mod n c.prime

theorem respects_toField : Projective.Respects c.toField where
  add x y := by
    simp only [toField, Fin.val_add, ZMod.natCast_mod, Nat.cast_add]
  sub x y := by
    simp only [toField, Fin.val_sub, ZMod.natCast_mod, Nat.cast_add,
      Nat.cast_sub y.isLt.le, ZMod.natCast_self]
    ring
  mul x y := by
    simp only [toField, Fin.val_mul, ZMod.natCast_mod, Nat.cast_mul]

theorem toField_inj {x y : Fin c.prime} : c.toField x = c.toField y ↔ x = y := by
  simp only [toField, ZMod.natCast_eq_natCast_iff', Nat.mod_eq_of_lt x.isLt,
    Nat.mod_eq_of_lt y.isLt, Fin.val_inj]

theorem toField_aResidue : c.toField c.aResidue = c.a := toField_residue c.a

theorem toField_b3Residue : c.toField c.b3Residue = (c.b : ZMod c.prime) + c.b + c.b := by
  simp only [b3Residue, respects_toField.add, toField_residue]

theorem map_lift (p : AffinePoint) :
    (c.lift p).map c.toField = ⟨(p.x : ZMod c.prime), p.y, 1⟩ := by
  simp [Projective.map, lift, toField_residue]

theorem map_infinity : c.infinity.map c.toField = ⟨0, 1, 0⟩ := by
  simp [Projective.map, infinity, toField_residue]

/-- The check of a point is the equation of the curve modulo the prime. -/
theorem satisfies_iff {p : AffinePoint} : c.satisfies p = true ↔
    (p.y : ZMod c.prime) ^ 2 = (p.x : ZMod c.prime) ^ 3 + c.a * p.x + c.b := by
  simp only [satisfies, beq_iff_eq, ← toField_inj, respects_toField.add,
    respects_toField.mul, aResidue, toField_residue]
  constructor <;> intro h <;> linear_combination h

variable [Fact c.prime.Prime]

/-- Affine coordinates are reduced, and are the first two coordinates over the last one. -/
theorem normalize?_spec {p : Projective (Fin c.prime)} {q : AffinePoint}
    (h : c.normalize? p = some q) :
    q.x < c.prime ∧ q.y < c.prime ∧ c.toField p.z ≠ 0 ∧
      (q.x : ZMod c.prime) = c.toField p.x * (c.toField p.z)⁻¹ ∧
      (q.y : ZMod c.prime) = c.toField p.y * (c.toField p.z)⁻¹ := by
  obtain ⟨i, hi, rfl⟩ := Option.map_eq_some_iff.1 h
  have hmul : c.toField p.z * i = 1 := by
    have := Modular.mul_inverse? c.prime_pos hi
    rw [← ZMod.natCast_eq_natCast_iff', Nat.cast_mul, Nat.cast_one] at this
    exact this
  have hinv : (c.toField p.z)⁻¹ = i := inv_eq_of_mul_eq_one_right hmul
  have hcoordinate : ∀ x, c.toField (x * c.residue i) = c.toField x * (c.toField p.z)⁻¹ := by
    intro x
    rw [respects_toField.mul, toField_residue, hinv]
  exact ⟨Fin.isLt _, Fin.isLt _, left_ne_zero_of_mul_eq_one hmul, hcoordinate _, hcoordinate _⟩

/-- The group of the curve over the integers modulo the prime. -/
abbrev Group (c : WeierstrassCurve) [Fact c.prime.Prime] : Type :=
  (Projective.curve (c.a : ZMod c.prime) c.b).Point

/-- `p` has reduced coordinates, those of the point `A`. -/
def Denotes (c : WeierstrassCurve) [Fact c.prime.Prime] (p : AffinePoint) (A : c.Group) : Prop :=
  p.x < c.prime ∧ p.y < c.prime ∧ ∃ h, A = .some (p.x : ZMod c.prime) p.y h

theorem Denotes.unique {p q : AffinePoint} {A : c.Group} (hp : c.Denotes p A) (hq : c.Denotes q A) :
    p = q := by
  obtain ⟨hpx, hpy, _, rfl⟩ := hp
  obtain ⟨hqx, hqy, _, hB⟩ := hq
  simp only [WeierstrassCurve.Affine.Point.some.injEq, ZMod.natCast_eq_natCast_iff',
    Nat.mod_eq_of_lt hpx, Nat.mod_eq_of_lt hpy, Nat.mod_eq_of_lt hqx, Nat.mod_eq_of_lt hqy] at hB
  cases p
  cases q
  exact congrArg₂ AffinePoint.mk hB.1 hB.2

/-- The prime is odd. -/
theorem field_two_ne_zero (c : WeierstrassCurve) [hp : Fact c.prime.Prime] :
    (2 : ZMod c.prime) ≠ 0 := by
  intro h
  have := Nat.le_of_dvd (by omega) ((ZMod.natCast_eq_zero_iff 2 c.prime).1 (by exact_mod_cast h))
  have := hp.out.two_le
  have := c.prime_odd
  omega

theorem Smooth.Δ_ne_zero (hs : c.Smooth) :
    (Projective.curve (c.a : ZMod c.prime) c.b).Δ ≠ 0 := by
  have hdisc : (4 * (c.a : ZMod c.prime) ^ 3 + 27 * (c.b : ZMod c.prime) ^ 2) ≠ 0 := by
    intro h
    refine hs.discriminant (Nat.mod_eq_zero_of_dvd ((ZMod.natCast_eq_zero_iff _ _).1 ?_))
    exact_mod_cast h
  have hΔ : (Projective.curve (c.a : ZMod c.prime) c.b).Δ =
      -(2 ^ 4 * (4 * (c.a : ZMod c.prime) ^ 3 + 27 * (c.b : ZMod c.prime) ^ 2)) := by
    simp only [WeierstrassCurve.Δ, WeierstrassCurve.b₂, WeierstrassCurve.b₄,
      WeierstrassCurve.b₆, WeierstrassCurve.b₈]
    ring
  rw [hΔ]
  exact neg_ne_zero.2 (mul_ne_zero (pow_ne_zero 4 c.field_two_ne_zero) hdisc)

/-- On a smooth curve the contained points are those of the group. -/
theorem contains_iff (hs : c.Smooth) {p : AffinePoint} :
    c.contains p = true ↔ ∃ A, c.Denotes p A := by
  simp only [contains, Bool.and_eq_true, decide_eq_true_eq, satisfies_iff,
    ← Projective.curve_equation,
    WeierstrassCurve.Affine.equation_iff_nonsingular_of_Δ_ne_zero hs.Δ_ne_zero]
  constructor
  · rintro ⟨⟨hx, hy⟩, h⟩
    exact ⟨.some _ _ h, hx, hy, h, rfl⟩
  · rintro ⟨_, hx, hy, h, _⟩
    exact ⟨⟨hx, hy⟩, h⟩

theorem Smooth.denotes_generator (hs : c.Smooth) : ∃ A, c.Denotes c.generator A :=
  (contains_iff hs).1 hs.generator

/-! ## Computing with triples -/

/-- Over the integers modulo the prime, the triple is a multiple of the coordinates of the point. -/
def Represents (c : WeierstrassCurve) [Fact c.prime.Prime] (p : Projective (Fin c.prime))
    (A : c.Group) :
    Prop :=
  Projective.Tracks (p.map c.toField) A

theorem Denotes.represents_lift {p : AffinePoint} {A : c.Group} (h : c.Denotes p A) :
    c.Represents (c.lift p) A := by
  obtain ⟨-, -, hns, rfl⟩ := h
  rw [Represents, map_lift]
  exact Projective.tracks_coordinates (.some _ _ hns)

theorem represents_infinity : c.Represents c.infinity 0 := by
  rw [Represents, map_infinity]
  exact Projective.tracks_infinity

theorem Represents.add {p q : Projective (Fin c.prime)} {A B : c.Group} (hp : c.Represents p A)
    (hq : c.Represents q B) : c.Represents (c.add p q) (A + B) := by
  rw [Represents, WeierstrassCurve.add, Projective.map_add respects_toField, toField_aResidue,
    toField_b3Residue]
  exact Projective.Tracks.add hp hq

theorem Represents.multiply {p : Projective (Fin c.prime)} {A : c.Group} (h : c.Represents p A)
    (k : Nat) :
    c.Represents (c.multiply k p) (k • A) := by
  rw [Represents, WeierstrassCurve.multiply, Projective.map_addMultiple respects_toField,
    toField_aResidue, toField_b3Residue, ← zero_add (k • A)]
  exact Projective.Tracks.addMultiple represents_infinity h k

/-- The factor by which the other party's point is multiplied first. -/
def clearing (c : WeierstrassCurve) : Nat := if 1 < c.cofactor then c.cofactor else 1

theorem Represents.clearCofactor {p : Projective (Fin c.prime)} {A : c.Group}
    (h : c.Represents p A) :
    c.Represents (c.clearCofactor p) (c.clearing • A) := by
  rw [WeierstrassCurve.clearCofactor, clearing]
  split
  · exact h.multiply _
  · rwa [one_nsmul]

/-- An inverse of the last coordinate gives the coordinates of the point. -/
theorem Represents.denotes {p : Projective (Fin c.prime)} {q : AffinePoint} {A : c.Group}
    (h : c.Represents p A) (hq : c.normalize? p = some q) : c.Denotes q A := by
  obtain ⟨hx, hy, hz, hqx, hqy⟩ := normalize?_spec hq
  obtain ⟨hns, hA⟩ := Projective.Tracks.eq_some h hz
  simp only [Projective.map, ← hqx, ← hqy] at hns hA
  exact ⟨hx, hy, hns, hA⟩

/-! ## Key agreement -/

/-- **A public key is the generator times the private key.** -/
theorem denotes_publicPoint {G : c.Group} (hG : c.Denotes c.generator G) {privateKey : Nat}
    {p : AffinePoint} (h : c.publicPoint privateKey = .ok p) : c.Denotes p (privateKey • G) := by
  rw [publicPoint] at h
  split at h
  · rename_i hn
    cases h
    exact (hG.represents_lift.multiply privateKey).denotes hn
  · cases h

/-- **A shared point is the other party's point times the cofactor and the private key.** -/
theorem denotes_sharedPoint {other : AffinePoint} {Q : c.Group} (hQ : c.Denotes other Q)
    {privateKey : Nat} {p : AffinePoint} (h : c.sharedPoint privateKey other = .ok p) :
    c.Denotes p (privateKey • c.clearing • Q) := by
  rw [sharedPoint] at h
  split at h
  · cases h
  · split at h
    · rename_i hn
      cases h
      exact (hQ.represents_lift.clearCofactor.multiply privateKey).denotes hn
    · cases h

/-- **A mapped generator is the sum of the generator times the nonce and the shared point.** -/
theorem denotes_mapNonce {G : c.Group} (hG : c.Denotes c.generator G) {shared : AffinePoint}
    {H : c.Group} (hH : c.Denotes shared H) {nonce : Nat} {mapped : WeierstrassCurve}
    (h : c.mapNonce nonce shared = .ok mapped) :
    ∃ p, c.Denotes p (nonce • G + H) ∧ mapped = { c with generator := p } := by
  rw [mapNonce] at h
  split at h
  · cases h
  · split at h
    · rename_i p hn
      cases h
      exact ⟨p, ((hG.represents_lift.multiply nonce).add hH.represents_lift).denotes hn, rfl⟩
    · cases h

end WeierstrassCurve
end TravelDocument

import Mathlib.Algebra.Group.PUnit
import Mathlib.Data.Nat.ModEq
import Mathlib.Logic.Relation
import TravelDocument.Proofs.Group.KeyAgreement
import TravelDocument.Proofs.Group.Sized

/-!
# What is computed stays on the curve

The formulas keep to the equation of the curve for all triples that satisfy it (`OnCurve.add`,
`OnCurve.double`), so the multiples do as well, and what has affine coordinates is a point of the
curve (`Keeps.contains`). That takes no group law: the curve may be singular and have points of
order two. A mapped generator is such a point, so the mapped parameters are as good as the ones
before, and `stays_on_curve` holds after any number of mapping steps.
-/

namespace TravelDocument

/-! ## Triples that satisfy the equation -/

namespace Projective

variable {F : Type} [Field F] {a b : F}

/-- The triple satisfies the equation of the curve. The one of zeroes does too, though it is no
point. -/
def OnCurve (a b : F) (p : Projective F) : Prop :=
  p.y ^ 2 * p.z = p.x ^ 3 + a * p.x * p.z ^ 2 + b * p.z ^ 3

theorem OnCurve.scale {p : Projective F} (h : OnCurve a b p) (k : F) :
    OnCurve a b (Projective.scale k p) := by
  simp only [OnCurve, Projective.scale] at h ⊢
  linear_combination k ^ 3 * h

theorem onCurve_infinity : OnCurve a b ⟨0, 1, 0⟩ := by
  simp [OnCurve]

theorem onCurve_affine {x y : F} : OnCurve a b ⟨x, y, 1⟩ ↔ y ^ 2 = x ^ 3 + a * x + b := by
  simp [OnCurve]

/-- A triple on the curve is a multiple of one with last coordinate zero or one. -/
theorem OnCurve.eq_scale {p : Projective F} (h : OnCurve a b p) : ∃ k,
    p = Projective.scale k ⟨0, 1, 0⟩ ∨
      ∃ x y, y ^ 2 = x ^ 3 + a * x + b ∧ p = Projective.scale k ⟨x, y, 1⟩ := by
  obtain ⟨x, y, z⟩ := p
  simp only [OnCurve] at h
  by_cases hz : z = 0
  · subst hz
    have hx : x = 0 := by simpa using h.symm
    subst hx
    exact ⟨y, .inl (by simp [Projective.scale])⟩
  · refine ⟨z, .inr ⟨x * z⁻¹, y * z⁻¹, ?_, ?_⟩⟩
    · field_simp
      linear_combination h
    · simp only [Projective.scale, mk.injEq]
      refine ⟨?_, ?_, ?_⟩ <;> field_simp

/-- The third point of a line is on the curve. The line and one of its points determine `a` and
`b`. -/
theorem third_point {x₁ y₁ x₂ y₂ l : F} (hy : y₁ = y₂ + l * (x₁ - x₂))
    (ha : a = 2 * y₂ * l + l ^ 2 * (x₁ - x₂) - (x₁ ^ 2 + x₁ * x₂ + x₂ ^ 2))
    (hb : b = y₂ ^ 2 - x₂ ^ 3 - a * x₂) :
    OnCurve a b ⟨l ^ 2 - x₁ - x₂, -(l * (l ^ 2 - x₁ - x₂ - x₁) + y₁), 1⟩ := by
  rw [onCurve_affine]
  subst hb ha hy
  ring

variable [DecidableEq F]

/-- The sum of affine points is a multiple of infinity if they are opposite, and otherwise of the
third point on the line through them or along the tangent. -/
theorem onCurve_add_affine {x₁ y₁ x₂ y₂ : F} (h₁ : y₁ ^ 2 = x₁ ^ 3 + a * x₁ + b)
    (h₂ : y₂ ^ 2 = x₂ ^ 3 + a * x₂ + b) :
    OnCurve a b (Projective.add a (b + b + b) ⟨x₁, y₁, 1⟩ ⟨x₂, y₂, 1⟩) := by
  by_cases hne : x₁ = x₂ ∧ y₁ = -y₂
  · obtain ⟨rfl, rfl⟩ := hne
    obtain ⟨k, hk⟩ := add_opposite (a := a) (b + b + b) x₁ y₂
    rw [hk]
    exact onCurve_infinity.scale k
  · obtain ⟨hy, ha⟩ := slope_spec h₁ h₂ hne
    have hb : b = y₂ ^ 2 - x₂ ^ 3 - a * x₂ := by linear_combination -h₂
    obtain ⟨k, hk⟩ := add_line hy ha hb
    rw [hk]
    exact (third_point hy ha hb).scale k

/-- **Addition keeps to the equation**, whatever it is that is added. -/
theorem OnCurve.add {p q : Projective F} (hp : OnCurve a b p) (hq : OnCurve a b q) :
    OnCurve a b (Projective.add a (b + b + b) p q) := by
  obtain ⟨k, rfl | ⟨x₁, y₁, h₁, rfl⟩⟩ := hp.eq_scale
  · obtain ⟨l, rfl | ⟨x₂, y₂, h₂, rfl⟩⟩ := hq.eq_scale
    · rw [add_scale, add_infinity_left]
      exact (onCurve_infinity.scale _).scale _
    · rw [add_scale, add_infinity_left]
      exact ((onCurve_affine.2 h₂).scale _).scale _
  · obtain ⟨l, rfl | ⟨x₂, y₂, h₂, rfl⟩⟩ := hq.eq_scale
    · rw [add_scale, add_infinity_right]
      exact ((onCurve_affine.2 h₁).scale _).scale _
    · rw [add_scale]
      exact (onCurve_add_affine h₁ h₂).scale _

/-- **Doubling keeps to the equation.** -/
theorem OnCurve.double {p : Projective F} (h : OnCurve a b p) :
    OnCurve a b (Projective.double a (b + b + b) p) := by
  obtain ⟨x, y, z⟩ := p
  rw [double_eq_add h]
  exact h.add h

/-- **Double-and-add keeps to the equation**, for scalars of any size. -/
theorem OnCurve.addMultiple {p q : Projective F} (hp : OnCurve a b p)
    (hq : OnCurve a b q) (k : Nat) :
    OnCurve a b (Projective.addMultiple a (b + b + b) k p q) :=
  addMultiple_keeps (G := Unit) (R := fun p _ => OnCurve a b p) (A := ()) (B := ()) OnCurve.add
    OnCurve.double hp hq k

end Projective

/-! ## Points -/

namespace WeierstrassCurve

variable {c : WeierstrassCurve}

/-- A point of the curve with reduced coordinates, whose encoding is read back as the point. -/
structure IsPoint (c : WeierstrassCurve) (p : AffinePoint) : Prop where
  x_lt : p.x < c.prime
  y_lt : p.y < c.prime
  equation : p.y ^ 2 ≡ p.x ^ 3 + c.a * p.x + c.b [MOD c.prime]
  encoded : ∃ b, c.encodePoint p = .ok b ∧ b.length = 1 + 2 * c.fieldSize ∧
    c.decodePoint b = .ok p

theorem contains_iff_equation {p : AffinePoint} : c.contains p = true ↔
    p.x < c.prime ∧ p.y < c.prime ∧
      (p.y : ZMod c.prime) ^ 2 = (p.x : ZMod c.prime) ^ 3 + c.a * p.x + c.b := by
  simp only [contains, Bool.and_eq_true, decide_eq_true_eq, satisfies_iff, and_assoc]

/-- **A point of the curve has an encoding**, which is read back as the point. -/
theorem exists_encodePoint {p : AffinePoint} (h : c.contains p = true) :
    ∃ b, c.encodePoint p = .ok b ∧ b.length = 1 + 2 * c.fieldSize ∧
      c.decodePoint b = .ok p := by
  obtain ⟨hx, hy, -⟩ := contains_iff_equation.1 h
  obtain ⟨x, hfx, hlx, hpx⟩ := fixed?_of_lt_modulus hx
  obtain ⟨y, hfy, hly, hpy⟩ := fixed?_of_lt_modulus hy
  refine ⟨0x04 :: (x ++ y), encodePoint_eq_ok_iff.2 ⟨x, y, rfl, hlx, hly, hpx, hpy⟩, ?_,
    decodePoint_eq_ok_iff.2 ⟨x, y, rfl, hlx, hly, by rw [hpx, hpy], h⟩⟩
  rw [List.length_cons, List.length_append, hlx, hly, fieldSize]
  omega

theorem contains_iff_modEq {p : AffinePoint} : c.contains p = true ↔
    p.x < c.prime ∧ p.y < c.prime ∧ p.y ^ 2 ≡ p.x ^ 3 + c.a * p.x + c.b [MOD c.prime] := by
  rw [contains_iff_equation, ← ZMod.natCast_eq_natCast_iff]
  push_cast
  rfl

/-- The points that pass the check of the curve. -/
theorem isPoint_iff {p : AffinePoint} : c.IsPoint p ↔ c.contains p = true := by
  constructor
  · exact fun h => contains_iff_modEq.2 ⟨h.x_lt, h.y_lt, h.equation⟩
  · intro h
    obtain ⟨hx, hy, he⟩ := contains_iff_modEq.1 h
    exact ⟨hx, hy, he, exists_encodePoint h⟩

/-- The parameters pass the checks that are made of new ones. -/
def Passes (c : WeierstrassCurve) : Prop :=
  make ⟨c.prime, c.precision⟩ c.a c.b c.generator c.cofactor = .ok c

theorem passes_iff : c.Passes ↔
    bitLength c.a ≤ c.precision ∧ bitLength c.b ≤ c.precision ∧
      c.contains c.generator = true := by
  rw [Passes, make, dif_pos c.prime_odd]
  dsimp only
  constructor
  · intro h
    split at h
    · assumption
    · cases h
  · exact fun h => if_pos h

theorem passes_of_make {prime : SizedNat} {a b : Nat} {generator : AffinePoint} {cofactor : Nat}
    (h : make prime a b generator cofactor = .ok c) : c.Passes := by
  obtain ⟨_, rfl, -⟩ := make_eq_ok h
  exact h

/-! ## Operations of the curve -/

section

variable [Fact c.prime.Prime]

/-- Over the integers modulo the prime, the triple satisfies the equation of the curve. -/
def Keeps (c : WeierstrassCurve) [Fact c.prime.Prime] (p : Projective (Fin c.prime)) : Prop :=
  Projective.OnCurve (c.a : ZMod c.prime) c.b (p.map c.toField)

theorem keeps_lift {p : AffinePoint} (h : c.contains p = true) : c.Keeps (c.lift p) := by
  rw [Keeps, map_lift, Projective.onCurve_affine]
  exact (contains_iff_equation.1 h).2.2

theorem Keeps.add {p q : Projective (Fin c.prime)} (hp : c.Keeps p) (hq : c.Keeps q) :
    c.Keeps (c.add p q) := by
  rw [Keeps, WeierstrassCurve.add, Projective.map_add respects_toField, toField_aResidue,
    toField_b3Residue]
  exact Projective.OnCurve.add hp hq

theorem Keeps.multiply {p : Projective (Fin c.prime)} (h : c.Keeps p) (k : Nat) :
    c.Keeps (c.multiply k p) := by
  rw [Keeps, WeierstrassCurve.multiply, Projective.map_addMultiple respects_toField,
    toField_aResidue, toField_b3Residue, map_infinity]
  exact Projective.OnCurve.addMultiple Projective.onCurve_infinity h k

theorem Keeps.clearCofactor {p : Projective (Fin c.prime)} (h : c.Keeps p) :
    c.Keeps (c.clearCofactor p) := by
  rw [WeierstrassCurve.clearCofactor]
  split
  · exact h.multiply _
  · exact h

/-- **What has affine coordinates is a point of the curve.** -/
theorem Keeps.contains {p : Projective (Fin c.prime)} {q : AffinePoint} (h : c.Keeps p)
    (hq : c.normalize? p = some q) : c.contains q = true := by
  obtain ⟨hx, hy, hz, hqx, hqy⟩ := normalize?_spec hq
  refine contains_iff_equation.2 ⟨hx, hy, ?_⟩
  simp only [Keeps, Projective.OnCurve, Projective.map] at h
  rw [hqx, hqy]
  field_simp
  linear_combination h

/-- **A public key is a point of the curve.** -/
theorem contains_publicPoint (hg : c.contains c.generator = true) {privateKey : Nat}
    {p : AffinePoint} (h : c.publicPoint privateKey = .ok p) : c.contains p = true := by
  rw [publicPoint] at h
  split at h
  · rename_i hn
    cases h
    exact ((keeps_lift hg).multiply privateKey).contains hn
  · cases h

/-- **A shared point is a point of the curve**, for another party's point is refused otherwise. -/
theorem contains_sharedPoint {privateKey : Nat} {other p : AffinePoint}
    (h : c.sharedPoint privateKey other = .ok p) : c.contains p = true := by
  rw [sharedPoint] at h
  split at h
  · cases h
  · rename_i ho
    split at h
    · rename_i hn
      cases h
      have ho' : c.contains other = true := by simpa using ho
      exact ((keeps_lift ho').clearCofactor.multiply privateKey).contains hn
    · cases h

/-- **A mapped generator is a point of the curve**, and nothing else changes. -/
theorem contains_mapNonce (hg : c.contains c.generator = true) {nonce : Nat} {shared : AffinePoint}
    {mapped : WeierstrassCurve} (h : c.mapNonce nonce shared = .ok mapped) :
    ∃ p, c.contains p = true ∧ mapped = { c with generator := p } := by
  rw [mapNonce] at h
  split at h
  · cases h
  · rename_i hs
    split at h
    · rename_i p hn
      cases h
      have hs' : c.contains shared = true := by simpa using hs
      exact ⟨p, (((keeps_lift hg).multiply nonce).add (keeps_lift hs')).contains hn, rfl⟩
    · cases h

end

/-! ## Mapping steps -/

/-- One mapping step leads from a curve to another. -/
def MapsTo (c mapped : WeierstrassCurve) : Prop :=
  ∃ nonce shared, c.mapNonce nonce shared = .ok mapped

/-- The curve stays an accepted one over the same prime. -/
theorem MapsTo.passes {mapped : WeierstrassCurve} (h : c.MapsTo mapped) (hprime : c.prime.Prime)
    (hc : c.Passes) : mapped.Passes ∧ ∃ p, mapped = { c with generator := p } := by
  have : Fact c.prime.Prime := ⟨hprime⟩
  obtain ⟨nonce, shared, h⟩ := h
  obtain ⟨ha, hb, hg⟩ := passes_iff.1 hc
  obtain ⟨p, hp, rfl⟩ := contains_mapNonce hg h
  exact ⟨passes_iff.2 ⟨ha, hb, hp⟩, p, rfl⟩

/-- Any number of mapping steps changes nothing but the generator, and the curve is still
accepted. -/
theorem passes_of_mapping {start : WeierstrassCurve} (h : Relation.ReflTransGen MapsTo start c)
    (hprime : start.prime.Prime) (hs : start.Passes) :
    c.Passes ∧ ∃ p, c = { start with generator := p } := by
  induction h with
  | refl => exact ⟨hs, start.generator, rfl⟩
  | tail _ hstep ih =>
    obtain ⟨hc, p, rfl⟩ := ih
    obtain ⟨hm, q, rfl⟩ := hstep.passes hprime hc
    exact ⟨hm, q, rfl⟩

/-- The operations of the curve lead to points of the curve, and to curves that are accepted. -/
structure Closed (c : WeierstrassCurve) : Prop where
  passes : c.Passes
  publicPoint {privateKey : Nat} {p : AffinePoint} :
    c.publicPoint privateKey = .ok p → c.IsPoint p
  sharedPoint {privateKey : Nat} {other p : AffinePoint} :
    c.sharedPoint privateKey other = .ok p → c.IsPoint p
  mapNonce {nonce : Nat} {shared : AffinePoint} {mapped : WeierstrassCurve} :
    c.mapNonce nonce shared = .ok mapped →
    c.IsPoint mapped.generator ∧
      mapped = { c with generator := mapped.generator } ∧ mapped.Passes

theorem Passes.closed (hprime : c.prime.Prime) (hc : c.Passes) : c.Closed where
  passes := hc
  publicPoint h :=
    have : Fact c.prime.Prime := ⟨hprime⟩
    isPoint_iff.2 (contains_publicPoint (passes_iff.1 hc).2.2 h)
  sharedPoint h :=
    have : Fact c.prime.Prime := ⟨hprime⟩
    isPoint_iff.2 (contains_sharedPoint h)
  mapNonce h := by
    obtain ⟨hm, p, rfl⟩ := MapsTo.passes ⟨_, _, h⟩ hprime hc
    exact ⟨isPoint_iff.2 (passes_iff.1 hm).2.2, rfl, hm⟩

/-- **The operations never leave the curve**, whatever curve over a prime is accepted, and after any
number of mapping steps. -/
theorem stays_on_curve {prime : SizedNat} {a b : Nat} {generator : AffinePoint} {cofactor : Nat}
    {start : WeierstrassCurve} (hmake : make prime a b generator cofactor = .ok start)
    (hprime : start.prime.Prime) (hmapped : Relation.ReflTransGen MapsTo start c) :
    c.Closed ∧ ∃ p, c = { start with generator := p } := by
  obtain ⟨hc, p, rfl⟩ := passes_of_mapping hmapped hprime (passes_of_make hmake)
  exact ⟨hc.closed hprime, p, rfl⟩

/-- The curve `y² = (x - 1)² (x + 2)` modulo 23 has a singular point, and a point of order two
that is added to the generator here. -/
theorem stays_on_curve_singular :
    let start : WeierstrassCurve := ⟨23, 64, 20, 2, ⟨2, 2⟩, 1, rfl⟩
    let mapped : WeierstrassCurve := { start with generator := ⟨6, 19⟩ }
    make ⟨23, 64⟩ 20 2 ⟨2, 2⟩ 1 = .ok start ∧ start.prime.Prime ∧
      (4 * start.a ^ 3 + 27 * start.b ^ 2) % start.prime = 0 ∧
      Relation.ReflTransGen MapsTo start mapped ∧ mapped.Closed ∧
      ∃ p, mapped.publicPoint 11 = .ok p ∧ mapped.IsPoint p := by
  intro start mapped
  have hmake : make ⟨23, 64⟩ 20 2 ⟨2, 2⟩ 1 = .ok start := by decide +kernel
  have hprime : start.prime.Prime := by decide
  have hstep : start.mapNonce 1 ⟨21, 0⟩ = .ok mapped := by decide +kernel
  have hmapped : Relation.ReflTransGen MapsTo start mapped := .single ⟨1, ⟨21, 0⟩, hstep⟩
  have hpublic : mapped.publicPoint 11 = .ok ⟨21, 0⟩ := by decide +kernel
  obtain ⟨hclosed, -⟩ := stays_on_curve hmake hprime hmapped
  exact ⟨hmake, hprime, by decide, hmapped, hclosed, _, hpublic, hclosed.publicPoint hpublic⟩

end WeierstrassCurve
end TravelDocument

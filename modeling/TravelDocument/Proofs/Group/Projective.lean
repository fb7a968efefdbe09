import Mathlib.AlgebraicGeometry.EllipticCurve.Affine.Point
import Mathlib.Tactic.LinearCombination
import TravelDocument.Group.Projective

/-!
# The projective formulas and the group law

Over a field `add` and `double` compute the chord-and-tangent law (`Tracks.add`, `Tracks.double`),
and `addMultiple` multiples (`Tracks.addMultiple`). The formulas are complete for curves of odd
order only: on others some pairs of points are added to the triple `(0 : 0 : 0)`, which is no point.
`Tracks` says what holds on every curve: a triple is a multiple of the coordinates of the point, and
the multiple may be zero.
-/

namespace TravelDocument.Projective

variable {F : Type} [Field F]

/-- The curve `y² = x³ + ax + b`. -/
abbrev curve (a b : F) : WeierstrassCurve.Affine F := ⟨0, 0, 0, a, b⟩

theorem curve_equation {a b x y : F} :
    (curve a b).Equation x y ↔ y ^ 2 = x ^ 3 + a * x + b := by
  rw [WeierstrassCurve.Affine.equation_iff]
  simp

variable {a b : F}

/-! ## Multiples of triples -/

/-- A triple with every coordinate multiplied by `k`. -/
def scale (k : F) (p : Projective F) : Projective F := ⟨k * p.x, k * p.y, k * p.z⟩

theorem scale_scale (k l : F) (p : Projective F) : scale k (scale l p) = scale (k * l) p := by
  simp only [scale, mul_assoc]

theorem add_scale (b3 k l : F) (p q : Projective F) :
    add a b3 (scale k p) (scale l q) = scale (k ^ 2 * l ^ 2) (add a b3 p q) := by
  simp only [add, scale, mk.injEq]
  refine ⟨?_, ?_, ?_⟩ <;> ring

theorem double_scale (b3 k : F) (p : Projective F) :
    double a b3 (scale k p) = scale (k ^ 4) (double a b3 p) := by
  simp only [double, scale, mk.injEq]
  refine ⟨?_, ?_, ?_⟩ <;> ring

/-- On the curve doubling is addition. Only the last coordinate needs the equation of the curve. -/
theorem double_eq_add {x y z : F} (h : y ^ 2 * z = x ^ 3 + a * x * z ^ 2 + b * z ^ 3) :
    double a (b + b + b) ⟨x, y, z⟩ = add a (b + b + b) ⟨x, y, z⟩ ⟨x, y, z⟩ := by
  simp only [double, add, mk.injEq]
  refine ⟨by ring, by ring, ?_⟩
  linear_combination (6 * y) * h

/-! ## Double-and-add -/

/-- Whatever addition and doubling keep to, double-and-add keeps to as well. The induction is on the
scalar, from its last bit on. -/
theorem addMultiple_keeps {G : Type} [AddCommMonoid G] {b3 : F} {R : Projective F → G → Prop}
    (hadd : ∀ {p q A B}, R p A → R q B → R (Projective.add a b3 p q) (A + B))
    (hdouble : ∀ {p A}, R p A → R (Projective.double a b3 p) (A + A)) {p q : Projective F} {A B : G}
    (hp : R p A) (hq : R q B) (k : Nat) : R (Projective.addMultiple a b3 k p q) (A + k • B) := by
  induction k using Nat.strongRecOn generalizing p q A B with
  | ind k ih =>
    -- on the scalar, which is halved while the addend doubles
    rw [Projective.addMultiple]
    split
    · rename_i hk
      rwa [hk, zero_nsmul, add_zero]
    · rename_i hk
      have hhalf : (k / 2) • (B + B) = (2 * (k / 2)) • B := by
        rw [← two_nsmul, ← mul_nsmul]
      split
      · rename_i hodd
        have hsum : A + B + (2 * (k / 2)) • B = A + k • B := by
          rw [add_assoc, ← succ_nsmul', show 2 * (k / 2) + 1 = k by omega]
        rw [← hsum, ← hhalf]
        exact ih (k / 2) (by omega) (hadd hp hq) (hdouble hq)
      · rw [show k • B = (2 * (k / 2)) • B by rw [show 2 * (k / 2) = k by omega], ← hhalf]
        exact ih (k / 2) (by omega) hp (hdouble hq)

/-! ## Points of the curve -/

/-- The coordinates of a point, with the last one reduced to one or zero. -/
def coordinates : (curve a b).Point → Projective F
  | .zero => ⟨0, 1, 0⟩
  | .some x y _ => ⟨x, y, 1⟩

theorem double_coordinates (A : (curve a b).Point) :
    double a (b + b + b) (coordinates A) = add a (b + b + b) (coordinates A) (coordinates A) := by
  cases A with
  | zero => exact double_eq_add (by simp)
  | some x y h => exact double_eq_add (by linear_combination curve_equation.1 h.1)

/-- The triple is a multiple of the coordinates of the point. -/
def Tracks (p : Projective F) (A : (curve a b).Point) : Prop :=
  ∃ k, p = scale k (coordinates A)

theorem Tracks.scale {p : Projective F} {A : (curve a b).Point} (h : Tracks p A) (k : F) :
    Tracks (Projective.scale k p) A := by
  obtain ⟨l, rfl⟩ := h
  exact ⟨k * l, scale_scale k l _⟩

theorem tracks_coordinates (A : (curve a b).Point) : Tracks (coordinates A) A :=
  ⟨1, by simp [Projective.scale]⟩

theorem tracks_infinity : Tracks ⟨0, 1, 0⟩ (0 : (curve a b).Point) :=
  tracks_coordinates 0

/-- A triple with an invertible last coordinate tells the point. -/
theorem Tracks.eq_some {p : Projective F} {A : (curve a b).Point} (h : Tracks p A) (hz : p.z ≠ 0) :
    ∃ hns, A = .some (p.x * p.z⁻¹) (p.y * p.z⁻¹) hns := by
  obtain ⟨k, rfl⟩ := h
  cases A with
  | zero => exact absurd (mul_zero k) hz
  | some x y hns =>
    have hk : k ≠ 0 := left_ne_zero_of_mul hz
    have hx : k * x * (k * 1)⁻¹ = x := by
      rw [mul_one, mul_comm k x, mul_inv_cancel_right₀ hk]
    have hy : k * y * (k * 1)⁻¹ = y := by
      rw [mul_one, mul_comm k y, mul_inv_cancel_right₀ hk]
    simp only [Projective.scale, coordinates, hx, hy]
    exact ⟨hns, trivial⟩

/-! ## Addition -/

theorem add_infinity_left (b3 : F) (p : Projective F) : add a b3 ⟨0, 1, 0⟩ p = scale p.y p := by
  simp only [add, scale, mk.injEq]
  refine ⟨?_, ?_, ?_⟩ <;> ring

theorem add_infinity_right (b3 : F) (p : Projective F) :
    add a b3 p ⟨0, 1, 0⟩ = scale p.y p := by
  simp only [add, scale, mk.injEq]
  refine ⟨?_, ?_, ?_⟩ <;> ring

/-- A point and its opposite add up to a multiple of infinity. -/
theorem add_opposite (b3 x y : F) :
    ∃ k, add a b3 ⟨x, -y, 1⟩ ⟨x, y, 1⟩ = scale k ⟨0, 1, 0⟩ := by
  refine ⟨(add a b3 ⟨x, -y, 1⟩ ⟨x, y, 1⟩).y, ?_⟩
  simp only [add, scale, mk.injEq]
  refine ⟨?_, ?_, ?_⟩ <;> ring

/-- The line through two points or along the tangent, with slope `l`: its equation and the curve
determine `a` and `b`, and with these the formula gives the third point by calculation. -/
theorem add_line {x₁ y₁ x₂ y₂ l : F} (hy : y₁ = y₂ + l * (x₁ - x₂))
    (ha : a = 2 * y₂ * l + l ^ 2 * (x₁ - x₂) - (x₁ ^ 2 + x₁ * x₂ + x₂ ^ 2))
    (hb : b = y₂ ^ 2 - x₂ ^ 3 - a * x₂) :
    ∃ k, add a (b + b + b) ⟨x₁, y₁, 1⟩ ⟨x₂, y₂, 1⟩ =
      scale k ⟨l ^ 2 - x₁ - x₂, -(l * (l ^ 2 - x₁ - x₂ - x₁) + y₁), 1⟩ := by
  refine ⟨(add a (b + b + b) ⟨x₁, y₁, 1⟩ ⟨x₂, y₂, 1⟩).z, ?_⟩
  simp only [add, scale, mk.injEq]
  subst hb ha hy
  refine ⟨?_, ?_, ?_⟩ <;> ring

variable [DecidableEq F]

/-- What determines the slope of the line through two points that are not opposite. -/
theorem slope_spec {x₁ y₁ x₂ y₂ : F} (h₁ : y₁ ^ 2 = x₁ ^ 3 + a * x₁ + b)
    (h₂ : y₂ ^ 2 = x₂ ^ 3 + a * x₂ + b) (hne : ¬(x₁ = x₂ ∧ y₁ = -y₂)) :
    y₁ = y₂ + (curve a b).slope x₁ x₂ y₁ y₂ * (x₁ - x₂) ∧
      a = 2 * y₂ * (curve a b).slope x₁ x₂ y₁ y₂ + (curve a b).slope x₁ x₂ y₁ y₂ ^
        2 * (x₁ - x₂) - (x₁ ^ 2 + x₁ * x₂ + x₂ ^ 2) := by
  by_cases hx : x₁ = x₂
  · -- the tangent: equal x and not opposite leaves equal y, not zero
    subst hx
    have hy : y₁ = y₂ := by
      have : (y₁ - y₂) * (y₁ + y₂) = 0 := by linear_combination h₁ - h₂
      rcases mul_eq_zero.1 this with h | h
      · exact sub_eq_zero.1 h
      · exact absurd ⟨rfl, eq_neg_of_add_eq_zero_left h⟩ hne
    subst hy
    have h2y : y₁ + y₁ ≠ 0 := fun h => hne ⟨rfl, eq_neg_of_add_eq_zero_left h⟩
    have hs : (curve a b).slope x₁ x₁ y₁ y₁ * (y₁ + y₁) = 3 * x₁ ^ 2 + a := by
      have hden : y₁ - (curve a b).negY x₁ y₁ = y₁ + y₁ := by simp
      rw [WeierstrassCurve.Affine.slope_of_Y_ne rfl (by simpa using fun h => hne ⟨rfl, h⟩),
        hden, div_mul_cancel₀ _ h2y]
      ring
    exact ⟨by ring, by linear_combination -hs⟩
  · -- the chord
    have hd : x₁ - x₂ ≠ 0 := sub_ne_zero.2 hx
    have hs : (curve a b).slope x₁ x₂ y₁ y₂ * (x₁ - x₂) = y₁ - y₂ := by
      rw [WeierstrassCurve.Affine.slope_of_X_ne hx, div_mul_cancel₀ _ hd]
    refine ⟨by linear_combination -hs, mul_left_cancel₀ hd ?_⟩
    linear_combination h₂ - h₁ - (y₁ + y₂ + (curve a b).slope x₁ x₂ y₁ y₂ *
      (x₁ - x₂)) * hs

theorem add_coordinates (A B : (curve a b).Point) :
    Tracks (add a (b + b + b) (coordinates A) (coordinates B)) (A + B) := by
  cases A with
  | zero =>
    rw [show (WeierstrassCurve.Affine.Point.zero : (curve a b).Point) = 0 from rfl, zero_add]
    exact ⟨_, add_infinity_left _ _⟩
  | some x₁ y₁ h₁ =>
    cases B with
    | zero =>
      rw [show (WeierstrassCurve.Affine.Point.zero : (curve a b).Point) = 0 from rfl, add_zero]
      exact ⟨_, add_infinity_right _ _⟩
    | some x₂ y₂ h₂ =>
      have e₁ := curve_equation.1 h₁.1
      have e₂ := curve_equation.1 h₂.1
      by_cases hne : x₁ = x₂ ∧ y₁ = -y₂
      · -- opposite points: there is no line, the sum is infinity
        obtain ⟨rfl, rfl⟩ := hne
        rw [WeierstrassCurve.Affine.Point.add_of_Y_eq rfl (by simp)]
        exact add_opposite _ _ _
      · -- one line through both, tangent or chord: the formulas are the same for either
        obtain ⟨hy, ha⟩ := slope_spec e₁ e₂ hne
        have hb : b = y₂ ^ 2 - x₂ ^ 3 - a * x₂ := by linear_combination -e₂
        obtain ⟨k, hk⟩ := add_line hy ha hb
        rw [WeierstrassCurve.Affine.Point.add_some (by simpa using hne)]
        refine ⟨k, hk.trans ?_⟩
        simp [coordinates, WeierstrassCurve.Affine.addX, WeierstrassCurve.Affine.addY,
          WeierstrassCurve.Affine.negAddY]

/-- **Addition follows the group law.** -/
theorem Tracks.add {p q : Projective F} {A B : (curve a b).Point} (hp : Tracks p A)
    (hq : Tracks q B) :
    Tracks (Projective.add a (b + b + b) p q) (A + B) := by
  obtain ⟨k, rfl⟩ := hp
  obtain ⟨l, rfl⟩ := hq
  rw [add_scale]
  exact (add_coordinates A B).scale _

/-- **Doubling follows the group law.** -/
theorem Tracks.double {p : Projective F} {A : (curve a b).Point} (hp : Tracks p A) :
    Tracks (Projective.double a (b + b + b) p) (A + A) := by
  obtain ⟨k, rfl⟩ := hp
  rw [double_scale, double_coordinates]
  exact (add_coordinates A A).scale _

/-- **Double-and-add computes multiples**, for scalars of any size. -/
theorem Tracks.addMultiple {p q : Projective F} {A B : (curve a b).Point} (hp : Tracks p A)
    (hq : Tracks q B) (k : Nat) :
    Tracks (Projective.addMultiple a (b + b + b) k p q) (A + k • B) :=
  addMultiple_keeps Tracks.add Tracks.double hp hq k

end TravelDocument.Projective

import Mathlib.GroupTheory.OrderOfElement
import TravelDocument.Proofs.Group.Projective

/-!
# Where the formulas are complete

The sum of two points comes out as the triple `(0 : 0 : 0)` only if their difference has order two.
So on a curve without such points addition, doubling and double-and-add never lose a point: what
they compute from triples that stand for points stands for the right one (`StandsFor.add`,
`StandsFor.double`, `StandsFor.addMultiple`).
-/

namespace TravelDocument.Projective

variable {F : Type} [Field F] {a b : F}

/-- The triple is one of the point: its coordinates times anything but zero. -/
def StandsFor (p : Projective F) (A : (curve a b).Point) : Prop :=
  ∃ k, k ≠ 0 ∧ p = scale k (coordinates A)

theorem StandsFor.tracks {p : Projective F} {A : (curve a b).Point} (h : StandsFor p A) :
    Tracks p A :=
  ⟨h.choose, h.choose_spec.2⟩

theorem Tracks.standsFor {p : Projective F} {A : (curve a b).Point} (h : Tracks p A)
    (hp : p ≠ ⟨0, 0, 0⟩) : StandsFor p A := by
  obtain ⟨k, rfl⟩ := h
  refine ⟨k, ?_, rfl⟩
  rintro rfl
  exact hp (by simp [Projective.scale])

theorem StandsFor.scale {p : Projective F} {A : (curve a b).Point} (h : StandsFor p A) {k : F}
    (hk : k ≠ 0) : StandsFor (Projective.scale k p) A := by
  obtain ⟨l, hl, rfl⟩ := h
  exact ⟨k * l, mul_ne_zero hk hl, scale_scale k l _⟩

/-- The last coordinate is zero for infinity only. -/
theorem StandsFor.z_eq_zero_iff {p : Projective F} {A : (curve a b).Point} (h : StandsFor p A) :
    p.z = 0 ↔ A = 0 := by
  obtain ⟨k, hk, rfl⟩ := h
  cases A with
  | zero => exact ⟨fun _ => rfl, fun _ => mul_zero k⟩
  | some x y hns =>
    refine ⟨fun hz => absurd hz (by simpa [Projective.scale, coordinates] using hk),
      fun h => ?_⟩
    exact absurd h (WeierstrassCurve.Affine.Point.some_ne_zero hns)

/-- **The triples of the points** are those that satisfy the equation of the curve and are not all
zero. -/
theorem exists_standsFor_iff (hΔ : (curve a b).Δ ≠ 0) {p : Projective F} :
    (∃ A : (curve a b).Point, StandsFor p A) ↔
      p ≠ ⟨0, 0, 0⟩ ∧ p.y ^ 2 * p.z = p.x ^ 3 + a * p.x * p.z ^ 2 + b * p.z ^ 3 := by
  constructor
  · rintro ⟨A, k, hk, rfl⟩
    cases A with
    | zero =>
      exact ⟨fun h => hk (by simpa [scale, coordinates] using h), by simp [scale, coordinates]⟩
    | some x y hns =>
      refine ⟨fun h => hk (by simpa [scale, coordinates] using congrArg Projective.z h), ?_⟩
      simp only [scale, coordinates]
      linear_combination k ^ 3 * curve_equation.1 hns.1
  · rintro ⟨hp, he⟩
    obtain ⟨x, y, z⟩ := p
    -- with last coordinate zero the equation leaves only the point at infinity
    by_cases hz : z = 0
    · subst hz
      have hx : x = 0 := by simpa using he.symm
      subst hx
      refine ⟨.zero, y, fun hy => hp (by rw [hy]), by simp [scale, coordinates]⟩
    · have hns : (curve a b).Nonsingular (x * z⁻¹) (y * z⁻¹) := by
        rw [← WeierstrassCurve.Affine.equation_iff_nonsingular_of_Δ_ne_zero hΔ, curve_equation]
        field_simp
        linear_combination he
      refine ⟨.some _ _ hns, z, hz, ?_⟩
      simp only [scale, coordinates, mk.injEq]
      refine ⟨?_, ?_, ?_⟩ <;> field_simp

/-! ## Sums by the difference of the points

Up to a power of something that is not zero, one coordinate of the sum is the second coordinate of
the difference, which lies on the line with slope `l` through the first point and the opposite of
the second. -/

theorem add_distinct_z {x₁ y₁ x₂ y₂ l : F} (hy : y₁ = -y₂ + l * (x₁ - x₂))
    (ha : a = 2 * -y₂ * l + l ^ 2 * (x₁ - x₂) - (x₁ ^ 2 + x₁ * x₂ + x₂ ^ 2))
    (hb : b = y₂ ^ 2 - x₂ ^ 3 - a * x₂) :
    (add a (b + b + b) ⟨x₁, y₁, 1⟩ ⟨x₂, y₂, 1⟩).z =
      (x₂ - x₁) ^ 3 * -(l * (l ^ 2 - x₁ - x₂ - x₁) + y₁) := by
  simp only [add]
  subst hb ha hy
  ring

/-- The difference of a point and its opposite is twice the point. -/
theorem add_opposite_y {x y l : F} (ha : a = 2 * y * l - 3 * x ^ 2)
    (hb : b = y ^ 2 - x ^ 3 - a * x) :
    (add a (b + b + b) ⟨x, -y, 1⟩ ⟨x, y, 1⟩).y = (2 * y) ^ 3 *
      -(l * (l ^ 2 - x - x - x) + y) := by
  simp only [add]
  subst hb ha
  ring

/-- The difference of a point and itself is infinity, and the tangent takes its place. -/
theorem add_self_z {x y : F} (hb : b = y ^ 2 - x ^ 3 - a * x) :
    (add a (b + b + b) ⟨x, y, 1⟩ ⟨x, y, 1⟩).z = (2 * y) ^ 3 := by
  simp only [add]
  subst hb
  ring

/-! ## Curves without points of order two -/

variable [DecidableEq F]

theorem addOrderOf_eq_two_iff {A : (curve a b).Point} (h2 : (2 : F) ≠ 0) :
    addOrderOf A = 2 ↔ ∃ x h, A = .some x 0 h := by
  rw [addOrderOf_eq_prime_iff, two_nsmul]
  constructor
  · rintro ⟨hsum, hne⟩
    cases A with
    | zero => exact absurd rfl hne
    | some x y h =>
      -- a point with y not zero has a tangent, so doubling it gives no infinity
      have hy : y = 0 := by
        by_contra hy
        have hy' : y ≠ (curve a b).negY x y := by
          intro heq
          rw [WeierstrassCurve.Affine.negY] at heq
          exact mul_ne_zero h2 hy (by linear_combination heq)
        rw [WeierstrassCurve.Affine.Point.add_self_of_Y_ne hy'] at hsum
        exact WeierstrassCurve.Affine.Point.some_ne_zero _ hsum
      subst hy
      exact ⟨x, h, rfl⟩
  · rintro ⟨x, h, rfl⟩
    rw [WeierstrassCurve.Affine.Point.add_of_Y_eq rfl (by simp)]
    exact ⟨rfl, WeierstrassCurve.Affine.Point.some_ne_zero h⟩

section

variable (h2 : (2 : F) ≠ 0) (hodd : ∀ A : (curve a b).Point, addOrderOf A ≠ 2)
include h2 hodd

theorem y_ne_zero {x y : F} (h : (curve a b).Nonsingular x y) : y ≠ 0 := by
  rintro rfl
  exact hodd _ ((addOrderOf_eq_two_iff h2).2 ⟨x, h, rfl⟩)

/-- The second coordinate of the sum of two points that are not opposite is not zero either. -/
theorem sum_y_ne_zero {x₁ y₁ x₂ y₂ : F} (h₁ : (curve a b).Nonsingular x₁ y₁)
    (h₂ : (curve a b).Nonsingular x₂ y₂) (hne : ¬(x₁ = x₂ ∧ y₁ = -y₂)) {l : F}
    (hl : l = (curve a b).slope x₁ x₂ y₁ y₂) :
    -(l * (l ^ 2 - x₁ - x₂ - x₁) + y₁) ≠ 0 := by
  have hy := y_ne_zero h2 hodd
    (WeierstrassCurve.Affine.nonsingular_add h₁ h₂ (by simpa using hne))
  subst hl
  simpa [WeierstrassCurve.Affine.addX, WeierstrassCurve.Affine.addY,
    WeierstrassCurve.Affine.negAddY] using hy

theorem add_distinct_z_ne_zero {x₁ y₁ x₂ y₂ : F} (h₁ : (curve a b).Nonsingular x₁ y₁)
    (h₂ : (curve a b).Nonsingular x₂ y₂) (hx : x₁ ≠ x₂) :
    (add a (b + b + b) ⟨x₁, y₁, 1⟩ ⟨x₂, y₂, 1⟩).z ≠ 0 := by
  have hn₂ : (curve a b).Nonsingular x₂ (-y₂) := by
    simpa using (WeierstrassCurve.Affine.nonsingular_neg x₂ y₂).2 h₂
  have hne : ¬(x₁ = x₂ ∧ y₁ = - -y₂) := fun h => hx h.1
  obtain ⟨hline, ha⟩ := slope_spec (curve_equation.1 h₁.1) (curve_equation.1 hn₂.1) hne
  rw [add_distinct_z hline ha (by linear_combination -curve_equation.1 h₂.1)]
  exact mul_ne_zero (pow_ne_zero 3 (sub_ne_zero.2 hx.symm))
    (sum_y_ne_zero h2 hodd h₁ hn₂ hne rfl)

theorem add_opposite_y_ne_zero {x y : F} (h : (curve a b).Nonsingular x y) :
    (add a (b + b + b) ⟨x, -y, 1⟩ ⟨x, y, 1⟩).y ≠ 0 := by
  have hy : 2 * y ≠ 0 := mul_ne_zero h2 (y_ne_zero h2 hodd h)
  have hne : ¬(x = x ∧ y = -y) := by
    rintro ⟨-, heq⟩
    exact hy (by linear_combination heq)
  have he := curve_equation.1 h.1
  obtain ⟨-, ha⟩ := slope_spec he he hne
  rw [add_opposite_y (l := (curve a b).slope x x y y) (by linear_combination ha)
    (by linear_combination -he)]
  exact mul_ne_zero (pow_ne_zero 3 hy) (sum_y_ne_zero h2 hodd h h hne rfl)

theorem add_self_z_ne_zero {x y : F} (h : (curve a b).Nonsingular x y) :
    (add a (b + b + b) ⟨x, y, 1⟩ ⟨x, y, 1⟩).z ≠ 0 := by
  rw [add_self_z (by linear_combination -curve_equation.1 h.1)]
  exact pow_ne_zero 3 (mul_ne_zero h2 (y_ne_zero h2 hodd h))

theorem coordinates_y_ne_zero (A : (curve a b).Point) : (coordinates A).y ≠ 0 := by
  cases A with
  | zero => exact one_ne_zero
  | some x y h => exact y_ne_zero h2 hodd h

/-- **No sum is lost.** Two points are equal, opposite or have different first coordinates, unless
one of them is infinity. -/
theorem add_coordinates_ne_zero (A B : (curve a b).Point) :
    add a (b + b + b) (coordinates A) (coordinates B) ≠ ⟨0, 0, 0⟩ := by
  cases A with
  | zero =>
    rw [show coordinates (WeierstrassCurve.Affine.Point.zero : (curve a b).Point) =
      ⟨0, 1, 0⟩ from rfl, add_infinity_left]
    intro h
    have hy := congrArg Projective.y h
    exact mul_self_ne_zero.2 (coordinates_y_ne_zero h2 hodd B) hy
  | some x₁ y₁ h₁ =>
    cases B with
    | zero =>
      rw [show coordinates (WeierstrassCurve.Affine.Point.zero : (curve a b).Point) =
        ⟨0, 1, 0⟩ from rfl, add_infinity_right]
      intro h
      have hy := congrArg Projective.y h
      exact mul_self_ne_zero.2 (y_ne_zero h2 hodd h₁) hy
    | some x₂ y₂ h₂ =>
      by_cases hx : x₁ = x₂
      · subst hx
        -- points with the same first coordinate are equal or opposite
        have hsquares : (y₁ - y₂) * (y₁ + y₂) = 0 := by
          linear_combination curve_equation.1 h₁.1 - curve_equation.1 h₂.1
        rcases mul_eq_zero.1 hsquares with hy | hy
        · obtain rfl := sub_eq_zero.1 hy
          exact fun h => add_self_z_ne_zero h2 hodd h₁ (congrArg Projective.z h)
        · obtain rfl := eq_neg_of_add_eq_zero_left hy
          exact fun h => add_opposite_y_ne_zero h2 hodd h₂ (congrArg Projective.y h)
      · exact fun h => add_distinct_z_ne_zero h2 hodd h₁ h₂ hx (congrArg Projective.z h)

/-- **Addition is complete.** -/
theorem StandsFor.add {p q : Projective F} {A B : (curve a b).Point} (hp : StandsFor p A)
    (hq : StandsFor q B) : StandsFor (Projective.add a (b + b + b) p q) (A + B) := by
  obtain ⟨k, hk, rfl⟩ := hp
  obtain ⟨l, hl, rfl⟩ := hq
  rw [add_scale]
  have hsum := (add_coordinates A B).standsFor (add_coordinates_ne_zero h2 hodd A B)
  exact hsum.scale (mul_ne_zero (pow_ne_zero 2 hk) (pow_ne_zero 2 hl))

/-- **Doubling is complete.** -/
theorem StandsFor.double {p : Projective F} {A : (curve a b).Point} (hp : StandsFor p A) :
    StandsFor (Projective.double a (b + b + b) p) (A + A) := by
  obtain ⟨k, hk, rfl⟩ := hp
  rw [double_scale, double_coordinates]
  have hsum := (add_coordinates A A).standsFor (add_coordinates_ne_zero h2 hodd A A)
  exact hsum.scale (pow_ne_zero 4 hk)

/-- **Double-and-add is complete**, for scalars of any size. -/
theorem StandsFor.addMultiple {p q : Projective F} {A B : (curve a b).Point} (hp : StandsFor p A)
    (hq : StandsFor q B) (k : Nat) :
    StandsFor (Projective.addMultiple a (b + b + b) k p q) (A + k • B) :=
  addMultiple_keeps (StandsFor.add h2 hodd) (StandsFor.double h2 hodd) hp hq k

end

end TravelDocument.Projective

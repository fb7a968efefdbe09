import Mathlib.FieldTheory.Finite.Basic
import Mathlib.Tactic.NormNum.Prime
import TravelDocument.Handshake.Pace.Parameters
import TravelDocument.Proofs.Group.GroupLaw

/-!
# The standardized curves have no points of order two

A point of order two is a root of `X³ + aX + b`. In the field of a prime `p` the roots are also
roots of `X ^ p - X`, so there are none if the cubic and this polynomial have no common divisor.
That is checked by calculation: `X ^ p` by squaring modulo the cubic, and the divisor by a norm
(`Checked.no_root`). So the arithmetic of all standardized curves is the group law
(`arithmetic_complete`).
-/

namespace TravelDocument.WeierstrassCurve

/-! ## Remainders modulo the cubic -/

/-- The polynomial `c₀ + c₁X + c₂X²`. -/
structure Remainder where
  c₀ : Nat
  c₁ : Nat
  c₂ : Nat

namespace Remainder

variable {c : WeierstrassCurve}

/-- The product modulo `X³ + aX + b` and the prime. -/
def mul (c : WeierstrassCurve) (u v : Remainder) : Remainder :=
  let minusA := c.prime - c.a % c.prime
  let minusB := c.prime - c.b % c.prime
  let d₃ := u.c₁ * v.c₂ + u.c₂ * v.c₁
  let d₄ := u.c₂ * v.c₂
  ⟨(u.c₀ * v.c₀ + minusB * d₃) % c.prime,
    (u.c₀ * v.c₁ + u.c₁ * v.c₀ + minusA * d₃ + minusB * d₄) % c.prime,
    (u.c₀ * v.c₂ + u.c₁ * v.c₁ + u.c₂ * v.c₀ + minusA * d₄) % c.prime⟩

/-- `X ^ n` for an exponent of the given number of bits, by squaring. -/
def power (c : WeierstrassCurve) : Nat → Nat → Remainder
  | 0, _ => ⟨1, 0, 0⟩
  | bits + 1, n =>
    let half := power c bits (n / 2)
    let square := mul c half half
    if n % 2 = 1 then mul c square ⟨0, 1, 0⟩ else square

/-- The determinant of the multiplication by `u`. -/
def norm (c : WeierstrassCurve) (u : Remainder) : Int :=
  let d : Int := u.c₀ - c.a * u.c₂
  let e : Int := c.a * u.c₁ + c.b * u.c₂
  u.c₀ * (d * d + u.c₁ * e) + c.b * u.c₂ * (u.c₁ * d + u.c₂ * e) -
    c.b * u.c₁ * (u.c₁ * u.c₁ - u.c₂ * d)

/-- The value at `r`. -/
def eval (u : Remainder) (r : ZMod c.prime) : ZMod c.prime :=
  u.c₀ + u.c₁ * r + u.c₂ * r ^ 2

section

variable {r : ZMod c.prime} (hr : r ^ 3 + c.a * r + c.b = 0)
include hr

theorem eval_mul (u v : Remainder) : (mul c u v).eval r = u.eval r * v.eval r := by
  have hneg : ∀ n : Nat, ((c.prime - n % c.prime : Nat) : ZMod c.prime) = -n := by
    intro n
    rw [Nat.cast_sub (Nat.mod_lt n c.prime_pos).le, ZMod.natCast_self, ZMod.natCast_mod, zero_sub]
  simp only [mul, eval, ZMod.natCast_mod, Nat.cast_add, Nat.cast_mul, hneg]
  linear_combination
    -((u.c₁ * v.c₂ + u.c₂ * v.c₁ : ZMod c.prime) + u.c₂ * v.c₂ * r) * hr

theorem eval_power {bits n : Nat} (h : n < 2 ^ bits) : (power c bits n).eval r = r ^ n := by
  induction bits generalizing n with
  | zero =>
    obtain rfl : n = 0 := by simpa using h
    simp [power, eval]
  | succ bits ih =>
    have hhalf : (power c bits (n / 2)).eval r = r ^ (n / 2) := by
      refine ih ?_
      rw [pow_succ] at h
      omega
    have hX : (⟨0, 1, 0⟩ : Remainder).eval r = r := by simp [eval]
    -- square the half power, and once more the base when the exponent is odd
    rw [power]
    split
    · rename_i hodd
      rw [eval_mul hr, eval_mul hr, hhalf, hX, ← pow_add, ← pow_succ]
      congr 1
      omega
    · rw [eval_mul hr, hhalf, ← pow_add]
      congr 1
      omega

/-- The other factor of the norm is the first row of the adjugate. -/
theorem eval_dvd_norm (u : Remainder) : u.eval r ∣ (norm c u : ZMod c.prime) := by
  let d : ZMod c.prime := u.c₀ - c.a * u.c₂
  let e : ZMod c.prime := c.a * u.c₁ + c.b * u.c₂
  refine ⟨d ^ 2 + u.c₁ * e - (u.c₁ * d + u.c₂ * e) * r +
    (u.c₁ ^ 2 - u.c₂ * d) * r ^ 2, ?_⟩
  simp only [norm, eval, d, e]
  push_cast
  linear_combination -((u.c₁ * (u.c₁ ^ 2 - u.c₂ * d) - u.c₂ * (u.c₁ * d + u.c₂ * e)) +
    u.c₂ * (u.c₁ ^ 2 - u.c₂ * d) * r) * hr

end

/-- `X ^ p - X`. -/
def frobenius (c : WeierstrassCurve) : Remainder :=
  let u := power c c.precision c.prime
  ⟨u.c₀, u.c₁ + (c.prime - 1), u.c₂⟩

end Remainder

/-! ## Curves that are checked -/

/-- What can be calculated to tell that a curve over a prime field is smooth and has no point of
order two. -/
structure Checked (c : WeierstrassCurve) : Prop where
  prime_lt : c.prime < 2 ^ c.precision
  discriminant : (4 * c.a ^ 3 + 27 * c.b ^ 2) % c.prime ≠ 0
  generator : c.contains c.generator = true
  norm : ¬ (c.prime : Int) ∣ Remainder.norm c (.frobenius c)

instance (c : WeierstrassCurve) : Decidable c.Checked :=
  decidable_of_iff (c.prime < 2 ^ c.precision ∧ (4 * c.a ^ 3 + 27 * c.b ^ 2) % c.prime ≠ 0 ∧
      c.contains c.generator = true ∧ ¬ (c.prime : Int) ∣ Remainder.norm c (.frobenius c))
    ⟨fun ⟨hp, hd, hg, hn⟩ => ⟨hp, hd, hg, hn⟩, fun ⟨hp, hd, hg, hn⟩ =>
      ⟨hp, hd, hg, hn⟩⟩

/-- All standardized curves pass. -/
theorem checked_of_standardGroup {number : Nat} {c : WeierstrassCurve}
    (h : PaceParameters.standardGroup number = .ok (.ellipticCurve c)) : c.Checked := by
  unfold PaceParameters.standardGroup at h
  split at h
  all_goals cases h
  all_goals decide +kernel

variable {c : WeierstrassCurve} [hp : Fact c.prime.Prime]

theorem Checked.smooth (h : c.Checked) : c.Smooth :=
  ⟨hp.out, h.discriminant, h.generator⟩

theorem Checked.no_root (h : c.Checked) (r : ZMod c.prime) : r ^ 3 + c.a * r + c.b ≠ 0 := by
  intro hr
  have hroot : (Remainder.frobenius c).eval r = 0 := by
    have hpower := Remainder.eval_power hr h.prime_lt
    rw [ZMod.pow_card] at hpower
    simp only [Remainder.eval, Remainder.frobenius, Nat.cast_add, Nat.cast_sub hp.out.one_le,
      ZMod.natCast_self, Nat.cast_one] at hpower ⊢
    linear_combination hpower
  have hnorm := Remainder.eval_dvd_norm hr (.frobenius c)
  rw [hroot, zero_dvd_iff, ZMod.intCast_zmod_eq_zero_iff_dvd] at hnorm
  exact h.norm hnorm

/-- **A curve that is checked has no point of order two.** -/
theorem Checked.addOrderOf_ne_two (h : c.Checked) (A : c.Group) : addOrderOf A ≠ 2 := by
  rw [ne_eq, Projective.addOrderOf_eq_two_iff c.field_two_ne_zero]
  rintro ⟨x, hns, -⟩
  have he := Projective.curve_equation.1 hns.1
  exact h.no_root x (by linear_combination -he)

/-- **The arithmetic of curves without points of order two is the group law**, for every pair of
points and every scalar. None of the standardized curves has such a point. -/
theorem arithmetic_complete :
    (∀ (c : WeierstrassCurve) [Fact c.prime.Prime], c.Smooth →
      (∀ A : c.Group, addOrderOf A ≠ 2) → c.FollowsGroupLaw) ∧
    ∀ (number : Nat) (c : WeierstrassCurve) [Fact c.prime.Prime],
      PaceParameters.standardGroup number = .ok (.ellipticCurve c) →
      c.Smooth ∧ ∀ A : c.Group, addOrderOf A ≠ 2 := by
  constructor
  · intro c _ hs hodd
    exact hs.followsGroupLaw hodd
  · intro number c _ h
    have hc := checked_of_standardGroup h
    exact ⟨hc.smooth, hc.addOrderOf_ne_two⟩

/-- The largest factor of `2 ^ 128 - 1`. -/
theorem prime_67280421310721 : Nat.Prime 67280421310721 := by
  have hprime : ∀ q ∈ [2, 5, 47, 373, 2998279], Nat.Prime q := by norm_num
  exact Modular.prime_of_pow 3 8 (by decide) (by decide +kernel) hprime (by decide +kernel)
    (by decide +kernel)

/-- The prime of this curve is `2 ^ 96 * (2 ^ 128 - 1) + 1`. -/
theorem prime_nistP224 : nistP224.prime.Prime := by
  have hsmall : ∀ q ∈ [2, 3, 5, 17, 257, 641, 65537, 274177, 6700417], Nat.Prime q := by
    norm_num
  have hprime := List.forall_mem_cons.2 ⟨prime_67280421310721, hsmall⟩
  exact Modular.prime_of_pow 22 96 (by decide +kernel) (by decide +kernel) hprime
    (by decide +kernel) (by decide +kernel)

theorem arithmetic_complete_nistP224 : ∃ _ : Fact nistP224.prime.Prime,
    PaceParameters.standardGroup 10 = .ok (.ellipticCurve nistP224) ∧ nistP224.Smooth ∧
      (∀ A : nistP224.Group, addOrderOf A ≠ 2) ∧ nistP224.FollowsGroupLaw := by
  have hp : Fact nistP224.prime.Prime := ⟨prime_nistP224⟩
  have h : PaceParameters.standardGroup 10 = .ok (.ellipticCurve nistP224) := rfl
  obtain ⟨hs, hodd⟩ := arithmetic_complete.2 10 nistP224 h
  exact ⟨hp, h, hs, hodd, arithmetic_complete.1 nistP224 hs hodd⟩

end TravelDocument.WeierstrassCurve

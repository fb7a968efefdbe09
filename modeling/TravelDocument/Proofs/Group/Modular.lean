import Mathlib.Data.List.Prime
import Mathlib.NumberTheory.LucasPrimality
import Mathlib.Tactic.Ring
import TravelDocument.Group.Modular

/-!
# Powers and inverses are what they are called

Squaring computes the power (`pow_eq`), and the extended Euclidean algorithm the inverse
(`mul_inverse?`), which is missing only for what has a common divisor with the modulus
(`inverse?_eq_none_iff`). With powers computed this way large numbers are shown to be prime
(`prime_of_pow`).
-/

namespace TravelDocument.Modular

theorem pow_eq (m base exponent : Nat) : pow m base exponent = base ^ exponent % m := by
  induction exponent using Nat.strongRecOn generalizing base with
  | ind e ih =>
    by_cases he : e = 0
    · subst he
      simp [pow]
    · have hhalf : (base * base % m) ^ (e / 2) % m = base ^ (2 * (e / 2)) % m := by
        rw [← Nat.pow_mod, ← Nat.pow_two, ← Nat.pow_mul]
      rw [pow, if_neg he, ih (e / 2) (by omega), hhalf]
      split
      · rename_i hodd
        rw [Nat.mul_mod, Nat.mod_mod, ← Nat.mul_mod, ← Nat.pow_succ']
        congr 2
        omega
      · show base ^ (2 * (e / 2)) % m = _
        congr 2
        omega

/-- **Lucas's test**: a number is prime if it has a primitive root. The factors are those of the
number less one, which divides some power of their product. -/
theorem prime_of_pow {p : Nat} {factors : List Nat} (root k : Nat) (hp : 1 < p)
    (hdvd : p - 1 ∣ factors.prod ^ k) (hprime : ∀ q ∈ factors, q.Prime)
    (hone : pow p root (p - 1) = 1) (hne : ∀ q ∈ factors, pow p root ((p - 1) / q) ≠ 1) :
    p.Prime := by
  have hpow : ∀ n, (root : ZMod p) ^ n = 1 ↔ pow p root n = 1 := by
    intro n
    rw [pow_eq, ← Nat.cast_pow, ← Nat.cast_one, ZMod.natCast_eq_natCast_iff',
      Nat.mod_eq_of_lt hp]
  refine lucas_primality p root ((hpow _).2 hone) fun q hq hqp => ?_
  have hproduct := hq.dvd_of_dvd_pow (hqp.trans hdvd)
  obtain ⟨factor, hf, hqf⟩ := (Prime.dvd_prod_iff hq.prime).1 hproduct
  obtain rfl := (Nat.prime_dvd_prime_iff_eq hq (hprime factor hf)).1 hqf
  exact fun h => hne q hf ((hpow _).1 h)

/-- Both remainders are multiples of `z` modulo `m`, by their coefficients, so the last one is too.
The induction is on the second remainder. -/
theorem bezout_dvd {m z : Int} {r₀ r₁ : Nat} {s₀ s₁ : Int} (h₀ : m ∣ s₀ * z - r₀)
    (h₁ : m ∣ s₁ * z - r₁) :
    m ∣ (bezout r₀ r₁ s₀ s₁).2 * z - ((bezout r₀ r₁ s₀ s₁).1 : Nat) := by
  induction r₁ using Nat.strongRecOn generalizing r₀ s₀ s₁ with
  | ind r₁ ih =>
    rw [bezout]
    split
    · exact h₀
    · rename_i hr
      refine ih (r₀ % r₁) (Nat.mod_lt _ (by omega)) h₁ ?_
      have hmod : ((r₀ % r₁ : Nat) : Int) = r₀ - r₁ * (r₀ / r₁ : Nat) := by
        rw [Int.natCast_emod, Int.emod_def, Int.natCast_ediv]
      have hnext : (s₀ - (r₀ / r₁ : Nat) * s₁) * z - (r₀ % r₁ : Nat) =
          s₀ * z - r₀ - (r₀ / r₁ : Nat) * (s₁ * z - r₁) := by
        rw [hmod]
        ring
      rw [hnext]
      exact Int.dvd_sub h₀ (Dvd.dvd.mul_left h₁ _)

theorem bezout_gcd (r₀ r₁ : Nat) (s₀ s₁ : Int) :
    (bezout r₀ r₁ s₀ s₁).1 = Nat.gcd r₀ r₁ := by
  induction r₁ using Nat.strongRecOn generalizing r₀ s₀ s₁ with
  | ind r₁ ih =>
    rw [bezout]
    split
    · rename_i hr
      rw [hr, Nat.gcd_zero_right]
    · rename_i hr
      rw [ih (r₀ % r₁) (Nat.mod_lt _ (by omega)), Nat.gcd_comm, ← Nat.gcd_rec, Nat.gcd_comm]

theorem inverse?_eq_none_iff {m z : Nat} : inverse? m z = none ↔ ¬ Nat.Coprime z m := by
  rw [inverse?, Nat.Coprime, ← bezout_gcd z m 1 0]
  dsimp only
  split <;> simp_all

/-- **What is called the inverse is one.** -/
theorem mul_inverse? {m z i : Nat} (hm : 0 < m) (h : inverse? m z = some i) :
    z * i % m = 1 % m := by
  have hm' : (m : Int) ≠ 0 := by omega
  have hb : (m : Int) ∣ (bezout z m 1 0).2 * z - ((bezout z m 1 0).1 : Nat) :=
    bezout_dvd (by simp) (by simp)
  rw [inverse?] at h
  dsimp only at h
  split at h
  · rename_i hg
    cases h
    rw [hg] at hb
    have hi : (((bezout z m 1 0).2 % (m : Int)).toNat : Int) = (bezout z m 1 0).2 % m :=
      Int.toNat_of_nonneg (Int.emod_nonneg _ hm')
    apply Int.natCast_inj.1
    rw [Int.natCast_emod, Int.natCast_mul, hi, Int.mul_emod, Int.emod_emod, ← Int.mul_emod,
      Int.natCast_emod, Int.mul_comm]
    exact Int.emod_eq_emod_iff_emod_sub_eq_zero.2 (Int.emod_eq_zero_of_dvd hb)
  · cases h

end TravelDocument.Modular

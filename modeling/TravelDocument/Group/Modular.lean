/-!
# Powers and inverses modulo an integer
-/

namespace TravelDocument.Modular

/-- `base ^ exponent % m`, by squaring. -/
def pow (m base exponent : Nat) : Nat :=
  if exponent = 0 then 1 % m
  else
    let half := pow m (base * base % m) (exponent / 2)
    if exponent % 2 = 1 then base * half % m else half
termination_by exponent
decreasing_by omega

/-- The extended Euclidean algorithm on remainders `r₀` and `r₁` and the coefficients `s₀` and
`s₁` by which a fixed number is multiplied to come to them: their greatest common divisor and its
coefficient. -/
def bezout (r₀ r₁ : Nat) (s₀ s₁ : Int) : Nat × Int :=
  if r₁ = 0 then (r₀, s₀)
  else bezout r₁ (r₀ % r₁) s₁ (s₀ - (r₀ / r₁ : Nat) * s₁)
termination_by r₁
decreasing_by exact Nat.mod_lt _ (by omega)

/-- The inverse of `z` modulo `m`, if they have no common divisor. -/
def inverse? (m z : Nat) : Option Nat :=
  let (g, s) := bezout z m 1 0
  if g = 1 then some (s % (m : Int)).toNat else none

end TravelDocument.Modular

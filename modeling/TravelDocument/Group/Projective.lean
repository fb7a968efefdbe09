/-!
# Projective points of short Weierstrass curves

A triple `(x : y : z)` with `z ≠ 0` stands for the point `(x / z, y / z)`, and `(0 : 1 : 0)` for
the point at infinity. `add` and `double` are the complete formulas for curves `y² = x³ + ax + b`
with any coefficient `a`; they take `a` and `3b` and need no case distinction on curves of odd
order. They only add, subtract and multiply, so they make sense in any ring.
-/

namespace TravelDocument

/-- A projective point with coordinates in `F`. -/
structure Projective (F : Type) where
  x : F
  y : F
  z : F
  deriving DecidableEq, Repr

namespace Projective

variable {F : Type} [Add F] [Sub F] [Mul F]

/-- The sum of two points. -/
def add (a b3 : F) (p q : Projective F) : Projective F :=
  let xx := p.x * q.x
  let yy := p.y * q.y
  let zz := p.z * q.z
  let xy := (p.x + p.y) * (q.x + q.y) - (xx + yy)
  let xz := (p.x + p.z) * (q.x + q.z) - (xx + zz)
  let yz := (p.y + p.z) * (q.y + q.z) - (yy + zz)
  let s := a * xz + b3 * zz
  let u := yy - s
  let v := yy + s
  let m := xx + xx + xx + a * zz
  let n := b3 * xz + a * (xx - a * zz)
  ⟨xy * u - yz * n, u * v + m * n, yz * v + xy * m⟩

/-- Twice a point. -/
def double (a b3 : F) (p : Projective F) : Projective F :=
  let xx := p.x * p.x
  let yy := p.y * p.y
  let zz := p.z * p.z
  let xy2 := p.x * p.y + p.x * p.y
  let xz2 := p.x * p.z + p.x * p.z
  let yz2 := p.y * p.z + p.y * p.z
  let s := a * xz2 + b3 * zz
  let u := yy - s
  let v := yy + s
  let m := xx + xx + xx + a * zz
  let n := a * (xx - a * zz) + b3 * xz2
  let w := yz2 * yy
  ⟨xy2 * u - yz2 * n, v * u + m * n, w + w + (w + w)⟩

/-- Adds `k` times `addend` to `sum`, going through the bits of `k` from the least significant
one. -/
def addMultiple (a b3 : F) (k : Nat) (sum addend : Projective F) : Projective F :=
  if k = 0 then sum
  else
    addMultiple a b3 (k / 2) (if k % 2 = 1 then add a b3 sum addend else sum) (double a b3 addend)
termination_by k
decreasing_by omega

end Projective
end TravelDocument

import TravelDocument.CryptoError
import TravelDocument.Group.Modular
import TravelDocument.Group.Projective
import TravelDocument.Group.Sized

/-!
# Elliptic curves over prime fields

A curve is `y² = x³ + ax + b` modulo an odd integer together with a generator and a cofactor.
Points have affine coordinates and one encoding, `04 || x || y`; scalars are never reduced. The
modulus need not be prime, and a product has no affine form if its last coordinate is not
invertible.
-/

namespace TravelDocument

structure AffinePoint where
  x : Nat
  y : Nat
  deriving DecidableEq, Repr

/-- A curve with its generator. -/
structure WeierstrassCurve where
  prime : Nat
  /-- The bits in which the prime is stored; no other number may need more. -/
  precision : Nat
  a : Nat
  b : Nat
  generator : AffinePoint
  cofactor : Nat
  prime_odd : prime % 2 = 1
  deriving DecidableEq

namespace WeierstrassCurve

theorem prime_pos (c : WeierstrassCurve) : 0 < c.prime := by
  have := c.prime_odd
  omega

/-- Bytes of a coordinate, and so of a private key. -/
def fieldSize (c : WeierstrassCurve) : Nat := byteLength c.prime

/-- A number as an element of the field. -/
def residue (c : WeierstrassCurve) (n : Nat) : Fin c.prime :=
  ⟨n % c.prime, Nat.mod_lt n c.prime_pos⟩

/-- The coefficient `a` in the field. -/
def aResidue (c : WeierstrassCurve) : Fin c.prime := c.residue c.a

/-- The coefficient `b`, tripled, in the field. -/
def b3Residue (c : WeierstrassCurve) : Fin c.prime := c.residue c.b + c.residue c.b + c.residue c.b

def satisfies (c : WeierstrassCurve) (p : AffinePoint) : Bool :=
  let x := c.residue p.x
  let y := c.residue p.y
  y * y == x * x * x + (c.aResidue * x + c.residue c.b)

/-- Whether a point has reduced coordinates and lies on the curve. -/
def contains (c : WeierstrassCurve) (p : AffinePoint) : Bool :=
  p.x < c.prime && p.y < c.prime && c.satisfies p

/-- Checks a curve: an odd prime, coefficients of its precision, and a generator on the curve. -/
def make (prime : SizedNat) (a b : Nat) (generator : AffinePoint) (cofactor : Nat) :
    Except CryptoError WeierstrassCurve :=
  if h : prime.value % 2 = 1 then
    let c : WeierstrassCurve := ⟨prime.value, prime.precision, a, b, generator, cofactor, h⟩
    if bitLength a ≤ prime.precision ∧ bitLength b ≤ prime.precision ∧
      c.contains generator then .ok c
    else .error .invalidDomainParameters
  else .error .invalidDomainParameters

/-! ## Arithmetic -/

def lift (c : WeierstrassCurve) (p : AffinePoint) : Projective (Fin c.prime) :=
  ⟨c.residue p.x, c.residue p.y, c.residue 1⟩

def infinity (c : WeierstrassCurve) : Projective (Fin c.prime) :=
  ⟨c.residue 0, c.residue 1, c.residue 0⟩

/-- The affine coordinates of a projective point whose last coordinate is invertible. -/
def normalize? (c : WeierstrassCurve) (p : Projective (Fin c.prime)) : Option AffinePoint :=
  (Modular.inverse? c.prime p.z.val).map fun inverse =>
    ⟨(p.x * c.residue inverse).val, (p.y * c.residue inverse).val⟩

def add (c : WeierstrassCurve) (p q : Projective (Fin c.prime)) : Projective (Fin c.prime) :=
  Projective.add c.aResidue c.b3Residue p q

/-- The scalar multiple of a point. -/
def multiply (c : WeierstrassCurve) (k : Nat) (p : Projective (Fin c.prime)) :
    Projective (Fin c.prime) :=
  Projective.addMultiple c.aResidue c.b3Residue k c.infinity p

/-! ## Points as bytes -/

/-- Reads an uncompressed point of the curve. -/
def decodePoint (c : WeierstrassCurve) : Bytes → Except CryptoError AffinePoint
  | [] => .error .invalidPublicKey
  | format :: coordinates =>
    if format ≠ 0x04 ∨ coordinates.length ≠ 2 * c.fieldSize then .error .invalidPublicKey
    else
      let p : AffinePoint :=
        ⟨Bytes.toNat (coordinates.take c.fieldSize), Bytes.toNat (coordinates.drop c.fieldSize)⟩
      if c.contains p then .ok p else .error .invalidPublicKey

/-- Writes a point in uncompressed form, if its coordinates fit. -/
def encodePoint (c : WeierstrassCurve) (p : AffinePoint) : Except CryptoError Bytes :=
  match Bytes.fixed? p.x c.fieldSize, Bytes.fixed? p.y c.fieldSize with
  | some x, some y => .ok (0x04 :: (x ++ y))
  | _, _ => .error .invalidPublicKey

/-! ## Key agreement -/

/-- The public key `d · G` of a private key. -/
def publicPoint (c : WeierstrassCurve) (privateKey : Nat) : Except CryptoError AffinePoint :=
  match c.normalize? (c.multiply privateKey (c.lift c.generator)) with
  | some p => .ok p
  | none => .error .invalidPublicKey

/-- A point times the cofactor, if that is above 1. -/
def clearCofactor (c : WeierstrassCurve) (p : Projective (Fin c.prime)) :
    Projective (Fin c.prime) :=
  if 1 < c.cofactor then c.multiply c.cofactor p else p

/-- The shared point `d · (h · Q)`. -/
def sharedPoint (c : WeierstrassCurve) (privateKey : Nat) (other : AffinePoint) :
    Except CryptoError AffinePoint :=
  if !c.contains other then .error .invalidPublicKey
  else
    match c.normalize? (c.multiply privateKey (c.clearCofactor (c.lift other))) with
    | some p => .ok p
    | none => .error .invalidSharedSecret

/-- The generic mapping: the same curve with the generator `s · G + H`. -/
def mapNonce (c : WeierstrassCurve) (nonce : Nat) (shared : AffinePoint) :
    Except CryptoError WeierstrassCurve :=
  if !c.contains shared then .error .invalidSharedSecret
  else
    match c.normalize? (c.add (c.multiply nonce (c.lift c.generator)) (c.lift shared)) with
    | some p => .ok { c with generator := p }
    | none => .error .invalidSharedSecret

end WeierstrassCurve
end TravelDocument

import TravelDocument.CryptoError
import TravelDocument.Group.Modular
import TravelDocument.Group.Sized

/-!
# Diffie-Hellman in finite fields

Domain parameters are a modulus, a generator of a subgroup and the order of the subgroup. The
modulus is only required to be odd, so everything is plain modular arithmetic; exponents are never
reduced. Public values of the other party are checked for membership in the subgroup.
-/

namespace TravelDocument

/-- Domain parameters of finite-field Diffie-Hellman. -/
structure DhGroup where
  modulus : Nat
  /-- The bits in which the modulus is stored; no other number may need more. -/
  precision : Nat
  generator : Nat
  order : Nat
  deriving DecidableEq, Repr

namespace DhGroup

/-- Checks domain parameters: an odd modulus, and generator and order strictly between 1 and it. -/
def make (modulus : SizedNat) (generator order : Nat) : Except CryptoError DhGroup :=
  if modulus.value % 2 = 1 ∧ 1 < generator ∧ generator < modulus.value ∧
      1 < order ∧ order < modulus.value then
    .ok ⟨modulus.value, modulus.precision, generator, order⟩
  else .error .invalidDomainParameters

/-- Bytes of the modulus, and so of public values and shared secrets. -/
def modulusSize (g : DhGroup) : Nat := byteLength g.modulus

/-- Bytes of the order of the subgroup, and so of private keys. -/
def orderSize (g : DhGroup) : Nat := byteLength g.order

/-- Whether a number is stored in no more bits than the modulus. -/
def fits (g : DhGroup) (n : Nat) : Bool :=
  bitLength n ≤ g.precision

/-- Whether `1 < v < p - 1` and `v ^ q = 1` modulo `p`. -/
def isElement (g : DhGroup) (v : Nat) : Bool :=
  1 < v && v < g.modulus - 1 && Modular.pow g.modulus v g.order == 1

/-- Reads and checks the public value of the other party. -/
def decodePublic (g : DhGroup) (b : Bytes) : Except CryptoError Nat :=
  if b.isEmpty ∨ g.modulusSize < b.length then .error .invalidPublicKey
  else
    let v := Bytes.toNat b
    if g.isElement v then .ok v else .error .invalidPublicKey

/-- The public value `g ^ x` of a private key. -/
def publicValue (g : DhGroup) (privateKey : Nat) : Except CryptoError Nat :=
  let v := Modular.pow g.modulus g.generator privateKey
  if v ≤ 1 then .error .invalidPublicKey else .ok v

/-- The shared secret `y ^ x`. -/
def sharedValue (g : DhGroup) (privateKey other : Nat) : Except CryptoError Nat :=
  if !g.fits other then .error .invalidPublicKey
  else
    let v := Modular.pow g.modulus (other % g.modulus) privateKey
    if v ≤ 1 then .error .invalidSharedSecret else .ok v

/-- The generic mapping: the same group with the generator `g ^ s * h`. -/
def mapNonce (g : DhGroup) (nonce shared : Nat) : Except CryptoError DhGroup :=
  if !g.fits shared then .error .invalidSharedSecret
  else
    let mapped := Modular.pow g.modulus g.generator nonce * (shared % g.modulus) % g.modulus
    if mapped ≤ 1 then .error .invalidSharedSecret else .ok { g with generator := mapped }

/-- The 1024-bit group with a subgroup of 160-bit order. -/
def modp1024 : DhGroup where
  modulus := 0xB10B8F96A080E01DDE92DE5EAE5D54EC52C99FBCFB06A3C69A6A9DCA52D23B616073E28675A23D189838EF1E2EE652C013ECB4AEA906112324975C3CD49B83BFACCBDD7D90C4BD7098488E9C219A73724EFFD6FAE5644738FAA31A4FF55BCCC0A151AF5F0DC8B4BD45BF37DF365C1A65E68CFDA76D4DA708DF1FB2BC2E4A4371
  precision := 1024
  generator := 0xA4D1CBD5C3FD34126765A442EFB99905F8104DD258AC507FD6406CFF14266D31266FEA1E5C41564B777E690F5504F213160217B4B01B886A5E91547F9E2749F4D7FBD7D3B9A92EE1909D0D2263F80A76A6A24C087A091F531DBF0A0169B6A28AD662A4D18E73AFA32D779D5918D08BC8858F4DCEF97C2A24855E6EEB22B3B2E5
  order := 0xF518AA8781A8DF278ABA4E7D64B7CB9D49462353

end DhGroup
end TravelDocument

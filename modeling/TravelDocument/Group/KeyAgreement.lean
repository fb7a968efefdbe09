import TravelDocument.Group.FiniteField
import TravelDocument.Group.Weierstrass

/-!
# Key agreement

PACE and Chip Authentication agree keys in a finite field or on an elliptic curve in the same way.
Private keys are unsigned integers. Public keys and shared secrets are byte strings of fixed length:
in a finite field integers in as many bytes as the modulus, on a curve uncompressed points for
public keys and the first coordinate for shared secrets.
-/

namespace TravelDocument

/-- A group in which keys are agreed. -/
inductive KeyAgreement where
  | finiteField (group : DhGroup)
  | ellipticCurve (curve : WeierstrassCurve)
  deriving DecidableEq

namespace KeyAgreement

def kind : KeyAgreement → Agreement
  | .finiteField _ => .diffieHellman
  | .ellipticCurve _ => .ellipticCurveDiffieHellman

def isElliptic : KeyAgreement → Bool
  | .finiteField _ => false
  | .ellipticCurve _ => true

def privateKeySize : KeyAgreement → Nat
  | .finiteField g => g.orderSize
  | .ellipticCurve c => c.fieldSize

/-- The tag of a public key in a public key template. -/
def publicKeyTag : KeyAgreement → Nat
  | .finiteField _ => 0x84
  | .ellipticCurve _ => 0x86

/-- The integer in exactly `width` bytes, or the given failure. -/
def fixedOr (e : CryptoError) (width n : Nat) : Except CryptoError Bytes :=
  match Bytes.fixed? n width with
  | some b => .ok b
  | none => .error e

def publicKey (k : KeyAgreement) (privateKey : Nat) : Except CryptoError Bytes :=
  match k with
  | .finiteField g => do fixedOr .invalidPublicKey g.modulusSize (← g.publicValue privateKey)
  | .ellipticCurve c => do c.encodePoint (← c.publicPoint privateKey)

/-- The secret shared with the holder of a public key. -/
def sharedSecret (k : KeyAgreement) (privateKey : Nat) (other : Bytes) : Except CryptoError Bytes :=
  match k with
  | .finiteField g => do
    let v ← g.sharedValue privateKey (← g.decodePublic other)
    fixedOr .invalidSharedSecret g.modulusSize v
  | .ellipticCurve c => do
    let p ← c.sharedPoint privateKey (← c.decodePoint other)
    fixedOr .invalidSharedSecret c.fieldSize p.x

/-- The group of the generic mapping: a nonce moves the generator by its power, and the element
shared with the holder of a public key is added. -/
def mapNonce (k : KeyAgreement) (nonce privateKey : Nat) (other : Bytes) :
    Except CryptoError KeyAgreement :=
  match k with
  | .finiteField g => do
    let v ← g.sharedValue privateKey (← g.decodePublic other)
    return .finiteField (← g.mapNonce nonce v)
  | .ellipticCurve c => do
    let p ← c.sharedPoint privateKey (← c.decodePoint other)
    return .ellipticCurve (← c.mapNonce nonce p)

end KeyAgreement
end TravelDocument

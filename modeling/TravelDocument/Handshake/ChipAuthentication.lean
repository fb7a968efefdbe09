import TravelDocument.Dialogue.Basic
import TravelDocument.Group.KeyAgreement
import TravelDocument.SecureMessaging.Channel

/-!
# Chip Authentication

The terminal agrees a secret with the static key of the chip and derives the keys of a new triple
DES channel from it. A chip that does not hold the private key cannot go on. The computation comes
first, so that a bad key of the chip is found before anything is sent.
-/

namespace TravelDocument

/-- The static public key of a chip and its group. -/
structure ChipPublicKey where
  group : KeyAgreement
  publicKey : Bytes
  deriving DecidableEq

structure EphemeralKeyPair where
  privateKey : Nat
  publicKey : Bytes
  deriving DecidableEq, Repr

/-- A key pair for people to read; the private key stays out. -/
def EphemeralKeyPair.describe (pair : EphemeralKeyPair) : String :=
  "EphemeralKeyPair \x7b public_key: HexBytes(" ++ Hex.ofBytes pair.publicKey ++ "), .. \x7d"

/-- The outcome of Chip Authentication, on which Terminal Authentication builds. -/
structure ChipAuthentication where
  keyId : Option Nat
  chipKey : ChipPublicKey
  /-- What identifies the ephemeral public key in the data the terminal signs. -/
  keyHash : Bytes
  ephemeral : EphemeralKeyPair
  deriving DecidableEq

namespace ChipAuthentication

/-- What identifies a public key: the SHA-1 hash of a value of a finite field, and the first
coordinate of a point as it is. -/
def keyHashOf (group : KeyAgreement) (publicKey : Bytes) : Except CryptoError Bytes :=
  match group with
  | .finiteField _ => .ok (Sha1.hash publicKey)
  | .ellipticCurve _ =>
    match publicKey with
    | [] => .error .invalidPublicKey
    | format :: coordinates =>
      if format = 0x04 ∧ coordinates.length % 2 = 0 then
        .ok (coordinates.take (coordinates.length / 2))
      else .error .invalidPublicKey

/-- The terminal's side before anything is sent: its result and the shared secret. -/
def prepare (chipKey : ChipPublicKey) (keyId : Option Nat) (privateKey : Nat) :
    Except CryptoError (ChipAuthentication × Bytes) := do
  let publicKey ← chipKey.group.publicKey privateKey
  let secret ← chipKey.group.sharedSecret privateKey chipKey.publicKey
  let keyHash ← keyHashOf chipKey.group publicKey
  return (⟨keyId, chipKey, keyHash, ⟨privateKey, publicKey⟩⟩, secret)

/-- MSE:Set KAT with the ephemeral public key and the identifier of the chip's key, if there is
one. -/
def setTemplateCommand (publicKey : Bytes) (keyId : Option Nat) : Apdu.Command :=
  let identifier :=
    match keyId with
    | some n => DataObject.encode 0x84 (Bytes.minimal n)
    | none => []
  .make 0x00 0x22 0x41 0xA6 (DataObject.encode 0x91 publicKey ++ identifier) none

/-- Runs Chip Authentication with a given ephemeral private key. -/
def establishWith (chipKey : ChipPublicKey) (keyId : Option Nat) (privateKey : Nat) :
    Dialogue (Channel × ChipAuthentication) := do
  let (result, secret) ← Dialogue.ofCrypto (prepare chipKey keyId privateKey)
  let _ ← Dialogue.expectSuccess .chipAuthenticationSetKeyAgreementTemplate
    (setTemplateCommand result.ephemeral.publicKey keyId)
  let channel ← Dialogue.ofCrypto
    (Channel.make .tdes (CipherSuite.tdes.deriveSessionKeys secret) 0)
  return (channel, result)

def establish (chipKey : ChipPublicKey) (keyId : Option Nat) :
    Dialogue (Channel × ChipAuthentication) := do
  let drawn ← Dialogue.random chipKey.group.privateKeySize
  establishWith chipKey keyId (Bytes.toNat drawn)

end ChipAuthentication
end TravelDocument

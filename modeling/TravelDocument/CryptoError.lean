/-!
# Failures of cryptographic operations
-/

/-- A computation in two steps succeeds if both steps do. -/
theorem Except.bind_eq_ok {ε α β : Type} {r : Except ε α} {f : α → Except ε β} {b : β} :
    (r >>= f) = .ok b ↔ ∃ a, r = .ok a ∧ f a = .ok b := by
  cases r with
  | error e =>
    constructor
    · intro h
      cases h
    · rintro ⟨_, h, -⟩
      cases h
  | ok a =>
    constructor
    · intro h
      exact ⟨a, rfl, h⟩
    · rintro ⟨_, h, hf⟩
      cases h
      exact hf

namespace TravelDocument

/-- The two kinds of groups keys are agreed in. -/
inductive Agreement where
  | diffieHellman
  | ellipticCurveDiffieHellman
  deriving DecidableEq, Repr

namespace Agreement

def abbreviation : Agreement → String
  | .diffieHellman => "DH"
  | .ellipticCurveDiffieHellman => "ECDH"

end Agreement

/-- Failures of cryptographic primitives or of key material supplied by the chip. -/
inductive CryptoError where
  | invalidKeyLength (expected obtained : Nat)
  | invalidDataLength (blockSize obtained : Nat)
  | invalidPadding
  | invalidPublicKey
  | invalidDomainParameters
  | invalidSharedSecret
  | equalPublicKeys
  | domainParameterMismatch (expected : Agreement)
  | invalidSignature
  | signer (reason : String)
  deriving DecidableEq, Repr

namespace CryptoError

def message : CryptoError → String
  | .invalidKeyLength expected obtained =>
    "key has length " ++ obtained.repr ++ ", expected " ++ expected.repr
  | .invalidDataLength blockSize obtained =>
    "data length " ++ obtained.repr ++ " is not a multiple of the block size " ++ blockSize.repr
  | .invalidPadding => "invalid ISO/IEC 9797-1 padding"
  | .invalidPublicKey => "invalid public key"
  | .invalidDomainParameters => "invalid domain parameters"
  | .invalidSharedSecret => "key agreement produced an invalid shared secret"
  | .equalPublicKeys => "terminal and chip ephemeral public keys are equal"
  | .domainParameterMismatch expected =>
    "domain parameters do not match the " ++ expected.abbreviation ++ " key agreement"
  | .invalidSignature => "invalid signature encoding"
  | .signer reason => "signing failed: " ++ reason

end CryptoError
end TravelDocument

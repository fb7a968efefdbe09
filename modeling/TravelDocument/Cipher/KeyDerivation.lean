import TravelDocument.Cipher.Suite
import TravelDocument.Hash.Sha1
import TravelDocument.Hash.Sha256

/-!
# Key derivation

BAC, PACE and Chip Authentication derive keys alike: a key is the beginning of the hash of the
secret followed by a 32-bit counter that says what the key is for. The hash is SHA-1 for triple DES
and AES-128 and SHA-256 otherwise; triple DES keys get odd parity.
-/

namespace TravelDocument

inductive DigestAlgorithm where
  | sha1
  | sha256
  deriving DecidableEq, Repr

def DigestAlgorithm.hash : DigestAlgorithm → Bytes → Bytes
  | .sha1 => Sha1.hash
  | .sha256 => Sha256.hash

inductive KeyPurpose where
  | encryption
  | mac
  /-- Decrypting the nonce with a password. -/
  | password
  deriving DecidableEq, Repr

def KeyPurpose.counter : KeyPurpose → Nat
  | .encryption => 1
  | .mac => 2
  | .password => 3

/-- The two keys of a Secure Messaging channel. -/
structure SessionKeys where
  encryption : Bytes
  mac : Bytes
  deriving DecidableEq, Repr

namespace CipherSuite

/-- The hash function of the suite's key derivation. -/
def digest : CipherSuite → DigestAlgorithm
  | .tdes => .sha1
  | .aes128 => .sha1
  | .aes192 => .sha256
  | .aes256 => .sha256

/-- The number of set bits of `n`. -/
def bitCount (n : Nat) : Nat :=
  if n = 0 then 0 else n % 2 + bitCount (n / 2)
termination_by n
decreasing_by omega

/-- Sets the low bit of a byte so that an odd number of its bits is set. -/
def oddParity (b : UInt8) : UInt8 :=
  (b &&& 0xFE) ||| (if bitCount (b.toNat / 2) % 2 = 0 then 1 else 0)

def deriveKey (suite : CipherSuite) (purpose : KeyPurpose) (secret : Bytes) : Bytes :=
  let key := (suite.digest.hash (secret ++ Bytes.be 4 purpose.counter)).take suite.keySize
  match suite with
  | .tdes => key.map oddParity
  | _ => key

/-- Derives both keys of a channel from a shared secret. -/
def deriveSessionKeys (suite : CipherSuite) (secret : Bytes) : SessionKeys :=
  ⟨suite.deriveKey .encryption secret, suite.deriveKey .mac secret⟩

@[simp] theorem length_deriveKey (suite : CipherSuite) (purpose : KeyPurpose) (secret : Bytes) :
    (suite.deriveKey purpose secret).length = suite.keySize := by
  cases suite <;> simp [deriveKey, digest, DigestAlgorithm.hash, keySize]

end CipherSuite
end TravelDocument

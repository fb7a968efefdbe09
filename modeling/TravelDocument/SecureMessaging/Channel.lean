import TravelDocument.Cipher.KeyDerivation
import TravelDocument.Encoding.Tlv
import TravelDocument.Error

/-!
# Secure Messaging channels

A channel protects commands and responses with two session keys and a counter that moves on before
every command and before every response. The counter is as wide as a cipher block and wraps around.
-/

namespace TravelDocument

/-- What happens to a response whose MAC is wrong. -/
inductive MacPolicy where
  | strict
  | lenient
  deriving DecidableEq, Repr

/-- The number of values of a send sequence counter. -/
def CipherSuite.counterRange (suite : CipherSuite) : Nat :=
  1 <<< (8 * suite.blockSize)

theorem CipherSuite.counterRange_pos (suite : CipherSuite) : 0 < suite.counterRange := by
  rw [CipherSuite.counterRange, Nat.one_shiftLeft]
  exact Nat.two_pow_pos _

structure Channel where
  suite : CipherSuite
  keys : SessionKeys
  counter : Nat
  macPolicy : MacPolicy
  length_encryption : keys.encryption.length = suite.keySize
  length_mac : keys.mac.length = suite.keySize
  counter_lt : counter < suite.counterRange
  deriving DecidableEq

namespace Channel

/-- A strict channel with the given keys, which must have the length of the suite's keys. The
counter starts from its low-order bits. -/
def make (suite : CipherSuite) (keys : SessionKeys) (counter : Nat) : Except CryptoError Channel :=
  if he : keys.encryption.length = suite.keySize then
    if hm : keys.mac.length = suite.keySize then
      .ok ⟨suite, keys, counter % suite.counterRange, .strict, he, hm,
        Nat.mod_lt _ suite.counterRange_pos⟩
    else .error (.invalidKeyLength suite.keySize keys.mac.length)
  else .error (.invalidKeyLength suite.keySize keys.encryption.length)

def withPolicy (c : Channel) (policy : MacPolicy) : Channel :=
  { c with macPolicy := policy }

/-- The channel with its counter moved on. -/
def step (c : Channel) : Channel :=
  { c with
    counter := (c.counter + 1) % c.suite.counterRange
    counter_lt := Nat.mod_lt _ c.suite.counterRange_pos }

def counterBlock (c : Channel) : Bytes :=
  Bytes.be c.suite.blockSize c.counter

/-- The initialisation vector: zero for triple DES, and the encrypted counter for AES. -/
def iv (c : Channel) : Except CryptoError Bytes :=
  if c.suite.isAes then c.suite.encrypt c.keys.encryption c.suite.zeroIv c.counterBlock
  else .ok c.suite.zeroIv

def encrypt (c : Channel) (data : Bytes) : Except CryptoError Bytes := do
  c.suite.encrypt c.keys.encryption (← c.iv) (Padding.pad c.suite.blockSize data)

/-- Decrypts data and takes the padding off. -/
def decrypt (c : Channel) (ciphertext : Bytes) : Except CryptoError Bytes := do
  Padding.unpad (← c.suite.decrypt c.keys.encryption (← c.iv) ciphertext)

/-- What a MAC over data objects is computed from: the counter comes first. -/
def macInput (c : Channel) (objects : Bytes) : Bytes :=
  Padding.pad c.suite.blockSize (c.counterBlock ++ objects)

/-- The MAC over data objects. -/
def mac (c : Channel) (objects : Bytes) : Except CryptoError Bytes :=
  c.suite.mac c.keys.mac (c.macInput objects)

/-- A channel for people to read; the keys stay out. -/
def describe (c : Channel) : String :=
  let suite :=
    match c.suite with
    | .tdes => "Tdes"
    | .aes128 => "Aes128"
    | .aes192 => "Aes192"
    | .aes256 => "Aes256"
  "SecureChannel \x7b suite: " ++ suite ++ ", send_sequence_counter: " ++
    c.counter.repr ++ ", .. \x7d"

end Channel
end TravelDocument

import TravelDocument.Cipher.Mac
import TravelDocument.Cipher.Padding

/-!
# Cipher suites

A suite is a block cipher in cipher block chaining mode together with a MAC of eight bytes: two-key
triple DES with Retail MAC, or AES with CMAC. The operations here check lengths and leave padding to
their callers.
-/

namespace TravelDocument

inductive CipherSuite where
  | tdes
  | aes128
  | aes192
  | aes256
  deriving DecidableEq, Repr

namespace CipherSuite

def name : CipherSuite → String
  | .tdes => "3DES"
  | .aes128 => "AES-128"
  | .aes192 => "AES-192"
  | .aes256 => "AES-256"

def keySize : CipherSuite → Nat
  | .tdes => 16
  | .aes128 => 16
  | .aes192 => 24
  | .aes256 => 32

def blockSize : CipherSuite → Nat
  | .tdes => 8
  | _ => 16

/-- The block size to which data is padded before a MAC is computed; 1 if the MAC needs no
padding. -/
def macBlockSize : CipherSuite → Nat
  | .tdes => 8
  | _ => 1

def isAes : CipherSuite → Bool
  | .tdes => false
  | _ => true

def cipher (suite : CipherSuite) (key : Bytes) : BlockCipher :=
  match suite with
  | .tdes => Des.tripleCipher key
  | _ => Aes.cipher key

/-- Refuses keys, initialisation vectors and data of unsuitable lengths. -/
def checkLengths (suite : CipherSuite) (key iv data : Bytes) : Except CryptoError Unit :=
  if key.length ≠ suite.keySize then .error (.invalidKeyLength suite.keySize key.length)
  else if iv.length ≠ suite.blockSize ∨ data.length % suite.blockSize ≠ 0 then
    .error (.invalidDataLength suite.blockSize data.length)
  else .ok ()

/-- Encrypts data that is a whole number of blocks. -/
def encrypt (suite : CipherSuite) (key iv data : Bytes) : Except CryptoError Bytes := do
  suite.checkLengths key iv data
  return (suite.cipher key).cbcEncrypt iv data

/-- Decrypts data that is a whole number of blocks; padding stays on. -/
def decrypt (suite : CipherSuite) (key iv data : Bytes) : Except CryptoError Bytes := do
  suite.checkLengths key iv data
  return (suite.cipher key).cbcDecrypt iv data

/-- The MAC of data that has been padded if the suite requires it. -/
def mac (suite : CipherSuite) (key data : Bytes) : Except CryptoError Bytes :=
  if key.length ≠ suite.keySize then .error (.invalidKeyLength suite.keySize key.length)
  else
    match suite with
    | .tdes => .ok (Mac.retail key data)
    | _ => .ok ((Mac.cmac (suite.cipher key) data).take 8)

def verifyMac (suite : CipherSuite) (key data received : Bytes) : Except CryptoError Bool := do
  return (← suite.mac key data) == received

def zeroIv (suite : CipherSuite) : Bytes :=
  List.replicate suite.blockSize 0

end CipherSuite
end TravelDocument

import TravelDocument.Encoding.EcdsaSignature
import TravelDocument.Handshake.Challenge
import TravelDocument.Handshake.ChipAuthentication
import TravelDocument.Mrz.AccessKey

/-!
# Terminal Authentication

The terminal proves that it holds the private key of an inspection system:

    for each certificate
      MSE:Set DST             83 reference of the authority
      PSO:Verify Certificate  body, 5F37 signature, in blocks
    MSE:Set AT                83 reference of the inspection system
    GET CHALLENGE
    EXTERNAL AUTHENTICATE     signature of number, challenge and key hash

The chain is checked before anything is sent.
-/

namespace TravelDocument

/-- The kind of signature a terminal makes. -/
inductive SignatureAlgorithm where
  | rsa (modulusSize : Nat)
  | ecdsa (fieldSize : Nat)
  deriving DecidableEq, Repr

/-- An algorithm for people to read. -/
def SignatureAlgorithm.describe : SignatureAlgorithm → String
  | .rsa n => "Rsa \x7b modulus_bytes: " ++ n.repr ++ " \x7d"
  | .ecdsa n => "Ecdsa \x7b field_size: " ++ n.repr ++ " \x7d"

/-- Whoever holds the private key of the inspection system. -/
structure TerminalSigner where
  algorithm : SignatureAlgorithm
  sign : Bytes → Except CryptoError Bytes

/-- What the terminal brings into Terminal Authentication. -/
structure TerminalCredentials where
  chain : List Certificate
  /-- The CVCA that the chip is expected to trust. -/
  caReference : Option String
  signer : TerminalSigner
  documentNumber : String

structure TerminalAuthentication where
  chipAuthentication : ChipAuthentication
  caReference : String
  /-- The certificates that were sent. -/
  certificates : List Certificate
  algorithm : SignatureAlgorithm
  documentNumber : String
  challenge : Bytes
  deriving DecidableEq

namespace TerminalAuthentication

/-- The size of the blocks of a certificate unless configured otherwise. -/
def defaultBlockSize : Nat := 223

/-- The data the terminal signs: the document number with its check digit, the chip's challenge and
the hash of the ephemeral key. -/
def signedData (documentNumber : String) (challenge keyHash : Bytes) : Bytes :=
  Text.utf8 (Mrz.numberWithCheckDigit documentNumber) ++ challenge ++ keyHash

/-! ## Commands -/

/-- MSE:Set with the reference of a certificate holder. -/
def setTemplateCommand (p2 : UInt8) (reference : String) : Apdu.Command :=
  .make 0x00 0x22 0x81 p2 (DataObject.encode 0x83 (Text.utf8 reference)) none

/-- PSO:Verify Certificate with one block of a certificate; the class of all but the last says that
more follow. -/
def verifyCommand (last : Bool) (block : Bytes) : Apdu.Command :=
  .make (if last then 0x00 else 0x10) 0x2A 0x00 0xBE block none

/-- EXTERNAL AUTHENTICATE with a signature. -/
def authenticateCommand (signature : Bytes) : Apdu.Command :=
  .make 0x00 0x82 0x00 0x00 signature none

def certificateData (c : Certificate) : Bytes :=
  c.body ++ DataObject.encode 0x5F37 c.signature

/-! ## Protocol -/

/-- Sends data in blocks of the given size, which counts as one if it is zero. -/
def sendBlocks (size : Nat) (data : Bytes) : Dialogue Unit :=
  if data.length ≤ max size 1 then
    if data.isEmpty then return ()
    else do
      let _ ← Dialogue.expectSuccess .terminalVerifyCertificate (verifyCommand true data)
  else do
    let _ ← Dialogue.expectSuccess .terminalVerifyCertificate
      (verifyCommand false (data.take (max size 1)))
    sendBlocks size (data.drop (max size 1))
termination_by data.length
decreasing_by
  simp only [List.length_drop]
  omega

/-- Has the chip verify a certificate. -/
def sendCertificate (size : Nat) (c : Certificate) : Dialogue Unit := do
  let _ ← Dialogue.expectSuccess .terminalSetDigitalSignatureTemplate
    (setTemplateCommand 0xB6 c.authority)
  sendBlocks size (certificateData c)

/-- Has the chip verify certificates one after the other. -/
def sendCertificates (size : Nat) : List Certificate → Dialogue Unit
  | [] => return ()
  | c :: rest => do
    sendCertificate size c
    sendCertificates size rest

/-- A signature in the form the chip wants. -/
def plainSignature (algorithm : SignatureAlgorithm) (signature : Bytes) :
    Except CryptoError Bytes :=
  match algorithm with
  | .rsa _ => .ok signature
  | .ecdsa fieldSize =>
    match EcdsaSignature.plain? fieldSize signature with
    | some plain => .ok plain
    | none => .error .invalidSignature

/-- The reference of the inspection system: the holder of the last certificate. -/
def leafReference (certificates : List Certificate) : Except Error String :=
  match certificates.getLast? with
  | some leaf => .ok leaf.holder
  | none => .error (.chain .empty)

def authenticate (blockSize : Nat) (chipAuthentication : ChipAuthentication)
    (credentials : TerminalCredentials) : Dialogue TerminalAuthentication := do
  let chain ← Dialogue.ofExcept
    ((CertificateChain.validate credentials.caReference credentials.chain).mapError .chain)
  sendCertificates blockSize chain.certificates
  let leaf ← Dialogue.ofExcept (leafReference chain.certificates)
  let _ ← Dialogue.expectSuccess .terminalSetAuthenticationTemplate (setTemplateCommand 0xA4 leaf)
  let challenge ← Challenge.obtain
  let signature ← Dialogue.signature credentials.signer.sign
    (signedData credentials.documentNumber challenge chipAuthentication.keyHash)
  let plain ← Dialogue.ofCrypto (plainSignature credentials.signer.algorithm signature)
  let _ ← Dialogue.expectSuccess .terminalExternalAuthenticate (authenticateCommand plain)
  return ⟨chipAuthentication, chain.caReference, chain.certificates, credentials.signer.algorithm,
    credentials.documentNumber, challenge⟩

end TerminalAuthentication
end TravelDocument

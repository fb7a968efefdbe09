import TravelDocument.Dialogue.Basic
import TravelDocument.Handshake.Pace.Parameters
import TravelDocument.Mrz.AccessKey
import TravelDocument.SecureMessaging.Channel

/-!
# Password Authenticated Connection Establishment

PACE with the generic mapping, in five commands:

    MSE:Set AT              80 protocol, 83 password          ->
    GENERAL AUTHENTICATE                                      -> 80 encrypted nonce
    GENERAL AUTHENTICATE    81 mapping key of the terminal    -> 82 mapping key of the chip
    GENERAL AUTHENTICATE    83 agreement key of the terminal  -> 84 agreement key of the chip
    GENERAL AUTHENTICATE    85 token of the terminal          -> 86 token of the chip

The nonce is encrypted under the password. The mapping turns it into a new generator, under which
the keys are agreed, and a token is a MAC over the other side's key.
-/

namespace TravelDocument

/-- A password printed on the document. -/
inductive PacePassword where
  | mrz (key : Mrz.AccessKey)
  /-- The card access number. -/
  | can (number : String)
  deriving DecidableEq, Repr

namespace PacePassword

/-- The reference by which the chip knows which password is used. -/
def reference : PacePassword → UInt8
  | .mrz _ => 0x01
  | .can _ => 0x02

/-- The secret from which the key of the nonce is derived. -/
def secret : PacePassword → Bytes
  | .mrz key => key.paceSeed
  | .can number => Text.utf8 number

end PacePassword

namespace Pace

/-- The ephemeral private keys of the terminal. -/
structure PrivateKeys where
  mapping : Nat
  agreement : Nat
  deriving DecidableEq, Repr

/-! ## Commands -/

/-- The contents of the encoded protocol identifier. Those with which parameters are made have one:
the number of their first two arcs is 4. -/
def encodeProtocol (protocol : ObjectIdentifier) : Except Error Bytes :=
  match ObjectIdentifier.encode? protocol with
  | some b => .ok b
  | none => .error (.unsupported .invalidProtocolIdentifier)

/-- MSE:Set AT with an encoded protocol identifier. -/
def setTemplateCommand (protocol : Bytes) (reference : UInt8) : Apdu.Command :=
  .make 0x00 0x22 0xC1 0xA4
    (DataObject.encode 0x80 protocol ++ DataObject.encode 0x83 [reference]) none

/-- A step of GENERAL AUTHENTICATE. -/
structure Step where
  operation : Operation
  /-- Commands of a chain but the last have this bit in their class. -/
  cla : UInt8
  /-- The tag of what the chip answers. -/
  responseTag : Nat
  deriving DecidableEq, Repr

def nonceStep : Step := ⟨.paceObtainNonce, 0x10, 0x80⟩
def mappingStep : Step := ⟨.paceMapNonce, 0x10, 0x82⟩
def agreementStep : Step := ⟨.paceKeyAgreement, 0x10, 0x84⟩
def tokenStep : Step := ⟨.paceMutualAuthentication, 0x00, 0x86⟩

namespace Step

/-- GENERAL AUTHENTICATE with the given data objects. -/
def command (step : Step) (objects : Bytes) : Apdu.Command :=
  .make step.cla 0x86 0x00 0x00 (DataObject.encode 0x7C objects) (some 256)

/-- Takes the awaited object from the dynamic authentication data of a response. -/
def answer (step : Step) (data : Bytes) : Except Error Bytes :=
  match DataObject.single? 0x7C data with
  | none => .error (.malformedResponse step.operation .dynamicDataMissing)
  | some objects =>
    match DataObject.find? step.responseTag objects with
    | none => .error (.malformedResponse step.operation .dynamicObjectMissing)
    | some value => .ok value

def exchange (step : Step) (objects : Bytes) : Dialogue Bytes := do
  let response ← Dialogue.expectSuccess step.operation (step.command objects)
  Dialogue.ofExcept (step.answer response.data)

end Step

/-- MSE:Set AT. -/
def setTemplate (params : PaceParameters) (password : PacePassword) : Dialogue Unit := do
  let protocol ← Dialogue.ofExcept (encodeProtocol params.protocol)
  let _ ← Dialogue.expectSuccess .paceSetAuthenticationTemplate
    (setTemplateCommand protocol password.reference)

/-! ## Local computations -/

/-- The nonce: the integer whose encryption under the password the chip sent. -/
def decryptNonce (params : PaceParameters) (password : PacePassword) (encrypted : Bytes) :
    Except CryptoError Nat := do
  let key := params.suite.deriveKey .password password.secret
  return Bytes.toNat (← params.suite.decrypt key params.suite.zeroIv encrypted)

/-- Refuses a public key of the chip that is the terminal's own. -/
def checkDifferent (own other : Bytes) : Except CryptoError Unit :=
  if own = other then .error .equalPublicKeys else .ok ()

/-- The data object over which a token is computed, padded if the suite's MAC requires it. -/
def tokenInput (params : PaceParameters) (protocol publicKey : Bytes) : Bytes :=
  let object := DataObject.encode 0x7F49
    (DataObject.encode 0x06 protocol ++ DataObject.encode params.group.publicKeyTag publicKey)
  if 1 < params.suite.macBlockSize then Padding.pad params.suite.macBlockSize object else object

def token (params : PaceParameters) (macKey publicKey : Bytes) : Except Error Bytes := do
  let protocol ← encodeProtocol params.protocol
  liftCrypto (params.suite.mac macKey (tokenInput params protocol publicKey))

/-- The counter of the new channel: zero for triple DES, and otherwise the one of the channel
before. -/
def initialCounter (suite : CipherSuite) (previous : Option Nat) : Nat :=
  match suite with
  | .tdes => 0
  | _ => previous.getD 0

/-! ## Protocol -/

/-- What an agreement step leaves on one side. -/
structure Agreed where
  own : Bytes
  other : Bytes
  secret : Bytes
  deriving DecidableEq, Repr

def obtainNonce (params : PaceParameters) (password : PacePassword) : Dialogue Nat := do
  let encrypted ← nonceStep.exchange []
  Dialogue.ofCrypto (decryptNonce params password encrypted)

def mapNonce (group : KeyAgreement) (nonce privateKey : Nat) : Dialogue KeyAgreement := do
  let own ← Dialogue.ofCrypto (group.publicKey privateKey)
  let other ← mappingStep.exchange (DataObject.encode 0x81 own)
  Dialogue.ofCrypto (checkDifferent own other)
  Dialogue.ofCrypto (group.mapNonce nonce privateKey other)

/-- Agrees a secret in the mapped group. -/
def agree (group : KeyAgreement) (privateKey : Nat) : Dialogue Agreed := do
  let own ← Dialogue.ofCrypto (group.publicKey privateKey)
  let other ← agreementStep.exchange (DataObject.encode 0x83 own)
  Dialogue.ofCrypto (checkDifferent own other)
  let secret ← Dialogue.ofCrypto (group.sharedSecret privateKey other)
  return ⟨own, other, secret⟩

/-- Exchanges tokens and checks the one of the chip. -/
def authenticate (params : PaceParameters) (macKey : Bytes) (agreed : Agreed) : Dialogue Unit := do
  let outgoing ← Dialogue.ofExcept (token params macKey agreed.other)
  let expected ← Dialogue.ofExcept (token params macKey agreed.own)
  let incoming ← tokenStep.exchange (DataObject.encode 0x85 outgoing)
  if incoming = expected then return () else .fail (.integrity .authenticationToken)

/-- Runs PACE with given private keys. -/
def establishWith (params : PaceParameters) (password : PacePassword) (privateKeys : PrivateKeys) :
    Dialogue Channel := do
  setTemplate params password
  let nonce ← obtainNonce params password
  let mapped ← mapNonce params.group nonce privateKeys.mapping
  let agreed ← agree mapped privateKeys.agreement
  let keys := params.suite.deriveSessionKeys agreed.secret
  authenticate params keys.mac agreed
  let previous ← Dialogue.activeCounter
  Dialogue.ofCrypto (Channel.make params.suite keys (initialCounter params.suite previous))

def drawPrivateKey (group : KeyAgreement) : Dialogue Nat := do
  return Bytes.toNat (← Dialogue.random group.privateKeySize)

def establish (params : PaceParameters) (password : PacePassword) : Dialogue Channel := do
  let mapping ← drawPrivateKey params.group
  let agreement ← drawPrivateKey params.group
  establishWith params password ⟨mapping, agreement⟩

end Pace
end TravelDocument

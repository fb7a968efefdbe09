import TravelDocument.Apdu.Command
import TravelDocument.Apdu.Response
import TravelDocument.CryptoError
import TravelDocument.Handshake.CertificateChain
import TravelDocument.Session.Operation

/-!
# Failures of sessions and protocols

Every failure is a cause. `message` words it, and `report` lists the message together with the ones
of the failures it wraps, outermost first.
-/

namespace TravelDocument

/-- Why a card reader did not carry out an exchange. -/
inductive ReaderError where
  | noService
  | noSmartCard
  | insufficientBuffer
  deriving DecidableEq, Repr

def ReaderError.message : ReaderError → String
  | .noService => "The Smart card resource manager is not running"
  | .noSmartCard =>
    "The operation requires a Smart Card, but no Smart Card is currently in the device"
  | .insufficientBuffer =>
    "The data buffer to receive returned data is too small for the returned data"

/-- Why a command got no response. -/
inductive TransportError where
  | write (e : Apdu.WriteError)
  | reader (e : ReaderError)
  | shortResponse
  deriving DecidableEq, Repr

namespace TransportError

def message : TransportError → String
  | .write e => "APDU write error: " ++ e.message
  | .reader e => "PC/SC error: " ++ e.message
  | .shortResponse => "response too short"

def report : TransportError → List String
  | .write e => [message (.write e), e.message]
  | .reader e => [message (.reader e), e.message]
  | .shortResponse => [message .shortResponse]

end TransportError

/-- A value the chip has to echo during BAC. -/
inductive EchoedValue where
  | rndIc
  | rndIfd
  deriving DecidableEq, Repr

def EchoedValue.name : EchoedValue → String
  | .rndIc => "RndIc"
  | .rndIfd => "RndIfd"

/-- Failures of integrity checks. -/
inductive IntegrityError where
  | responseMac
  | missingResponseMac
  | authenticationToken
  | mismatch (value : EchoedValue)
  deriving DecidableEq, Repr

def IntegrityError.message : IntegrityError → String
  | .responseMac => "response MAC mismatch"
  | .missingResponseMac => "response does not contain a MAC"
  | .authenticationToken => "chip authentication token mismatch"
  | .mismatch value => value.name ++ " echoed by the chip does not match"

/-- What is wrong with the form of a response. -/
inductive Malformation where
  | dataObject
  | paddingIndicator
  | statusLength
  | statusMissing
  | challengeLength
  | authenticationLength
  | dynamicDataMissing
  | dynamicObjectMissing
  | longReadEmpty
  | longReadUnwrapped
  | longReadLength
  | longReadTruncated
  | fileHeader
  | fileTruncated
  deriving DecidableEq, Repr

def Malformation.message : Malformation → String
  | .dataObject => "invalid data object encoding"
  | .paddingIndicator => "unknown padding-content indicator"
  | .statusLength => "status data object has wrong length"
  | .statusMissing => "status data object missing"
  | .challengeLength => "challenge is not 8 bytes long"
  | .authenticationLength => "response is not 40 bytes long"
  | .dynamicDataMissing => "missing dynamic authentication data"
  | .dynamicObjectMissing => "missing data object in dynamic authentication data"
  | .longReadEmpty => "empty response to long READ BINARY"
  | .longReadUnwrapped => "long READ BINARY response not wrapped in 53"
  | .longReadLength => "invalid length in long READ BINARY response"
  | .longReadTruncated => "truncated long READ BINARY response"
  | .fileHeader => "file does not start with a data object header"
  | .fileTruncated => "file ended before its announced length"

/-- Variants of the protocols that are recognized and refused. -/
inductive UnsupportedFeature where
  | unknownProtocol
  | integratedMapping
  | chipAuthenticationMapping
  | unknownCipherSuite
  | explicitDomainParameters
  | modp2048
  | reservedDomainParameters
  | invalidProtocolIdentifier
  deriving DecidableEq, Repr

def UnsupportedFeature.message : UnsupportedFeature → String
  | .unknownProtocol => "unknown PACE protocol"
  | .integratedMapping => "PACE with Integrated Mapping"
  | .chipAuthenticationMapping => "PACE with Chip Authentication Mapping"
  | .unknownCipherSuite => "unknown PACE cipher suite"
  | .explicitDomainParameters => "PACE with explicit domain parameters"
  | .modp2048 => "2048-bit MODP domain parameters"
  | .reservedDomainParameters => "reserved standardized domain parameter identifier"
  | .invalidProtocolIdentifier => "invalid protocol object identifier"

/-- A failure of a session or a protocol. -/
inductive Error where
  | protocolAbort (operation : Operation) (status : Apdu.StatusWord)
  | crypto (e : CryptoError)
  | integrity (e : IntegrityError)
  | chain (e : ChainError)
  | malformedResponse (operation : Operation) (reason : Malformation)
  | invalidState (operation : Operation) (state : SessionState)
  | unsupported (feature : UnsupportedFeature)
  | fileNotFound
  | cardAccess
  | transport (e : TransportError)
  deriving DecidableEq, Repr

namespace Error

def message : Error → String
  | .protocolAbort operation status => operation.title ++ " failed with status 0x" ++ status.hex
  | .crypto e => "cryptographic failure: " ++ e.message
  | .integrity e => "integrity failure: " ++ e.message
  | .chain e => "certificate chain rejected: " ++ e.message
  | .malformedResponse operation reason =>
    "malformed response to " ++ operation.title ++ ": " ++ reason.message
  | .invalidState operation state =>
    operation.title ++ " is not permitted in session state " ++ state.name
  | .unsupported feature => "not supported: " ++ feature.message
  | .fileNotFound => "file not found"
  | .cardAccess => "failed to decode EF.CardAccess"
  | .transport e => "transport error: " ++ e.message

/-- The messages of a failure and of the failures it wraps. -/
def report (e : Error) : List String :=
  match e with
  | .crypto inner => [e.message, inner.message]
  | .integrity inner => [e.message, inner.message]
  | .chain inner => [e.message, inner.message]
  | .transport inner => e.message :: inner.report
  | _ => [e.message]

end Error

/-- A failure of a cryptographic operation as a failure of the protocol it is part of. -/
def liftCrypto {α : Type} (r : Except CryptoError α) : Except Error α :=
  r.mapError Error.crypto

end TravelDocument

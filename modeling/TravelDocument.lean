import TravelDocument.Group.NamedCurve
import TravelDocument.Main
import TravelDocument.Proofs.Bytes
import TravelDocument.Proofs.Failures
import TravelDocument.Proofs.Text.Utf8
import TravelDocument.Proofs.Cipher.Chaining
import TravelDocument.Proofs.Cipher.Padding
import TravelDocument.Proofs.Cipher.Aes
import TravelDocument.Proofs.Cipher.Des
import TravelDocument.Proofs.Cipher.Suite
import TravelDocument.Proofs.Encoding.Header
import TravelDocument.Proofs.Encoding.Tlv
import TravelDocument.Proofs.Encoding.Walking
import TravelDocument.Proofs.Encoding.Cursor
import TravelDocument.Proofs.Encoding.EcdsaSignature
import TravelDocument.Proofs.Encoding.ObjectIdentifier
import TravelDocument.Proofs.Encoding.Der
import TravelDocument.Proofs.File.Length
import TravelDocument.Proofs.File.Reading
import TravelDocument.Proofs.SecureMessaging.Channel
import TravelDocument.Proofs.SecureMessaging.Unwrapping
import TravelDocument.Proofs.SecureMessaging.Authenticity
import TravelDocument.Proofs.SecureMessaging.Wrapping
import TravelDocument.Proofs.Apdu.Command
import TravelDocument.Proofs.SecureMessaging.Chip
import TravelDocument.Proofs.SecureMessaging.Refinement
import TravelDocument.Proofs.SecureMessaging.Freshness
import TravelDocument.Proofs.Dialogue.Traffic
import TravelDocument.Proofs.Dialogue.Outcomes
import TravelDocument.Proofs.Dialogue.Turns
import TravelDocument.Proofs.Dialogue.Terms
import TravelDocument.Proofs.File.LengthCorrection
import TravelDocument.Proofs.File.ReadBounds
import TravelDocument.Proofs.Session.Plans
import TravelDocument.Proofs.Session.Steps
import TravelDocument.Proofs.Session.FileReading
import TravelDocument.Proofs.Session.Invariant
import TravelDocument.Proofs.Session.History
import TravelDocument.Proofs.Handshake.Bac
import TravelDocument.Proofs.Handshake.Failures
import TravelDocument.Proofs.Session.Atomicity
import TravelDocument.Proofs.Session.FailureCauses
import TravelDocument.Proofs.Session.ShortCommands
import TravelDocument.Proofs.Session.MacPolicy
import TravelDocument.Proofs.Group.Modular
import TravelDocument.Proofs.Group.Sized
import TravelDocument.Proofs.Group.Projective
import TravelDocument.Proofs.Group.Completeness
import TravelDocument.Proofs.Group.Weierstrass
import TravelDocument.Proofs.Group.GroupLaw
import TravelDocument.Proofs.Group.NamedCurve
import TravelDocument.Proofs.Group.KeyAgreement
import TravelDocument.Proofs.Group.OnCurve
import TravelDocument.Proofs.Group.PointEncoding
import TravelDocument.Proofs.Group.Subgroup
import TravelDocument.Proofs.Dialogue.Completion
import TravelDocument.Proofs.Handshake.Pace.Run
import TravelDocument.Proofs.Handshake.Pace.PasswordBinding
import TravelDocument.Proofs.Handshake.Pace.DistinctKeys
import TravelDocument.Proofs.Handshake.Pace.Responder
import TravelDocument.Proofs.Handshake.Pace.Agreement
import TravelDocument.Proofs.Handshake.Pace.Stages
import TravelDocument.Proofs.Handshake.Pace.TokenCheck
import TravelDocument.Proofs.Handshake.BacAgreement
import TravelDocument.Proofs.Handshake.TerminalAuthentication
import TravelDocument.Proofs.Handshake.SignedData
import TravelDocument.Proofs.Apdu.Serialization
import TravelDocument.Proofs.Mrz.CheckDigit
import TravelDocument.Proofs.Mrz.NumberField
import TravelDocument.Proofs.Mrz.AccessKey
import TravelDocument.Proofs.Handshake.ChipAuthentication
import TravelDocument.Proofs.Handshake.CertificateChain
import TravelDocument.Proofs.Handshake.CardAccess
import TravelDocument.Proofs.Tool.Course
import TravelDocument.Proofs.Tool.AccessControl
import TravelDocument.Proofs.Tool.Careful

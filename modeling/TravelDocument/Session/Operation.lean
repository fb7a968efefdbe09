import TravelDocument.Session.State

/-!
# What can be asked of a session

The operations that errors refer to: the ones of a session, and the single commands within them.
-/

namespace TravelDocument

inductive Operation where
  | open
  | bac
  | pace
  | chipAuthentication
  | terminalAuthentication
  | selectApplet
  | selectFile
  | readBinary
  | secureMessaging
  | getChallenge
  | mutualAuthenticate
  | paceSetAuthenticationTemplate
  | paceObtainNonce
  | paceMapNonce
  | paceKeyAgreement
  | paceMutualAuthentication
  | chipAuthenticationSetKeyAgreementTemplate
  | terminalSetDigitalSignatureTemplate
  | terminalVerifyCertificate
  | terminalSetAuthenticationTemplate
  | terminalExternalAuthenticate
  deriving DecidableEq, Repr

def Operation.title : Operation → String
  | .open => "open"
  | .bac => "BAC"
  | .pace => "PACE"
  | .chipAuthentication => "Chip Authentication"
  | .terminalAuthentication => "Terminal Authentication"
  | .selectApplet => "SELECT (applet)"
  | .selectFile => "SELECT (file)"
  | .readBinary => "READ BINARY"
  | .secureMessaging => "Secure Messaging"
  | .getChallenge => "GET CHALLENGE"
  | .mutualAuthenticate => "EXTERNAL AUTHENTICATE (BAC)"
  | .paceSetAuthenticationTemplate => "MSE:Set AT (PACE)"
  | .paceObtainNonce => "GENERAL AUTHENTICATE (nonce)"
  | .paceMapNonce => "GENERAL AUTHENTICATE (mapping)"
  | .paceKeyAgreement => "GENERAL AUTHENTICATE (key agreement)"
  | .paceMutualAuthentication => "GENERAL AUTHENTICATE (mutual authentication)"
  | .chipAuthenticationSetKeyAgreementTemplate => "MSE:Set KAT"
  | .terminalSetDigitalSignatureTemplate => "MSE:Set DST"
  | .terminalVerifyCertificate => "PSO:Verify Certificate"
  | .terminalSetAuthenticationTemplate => "MSE:Set AT (TA)"
  | .terminalExternalAuthenticate => "EXTERNAL AUTHENTICATE (TA)"

def Handshake.operation : Handshake → Operation
  | .bac => .bac
  | .pace => .pace
  | .chipAuthentication => .chipAuthentication
  | .terminalAuthentication => .terminalAuthentication

end TravelDocument

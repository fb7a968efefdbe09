import TravelDocument.File.Reading
import TravelDocument.Handshake.Bac
import TravelDocument.Handshake.Pace.Protocol

/-!
# Requests to a session

What can be asked of a session, and how each request is carried out: by opening or closing the
session, by a dialogue that any open session may run, or by a handshake that leads to another state.
-/

namespace TravelDocument

inductive Request where
  | open
  | close
  | selectApplet (aid : Bytes)
  | selectFile (file : FileIdentifier)
  | readBinary (offset length : Nat)
  | readContents (file : FileIdentifier)
  | bac (key : Mrz.AccessKey)
  | pace (params : PaceParameters) (password : PacePassword)
  | chipAuthentication (chipKey : ChipPublicKey) (keyId : Option Nat)
  | terminalAuthentication (chip : ChipAuthentication) (credentials : TerminalCredentials)

/-- What a request returns. -/
inductive Value where
  | unit
  | bytes (b : Bytes)
  | chipAuthentication (result : ChipAuthentication)
  | terminalAuthentication (result : TerminalAuthentication)
  deriving DecidableEq

/-- How a request is carried out. -/
inductive Plan where
  | opening
  | closing
  /-- Runs in every open session and leaves its state as it is. -/
  | command (operation : Operation) (dialogue : Dialogue Value)
  /-- Runs in some states and leads to another one, perhaps with a new channel. -/
  | handshake (handshake : Handshake) (dialogue : Dialogue (Option Channel × Value))

def Request.plan (config : SessionConfig) : Request → Plan
  | .open => .opening
  | .close => .closing
  | .selectApplet aid => .command .selectApplet do
    File.selectApplet aid
    return .unit
  | .selectFile file => .command .selectFile do
    File.selectFile file
    return .unit
  | .readBinary offset length =>
    .command .readBinary (return .bytes (← File.readBinary config offset length))
  | .readContents file => .command .readBinary (return .bytes (← File.read config file))
  | .bac key => .handshake .bac (return (some (← Bac.establish key), .unit))
  | .pace params password =>
    .handshake .pace (return (some (← Pace.establish params password), .unit))
  | .chipAuthentication chipKey keyId =>
    .handshake .chipAuthentication do
      let (channel, result) ← ChipAuthentication.establish chipKey keyId
      return (some channel, .chipAuthentication result)
  | .terminalAuthentication chip credentials =>
    .handshake .terminalAuthentication do
      let result ← TerminalAuthentication.authenticate config.blockSize chip credentials
      return (none, .terminalAuthentication result)

end TravelDocument

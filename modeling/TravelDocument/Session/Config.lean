import TravelDocument.Handshake.TerminalAuthentication

/-!
# Configuration of a session
-/

namespace TravelDocument

/-- What can be set for a session. -/
structure SessionConfig where
  /-- The most bytes that one READ BINARY asks for while a file is read. -/
  maxReadLength : Nat := 223
  /-- Whether the card accepts extended length fields. -/
  extendedLength : Bool := false
  /-- The size of the blocks of a certificate without extended length fields. -/
  certificateBlockSize : Nat := TerminalAuthentication.defaultBlockSize
  macPolicy : MacPolicy := .strict
  deriving DecidableEq, Repr

/-- The size of the blocks in which certificates are sent. -/
def SessionConfig.blockSize (config : SessionConfig) : Nat :=
  if config.extendedLength then Apdu.maxExtendedLc else config.certificateBlockSize

end TravelDocument

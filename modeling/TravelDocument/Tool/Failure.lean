import TravelDocument.Error
import TravelDocument.Mrz.AccessKey

/-!
# Failures of the tool

A failure is reported as a list of messages: what the tool was doing, what went wrong, and what that
was due to.
-/

namespace TravelDocument.Tool

/-- What the tool is doing while a session fails. -/
inductive Activity where
  | readingCardAccess
  | pace
  | selectingApplication
  | bac
  | readingFile (file : UInt16)
  deriving DecidableEq, Repr

def Activity.failure : Activity → String
  | .readingCardAccess => "failed to read EF.CardAccess"
  | .pace => "PACE failed"
  | .selectingApplication => "failed to select the eMRTD application"
  | .bac => "BAC failed"
  | .readingFile file => "failed to read file " ++ Hex.ofBytes (Bytes.be 2 file.toNat)

/-- Why a run of the tool fails. -/
inductive Failure where
  | settings
  | noService (e : ReaderError)
  | noReaderList (e : ReaderError)
  | noReader (index : Nat)
  | noConnection (e : ReaderError)
  | accessKey (e : Mrz.KeyError)
  | paceWithoutPassword
  | bacWithoutKey
  | session (e : Error)
  | during (activity : Activity) (e : Error)
  /-- There were not enough random bytes. -/
  | interrupted
  deriving DecidableEq, Repr

/-- The messages of a failure, outermost first. -/
def Failure.report : Failure → List String
  | .settings => ["failed to load configuration"]
  | .noService e => ["failed to establish PC/SC user context", e.message]
  | .noReaderList e => ["failed to obtain length of buffer for PC/SC reader list", e.message]
  | .noReader index => ["no reader at index " ++ index.repr]
  | .noConnection e => ["failed to connect to card", e.message]
  | .accessKey e => [e.message]
  | .paceWithoutPassword =>
    ["PACE requires either the MRZ fields or the card access number"]
  | .bacWithoutKey => ["BAC requires the MRZ fields"]
  | .session e => e.report
  | .during activity e => activity.failure :: e.report
  | .interrupted => ["random numbers ran out"]

end TravelDocument.Tool

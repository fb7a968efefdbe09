import TravelDocument.File.Identifier
import TravelDocument.Session.Config

/-!
# Selecting and reading files

A file is one data object, so its length can be told from its first bytes, and is read in pieces. A
READ BINARY names its offset in the header up to `7FFF`, and beyond that in a data object, in which
case the response data is wrapped in an object as well.
-/

namespace TravelDocument.File

/-! ## Selection -/

/-- SELECT by application identifier. -/
def selectAppletCommand (aid : Bytes) : Apdu.Command :=
  .make 0x00 0xA4 0x04 0x0C aid none

def selectFileCommand (file : FileIdentifier) : Apdu.Command :=
  .make 0x00 0xA4 0x02 0x0C (Bytes.be 2 file.toNat) none

def selectApplet (aid : Bytes) : Dialogue Unit := do
  let _ ← Dialogue.expectSuccess .selectApplet (selectAppletCommand aid)

/-- A refusal with status `6A82` says that there is no such file. -/
def refineSelectError : Error → Error
  | .protocolAbort operation status =>
    if status = .fileNotFound then .fileNotFound else .protocolAbort operation status
  | e => e

def selectFile (file : FileIdentifier) : Dialogue Unit :=
  .send (selectFileCommand file) fun answer =>
    match answer.bind (Dialogue.requireSuccess .selectFile) with
    | .ok _ => .done ()
    | .error e => .fail (refineSelectError e)

/-! ## READ BINARY -/

/-- The largest offset that fits in the header. -/
def maxShortOffset : Nat := 0x7FFF

/-- The tag of an offset in the request data. -/
def offsetTag : Nat := 0x54

/-- The tag of the object around the data read at a large offset. -/
def contentsTag : Nat := 0x53

/-- The expected length that makes room for tag and length of the object around the data. -/
def wrappedLength (length : Nat) : Nat :=
  if length ≤ 127 then length + 2
  else if length ≤ 255 then min (length + 3) Apdu.maxShortNe
  else length

/-- READ BINARY for data at an offset. -/
def readCommand (offset length : Nat) : Apdu.Command :=
  if offset ≤ maxShortOffset then
    .make 0x00 0xB0 (UInt8.ofNat (offset / 256)) (UInt8.ofNat offset) [] (some length)
  else
    .make 0x00 0xB1 0x00 0x00 (DataObject.encode offsetTag (Bytes.minimal offset))
      (some (wrappedLength length))

/-- Takes the data from the object it is wrapped in. What follows the object does not matter. -/
def unwrapContents (response : Bytes) : Except Error Bytes :=
  match DataObject.decodeTag? response with
  | none => .error (.malformedResponse .readBinary .longReadEmpty)
  | some (tag, afterTag) =>
    if tag ≠ contentsTag then .error (.malformedResponse .readBinary .longReadUnwrapped)
    else
      match DataObject.decodeLength? afterTag with
      | none => .error (.malformedResponse .readBinary .longReadLength)
      | some (length, value) =>
        if value.length < length then .error (.malformedResponse .readBinary .longReadTruncated)
        else .ok (value.take length)

/-- The data in the response to a READ BINARY. -/
def readData (offset : Nat) (response : Bytes) : Except Error Bytes :=
  if offset ≤ maxShortOffset then .ok response else unwrapContents response

/-- The length that a card asks for with status `6Cxx`. -/
def correctedLength (sw2 : UInt8) : Nat :=
  if sw2 = 0 then Apdu.maxShortNe else sw2.toNat

/-- Reads up to `length` bytes after the card has corrected the length once. At the end of the file
fewer bytes are asked for until there are enough. -/
def readCorrected (offset : Nat) : Nat → Dialogue Bytes
  | 0 => return []
  | length + 1 => do
    let response ← Dialogue.transmit (readCommand offset (length + 1))
    if response.status = .success then Dialogue.ofExcept (readData offset response.data)
    else if response.status = .endOfFile then readCorrected offset length
    else .fail (.protocolAbort .readBinary response.status)

/-- Reads up to `length` bytes. The card may correct the length once. -/
def readUncorrected (offset : Nat) : Nat → Dialogue Bytes
  | 0 => return []
  | length + 1 => do
    let response ← Dialogue.transmit (readCommand offset (length + 1))
    if response.status = .success then Dialogue.ofExcept (readData offset response.data)
    else if response.status = .endOfFile then readUncorrected offset length
    else if response.status.sw1 = Apdu.StatusWord.wrongLength then
      readCorrected offset (correctedLength response.status.sw2)
    else .fail (.protocolAbort .readBinary response.status)

/-- Reads up to `length` bytes at an offset, at most 256 without extended length fields. -/
def readBinary (config : SessionConfig) (offset length : Nat) : Dialogue Bytes :=
  readUncorrected offset (if config.extendedLength then length else min length Apdu.maxShortNe)

/-! ## Whole files -/

/-- The number of bytes read at first, and once more if they do not tell the length. -/
def headerReadLength : Nat := 4

/-- The first byte of EF.CVCA. That file holds one or two data objects and zeroes up to a fixed
length. -/
def cvcaTag : UInt8 := 0x42

def cvcaLength : Nat := 36

/-- The length of a file of which the first bytes are known, if they suffice to tell it. -/
def length? (header : Bytes) : Option Nat :=
  if header.head? = some cvcaTag then some cvcaLength
  else do
    let (_, afterTag) ← DataObject.decodeTag? header
    let (length, value) ← DataObject.decodeLength? afterTag
    let total := header.length - value.length + length
    if total < UInt64.size then some total else none

/-- Reads on until `total` bytes are there, of which `contents` are. -/
def readRest (config : SessionConfig) (total : Nat) (contents : Bytes) : Dialogue Bytes :=
  if _ : contents.length < total then do
    let chunk ← readBinary config contents.length
      (min (total - contents.length) (max config.maxReadLength 1))
    match chunk with
    | [] => .fail (.malformedResponse .readBinary .fileTruncated)
    | b :: rest => readRest config total (contents ++ b :: rest)
  else return contents.take total
termination_by total - contents.length
decreasing_by
  simp only [List.length_append, List.length_cons]
  omega

def readSelected (config : SessionConfig) : Dialogue Bytes := do
  let first ← readBinary config 0 headerReadLength
  match length? first with
  | some total => readRest config total first
  | none =>
    let more ← readBinary config first.length headerReadLength
    match length? (first ++ more) with
    | some total => readRest config total (first ++ more)
    | none => .fail (.malformedResponse .readBinary .fileHeader)

def read (config : SessionConfig) (file : FileIdentifier) : Dialogue Bytes := do
  selectFile file
  readSelected config

end TravelDocument.File

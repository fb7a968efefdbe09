import TravelDocument.Hash.Sha1
import TravelDocument.Mrz.CheckDigit

/-!
# The access key printed in the machine-readable zone

Document number, date of birth and date of expiry, each with its check digit, are the MRZ
information `NNNNNNNNNCBBBBBBDEEEEEEF`, from which the keys of BAC and of PACE with the MRZ as
password are derived. The number is kept without trailing fillers and padded again where it is used.
-/

namespace TravelDocument.Mrz

/-- Why no access key can be made. -/
inductive KeyError where
  | documentNumber (text : String)
  | date (text : String)
  | lineLength (length : Nat)
  deriving DecidableEq, Repr

namespace KeyError

def message : KeyError → String
  | .documentNumber text =>
    "document number " ++ Text.quoted text ++
      " is empty, longer than 9 characters or contains characters other than A-Z, 0-9 and <"
  | .date text => Text.quoted text ++ " is not a date in YYMMDD format"
  | .lineLength length => "MRZ line has length " ++ length.repr ++ ", expected 44"

end KeyError

/-- The number of characters of the document number field. -/
def numberWidth : Nat := 9

def trimFillers (field : List Char) : List Char :=
  (field.reverse.dropWhile (· == '<')).reverse

/-- The document number in its field and the check digit after it. Trailing fillers are put anew, up
to nine bytes of UTF-8; a longer number keeps its length. -/
def numberField (number : List Char) : List Char :=
  let trimmed := trimFillers number
  let width := (trimmed.flatMap String.utf8EncodeChar).length
  let field := trimmed ++ List.replicate (numberWidth - width) '<'
  field ++ [checkCharacter field]

/-- The document number in its field and the check digit after it. -/
def numberWithCheckDigit (number : String) : String :=
  String.ofList (numberField number.toList)

/-- A date and the check digit after it. -/
def dateField (date : List Char) : List Char :=
  date ++ [checkCharacter date]

/-- A character of a document number: `A` to `Z`, a digit or the filler. -/
def isNumberCharacter (c : Char) : Bool :=
  ('A' ≤ c && c ≤ 'Z') || ('0' ≤ c && c ≤ '9') || c == '<'

/-- A document number without trailing fillers that fits into its field. -/
def isNumber (trimmed : List Char) : Bool :=
  !trimmed.isEmpty && trimmed.length ≤ numberWidth && trimmed.all isNumberCharacter

/-- Six digits. -/
def isDate (date : List Char) : Bool :=
  date.length == 6 && date.all fun c => '0' ≤ c && c ≤ '9'

/-- The fields of the machine-readable zone that give access to the chip. -/
structure AccessKey where
  documentNumber : String
  dateOfBirth : String
  dateOfExpiry : String
  deriving DecidableEq, Repr

namespace AccessKey

/-- Makes an access key; trailing fillers of the document number do not matter. -/
def make (documentNumber dateOfBirth dateOfExpiry : String) : Except KeyError AccessKey :=
  let number := trimFillers documentNumber.toList
  if !isNumber number then .error (.documentNumber documentNumber)
  else if !isDate dateOfBirth.toList then .error (.date dateOfBirth)
  else if !isDate dateOfExpiry.toList then .error (.date dateOfExpiry)
  else .ok ⟨String.ofList number, dateOfBirth, dateOfExpiry⟩

/-- Takes the access key from the second line of a passport's zone,
`NNNNNNNNNCAAABBBBBBDXEEEEEEFOOOOOOOOOOOOOOQG`. The check digits in the line are not looked at. -/
def ofPassportLine (line : String) : Except KeyError AccessKey :=
  let chars := line.toList
  let length := (Text.utf8 line).length
  if length ≠ 44 ∨ !chars.all (·.toNat < 128) then .error (.lineLength length)
  else
    make (String.ofList (chars.take 9)) (String.ofList ((chars.drop 13).take 6))
      (String.ofList ((chars.drop 21).take 6))

/-- Document number, date of birth and date of expiry, each with its check digit. -/
def information (key : AccessKey) : String :=
  String.ofList (numberField key.documentNumber.toList ++ dateField key.dateOfBirth.toList ++
    dateField key.dateOfExpiry.toList)

/-- The PACE password: the SHA-1 hash of the MRZ information. -/
def paceSeed (key : AccessKey) : Bytes :=
  Sha1.hash (Text.utf8 key.information)

/-- The key seed of BAC: the first sixteen bytes of that hash. -/
def bacSeed (key : AccessKey) : Bytes :=
  key.paceSeed.take 16

end AccessKey
end TravelDocument.Mrz

import TravelDocument.File.Identifier
import TravelDocument.Text.Quoted
import TravelDocument.Text.Unsigned

/-!
# Names of files

A file is named `com`, `sod`, `dg1` to `dg16`, or by the hexadecimal digits of its identifier, after
any number of `0x`. Case does not matter.
-/

namespace TravelDocument.FileIdentifier

/-- Why a name denotes no file. -/
inductive NameError where
  | dataGroup (number : String)
  | identifier (name : String) (e : Text.UnsignedError)
  deriving DecidableEq, Repr

def NameError.message : NameError → String
  | .dataGroup number => "no data group " ++ Text.quoted number
  | .identifier name e => "invalid file identifier " ++ Text.quoted name ++ ": " ++ e.message

def dataGroupCount : Nat := 16

def ofDataGroup (number : List Char) : Except NameError FileIdentifier :=
  match Text.readUnsigned 10 UInt8.size number with
  | .ok n =>
    if 1 ≤ n ∧ n ≤ dataGroupCount then .ok (dataGroup (UInt8.ofNat n))
    else .error (.dataGroup (String.ofList number))
  | .error _ => .error (.dataGroup (String.ofList number))

/-- Takes all leading `0x` off. -/
def dropHexMarks : List Char → List Char
  | '0' :: 'x' :: rest => dropHexMarks rest
  | digits => digits

def ofName (name : String) : Except NameError FileIdentifier :=
  match name.toList.map Char.toLower with
  | ['c', 'o', 'm'] => .ok common
  | ['s', 'o', 'd'] => .ok security
  | 'd' :: 'g' :: number => ofDataGroup number
  | digits =>
    match Text.readUnsigned 16 UInt16.size (dropHexMarks digits) with
    | .ok n => .ok (UInt16.ofNat n)
    | .error e => .error (.identifier name e)

end TravelDocument.FileIdentifier

import TravelDocument.Text.Hex

/-!
# Command APDUs

A command is a header of four bytes and a body in one of the seven cases of ISO/IEC 7816-3: with or
without request data, with or without an expected length, and if with any of them with short or
extended length fields. The Le fields are kept as transmitted: a short `00` stands for 256 and an
extended `0000` for 65536 bytes.
-/

namespace TravelDocument.Apdu

def maxShortLc : Nat := 255
def maxShortNe : Nat := 256
def maxExtendedLc : Nat := 65535
def maxExtendedNe : Nat := 65536

/-- The four bytes that say what a command does. -/
structure Header where
  cla : UInt8
  ins : UInt8
  p1 : UInt8
  p2 : UInt8
  deriving DecidableEq, Repr

namespace Header

def toBytes (h : Header) : Bytes := [h.cla, h.ins, h.p1, h.p2]

/-- A header for people to read. -/
def describe (h : Header) : String :=
  "CommandHeader \x7b cla: 0x" ++ Hex.ofBytes [h.cla] ++ ", ins: 0x" ++ Hex.ofBytes [h.ins] ++
    ", p1: 0x" ++ Hex.ofBytes [h.p1] ++ ", p2: 0x" ++ Hex.ofBytes [h.p2] ++ " \x7d"

end Header

inductive Body where
  | case1
  | case2Short (le : UInt8)
  | case2Extended (le : UInt16)
  | case3Short (request : Bytes)
  | case3Extended (request : Bytes)
  | case4Short (request : Bytes) (le : UInt8)
  | case4Extended (request : Bytes) (le : UInt16)
  deriving DecidableEq, Repr

/-- Why a command has no serialized form. -/
inductive WriteError where
  | emptyData
  | dataTooLong (maximum obtained : Nat)
  deriving DecidableEq, Repr

def WriteError.message : WriteError → String
  | .emptyData => "data is, but must not be, empty"
  | .dataTooLong maximum obtained =>
    "too much data: obtained " ++ obtained.repr ++ " bytes, expected maximum " ++
      maximum.repr ++ " bytes"

namespace Body

/-! ## Expected lengths -/

def shortLe (ne : Nat) : UInt8 := if maxShortNe ≤ ne then 0 else UInt8.ofNat ne
def extendedLe (ne : Nat) : UInt16 := if maxExtendedNe ≤ ne then 0 else UInt16.ofNat ne
def shortNe (le : UInt8) : Nat := if le = 0 then maxShortNe else le.toNat
def extendedNe (le : UInt16) : Nat := if le = 0 then maxExtendedNe else le.toNat

/-- The shortest body for the given request data and expected length. Empty request data is none,
and more than 65536 expected bytes are 65536. -/
def shortest (request : Bytes) (expected : Option Nat) : Body :=
  let extended : Bool := maxShortLc < request.length || expected.any (maxShortNe < ·)
  match request.isEmpty, expected, extended with
  | true, none, _ => .case1
  | true, some ne, false => .case2Short (shortLe ne)
  | true, some ne, true => .case2Extended (extendedLe ne)
  | false, none, false => .case3Short request
  | false, none, true => .case3Extended request
  | false, some ne, false => .case4Short request (shortLe ne)
  | false, some ne, true => .case4Extended request (extendedLe ne)

/-- The largest number of response bytes asked for, if any are. -/
def expectedLength : Body → Option Nat
  | .case1 | .case3Short _ | .case3Extended _ => none
  | .case2Short le | .case4Short _ le => some (shortNe le)
  | .case2Extended le | .case4Extended _ le => some (extendedNe le)

/-- The request data of the cases that have some. -/
def request : Body → Option Bytes
  | .case1 | .case2Short _ | .case2Extended _ => none
  | .case3Short data | .case3Extended data | .case4Short data _ | .case4Extended data _ => some data

def isExtended : Body → Bool
  | .case2Extended _ | .case3Extended _ | .case4Extended _ _ => true
  | .case1 | .case2Short _ | .case3Short _ | .case4Short _ _ => false

/-! ## Serialization -/

/-- Request data must not be empty and must fit its length field. -/
def checkRequest (maximum : Nat) (data : Bytes) : Except WriteError Unit :=
  if data.isEmpty then .error .emptyData
  else if maximum < data.length then .error (.dataTooLong maximum data.length)
  else .ok ()

def encode : Body → Except WriteError Bytes
  | .case1 => .ok []
  | .case2Short le => .ok [le]
  | .case2Extended le => .ok (0x00 :: Bytes.be 2 le.toNat)
  | .case3Short data => do
    checkRequest maxShortLc data
    return UInt8.ofNat data.length :: data
  | .case3Extended data => do
    checkRequest maxExtendedLc data
    return 0x00 :: (Bytes.be 2 data.length ++ data)
  | .case4Short data le => do
    checkRequest maxShortLc data
    return UInt8.ofNat data.length :: (data ++ [le])
  | .case4Extended data le => do
    checkRequest maxExtendedLc data
    return 0x00 :: (Bytes.be 2 data.length ++ data ++ Bytes.be 2 le.toNat)

end Body

structure Command where
  header : Header
  body : Body
  deriving DecidableEq, Repr

namespace Command

/-- A command in the shortest case for its request data and expected length. -/
def make (cla ins p1 p2 : UInt8) (request : Bytes) (expected : Option Nat) : Command :=
  ⟨⟨cla, ins, p1, p2⟩, Body.shortest request expected⟩

def encode (c : Command) : Except WriteError Bytes := do
  return c.header.toBytes ++ (← c.body.encode)

end Command
end TravelDocument.Apdu

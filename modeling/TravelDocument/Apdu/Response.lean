import TravelDocument.Text.Hex

/-!
# Response APDUs

A response is data followed by a status word of two bytes.
-/

namespace TravelDocument.Apdu

/-- The status word SW1 SW2. -/
structure StatusWord where
  sw1 : UInt8
  sw2 : UInt8
  deriving DecidableEq, Repr

namespace StatusWord

def success : StatusWord := ⟨0x90, 0x00⟩
def fileNotFound : StatusWord := ⟨0x6A, 0x82⟩
def endOfFile : StatusWord := ⟨0x62, 0x82⟩
def secureMessagingIncorrect : StatusWord := ⟨0x69, 0x88⟩

/-- The first byte of the status words that name the right expected length in the second. -/
def wrongLength : UInt8 := 0x6C

def toBytes (s : StatusWord) : Bytes := [s.sw1, s.sw2]

def ofNat (n : Nat) : StatusWord := ⟨UInt8.ofNat (n / 256), UInt8.ofNat n⟩

/-- Four hexadecimal digits. -/
def hex (s : StatusWord) : String := Hex.ofBytes s.toBytes

def describe (s : StatusWord) : String :=
  "ResponseTrailer \x7b sw1: 0x" ++ Hex.ofBytes [s.sw1] ++
    ", sw2: 0x" ++ Hex.ofBytes [s.sw2] ++ " \x7d"

end StatusWord

structure Response where
  data : Bytes
  status : StatusWord
  deriving DecidableEq, Repr

namespace Response

/-- Splits the status word off; there must be one. -/
def decode? (b : Bytes) : Option Response :=
  match b.reverse with
  | sw2 :: sw1 :: data => some ⟨data.reverse, ⟨sw1, sw2⟩⟩
  | _ => none

def encode (r : Response) : Bytes := r.data ++ r.status.toBytes

@[simp] theorem decode?_encode (r : Response) : decode? r.encode = some r := by
  simp [decode?, encode, StatusWord.toBytes]

def isSuccess (r : Response) : Bool := r.status == .success

end Response
end TravelDocument.Apdu

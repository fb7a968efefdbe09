import TravelDocument.Dialogue.Basic

/-!
# Challenges of the chip
-/

namespace TravelDocument.Challenge

/-- The number of bytes of a challenge. -/
def size : Nat := 8

def command : Apdu.Command :=
  .make 0x00 0x84 0x00 0x00 [] (some size)

/-- A challenge must have eight bytes. -/
def check (data : Bytes) : Except Error Bytes :=
  if data.length = size then .ok data
  else .error (.malformedResponse .getChallenge .challengeLength)

def obtain : Dialogue Bytes := do
  let response ← Dialogue.expectSuccess .getChallenge command
  Dialogue.ofExcept (check response.data)

end TravelDocument.Challenge

import TravelDocument.Hash.Padding

/-!
# SHA-1
-/

namespace TravelDocument.Sha1

open Hash

/-- The chaining value. -/
structure State where
  a : UInt32
  b : UInt32
  c : UInt32
  d : UInt32
  e : UInt32
  deriving DecidableEq, Repr

def initial : State := ⟨0x67452301, 0xEFCDAB89, 0x98BADCFE, 0x10325476, 0xC3D2E1F0⟩

/-- Extends a message schedule by `n` words. -/
def extendSchedule : Nat → Array UInt32 → Array UInt32
  | 0, w => w
  | n + 1, w =>
    let t := w.size
    extendSchedule n
      (w.push (rotl (w.getD (t - 3) 0 ^^^ w.getD (t - 8) 0 ^^^ w.getD (t - 14) 0 ^^^ w.getD
        (t - 16) 0) 1))

/-- The function and the constant of round `t`. -/
def mix (t : Nat) (s : State) : UInt32 :=
  if t < 20 then ((s.b &&& s.c) ||| (~~~s.b &&& s.d)) + 0x5A827999
  else if t < 40 then (s.b ^^^ s.c ^^^ s.d) + 0x6ED9EBA1
  else if t < 60 then ((s.b &&& s.c) ||| (s.b &&& s.d) ||| (s.c &&& s.d)) + 0x8F1BBCDC
  else (s.b ^^^ s.c ^^^ s.d) + 0xCA62C1D6

/-- Runs the rounds from round `t` on over their words. -/
def rounds (t : Nat) (s : State) : List UInt32 → State
  | [] => s
  | w :: ws => rounds (t + 1) ⟨rotl s.a 5 + mix t s + s.e + w, s.a, rotl s.b 30, s.c, s.d⟩ ws

/-- Takes a block into the chaining value. -/
def compress (s : State) (block : List UInt32) : State :=
  let r := rounds 0 s (extendSchedule 64 block.toArray).toList
  ⟨s.a + r.a, s.b + r.b, s.c + r.c, s.d + r.d, s.e + r.e⟩

def State.toBytes (s : State) : Bytes :=
  [s.a, s.b, s.c, s.d, s.e].flatMap bytesOfWord

def hash (m : Bytes) : Bytes :=
  (foldBlocks compress initial (wordsOfBytes (padMessage m))).toBytes

@[simp] theorem length_hash (m : Bytes) : (hash m).length = 20 := rfl

end TravelDocument.Sha1

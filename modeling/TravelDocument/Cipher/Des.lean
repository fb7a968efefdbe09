import TravelDocument.Cipher.Block

/-!
# DES and two-key triple DES

Bits are numbered from the most significant one, starting at 1, so the tables stand as in the
standard. Parity bits of keys are ignored and weak keys are allowed.
-/

namespace TravelDocument.Des

/-- Picks the bits of a word of `width` bits that the table names, in the order of the table. -/
def permute (width : Nat) (table : List Nat) (x : UInt64) : UInt64 :=
  table.foldl (fun out n => (out <<< 1) ||| ((x >>> (width - n).toUInt64) &&& 1)) 0

/-! ## Tables -/

def initialPermutation : List Nat := [
  58, 50, 42, 34, 26, 18, 10, 2, 60, 52, 44, 36, 28, 20, 12, 4,
  62, 54, 46, 38, 30, 22, 14, 6, 64, 56, 48, 40, 32, 24, 16, 8,
  57, 49, 41, 33, 25, 17, 9, 1, 59, 51, 43, 35, 27, 19, 11, 3,
  61, 53, 45, 37, 29, 21, 13, 5, 63, 55, 47, 39, 31, 23, 15, 7]

def finalPermutation : List Nat := [
  40, 8, 48, 16, 56, 24, 64, 32, 39, 7, 47, 15, 55, 23, 63, 31,
  38, 6, 46, 14, 54, 22, 62, 30, 37, 5, 45, 13, 53, 21, 61, 29,
  36, 4, 44, 12, 52, 20, 60, 28, 35, 3, 43, 11, 51, 19, 59, 27,
  34, 2, 42, 10, 50, 18, 58, 26, 33, 1, 41, 9, 49, 17, 57, 25]

def expansion : List Nat := [
  32, 1, 2, 3, 4, 5, 4, 5, 6, 7, 8, 9, 8, 9, 10, 11, 12, 13, 12, 13, 14, 15, 16, 17,
  16, 17, 18, 19, 20, 21, 20, 21, 22, 23, 24, 25, 24, 25, 26, 27, 28, 29, 28, 29, 30, 31, 32, 1]

def roundPermutation : List Nat := [
  16, 7, 20, 21, 29, 12, 28, 17, 1, 15, 23, 26, 5, 18, 31, 10,
  2, 8, 24, 14, 32, 27, 3, 9, 19, 13, 30, 6, 22, 11, 4, 25]

def keyChoice1 : List Nat := [
  57, 49, 41, 33, 25, 17, 9, 1, 58, 50, 42, 34, 26, 18, 10, 2, 59, 51, 43, 35, 27, 19, 11, 3,
  60, 52, 44, 36, 63, 55, 47, 39, 31, 23, 15, 7, 62, 54, 46, 38, 30, 22, 14, 6, 61, 53, 45, 37,
  29, 21, 13, 5, 28, 20, 12, 4]

def keyChoice2 : List Nat := [
  14, 17, 11, 24, 1, 5, 3, 28, 15, 6, 21, 10, 23, 19, 12, 4, 26, 8, 16, 7, 27, 20, 13, 2,
  41, 52, 31, 37, 47, 55, 30, 40, 51, 45, 33, 48, 44, 49, 39, 56, 34, 53, 46, 42, 50, 36, 29, 32]

/-- By how many bits each half of the key is rotated before each round. -/
def keyRotations : List Nat := [1, 1, 2, 2, 2, 2, 2, 2, 1, 2, 2, 2, 2, 2, 2, 1]

/-- The eight S-boxes, each row by row. -/
def sboxes : List (Array UInt32) := [
  #[14, 4, 13, 1, 2, 15, 11, 8, 3, 10, 6, 12, 5, 9, 0, 7,
    0, 15, 7, 4, 14, 2, 13, 1, 10, 6, 12, 11, 9, 5, 3, 8,
    4, 1, 14, 8, 13, 6, 2, 11, 15, 12, 9, 7, 3, 10, 5, 0,
    15, 12, 8, 2, 4, 9, 1, 7, 5, 11, 3, 14, 10, 0, 6, 13],
  #[15, 1, 8, 14, 6, 11, 3, 4, 9, 7, 2, 13, 12, 0, 5, 10,
    3, 13, 4, 7, 15, 2, 8, 14, 12, 0, 1, 10, 6, 9, 11, 5,
    0, 14, 7, 11, 10, 4, 13, 1, 5, 8, 12, 6, 9, 3, 2, 15,
    13, 8, 10, 1, 3, 15, 4, 2, 11, 6, 7, 12, 0, 5, 14, 9],
  #[10, 0, 9, 14, 6, 3, 15, 5, 1, 13, 12, 7, 11, 4, 2, 8,
    13, 7, 0, 9, 3, 4, 6, 10, 2, 8, 5, 14, 12, 11, 15, 1,
    13, 6, 4, 9, 8, 15, 3, 0, 11, 1, 2, 12, 5, 10, 14, 7,
    1, 10, 13, 0, 6, 9, 8, 7, 4, 15, 14, 3, 11, 5, 2, 12],
  #[7, 13, 14, 3, 0, 6, 9, 10, 1, 2, 8, 5, 11, 12, 4, 15,
    13, 8, 11, 5, 6, 15, 0, 3, 4, 7, 2, 12, 1, 10, 14, 9,
    10, 6, 9, 0, 12, 11, 7, 13, 15, 1, 3, 14, 5, 2, 8, 4,
    3, 15, 0, 6, 10, 1, 13, 8, 9, 4, 5, 11, 12, 7, 2, 14],
  #[2, 12, 4, 1, 7, 10, 11, 6, 8, 5, 3, 15, 13, 0, 14, 9,
    14, 11, 2, 12, 4, 7, 13, 1, 5, 0, 15, 10, 3, 9, 8, 6,
    4, 2, 1, 11, 10, 13, 7, 8, 15, 9, 12, 5, 6, 3, 0, 14,
    11, 8, 12, 7, 1, 14, 2, 13, 6, 15, 0, 9, 10, 4, 5, 3],
  #[12, 1, 10, 15, 9, 2, 6, 8, 0, 13, 3, 4, 14, 7, 5, 11,
    10, 15, 4, 2, 7, 12, 9, 5, 6, 1, 13, 14, 0, 11, 3, 8,
    9, 14, 15, 5, 2, 8, 12, 3, 7, 0, 4, 10, 1, 13, 11, 6,
    4, 3, 2, 12, 9, 5, 15, 10, 11, 14, 1, 7, 6, 0, 8, 13],
  #[4, 11, 2, 14, 15, 0, 8, 13, 3, 12, 9, 7, 5, 10, 6, 1,
    13, 0, 11, 7, 4, 9, 1, 10, 14, 3, 5, 12, 2, 15, 8, 6,
    1, 4, 11, 13, 12, 3, 7, 14, 10, 15, 6, 8, 0, 5, 9, 2,
    6, 11, 13, 8, 1, 4, 10, 7, 9, 5, 0, 15, 14, 2, 3, 12],
  #[13, 2, 8, 4, 6, 15, 11, 1, 10, 9, 3, 14, 5, 0, 12, 7,
    1, 15, 13, 8, 10, 3, 7, 4, 12, 5, 6, 11, 0, 14, 9, 2,
    7, 11, 4, 1, 9, 12, 14, 2, 0, 6, 10, 13, 15, 3, 5, 8,
    2, 1, 14, 7, 4, 10, 8, 13, 15, 12, 9, 0, 3, 5, 6, 11]]

/-! ## Key schedule -/

/-- Rotates a half key of 28 bits to the left. -/
def rotateHalf (half : UInt64) (n : Nat) : UInt64 :=
  ((half <<< n.toUInt64) ||| (half >>> (28 - n).toUInt64)) &&& 0xFFFFFFF

/-- The round keys from the two halves of the key on. -/
def scheduleFrom (c d : UInt64) : List Nat → List UInt64
  | [] => []
  | n :: rest =>
    let c := rotateHalf c n
    let d := rotateHalf d n
    permute 56 keyChoice2 ((c <<< 28) ||| d) :: scheduleFrom c d rest

/-- The sixteen round keys. -/
def schedule (key : Bytes) : List UInt64 :=
  let chosen := permute 64 keyChoice1 (UInt64.ofNat (Bytes.toNat key))
  scheduleFrom (chosen >>> 28) (chosen &&& 0xFFFFFFF) keyRotations

/-! ## Rounds -/

/-- The output of an S-box: the outer two of six bits choose the row. -/
def substituteSix (box : Array UInt32) (six : UInt64) : UInt32 :=
  let row := (((six >>> 4) &&& 2) ||| (six &&& 1)).toNat
  let column := ((six >>> 1) &&& 15).toNat
  box.getD (row * 16 + column) 0

/-- Sends 48 bits through the S-boxes, starting at the most significant six. -/
def substitute (out : UInt32) (x : UInt64) : List (Array UInt32) → UInt32
  | [] => out
  | box :: boxes =>
    substitute ((out <<< 4) ||| substituteSix box ((x >>> 42) &&& 63)) (x <<< 6) boxes

/-- The cipher function of a round. -/
def mix (key : UInt64) (half : UInt32) : UInt32 :=
  let substituted := substitute 0 (permute 32 expansion half.toUInt64 ^^^ key) sboxes
  (permute 32 roundPermutation substituted.toUInt64).toUInt32

/-- A block between rounds. -/
structure Halves where
  left : UInt32
  right : UInt32
  deriving DecidableEq, Repr

/-- One round: the halves change places, the old left one after adding the mixed right one. -/
def round (h : Halves) (key : UInt64) : Halves :=
  ⟨h.right, h.left ^^^ mix key h.right⟩

def Halves.swap (h : Halves) : Halves := ⟨h.right, h.left⟩

/-- All rounds; the last one does not swap. -/
def rounds (keys : List UInt64) (h : Halves) : Halves :=
  (keys.foldl round h).swap

def Halves.ofWord (x : UInt64) : Halves := ⟨(x >>> 32).toUInt32, x.toUInt32⟩

def Halves.toWord (h : Halves) : UInt64 := (h.left.toUInt64 <<< 32) ||| h.right.toUInt64

/-- Runs a block through the rounds with the given keys. -/
def cryptWord (keys : List UInt64) (x : UInt64) : UInt64 :=
  permute 64 finalPermutation (rounds keys (Halves.ofWord (permute 64 initialPermutation x))).toWord

/-- Runs a block given as eight bytes through the rounds with the given keys. -/
def crypt (keys : List UInt64) (block : Bytes) : Bytes :=
  Bytes.be 8 (cryptWord keys (UInt64.ofNat (Bytes.toNat block))).toNat

/-- Single DES under the given round keys; decryption takes them from the last to the first. -/
def ofSchedule (keys : List UInt64) : BlockCipher :=
  let reversed := keys.reverse
  ⟨8, crypt keys, crypt reversed⟩

def cipher (key : Bytes) : BlockCipher :=
  ofSchedule (schedule key)

def encryptDecryptEncrypt (first second : BlockCipher) : BlockCipher :=
  ⟨first.blockSize, fun b => first.encrypt (second.decrypt (first.encrypt b)),
    fun b => first.decrypt (second.encrypt (first.decrypt b))⟩

/-- Triple DES with the two halves of a sixteen-byte key. -/
def tripleCipher (key : Bytes) : BlockCipher :=
  encryptDecryptEncrypt (cipher (key.take 8)) (cipher (key.drop 8))

end TravelDocument.Des

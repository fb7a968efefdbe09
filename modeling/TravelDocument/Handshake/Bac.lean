import TravelDocument.Handshake.Challenge
import TravelDocument.Mrz.AccessKey
import TravelDocument.SecureMessaging.Channel

/-!
# Basic Access Control

Terminal and chip prove to each other that they know the key seed from the machine-readable zone:

    terminal -> chip   E(RND.IFD || RND.IC || K.IFD) || MAC
    chip -> terminal   E(RND.IC || RND.IFD || K.IC) || MAC

Both sides then derive the keys of a triple DES channel from `K.IFD` xor `K.IC`. Its counter starts
with the last four bytes of `RND.IC` and the last four of `RND.IFD`.
-/

namespace TravelDocument.Bac

/-- What a terminal brings into a run. -/
structure TerminalValues where
  /-- The eight bytes the chip has to send back. -/
  rndIfd : Bytes
  /-- Sixteen bytes of key material. -/
  kIfd : Bytes
  deriving DecidableEq, Repr

/-- The bytes of a cryptogram without its MAC. -/
def cryptogramSize : Nat := 32

/-- The bytes of a cryptogram with its MAC. -/
def messageSize : Nat := 40

/-- Encrypts the contents of a message and appends the MAC. -/
def encryptMessage (keys : SessionKeys) (contents : Bytes) : Except CryptoError Bytes := do
  let suite := CipherSuite.tdes
  let cryptogram ← suite.encrypt keys.encryption suite.zeroIv contents
  return cryptogram ++ (← suite.mac keys.mac (Padding.pad suite.macBlockSize cryptogram))

/-- EXTERNAL AUTHENTICATE with a message. -/
def command (message : Bytes) : Apdu.Command :=
  .make 0x00 0x82 0x00 0x00 message (some messageSize)

/-- Verifies a message and decrypts its contents. -/
def decryptMessage (keys : SessionKeys) (message : Bytes) : Except Error Bytes :=
  if message.length ≠ messageSize then
    .error (.malformedResponse .mutualAuthenticate .authenticationLength)
  else do
    let suite := CipherSuite.tdes
    let cryptogram := message.take cryptogramSize
    let genuine ← liftCrypto (suite.verifyMac keys.mac (Padding.pad suite.macBlockSize cryptogram)
      (message.drop cryptogramSize))
    if !genuine then throw (.integrity .responseMac)
    liftCrypto (suite.decrypt keys.encryption suite.zeroIv cryptogram)

/-- Checks that the chip sends both random values back and returns its key material. -/
def checkContents (rndIc rndIfd contents : Bytes) : Except Error Bytes :=
  if contents.take 8 ≠ rndIc then .error (.integrity (.mismatch .rndIc))
  else if (contents.drop 8).take 8 ≠ rndIfd then .error (.integrity (.mismatch .rndIfd))
  else .ok (contents.drop 16)

/-- The counter a channel starts with. -/
def initialCounter (rndIc rndIfd : Bytes) : Nat :=
  Bytes.toNat ((rndIc.drop 4).take 4 ++ (rndIfd.drop 4).take 4)

/-- The channel that both sides agree on. -/
def channel (rndIc : Bytes) (values : TerminalValues) (kIc : Bytes) : Except CryptoError Channel :=
  Channel.make .tdes (CipherSuite.tdes.deriveSessionKeys (Bytes.xor values.kIfd kIc))
    (initialCounter rndIc values.rndIfd)

/-- Runs BAC with a challenge of the chip and given values of the terminal. -/
def establishWith (seed rndIc : Bytes) (values : TerminalValues) : Dialogue Channel := do
  let keys := CipherSuite.tdes.deriveSessionKeys seed
  let message ← Dialogue.ofCrypto (encryptMessage keys (values.rndIfd ++ rndIc ++ values.kIfd))
  let response ← Dialogue.expectSuccess .mutualAuthenticate (command message)
  let contents ← Dialogue.ofExcept (decryptMessage keys response.data)
  let kIc ← Dialogue.ofExcept (checkContents rndIc values.rndIfd contents)
  Dialogue.ofCrypto (channel rndIc values kIc)

def establish (key : Mrz.AccessKey) : Dialogue Channel := do
  let rndIc ← Challenge.obtain
  let rndIfd ← Dialogue.random 8
  let kIfd ← Dialogue.random 16
  establishWith key.bacSeed rndIc ⟨rndIfd, kIfd⟩

end TravelDocument.Bac

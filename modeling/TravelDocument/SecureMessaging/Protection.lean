import TravelDocument.SecureMessaging.Channel

/-!
# Protected commands and responses

A protected command has Secure Messaging bits in its class byte and the body

    [DO85|DO87] [DO97] DO8E

where `DO87` holds the encrypted request data behind a padding indicator, or `DO85` just the
encrypted data if the instruction is odd, `DO97` the expected length and `DO8E` the MAC over
counter, padded header and the other objects. A protected response has the body

    [DO85|DO87] DO99 DO8E

with the status of the command in `DO99`. The functions here work at the present counter of a
channel; whoever calls them has moved it on before.
-/

namespace TravelDocument

namespace Tag

def encryptedTlv : Nat := 0x85
def encryptedPadded : Nat := 0x87
def expectedLength : Nat := 0x97
def mac : Nat := 0x8E
def status : Nat := 0x99

end Tag

namespace Channel

/-- The first byte of a padded `DO87`. -/
def paddingIndicator : UInt8 := 0x01

/-! ## Commands -/

/-- The header of a protected command. -/
def maskHeader (h : Apdu.Header) : Apdu.Header :=
  { h with cla := h.cla ||| 0x0C }

/-- The object that holds encrypted request data. -/
def encryptedObject (c : Channel) (instruction : UInt8) (request : Bytes) :
    Except CryptoError Bytes := do
  let ciphertext ← c.encrypt request
  if instruction.toNat % 2 = 1 then return DataObject.encode Tag.encryptedTlv ciphertext
  else return DataObject.encode Tag.encryptedPadded (paddingIndicator :: ciphertext)

/-- The object that holds an expected length, in two bytes if it is above 256. -/
def lengthObject (expected : Nat) : Bytes :=
  DataObject.encode Tag.expectedLength
    (if expected ≤ Apdu.maxShortNe then Bytes.be 1 expected else Bytes.be 2 expected)

/-- The objects of a protected command in front of the MAC. -/
def commandObjects (c : Channel) (instruction : UInt8) (request : Option Bytes)
    (expected : Option Nat) : Except CryptoError Bytes := do
  let encrypted ←
    match request with
    | some data => c.encryptedObject instruction data
    | none => .ok []
  let length :=
    match expected with
    | some ne => lengthObject ne
    | none => []
  return encrypted ++ length

def wrap (c : Channel) (command : Apdu.Command) : Except CryptoError Apdu.Command := do
  let header := maskHeader command.header
  let expected := command.body.expectedLength
  let objects ← c.commandObjects header.ins command.body.request expected
  let mac ← c.mac (Padding.pad c.suite.blockSize header.toBytes ++ objects)
  let body := objects ++ DataObject.encode Tag.mac mac
  let extended : Bool := Apdu.maxShortLc < body.length || expected.any (Apdu.maxShortNe < ·)
  let room := if extended then Apdu.maxExtendedNe else Apdu.maxShortNe
  return ⟨header, Apdu.Body.shortest body (some room)⟩

/-! ## Responses -/

def lastObject? (tags : List Nat) (objects : List DataObject) : Option DataObject :=
  objects.reverse.find? fun object => tags.contains object.tag

/-- The objects that the MAC of a response covers, as they were received: the ones with odd tags. -/
def authenticatedObjects (objects : List DataObject) : Bytes :=
  (objects.filter fun object => object.tag % 2 == 1).flatMap (·.raw)

/-- Judges the MAC of a response by the policy of the channel. -/
def checkMac (c : Channel) (objects received : Bytes) : Except Error Unit := do
  let genuine ← liftCrypto (c.suite.verifyMac c.keys.mac (c.macInput objects) received)
  match genuine, c.macPolicy with
  | true, _ | false, .lenient => return ()
  | false, .strict => throw (.integrity .responseMac)

/-- The data in the encrypted object of a response. -/
def decryptObject (c : Channel) (object : DataObject) : Except Error Bytes :=
  if object.tag = Tag.encryptedTlv then liftCrypto (c.decrypt object.value)
  else
    match object.value with
    | [] => .error (.malformedResponse .secureMessaging .paddingIndicator)
    | indicator :: ciphertext =>
      if indicator = paddingIndicator then liftCrypto (c.decrypt ciphertext)
      else .error (.malformedResponse .secureMessaging .paddingIndicator)

/-- The data of a response, none if there is no encrypted object. -/
def responseData (c : Channel) (objects : List DataObject) : Except Error Bytes :=
  match lastObject? [Tag.encryptedTlv, Tag.encryptedPadded] objects with
  | none => .ok []
  | some object => c.decryptObject object

def responseStatus (objects : List DataObject) : Except Error Apdu.StatusWord :=
  match lastObject? [Tag.status] objects with
  | none => .error (.malformedResponse .secureMessaging .statusMissing)
  | some object =>
    match object.value with
    | [sw1, sw2] => .ok ⟨sw1, sw2⟩
    | _ => .error (.malformedResponse .secureMessaging .statusLength)

/-- Verifies the objects of a protected response and takes data and status from them. -/
def unwrapObjects (c : Channel) (objects : List DataObject) : Except Error Apdu.Response :=
  match lastObject? [Tag.mac] objects with
  | none => .error (.integrity .missingResponseMac)
  | some mac => do
    c.checkMac (authenticatedObjects objects) mac.value
    return ⟨← c.responseData objects, ← responseStatus objects⟩

/-- Verifies and decrypts a protected response. One without any data says that the chip refused the
protected command. -/
def unwrap (c : Channel) (response : Apdu.Response) : Except Error Apdu.Response :=
  if response.data.isEmpty then .error (.protocolAbort .secureMessaging response.status)
  else
    match DataObject.all? response.data with
    | none => .error (.malformedResponse .secureMessaging .dataObject)
    | some objects => c.unwrapObjects objects

end Channel
end TravelDocument

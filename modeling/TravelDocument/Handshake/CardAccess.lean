import TravelDocument.Encoding.Der
import TravelDocument.Handshake.Pace.Parameters

/-!
# The file EF.CardAccess

The file is a SET OF security infos, SEQUENCEs that start with a protocol identifier. The ones of
PACE variants go on with a version and, unless the group is given explicitly elsewhere, the number
of a standardized group. Infos of other protocols are skipped.
-/

namespace TravelDocument

/-- An offer of PACE by the chip. -/
structure PaceInfo where
  protocol : ObjectIdentifier
  version : UInt32
  /-- The number of a standardized group. -/
  parameterId : Option UInt32
  deriving DecidableEq, Repr

/-- The parameters of an offer, if it refers to a standardized group. -/
def PaceInfo.parameters (info : PaceInfo) : Except Error PaceParameters :=
  match info.parameterId with
  | none => .error (.unsupported .explicitDomainParameters)
  | some number => do
    let group ← PaceParameters.standardGroup number.toNat
    PaceParameters.make info.protocol group

namespace CardAccess

/-- Universal numbers of ASN.1 types. -/
def integerNumber : Nat := 2
def identifierNumber : Nat := 6
def sequenceNumber : Nat := 16
def setNumber : Nat := 17

def identifier? (e : Der.Element) : Option ObjectIdentifier :=
  if e.identifier.isUniversal identifierNumber then ObjectIdentifier.decode? e.contents else none

/-- The identifier of a PACE variant that a security info starts with. -/
def paceProtocol? (first : Der.Element) : Option ObjectIdentifier :=
  (identifier? first).filter fun protocol => (PaceParameters.variantArcs? protocol).isSome

def version? (e : Der.Element) : Option UInt32 :=
  if e.identifier.isUniversal integerNumber then Der.unsigned32? e.contents else none

/-- The fields behind the protocol identifier of a PACE variant. A number that does not fit in 32
bits counts as absent. -/
def paceInfo? (protocol : ObjectIdentifier) : List Der.Element → Option PaceInfo
  | [version] => (version? version).map fun v => ⟨protocol, v, none⟩
  | [version, parameter] =>
    if parameter.identifier.isUniversal integerNumber then
      (version? version).map fun v => ⟨protocol, v, Der.unsigned32? parameter.contents⟩
    else none
  | _ => none

/-- What a security info contributes to the offers: one if it is of a PACE variant, and none
otherwise. -/
def offers? (securityInfo : Der.Element) : Option (List PaceInfo) := do
  match ← securityInfo.children? sequenceNumber with
  | [] => return []
  | first :: fields =>
    match paceProtocol? first with
    | none => return []
    | some protocol => return [← paceInfo? protocol fields]

/-- The offers of PACE in the file, in their order. -/
def decode? (file : Bytes) : Option (List PaceInfo) := do
  let (element, _) ← Der.decode? file
  let securityInfos ← element.children? setNumber
  return (← securityInfos.mapM offers?).flatten

/-- The offers of PACE in the file, or the failure of a session. -/
def decode (file : Bytes) : Except Error (List PaceInfo) :=
  match decode? file with
  | some infos => .ok infos
  | none => .error .cardAccess

end CardAccess
end TravelDocument

import TravelDocument.Cipher.KeyDerivation
import TravelDocument.Encoding.ObjectIdentifier
import TravelDocument.Error
import TravelDocument.Group.KeyAgreement
import TravelDocument.Group.NamedCurve

/-!
# Parameters of PACE

A protocol identifier `id-PACE.mapping.cipher` names the mapping of the nonce together with the kind
of group, and the cipher suite. The group comes with it, in most cases as the number of a
standardized one. Only the generic mapping is supported.
-/

namespace TravelDocument

/-- A run of PACE: the protocol, its cipher suite and the group. -/
structure PaceParameters where
  protocol : ObjectIdentifier
  suite : CipherSuite
  group : KeyAgreement
  deriving DecidableEq

namespace PaceParameters

/-- The identifier `id-PACE`. -/
def root : ObjectIdentifier := [0, 4, 0, 127, 0, 7, 2, 2, 4]

/-- The two arcs behind `id-PACE` in a protocol identifier. -/
def variantArcs? (protocol : ObjectIdentifier) : Option (UInt32 × UInt32) :=
  if protocol.take root.length = root then
    match protocol.drop root.length with
    | [mapping, cipher] => some (mapping, cipher)
    | _ => none
  else none

/-- The identifiers of variants are `id-PACE` with two arcs more. -/
theorem variantArcs?_eq_some_iff {protocol : ObjectIdentifier} {mapping cipher : UInt32} :
    variantArcs? protocol = some (mapping, cipher) ↔ protocol = root ++ [mapping, cipher] := by
  constructor
  · intro h
    rw [variantArcs?] at h
    split at h
    · rename_i htake
      split at h
      · rename_i hdrop
        cases h
        rw [← List.take_append_drop root.length protocol, htake, hdrop]
      · cases h
    · cases h
  · rintro rfl
    rfl

/-- The kind of group of a mapping. -/
def agreementOfArc (mapping : UInt32) : Except Error Agreement :=
  match mapping.toNat with
  | 1 => .ok .diffieHellman
  | 2 => .ok .ellipticCurveDiffieHellman
  | 3 | 4 => .error (.unsupported .integratedMapping)
  | 6 => .error (.unsupported .chipAuthenticationMapping)
  | _ => .error (.unsupported .unknownProtocol)

def suiteOfArc (cipher : UInt32) : Except Error CipherSuite :=
  match cipher.toNat with
  | 1 => .ok .tdes
  | 2 => .ok .aes128
  | 3 => .ok .aes192
  | 4 => .ok .aes256
  | _ => .error (.unsupported .unknownCipherSuite)

/-- Combines a protocol identifier with a group of the matching kind. -/
def make (protocol : ObjectIdentifier) (group : KeyAgreement) : Except Error PaceParameters :=
  match variantArcs? protocol with
  | none => .error (.unsupported .unknownProtocol)
  | some (mapping, cipher) => do
    let agreement ← agreementOfArc mapping
    let suite ← suiteOfArc cipher
    if group.kind = agreement then return ⟨protocol, suite, group⟩
    else throw (.crypto (.domainParameterMismatch agreement))

def standardGroup (number : Nat) : Except Error KeyAgreement :=
  match number with
  | 0 => .ok (.finiteField .modp1024)
  | 1 | 2 => .error (.unsupported .modp2048)
  | 8 => .ok (.ellipticCurve .nistP192)
  | 9 => .ok (.ellipticCurve .brainpoolP192r1)
  | 10 => .ok (.ellipticCurve .nistP224)
  | 11 => .ok (.ellipticCurve .brainpoolP224r1)
  | 12 => .ok (.ellipticCurve .nistP256)
  | 13 => .ok (.ellipticCurve .brainpoolP256r1)
  | 14 => .ok (.ellipticCurve .brainpoolP320r1)
  | 15 => .ok (.ellipticCurve .nistP384)
  | 16 => .ok (.ellipticCurve .brainpoolP384r1)
  | 17 => .ok (.ellipticCurve .brainpoolP512r1)
  | 18 => .ok (.ellipticCurve .nistP521)
  | _ => .error (.unsupported .reservedDomainParameters)

/-- The effective length of a key in bits: two-key triple DES counts 112. -/
def keyBits (params : PaceParameters) : Nat :=
  match params.suite with
  | .tdes => 112
  | suite => 8 * suite.keySize

end PaceParameters
end TravelDocument

import TravelDocument.Text.Quoted

/-!
# Chains of terminal certificates

A chain leads from an issuer the chip trusts to the certificate of an inspection system. Each
certificate names its holder and the authority that issued it. Validation looks at these names and
at the roles only; signatures are for the chip to verify.
-/

namespace TravelDocument

inductive CertificateRole where
  | cvca
  | documentVerifierDomestic
  | documentVerifierForeign
  | inspectionSystem
  deriving DecidableEq, Repr

namespace CertificateRole

def name : CertificateRole → String
  | .cvca => "Cvca"
  | .documentVerifierDomestic => "DocumentVerifierDomestic"
  | .documentVerifierForeign => "DocumentVerifierForeign"
  | .inspectionSystem => "InspectionSystem"

/-- The role in the top two bits of the relative authorization. -/
def ofAuthorization (authorization : UInt8) : CertificateRole :=
  match authorization.toNat / 64 with
  | 3 => .cvca
  | 2 => .documentVerifierDomestic
  | 1 => .documentVerifierForeign
  | _ => .inspectionSystem

end CertificateRole

/-- A card-verifiable certificate. -/
structure Certificate where
  holder : String
  authority : String
  role : CertificateRole
  /-- The certificate body with its tag and length. -/
  body : Bytes
  /-- The signature without tag and length. -/
  signature : Bytes
  deriving DecidableEq, Repr

/-- Structural problems of a chain. -/
inductive ChainError where
  | empty
  | cvcaReference (expected found : String)
  | authorityReference (expected found : String)
  | brokenLink (index : Nat)
  | leafRole (role : CertificateRole)
  deriving DecidableEq, Repr

def ChainError.message : ChainError → String
  | .empty => "certificate chain is empty"
  | .cvcaReference expected found =>
    "CVCA holder reference " ++ Text.quoted found ++ " does not match expected CA reference " ++
      Text.quoted expected
  | .authorityReference expected found =>
    "first certificate is issued by " ++ Text.quoted found ++ ", expected " ++ Text.quoted expected
  | .brokenLink index =>
    "certificate " ++ index.repr ++ " is not issued by the holder of its predecessor"
  | .leafRole role => "last certificate has role " ++ role.name ++ ", expected an inspection system"

/-- A valid chain without the certificate of a CVCA, and the reference of the CVCA that issued
it. -/
structure ValidatedChain where
  caReference : String
  certificates : List Certificate
  deriving DecidableEq, Repr

namespace CertificateChain

/-- The index of the first certificate from `index` on that is not issued by the holder of the one
before, `previous` being the one before the first. -/
def brokenLink? (index : Nat) (previous : Certificate) : List Certificate → Option Nat
  | [] => none
  | c :: rest =>
    if c.authority ≠ previous.holder then some index else brokenLink? (index + 1) c rest

/-- Takes a leading CVCA certificate off, which the chip knows already. Its holder must be the
expected CA, if one is expected, and else becomes it. -/
def dropCvca (expected : Option String) (chain : List Certificate) :
    Except ChainError (Option String × List Certificate) :=
  match chain with
  | [] => .error .empty
  | first :: rest =>
    if first.role = .cvca then
      match expected with
      | some reference =>
        if reference ≠ first.holder then .error (.cvcaReference reference first.holder)
        else .ok (some reference, rest)
      | none => .ok (some first.holder, rest)
    else .ok (expected, chain)

/-- Checks a chain without CVCA certificate. -/
def checkLinks (expected : Option String) : List Certificate → Except ChainError ValidatedChain
  | [] => .error .empty
  | first :: rest =>
    let reference := expected.getD first.authority
    if reference ≠ first.authority then .error (.authorityReference reference first.authority)
    else
      match brokenLink? 1 first rest with
      | some index => .error (.brokenLink index)
      | none =>
        let leaf := (rest.getLast?).getD first
        if leaf.role ≠ .inspectionSystem then .error (.leafRole leaf.role)
        else .ok ⟨reference, first :: rest⟩

/-- Checks the structure of a chain and takes the CVCA certificate off. -/
def validate (expected : Option String) (chain : List Certificate) :
    Except ChainError ValidatedChain := do
  let (reference, certificates) ← dropCvca expected chain
  checkLinks reference certificates

end CertificateChain
end TravelDocument

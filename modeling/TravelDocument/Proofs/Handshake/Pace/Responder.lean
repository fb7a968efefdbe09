import TravelDocument.Proofs.Group.KeyAgreement
import TravelDocument.Proofs.Handshake.Pace.Run
import TravelDocument.Proofs.SecureMessaging.Serving

/-!
# The chip's side of PACE

A `Responder` runs the same protocol with the roles exchanged: it encrypts the nonce that the
terminal decrypts, answers each public key with one of its own after the same checks, and sends its
token only after it has found the one of the terminal right. There is one lemma for each command
that it takes.
-/

namespace TravelDocument.Pace

/-! ## Dynamic authentication data -/

/-- Dynamic authentication data with one object. -/
def dynamicData (tag : Nat) (value : Bytes) : Bytes :=
  DataObject.encode 0x7C (DataObject.encode tag value)

/-- The value of an object in dynamic authentication data. -/
def dynamicObject? (tag : Nat) (data : Bytes) : Option Bytes :=
  (DataObject.single? 0x7C data).bind (DataObject.find? tag)

section

variable {tag : Nat} {value : Bytes}

theorem length_dynamicData_le (ht : tag < 256) (value : Bytes) (hv : value.length < 2 ^ 63) :
    (dynamicData tag value).length ≤ value.length + 20 := by
  have h := DataObject.length_encode_le ht value (by omega)
  have h' : (dynamicData tag value).length ≤ (DataObject.encode tag value).length + 10 :=
    DataObject.length_encode_le (by decide) _ (by omega)
  omega

theorem dynamicData_ne_nil (tag : Nat) (value : Bytes) : dynamicData tag value ≠ [] := by
  have h : Bytes.minimal 0x7C = [0x7C] := Bytes.minimal_of_lt (by decide)
  rw [dynamicData, DataObject.encode, h]
  exact List.cons_ne_nil _ _

theorem dynamicObject?_dynamicData (ht : tag < 256) (h31 : tag % 32 ≠ 31)
    (hv : value.length < 2 ^ 63) :
    dynamicObject? tag (dynamicData tag value) = some value := by
  have h := DataObject.length_encode_le ht value (by omega)
  have hsingle : DataObject.single? 0x7C (dynamicData tag value) =
      some (DataObject.encode tag value) :=
    DataObject.single?_encode (DataObject.endsItself_of_lt (by decide) (by decide)) (by omega)
  rw [dynamicObject?, hsingle, Option.bind_some]
  exact DataObject.find?_encode (DataObject.endsItself_of_lt ht h31) (by omega)

/-- The terminal finds the object in an answer of the step. -/
theorem Step.answer_dynamicData (step : Step) (ht : step.responseTag < 256)
    (h31 : step.responseTag % 32 ≠ 31) (hv : value.length < 2 ^ 63) :
    step.answer (dynamicData step.responseTag value) = .ok value := by
  obtain ⟨objects, ho, hv⟩ := Option.bind_eq_some_iff.1 (dynamicObject?_dynamicData ht h31 hv)
  simp only [Step.answer, ho, hv]

/-- The command of a step fits into memory if the object in it does. -/
theorem Step.length_request_lt {step : Step} (ht : tag < 256) (hv : value.length + 20 < 2 ^ 63) :
    ∀ data ∈ (step.command (DataObject.encode tag value)).body.request,
      data.length < 2 ^ 63 := by
  intro data hdata
  have hlength := length_dynamicData_le ht value (by omega)
  rw [Apdu.Body.eq_of_mem_request_shortest hdata]
  exact Nat.lt_of_le_of_lt hlength hv

/-- The commands of a course fit into memory if what they carry does. -/
theorem Course.length_request_lt {course : Course} {password : PacePassword}
    (hp : course.protocol.length = 10) (hm : course.ownMapping.length + 20 < 2 ^ 63)
    (ha : course.agreed.own.length + 20 < 2 ^ 63) (ho : course.outgoing.length + 20 < 2 ^ 63) :
    ∀ e ∈ course.exchanges password, ∀ data ∈ e.1.body.request, data.length < 2 ^ 63 := by
  intro e he data hdata
  simp only [Course.exchanges, List.mem_cons, List.not_mem_nil, or_false] at he
  rcases he with rfl | rfl | rfl | rfl | rfl
  · have h80 := DataObject.length_encode_le (show 0x80 < 256 by decide) course.protocol (by omega)
    have h83 := DataObject.length_encode_le (show 0x83 < 256 by decide) [password.reference]
      (show 1 < 2 ^ 64 by decide)
    rw [Apdu.Body.eq_of_mem_request_shortest hdata, List.length_append]
    simp only [List.length_singleton] at h83
    omega
  · have h7C := DataObject.length_encode_le (show 0x7C < 256 by decide) []
      (show 0 < 2 ^ 64 by decide)
    rw [Apdu.Body.eq_of_mem_request_shortest hdata]
    exact Nat.lt_of_le_of_lt h7C (by decide)
  · exact Step.length_request_lt (by decide) hm data hdata
  · exact Step.length_request_lt (by decide) ha data hdata
  · exact Step.length_request_lt (by decide) ho data hdata

end

/-! ## Tokens and protocol identifiers -/

/-- An arc below 128 is one byte. -/
theorem subidentifier_of_lt {n : Nat} (h : n < 128) :
    ObjectIdentifier.subidentifier n = [UInt8.ofNat n] := by
  rw [ObjectIdentifier.subidentifier, ObjectIdentifier.leadingGroups, if_pos (by omega),
    Nat.mod_eq_of_lt h, List.nil_append]

theorem arc_lt_of_agreementOfArc {mapping : UInt32} {agreement : Agreement}
    (h : PaceParameters.agreementOfArc mapping = .ok agreement) : mapping.toNat < 128 := by
  rw [PaceParameters.agreementOfArc] at h
  split at h
  all_goals first
    | omega
    | cases h

theorem arc_lt_of_suiteOfArc {cipher : UInt32} {suite : CipherSuite}
    (h : PaceParameters.suiteOfArc cipher = .ok suite) : cipher.toNat < 128 := by
  rw [PaceParameters.suiteOfArc] at h
  split at h
  all_goals first
    | omega
    | cases h

/-- Parameters come with a protocol identifier that has an encoding of ten bytes. -/
theorem encodeProtocol_of_make {protocol : ObjectIdentifier} {group : KeyAgreement}
    {params : PaceParameters} (h : PaceParameters.make protocol group = .ok params) :
    ∃ b, encodeProtocol params.protocol = .ok b ∧ b.length = 10 := by
  rw [PaceParameters.make] at h
  split at h
  · cases h
  · rename_i mapping cipher harcs
    obtain ⟨agreement, hagreement, h⟩ := Except.bind_eq_ok.1 h
    obtain ⟨suite, hsuite, h⟩ := Except.bind_eq_ok.1 h
    have hp : params.protocol = PaceParameters.root ++ [mapping, cipher] := by
      rw [← PaceParameters.variantArcs?_eq_some_iff.1 harcs]
      split at h
      · cases h
        rfl
      · cases h
    have hencode : ObjectIdentifier.encode? params.protocol =
        some ([0x04, 0x00, 0x7F, 0x00, 0x07, 0x02, 0x02, 0x04] ++
          [UInt8.ofNat mapping.toNat, UInt8.ofNat cipher.toNat]) := by
      rw [hp, PaceParameters.root]
      simp [ObjectIdentifier.encode?, ObjectIdentifier.encode, UInt32.size, Except.toOption,
        subidentifier_of_lt, arc_lt_of_agreementOfArc hagreement, arc_lt_of_suiteOfArc hsuite]
    rw [encodeProtocol, hencode]
    exact ⟨_, rfl, rfl⟩

theorem token_spec {params : PaceParameters} {protocol : Bytes}
    (hp : encodeProtocol params.protocol = .ok protocol) (secret publicKey : Bytes) :
    ∃ t, token params (params.suite.deriveSessionKeys secret).mac publicKey = .ok t ∧
      t.length = Mac.size := by
  have hk : (params.suite.deriveSessionKeys secret).mac.length = params.suite.keySize :=
    params.suite.length_deriveKey .mac secret
  obtain ⟨t, ht, hl⟩ := CipherSuite.mac_spec hk (tokenInput params protocol publicKey)
  refine ⟨t, ?_, hl⟩
  rw [token, hp]
  exact congrArg liftCrypto ht

/-! ## The chip -/

/-- What a chip knows before it starts. -/
structure Responder where
  params : PaceParameters
  password : PacePassword
  nonce : Bytes
  privateKeys : PrivateKeys

namespace Responder

/-- How far a chip has come. -/
inductive State where
  | idle
  | selected
  | nonceSent
  | mapped (group : KeyAgreement)
  | agreed (agreed : Agreed)
  /-- The token of the terminal was right. -/
  | established (keys : SessionKeys)

/-- The value of an object in the command of a step. -/
def received? (step : Step) (tag : Nat) (instruction : Instruction) : Option Bytes :=
  if instruction.header = Channel.maskHeader (step.command []).header then
    instruction.request.bind (dynamicObject? tag)
  else none

variable (chip : Responder)

def select (instruction : Instruction) : Option (Bytes × State) := do
  let protocol ← (encodeProtocol chip.params.protocol).toOption
  if instruction = .ofCommand (setTemplateCommand protocol chip.password.reference) then
    return ([], .selected)
  else none

def sendNonce (instruction : Instruction) : Option (Bytes × State) := do
  if instruction = .ofCommand (nonceStep.command []) then
    let key := chip.params.suite.deriveKey .password chip.password.secret
    let encrypted ← (chip.params.suite.encrypt key chip.params.suite.zeroIv chip.nonce).toOption
    return (dynamicData 0x80 encrypted, .nonceSent)
  else none

def mapNonce (instruction : Instruction) : Option (Bytes × State) := do
  let other ← received? mappingStep 0x81 instruction
  let own ← (chip.params.group.publicKey chip.privateKeys.mapping).toOption
  (checkDifferent own other).toOption
  let group ←
    (chip.params.group.mapNonce (Bytes.toNat chip.nonce) chip.privateKeys.mapping other).toOption
  return (dynamicData 0x82 own, .mapped group)

def agree (group : KeyAgreement) (instruction : Instruction) : Option (Bytes × State) := do
  let other ← received? agreementStep 0x83 instruction
  let own ← (group.publicKey chip.privateKeys.agreement).toOption
  (checkDifferent own other).toOption
  let secret ← (group.sharedSecret chip.privateKeys.agreement other).toOption
  return (dynamicData 0x84 own, .agreed ⟨own, other, secret⟩)

def authenticate (agreed : Agreed) (instruction : Instruction) : Option (Bytes × State) := do
  let keys := chip.params.suite.deriveSessionKeys agreed.secret
  let incoming ← received? tokenStep 0x85 instruction
  let expected ← (token chip.params keys.mac agreed.own).toOption
  let outgoing ← (token chip.params keys.mac agreed.other).toOption
  if incoming = expected then return (dynamicData 0x86 outgoing, .established keys) else none

/-- Takes the next command. -/
def step : State → Instruction → Option (Bytes × State)
  | .idle => chip.select
  | .selected => chip.sendNonce
  | .nonceSent => chip.mapNonce
  | .mapped group => chip.agree group
  | .agreed agreed => chip.authenticate agreed
  | .established _ => fun _ => none

def card : InnerCard State := .ofStep chip.step

/-! ## What it answers -/

variable {chip}

theorem received?_command (step : Step) {tag : Nat} (ht : tag < 256) (h31 : tag % 32 ≠ 31)
    {value : Bytes} (hv : value.length < 2 ^ 63) :
    received? step tag (.ofCommand (step.command (DataObject.encode tag value))) = some value := by
  have hreq : (step.command (DataObject.encode tag value)).body.request =
      some (dynamicData tag value) :=
    Apdu.Body.request_shortest (dynamicData_ne_nil tag value) _
  refine (if_pos rfl).trans ?_
  rw [Instruction.ofCommand, hreq, Option.bind_some, dynamicObject?_dynamicData ht h31 hv]

theorem answer_select {protocol : Bytes} (hp : encodeProtocol chip.params.protocol = .ok protocol) :
    chip.card.answer .idle (.ofCommand (setTemplateCommand protocol chip.password.reference)) =
      (⟨[], .success⟩, .selected) := by
  refine InnerCard.answer_ofStep ?_ (by decide)
  simp [step, select, hp, Except.toOption]

theorem answer_sendNonce {encrypted : Bytes}
    (he : chip.params.suite.encrypt (chip.params.suite.deriveKey .password chip.password.secret)
      chip.params.suite.zeroIv chip.nonce = .ok encrypted)
    (hl : encrypted.length + 20 < 2 ^ 63) :
    chip.card.answer .selected (.ofCommand (nonceStep.command [])) =
      (⟨dynamicData 0x80 encrypted, .success⟩, .nonceSent) := by
  have hlength := length_dynamicData_le (show 0x80 < 256 by decide) encrypted (by omega)
  refine InnerCard.answer_ofStep ?_ (by omega)
  simp [step, sendNonce, he, Except.toOption]

theorem answer_mapNonce {own other : Bytes} {group : KeyAgreement}
    (ho : chip.params.group.publicKey chip.privateKeys.mapping = .ok own) (hne : own ≠ other)
    (hm : chip.params.group.mapNonce (Bytes.toNat chip.nonce)
      chip.privateKeys.mapping other = .ok group)
    (hown : own.length + 20 < 2 ^ 63) (hother : other.length < 2 ^ 63) :
    chip.card.answer .nonceSent (.ofCommand (mappingStep.command (DataObject.encode 0x81 other))) =
      (⟨dynamicData 0x82 own, .success⟩, .mapped group) := by
  have hlength := length_dynamicData_le (show 0x82 < 256 by decide) own (by omega)
  have hr := received?_command mappingStep (show 0x81 < 256 by decide) (by decide) hother
  refine InnerCard.answer_ofStep ?_ (by omega)
  simp [step, mapNonce, hr, ho, checkDifferent_eq_ok.2 hne, hm, Except.toOption]

theorem answer_agree {own other secret : Bytes} {group : KeyAgreement}
    (ho : group.publicKey chip.privateKeys.agreement = .ok own) (hne : own ≠ other)
    (hs : group.sharedSecret chip.privateKeys.agreement other = .ok secret)
    (hown : own.length + 20 < 2 ^ 63) (hother : other.length < 2 ^ 63) :
    chip.card.answer (.mapped group)
        (.ofCommand (agreementStep.command (DataObject.encode 0x83 other))) =
      (⟨dynamicData 0x84 own, .success⟩, .agreed ⟨own, other, secret⟩) := by
  have hlength := length_dynamicData_le (show 0x84 < 256 by decide) own (by omega)
  have hr := received?_command agreementStep (show 0x83 < 256 by decide) (by decide) hother
  refine InnerCard.answer_ofStep ?_ (by omega)
  simp [step, agree, hr, ho, checkDifferent_eq_ok.2 hne, hs, Except.toOption]

theorem answer_authenticate {agreed : Agreed} {incoming outgoing : Bytes}
    (hi : token chip.params (chip.params.suite.deriveSessionKeys agreed.secret).mac agreed.own =
      .ok incoming)
    (ho : token chip.params (chip.params.suite.deriveSessionKeys agreed.secret).mac agreed.other =
      .ok outgoing)
    (hil : incoming.length = Mac.size) (hol : outgoing.length = Mac.size) :
    chip.card.answer (.agreed agreed)
      (.ofCommand (tokenStep.command (DataObject.encode 0x85 incoming))) =
      (⟨dynamicData 0x86 outgoing, .success⟩,
        .established (chip.params.suite.deriveSessionKeys agreed.secret)) := by
  have h8 : Mac.size = 8 := rfl
  have hlength := length_dynamicData_le (show 0x86 < 256 by decide) outgoing (by omega)
  have hr := received?_command tokenStep (show 0x85 < 256 by decide) (by decide)
    (show incoming.length < 2 ^ 63 by omega)
  refine InnerCard.answer_ofStep ?_ (by omega)
  simp [step, authenticate, hr, hi, ho, Except.toOption]

end Responder
end TravelDocument.Pace

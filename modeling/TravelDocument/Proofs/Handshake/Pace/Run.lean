import Mathlib.Tactic.MkIffOfInductiveProp
import TravelDocument.Handshake.Pace.Protocol
import TravelDocument.Proofs.Dialogue.Completion

/-!
# What happens when PACE succeeds

A `Course` is everything that a successful run has sent, received and computed, and `Course.Valid`
says how these belong together. `run_establishWith_eq_ok` shows that a run succeeds exactly when
there is a valid course whose five commands were sent and answered as it says.
-/

namespace TravelDocument.Pace

/-- What a run has received and computed. The data of the five answers comes first. -/
structure Course where
  templateData : Bytes
  nonceData : Bytes
  mappingData : Bytes
  agreementData : Bytes
  tokenData : Bytes
  /-- The encoded protocol identifier. -/
  protocol : Bytes
  encryptedNonce : Bytes
  nonce : Nat
  ownMapping : Bytes
  otherMapping : Bytes
  mapped : KeyAgreement
  agreed : Agreed
  /-- The token of the terminal. -/
  outgoing : Bytes
  /-- The token of the chip. -/
  incoming : Bytes

namespace Course

/-- The session keys. -/
def keys (params : PaceParameters) (course : Course) : SessionKeys :=
  params.suite.deriveSessionKeys course.agreed.secret

/-- The five commands and the data of their answers. -/
def exchanges (password : PacePassword) (course : Course) : List (Apdu.Command × Bytes) :=
  [(setTemplateCommand course.protocol password.reference, course.templateData),
    (nonceStep.command [], course.nonceData),
    (mappingStep.command (DataObject.encode 0x81 course.ownMapping), course.mappingData),
    (agreementStep.command (DataObject.encode 0x83 course.agreed.own), course.agreementData),
    (tokenStep.command (DataObject.encode 0x85 course.outgoing), course.tokenData)]

/-- What the card has to replay for the course. -/
def answers (course : Course) : List Bytes :=
  [course.templateData, course.nonceData, course.mappingData, course.agreementData,
    course.tokenData].map fun data => (⟨data, .success⟩ : Apdu.Response).encode

/-- The answers hold what was received, and everything else was computed from it. -/
@[mk_iff]
structure Valid (params : PaceParameters) (password : PacePassword) (privateKeys : PrivateKeys)
    (course : Course) : Prop where
  protocol : encodeProtocol params.protocol = .ok course.protocol
  encryptedNonce : nonceStep.answer course.nonceData = .ok course.encryptedNonce
  nonce : decryptNonce params password course.encryptedNonce = .ok course.nonce
  ownMapping : params.group.publicKey privateKeys.mapping = .ok course.ownMapping
  otherMapping : mappingStep.answer course.mappingData = .ok course.otherMapping
  mapping_ne : course.ownMapping ≠ course.otherMapping
  mapped : params.group.mapNonce course.nonce privateKeys.mapping course.otherMapping =
    .ok course.mapped
  own : course.mapped.publicKey privateKeys.agreement = .ok course.agreed.own
  other : agreementStep.answer course.agreementData = .ok course.agreed.other
  agreement_ne : course.agreed.own ≠ course.agreed.other
  secret : course.mapped.sharedSecret privateKeys.agreement course.agreed.other =
    .ok course.agreed.secret
  outgoing : token params (course.keys params).mac course.agreed.other = .ok course.outgoing
  incoming : tokenStep.answer course.tokenData = .ok course.incoming
  expected : token params (course.keys params).mac course.agreed.own = .ok course.incoming

instance (params : PaceParameters) (password : PacePassword) (privateKeys : PrivateKeys)
    (course : Course) : Decidable (course.Valid params password privateKeys) :=
  decidable_of_iff _ (valid_iff params password privateKeys course).symm

end Course

/-! ## The steps -/

theorem checkDifferent_eq_ok {own other : Bytes} :
    checkDifferent own other = .ok () ↔ own ≠ other := by
  rw [checkDifferent]
  split
  · rename_i heq
    constructor
    · intro h
      cases h
    · exact fun hne => absurd heq hne
  · rename_i hne
    exact ⟨fun _ => hne, fun _ => rfl⟩

variable {σ : Type} {card : Card σ} {link after : Link σ} {params : PaceParameters}
  {password : PacePassword}

theorem decryptNonce_eq_ok {encrypted : Bytes} {nonce : Nat} :
    decryptNonce params password encrypted = .ok nonce ↔
      ∃ plain, params.suite.decrypt (params.suite.deriveKey .password password.secret)
        params.suite.zeroIv encrypted = .ok plain ∧ nonce = Bytes.toNat plain := by
  rw [decryptNonce, Except.bind_eq_ok]
  constructor
  · rintro ⟨plain, hp, hn⟩
    cases hn
    exact ⟨plain, hp, rfl⟩
  · rintro ⟨plain, hp, rfl⟩
    exact ⟨plain, hp, rfl⟩

theorem run_exchange_eq_ok {step : Step} {objects value : Bytes} :
    (step.exchange objects).run card link = (.ok value, after) ↔
      ∃ data, step.answer data = .ok value ∧
        link.transmit card (step.command objects) = (.ok ⟨data, .success⟩, after) := by
  simp only [Step.exchange, Dialogue.run_bind_eq_ok, Dialogue.run_expectSuccess_eq_ok,
    Dialogue.run_ofExcept_eq_ok]
  constructor
  · rintro ⟨⟨data, _⟩, _, ⟨rfl, ht⟩, ha, rfl⟩
    exact ⟨data, ha, ht⟩
  · rintro ⟨data, ha, ht⟩
    exact ⟨_, _, ⟨rfl, ht⟩, ha, rfl⟩

theorem run_setTemplate_eq_ok {u : Unit} :
    (setTemplate params password).run card link = (.ok u, after) ↔
      ∃ protocol data, encodeProtocol params.protocol = .ok protocol ∧
        link.transmit card (setTemplateCommand protocol password.reference) =
          (.ok ⟨data, .success⟩, after) := by
  simp only [setTemplate, Dialogue.run_bind_eq_ok, Dialogue.run_expectSuccess_eq_ok,
    Dialogue.run_ofExcept_eq_ok, Dialogue.run_pure_eq_ok]
  constructor
  · rintro ⟨protocol, _, ⟨hp, rfl⟩, ⟨data, _⟩, _, ⟨rfl, ht⟩, -, rfl⟩
    exact ⟨protocol, data, hp, ht⟩
  · rintro ⟨protocol, data, hp, ht⟩
    exact ⟨protocol, _, ⟨hp, rfl⟩, _, _, ⟨rfl, ht⟩, trivial, rfl⟩

theorem run_obtainNonce_eq_ok {nonce : Nat} :
    (obtainNonce params password).run card link = (.ok nonce, after) ↔
      ∃ data encrypted, nonceStep.answer data = .ok encrypted ∧
        decryptNonce params password encrypted = .ok nonce ∧
        link.transmit card (nonceStep.command []) = (.ok ⟨data, .success⟩, after) := by
  simp only [obtainNonce, Dialogue.run_bind_eq_ok, run_exchange_eq_ok, Dialogue.run_ofCrypto_eq_ok]
  constructor
  · rintro ⟨encrypted, _, ⟨data, ha, ht⟩, hd, rfl⟩
    exact ⟨data, encrypted, ha, hd, ht⟩
  · rintro ⟨data, encrypted, ha, hd, ht⟩
    exact ⟨encrypted, _, ⟨data, ha, ht⟩, hd, rfl⟩

theorem run_mapNonce_eq_ok {group mapped : KeyAgreement} {nonce privateKey : Nat} :
    (mapNonce group nonce privateKey).run card link = (.ok mapped, after) ↔
      ∃ own data other, group.publicKey privateKey = .ok own ∧
        mappingStep.answer data = .ok other ∧
        own ≠ other ∧ group.mapNonce nonce privateKey other = .ok mapped ∧
        link.transmit card (mappingStep.command (DataObject.encode 0x81 own)) =
          (.ok ⟨data, .success⟩, after) := by
  simp only [mapNonce, Dialogue.run_bind_eq_ok, run_exchange_eq_ok, Dialogue.run_ofCrypto_eq_ok]
  constructor
  · rintro ⟨own, _, ⟨ho, rfl⟩, other, _, ⟨data, ha, ht⟩, _, _, ⟨hne, rfl⟩, hm, rfl⟩
    exact ⟨own, data, other, ho, ha, checkDifferent_eq_ok.1 hne, hm, ht⟩
  · rintro ⟨own, data, other, ho, ha, hne, hm, ht⟩
    exact ⟨own, _, ⟨ho, rfl⟩, other, _, ⟨data, ha, ht⟩, _, _,
      ⟨checkDifferent_eq_ok.2 hne, rfl⟩, hm, rfl⟩

theorem run_agree_eq_ok {group : KeyAgreement} {privateKey : Nat} {agreed : Agreed} :
    (agree group privateKey).run card link = (.ok agreed, after) ↔
      ∃ data, group.publicKey privateKey = .ok agreed.own ∧
        agreementStep.answer data = .ok agreed.other ∧ agreed.own ≠ agreed.other ∧
        group.sharedSecret privateKey agreed.other = .ok agreed.secret ∧
        link.transmit card (agreementStep.command (DataObject.encode 0x83 agreed.own)) =
          (.ok ⟨data, .success⟩, after) := by
  simp only [agree, Dialogue.run_bind_eq_ok, run_exchange_eq_ok, Dialogue.run_ofCrypto_eq_ok,
    Dialogue.run_pure_eq_ok]
  constructor
  · rintro ⟨own, _, ⟨ho, rfl⟩, other, _, ⟨data, ha, ht⟩, _, _, ⟨hne, rfl⟩, secret, _,
      ⟨hs, rfl⟩, rfl, rfl⟩
    exact ⟨data, ho, ha, checkDifferent_eq_ok.1 hne, hs, ht⟩
  · rintro ⟨data, ho, ha, hne, hs, ht⟩
    exact ⟨agreed.own, _, ⟨ho, rfl⟩, agreed.other, _, ⟨data, ha, ht⟩, _, _,
      ⟨checkDifferent_eq_ok.2 hne, rfl⟩, agreed.secret, _, ⟨hs, rfl⟩, rfl, rfl⟩

theorem run_authenticate_eq_ok {macKey : Bytes} {agreed : Agreed} {u : Unit} :
    (authenticate params macKey agreed).run card link = (.ok u, after) ↔
      ∃ outgoing data incoming, token params macKey agreed.other = .ok outgoing ∧
        tokenStep.answer data = .ok incoming ∧ token params macKey agreed.own = .ok incoming ∧
        link.transmit card (tokenStep.command (DataObject.encode 0x85 outgoing)) =
          (.ok ⟨data, .success⟩, after) := by
  simp only [authenticate, Dialogue.run_bind_eq_ok, run_exchange_eq_ok, Dialogue.run_ofExcept_eq_ok]
  constructor
  · rintro ⟨outgoing, _, ⟨ho, rfl⟩, expected, _, ⟨he, rfl⟩, incoming, _,
      ⟨data, ha, ht⟩, hcheck⟩
    split at hcheck
    · rename_i heq
      subst heq
      obtain ⟨-, rfl⟩ := Dialogue.run_pure_eq_ok.1 hcheck
      exact ⟨outgoing, data, incoming, ho, ha, he, ht⟩
    · cases hcheck
  · rintro ⟨outgoing, data, incoming, ho, ha, he, ht⟩
    refine ⟨outgoing, _, ⟨ho, rfl⟩, incoming, _, ⟨he, rfl⟩, incoming, _,
      ⟨data, ha, ht⟩, ?_⟩
    rw [if_pos rfl]
    rfl

/-! ## The protocol -/

/-- **PACE succeeds exactly along a valid course.** -/
theorem run_establishWith_eq_ok {privateKeys : PrivateKeys} {c : Channel} :
    (establishWith params password privateKeys).run card link = (.ok c, after) ↔
      ∃ course : Course, course.Valid params password privateKeys ∧
        Link.Exchanged card link (course.exchanges password) after ∧
        Channel.make params.suite (course.keys params)
          (initialCounter params.suite (after.channel.map (·.counter))) = .ok c := by
  simp only [establishWith, Dialogue.run_bind_eq_ok, run_setTemplate_eq_ok, run_obtainNonce_eq_ok,
    run_mapNonce_eq_ok, run_agree_eq_ok, run_authenticate_eq_ok, Dialogue.run_activeCounter_eq_ok,
    Dialogue.run_ofCrypto_eq_ok]
  constructor
  · rintro ⟨_, _, ⟨protocol, templateData, hprotocol, ht₁⟩, nonce, _,
      ⟨nonceData, encrypted, hencrypted, hnonce, ht₂⟩, mapped, _,
      ⟨ownMapping, mappingData, otherMapping, hown, hother, hne, hmapped, ht₃⟩, agreed, _,
      ⟨agreementData, hown', hother', hne', hsecret, ht₄⟩, _, _,
      ⟨outgoing, tokenData, incoming, hout, hin, hexpected, ht₅⟩,
      _, _, ⟨rfl, rfl⟩, hmake, rfl⟩
    exact ⟨⟨templateData, nonceData, mappingData, agreementData, tokenData, protocol,
      encrypted, nonce,
        ownMapping, otherMapping, mapped, agreed, outgoing, incoming⟩,
      ⟨hprotocol, hencrypted, hnonce, hown, hother, hne, hmapped, hown', hother', hne',
        hsecret, hout, hin, hexpected⟩,
      .next ht₁ (.next ht₂ (.next ht₃ (.next ht₄ (.next ht₅ (.none _))))), hmake⟩
  · rintro ⟨course, h, hexchanged, hmake⟩
    -- there are five exchanges, and taken apart they are the five steps
    obtain _ | ⟨ht₁, _ | ⟨ht₂,
      _ | ⟨ht₃, _ | ⟨ht₄, _ | ⟨ht₅, _ | _⟩⟩⟩⟩⟩ := hexchanged
    exact ⟨(), _, ⟨_, _, h.protocol, ht₁⟩, _, _,
      ⟨_, _, h.encryptedNonce, h.nonce, ht₂⟩, _, _,
      ⟨_, _, _, h.ownMapping, h.otherMapping, h.mapping_ne, h.mapped, ht₃⟩, course.agreed, _,
      ⟨_, h.own, h.other, h.agreement_ne, h.secret, ht₄⟩, (), _,
      ⟨_, _, _, h.outgoing, h.incoming, h.expected, ht₅⟩, _, _, ⟨rfl, rfl⟩, hmake, rfl⟩

/-- A valid course happens if a card replays its answers, over a link without a channel. -/
theorem Course.Valid.replay {course : Course} {privateKeys : PrivateKeys}
    (h : course.Valid params password privateKeys)
    (he : ∀ e ∈ course.exchanges password, e.1.encode.isOk = true) {link : Link (List Bytes)}
    (hcard : link.card = course.answers) (hc : link.channel = none) : ∃ c after,
      (establishWith params password privateKeys).run Card.replay link = (.ok c, after) ∧
        Link.Exchanged Card.replay link (course.exchanges password) after := by
  obtain ⟨after, hexchanged⟩ := Link.Exchanged.replay hcard hc he
  obtain ⟨c, hmake, -⟩ := Channel.make_derived params.suite course.agreed.secret
    (initialCounter params.suite (after.channel.map (·.counter)))
  exact ⟨c, after, run_establishWith_eq_ok.2 ⟨course, h, hexchanged, hmake⟩, hexchanged⟩

/-- Parameters for examples: the powers of 4 modulo 263. -/
def smallParameters : PaceParameters where
  protocol := PaceParameters.root ++ [1, 1]
  suite := .tdes
  group := .finiteField ⟨263, 64, 4, 131⟩

end TravelDocument.Pace

import TravelDocument.Proofs.Handshake.Pace.Responder

/-!
# PACE with a chip that knows the password

If terminal and chip know the same password, no key computation of either side fails and their
public keys differ, then the run succeeds and both sides hold the same keys, over a plain link as
well as over a channel (`establishWith_agrees`). What carries the proof is that the course of the
run can be written down beforehand (`Responder.course`): the nonce is what the chip has encrypted,
and the group laws make both sides map it to the same group and agree on the same secret.
-/

namespace TravelDocument.Pace

/-- A new channel can take over the counter of any other. -/
theorem initialCounter_mod (suite : CipherSuite) (previous : Channel) :
    initialCounter suite (some previous.counter) % suite.counterRange =
      initialCounter suite (some previous.counter) := by
  by_cases h : suite = .tdes
  · subst h
    rfl
  · apply Nat.mod_eq_of_lt
    cases suite with
    | tdes => exact absurd rfl h
    | aes128 | aes192 | aes256 => exact previous.counter_lt_of_ne h

/-- What one side computes. -/
structure Side where
  mappingKey : Bytes
  mapped : KeyAgreement
  agreementKey : Bytes
  secret : Bytes

/-- The key computations of one side succeed, on the public keys of the other. -/
structure Side.Computed (group : KeyAgreement) (nonce : Nat) (privateKeys : PrivateKeys)
    (own other : Side) : Prop where
  mappingKey : group.publicKey privateKeys.mapping = .ok own.mappingKey
  mapped : group.mapNonce nonce privateKeys.mapping other.mappingKey = .ok own.mapped
  agreementKey : own.mapped.publicKey privateKeys.agreement = .ok own.agreementKey
  secret : own.mapped.sharedSecret privateKeys.agreement other.agreementKey = .ok own.secret

namespace Side

variable {group : KeyAgreement} {nonce : Nat} {privateKeys otherKeys : PrivateKeys}
  {own other : Side}

theorem Computed.mapped_eq (h : own.Computed group nonce privateKeys other)
    (h' : other.Computed group nonce otherKeys own) (hs : group.Sound) :
    own.mapped = other.mapped :=
  KeyAgreement.mapNonce_comm hs h.mappingKey h'.mappingKey h.mapped h'.mapped

/-- **Both sides share the same secret.** -/
theorem Computed.secret_eq (h : own.Computed group nonce privateKeys other)
    (h' : other.Computed group nonce otherKeys own) (hs : group.Sound) :
    own.secret = other.secret := by
  have hmapped := h.mapped_eq h' hs
  have ha := h'.agreementKey
  have hsecret := h'.secret
  rw [← hmapped] at ha hsecret
  exact KeyAgreement.sharedSecret_comm (hs.mapNonce h.mapped).1 h.agreementKey ha h.secret hsecret

end Side

/-- What terminal and chip send each other besides their public keys. -/
structure Messages where
  protocol : Bytes
  encryptedNonce : Bytes
  /-- The token of the terminal. -/
  outgoing : Bytes
  /-- The token of the chip. -/
  incoming : Bytes

/-- The messages are computed from what the chip knows and from the keys of both sides. -/
structure Messages.Computed (chip : Responder) (own other : Side) (messages : Messages) : Prop where
  protocol : encodeProtocol chip.params.protocol = .ok messages.protocol
  length_protocol : messages.protocol.length = 10
  encrypt : chip.params.suite.encrypt (chip.params.suite.deriveKey .password chip.password.secret)
    chip.params.suite.zeroIv chip.nonce = .ok messages.encryptedNonce
  length_encryptedNonce : messages.encryptedNonce.length = chip.nonce.length
  decrypt : chip.params.suite.decrypt (chip.params.suite.deriveKey .password chip.password.secret)
    chip.params.suite.zeroIv messages.encryptedNonce = .ok chip.nonce
  outgoing : token chip.params (chip.params.suite.deriveSessionKeys own.secret).mac
    other.agreementKey = .ok messages.outgoing
  length_outgoing : messages.outgoing.length = Mac.size
  incoming : token chip.params (chip.params.suite.deriveSessionKeys own.secret).mac
    own.agreementKey = .ok messages.incoming
  length_incoming : messages.incoming.length = Mac.size

/-- The course of a run with a chip. -/
def Responder.course (chip : Responder) (own other : Side) (messages : Messages) : Course where
  templateData := []
  nonceData := dynamicData 0x80 messages.encryptedNonce
  mappingData := dynamicData 0x82 other.mappingKey
  agreementData := dynamicData 0x84 other.agreementKey
  tokenData := dynamicData 0x86 messages.incoming
  protocol := messages.protocol
  encryptedNonce := messages.encryptedNonce
  nonce := Bytes.toNat chip.nonce
  ownMapping := own.mappingKey
  otherMapping := other.mappingKey
  mapped := own.mapped
  agreed := ⟨own.agreementKey, other.agreementKey, own.secret⟩
  outgoing := messages.outgoing
  incoming := messages.incoming

/-- A terminal with the given private keys and a chip can come to an agreement: neither meets a
failure in its key computations, and their public keys differ in both steps. -/
structure Compatible (chip : Responder) (privateKeys : PrivateKeys) (own other : Side) : Prop where
  sound : chip.params.group.Sound
  blocks : chip.nonce.length % chip.params.suite.blockSize = 0
  ownComputed : own.Computed chip.params.group (Bytes.toNat chip.nonce) privateKeys other
  otherComputed : other.Computed chip.params.group (Bytes.toNat chip.nonce) chip.privateKeys own
  mapping_ne : own.mappingKey ≠ other.mappingKey
  agreement_ne : own.agreementKey ≠ other.agreementKey
  /-- The answers of the chip fit into memory. -/
  nonce_fits : chip.nonce.length + 20 < 2 ^ 63
  keys_fit : chip.params.group.publicKeySize + 20 < 2 ^ 63

namespace Compatible

variable {chip : Responder} {privateKeys : PrivateKeys} {own other : Side}

theorem length_keys (h : Compatible chip privateKeys own other) :
    own.mappingKey.length + 20 < 2 ^ 63 ∧ other.mappingKey.length + 20 < 2 ^ 63 ∧
      own.agreementKey.length + 20 < 2 ^ 63 ∧ other.agreementKey.length + 20 < 2 ^ 63 := by
  have hfit := h.keys_fit
  have hown := (h.sound.mapNonce h.ownComputed.mapped).2.1
  have hother := (h.sound.mapNonce h.otherComputed.mapped).2.1
  rw [KeyAgreement.length_publicKey h.ownComputed.mappingKey,
    KeyAgreement.length_publicKey h.otherComputed.mappingKey,
    KeyAgreement.length_publicKey h.ownComputed.agreementKey, hown,
    KeyAgreement.length_publicKey h.otherComputed.agreementKey, hother]
  exact ⟨hfit, hfit, hfit, hfit⟩

/-- The messages of a run can be computed. -/
theorem exists_messages (h : Compatible chip privateKeys own other) {protocol : Bytes}
    (hp : encodeProtocol chip.params.protocol = .ok protocol) (hpl : protocol.length = 10) :
    ∃ messages : Messages, messages.Computed chip own other := by
  obtain ⟨encrypted, hencrypt, hel, hdecrypt⟩ :=
    CipherSuite.encrypt_spec (chip.params.suite.length_deriveKey .password chip.password.secret)
      chip.params.suite.length_zeroIv h.blocks
  obtain ⟨outgoing, hout, houtl⟩ := token_spec hp own.secret other.agreementKey
  obtain ⟨incoming, hin, hinl⟩ := token_spec hp own.secret own.agreementKey
  exact ⟨⟨protocol, encrypted, outgoing, incoming⟩, hp, hpl, hencrypt, hel, hdecrypt,
    hout, houtl, hin, hinl⟩

section

variable {messages : Messages}

/-- **The course is valid for the terminal.** -/
theorem course_valid (h : Compatible chip privateKeys own other)
    (hm : messages.Computed chip own other) :
    (chip.course own other messages).Valid chip.params chip.password privateKeys := by
  obtain ⟨-, hotherMapping, -, hother⟩ := h.length_keys
  have hnonce := h.nonce_fits
  have hmac : Mac.size = 8 := rfl
  have hel := hm.length_encryptedNonce
  have hinl := hm.length_incoming
  exact
    { protocol := hm.protocol
      encryptedNonce := nonceStep.answer_dynamicData (by decide) (by decide) (by omega)
      nonce := decryptNonce_eq_ok.2 ⟨_, hm.decrypt, rfl⟩
      ownMapping := h.ownComputed.mappingKey
      otherMapping := mappingStep.answer_dynamicData (by decide) (by decide) (by omega)
      mapping_ne := h.mapping_ne
      mapped := h.ownComputed.mapped
      own := h.ownComputed.agreementKey
      other := agreementStep.answer_dynamicData (by decide) (by decide) (by omega)
      agreement_ne := h.agreement_ne
      secret := h.ownComputed.secret
      outgoing := hm.outgoing
      incoming := tokenStep.answer_dynamicData (by decide) (by decide) (by omega)
      expected := hm.incoming }

/-- **The chip answers as the course says**, and accepts the token of the terminal. -/
theorem card_answers (h : Compatible chip privateKeys own other)
    (hm : messages.Computed chip own other) :
    chip.card.Answers .idle ((chip.course own other messages).exchanges chip.password)
      (.established (chip.params.suite.deriveSessionKeys own.secret)) := by
  have hsecret : own.secret = other.secret := h.ownComputed.secret_eq h.otherComputed h.sound
  obtain ⟨hownMapping, hotherMapping, hown, hother⟩ := h.length_keys
  have hnonce := h.nonce_fits
  have hel := hm.length_encryptedNonce
  have hmap : chip.card.answer .nonceSent
      (.ofCommand (mappingStep.command (DataObject.encode 0x81 own.mappingKey))) =
        (⟨dynamicData 0x82 other.mappingKey, .success⟩, .mapped other.mapped) :=
    Responder.answer_mapNonce h.otherComputed.mappingKey h.mapping_ne.symm h.otherComputed.mapped
      hotherMapping (by omega)
  have hagree : chip.card.answer (.mapped other.mapped)
      (.ofCommand (agreementStep.command (DataObject.encode 0x83 own.agreementKey))) =
        (⟨dynamicData 0x84 other.agreementKey, .success⟩,
          .agreed ⟨other.agreementKey, own.agreementKey, other.secret⟩) :=
    Responder.answer_agree h.otherComputed.agreementKey h.agreement_ne.symm
      h.otherComputed.secret hother
      (by omega)
  -- the token of the terminal is the MAC over the key of the chip, and the other way round
  have hauthenticate : chip.card.answer
      (.agreed ⟨other.agreementKey, own.agreementKey, other.secret⟩)
      (.ofCommand (tokenStep.command (DataObject.encode 0x85 messages.outgoing))) =
        (⟨dynamicData 0x86 messages.incoming, .success⟩,
          .established (chip.params.suite.deriveSessionKeys other.secret)) :=
    Responder.answer_authenticate (hsecret ▸ hm.outgoing) (hsecret ▸ hm.incoming)
      hm.length_outgoing
      hm.length_incoming
  rw [hsecret]
  exact .next (Responder.answer_select hm.protocol)
    (.next (Responder.answer_sendNonce hm.encrypt (by omega))
    (.next hmap (.next hagree (.next hauthenticate (.none _)))))

end

/-- **The course of the run**: it is valid for the terminal, and the chip answers as it says. -/
theorem exists_course (h : Compatible chip privateKeys own other) {protocol : Bytes}
    (hp : encodeProtocol chip.params.protocol = .ok protocol) (hpl : protocol.length = 10) :
    ∃ course : Course, course.agreed.secret = own.secret ∧
      course.Valid chip.params chip.password privateKeys ∧
      chip.card.Answers .idle (course.exchanges chip.password)
        (.established (course.keys chip.params)) ∧
      ∀ e ∈ course.exchanges chip.password, ∀ data ∈ e.1.body.request,
        data.length < 2 ^ 63 := by
  obtain ⟨messages, hm⟩ := h.exists_messages hp hpl
  obtain ⟨hownMapping, -, hown, -⟩ := h.length_keys
  have htoken : messages.outgoing.length = 8 := hm.length_outgoing
  exact ⟨chip.course own other messages, rfl, h.course_valid hm, h.card_answers hm,
    Course.length_request_lt hm.length_protocol hownMapping hown
      (show messages.outgoing.length + 20 < 2 ^ 63 by omega)⟩

/-- Over a plain link the run succeeds, and the chip has accepted the token. -/
theorem run_plain (h : Compatible chip privateKeys own other) {protocol : Bytes}
    (hp : encodeProtocol chip.params.protocol = .ok protocol) (hpl : protocol.length = 10)
    {link : Link Responder.State} (hc : link.channel = none) (hcard : link.card = .idle) :
    ∃ c after, (establishWith chip.params chip.password privateKeys).run chip.card.plain link =
        (.ok c, after) ∧
      after.card = .established c.keys ∧ c.suite = chip.params.suite ∧
      c.keys = chip.params.suite.deriveSessionKeys own.secret ∧ c.counter = 0 := by
  obtain ⟨course, hsecret, hv, ha, -⟩ := h.exists_course hp hpl
  obtain ⟨after, he, hstate⟩ := ha.plain hc hcard
  obtain ⟨c, hmake, hsuite, hkeys, hcounter, -⟩ := Channel.make_derived chip.params.suite
    course.agreed.secret (initialCounter chip.params.suite (after.channel.map (·.counter)))
  refine ⟨c, after, run_establishWith_eq_ok.2 ⟨course, hv, he, hmake⟩, ?_, hsuite, ?_, ?_⟩
  · rw [hstate, hkeys, Course.keys]
  · rw [hkeys, hsecret]
  · rw [hcounter, he.channel_of_none hc]
    cases chip.params.suite <;> exact Nat.zero_mod _

/-- Over a channel the run succeeds as well, and the new channel goes on from the counter of the one
before unless it is one of triple DES. -/
theorem run_throughChannel (h : Compatible chip privateKeys own other) {protocol : Bytes}
    (hp : encodeProtocol chip.params.protocol = .ok protocol) (hpl : protocol.length = 10)
    {policy : MacPolicy} {link : Link (Chip Responder.State)} {previous : Channel}
    (hc : link.channel = some previous) (hchip : link.card.channel = previous.withPolicy policy)
    (hcard : link.card.inner.memory = .idle) :
    ∃ c after current, (establishWith chip.params chip.password privateKeys).run
        (Chip.respond chip.card) link = (.ok c, after) ∧
      after.card.inner.memory = .established c.keys ∧ c.suite = chip.params.suite ∧
      c.keys = chip.params.suite.deriveSessionKeys own.secret ∧
      after.channel = some current ∧ after.card.channel = current.withPolicy policy ∧
      previous.SameKeys current ∧
      current.counter = (previous.counter + 10) % previous.suite.counterRange ∧
      c.counter = initialCounter chip.params.suite (some current.counter) := by
  obtain ⟨course, hsecret, hv, ha, hlength⟩ := h.exists_course hp hpl
  obtain ⟨after, current, he, hcurrent, hafter, hstate⟩ :=
    ha.throughChannel hlength hc hchip hcard
  obtain ⟨d, hd, hsame, hmoved⟩ := he.channel_of_some hc
  obtain rfl : current = d := Option.some.inj (hcurrent.symm.trans hd)
  obtain ⟨c, hmake, hsuite, hkeys, hcounter, -⟩ := Channel.make_derived chip.params.suite
    course.agreed.secret (initialCounter chip.params.suite (after.channel.map (·.counter)))
  refine ⟨c, after, current, run_establishWith_eq_ok.2 ⟨course, hv, he, hmake⟩, ?_,
    hsuite, ?_, hcurrent, hafter, hsame, hmoved, ?_⟩
  · rw [hstate, hkeys, Course.keys]
  · rw [hkeys, hsecret]
  · rw [hcounter, hcurrent]
    exact initialCounter_mod chip.params.suite current

end Compatible

variable {chip : Responder} {privateKeys : PrivateKeys} {own other : Side}

/-- **PACE with a chip that knows the password succeeds**, over a plain link and over a channel. The
chip has accepted the token of the terminal, and both sides hold the same keys. The counter of the
new channel starts at zero, or with AES over a channel where that has come to after five
exchanges. -/
theorem establishWith_agrees {protocol : ObjectIdentifier} {group : KeyAgreement}
    (hparams : PaceParameters.make protocol group = .ok chip.params)
    (h : Compatible chip privateKeys own other) :
    (∀ link : Link Responder.State, link.channel = none → link.card = .idle →
      ∃ c after, (establishWith chip.params chip.password privateKeys).run chip.card.plain link =
          (.ok c, after) ∧
        after.card = .established c.keys ∧ c.suite = chip.params.suite ∧
        c.keys = chip.params.suite.deriveSessionKeys own.secret ∧ c.counter = 0) ∧
    ∀ (policy : MacPolicy) (link : Link (Chip Responder.State)) (previous : Channel),
      link.channel = some previous → link.card.channel = previous.withPolicy policy →
      link.card.inner.memory = .idle →
      ∃ c after current, (establishWith chip.params chip.password privateKeys).run
          (Chip.respond chip.card) link = (.ok c, after) ∧
        after.card.inner.memory = .established c.keys ∧ c.suite = chip.params.suite ∧
        c.keys = chip.params.suite.deriveSessionKeys own.secret ∧
        after.channel = some current ∧ after.card.channel = current.withPolicy policy ∧
        previous.SameKeys current ∧
        current.counter = (previous.counter + 10) % previous.suite.counterRange ∧
        c.counter = if chip.params.suite = .tdes then 0 else current.counter := by
  obtain ⟨encoded, hp, hpl⟩ := encodeProtocol_of_make hparams
  constructor
  · intro link hc hcard
    exact h.run_plain hp hpl hc hcard
  · intro policy link previous hc hchip hcard
    obtain ⟨c, after, current, hrun, hstate, hsuite, hkeys, hcurrent, hafter, hsame, hmoved,
      hcounter⟩ :=
      h.run_throughChannel hp hpl hc hchip hcard
    refine ⟨c, after, current, hrun, hstate, hsuite, hkeys, hcurrent, hafter, hsame, hmoved, ?_⟩
    rw [hcounter]
    cases chip.params.suite <;> rfl

/-- A chip with the subgroup of order 7 of a curve with 28 points modulo 23. -/
def smallChip : Responder where
  params :=
    { protocol := PaceParameters.root ++ [2, 2]
      suite := .aes128
      group := .ellipticCurve
        { prime := 23, precision := 64, a := 1, b := 1, generator := ⟨13, 16⟩, cofactor := 4
          prime_odd := rfl } }
  password := .can "123456"
  nonce := [0x01, 0x02, 0x03, 0x04, 0x05, 0x06, 0x07, 0x08, 0x09, 0x10, 0x11, 0x12, 0x13,
    0x14, 0x15, 0x16]
  privateKeys := ⟨5, 3⟩

theorem smallChip_compatible : ∃ own other, Compatible smallChip ⟨3, 2⟩ own other := by
  let mapped : KeyAgreement := .ellipticCurve
    { prime := 23, precision := 64, a := 1, b := 1, generator := ⟨13, 7⟩, cofactor := 4
      prime_odd := rfl }
  have hs : smallChip.params.group.Sound :=
    WeierstrassCurve.Smooth.of_make (show WeierstrassCurve.make ⟨23, 64⟩ 1 1 ⟨13, 16⟩ 4 =
      .ok _ from rfl)
      (by decide) (by decide)
  refine ⟨⟨[4, 17, 20], mapped, [4, 5, 4], [17]⟩, ⟨[4, 5, 4], mapped, [4, 17, 3], [17]⟩,
    hs, rfl, ?_, ?_, by decide, by decide, by decide, by decide⟩
  · exact ⟨by decide +kernel, by decide +kernel, by decide +kernel, by decide +kernel⟩
  · exact ⟨by decide +kernel, by decide +kernel, by decide +kernel, by decide +kernel⟩

/-- A run with the chip over a plain link. -/
theorem smallChip_run :
    ∃ c after, (establishWith smallChip.params smallChip.password ⟨3, 2⟩).run
    smallChip.card.plain ⟨.idle, none, [], []⟩ = (.ok c, after) := by
  obtain ⟨own, other, h⟩ := smallChip_compatible
  obtain ⟨encoded, hp, hpl⟩ := encodeProtocol_of_make
    (show PaceParameters.make smallChip.params.protocol smallChip.params.group =
      .ok smallChip.params from
      rfl)
  obtain ⟨c, after, hrun, -⟩ := h.run_plain hp hpl (show (⟨.idle, none, [], []⟩ :
    Link Responder.State).channel = none from rfl) rfl
  exact ⟨c, after, hrun⟩

theorem establishWith_agrees_smallChip :
    PaceParameters.make smallChip.params.protocol smallChip.params.group = .ok smallChip.params ∧
      (∃ own other, Compatible smallChip ⟨3, 2⟩ own other) ∧
      ∃ c after, (establishWith smallChip.params (.can "123456") ⟨3, 2⟩).run
          (Chip.respond smallChip.card)
          ⟨⟨Channel.workedExample, ⟨.idle, []⟩⟩, some Channel.workedExample, [], []⟩ =
            (.ok c, after) ∧
        after.card.inner.memory = .established c.keys ∧ c.suite = .aes128 ∧
        c.counter = Channel.workedExample.counter + 10 := by
  have hparams : PaceParameters.make smallChip.params.protocol smallChip.params.group =
      .ok smallChip.params := rfl
  obtain ⟨own, other, h⟩ := smallChip_compatible
  obtain ⟨c, after, current, hrun, hstate, hsuite, -, -, -, -, hmoved, hcounter⟩ :=
    (establishWith_agrees hparams h).2 .strict
      ⟨⟨Channel.workedExample, ⟨.idle, []⟩⟩, some Channel.workedExample, [], []⟩ _
        rfl rfl rfl
  refine ⟨hparams, ⟨own, other, h⟩, c, after, hrun, hstate, hsuite, ?_⟩
  rw [hcounter, if_neg (by decide), hmoved]
  rfl

end TravelDocument.Pace

import TravelDocument.Proofs.Dialogue.Traffic
import TravelDocument.Proofs.Handshake.Bac
import TravelDocument.Proofs.SecureMessaging.Serving

/-!
# Which answers BAC accepts

A run of BAC is one exchange, and it succeeds exactly if the answer is `Genuine`: a MAC over a
cryptogram in which both random values stand in the order of the chip (`establishWith_exact`). A
chip that knows the seed gives such an answer, over a plain link as well as over a channel, and then
holds the same keys and the same counter. The terminal's own message is not such an answer, for the
order of the random values is the other way round.
-/

namespace TravelDocument

namespace Bac

/-! ## Genuine answers -/

/-- What makes an answer acceptable: a cryptogram of both random values and the chip's key material,
and the MAC over it. -/
structure Genuine (keys : SessionKeys) (rndIc rndIfd kIc : Bytes) (response : Apdu.Response) :
    Prop where
  status : response.status = .success
  length : response.data.length = 40
  mac : Mac.retail keys.mac (Padding.pad 8 (response.data.take 32)) = response.data.drop 32
  contents : CipherSuite.tdes.decrypt keys.encryption (List.replicate 8 0) (response.data.take 32) =
    .ok (rndIc ++ rndIfd ++ kIc)

theorem decryptMessage_eq_ok {keys : SessionKeys} (hm : keys.mac.length = CipherSuite.tdes.keySize)
    {message contents : Bytes} : decryptMessage keys message = .ok contents ↔
      message.length = 40 ∧
      Mac.retail keys.mac (Padding.pad 8 (message.take 32)) = message.drop 32 ∧
      CipherSuite.tdes.decrypt keys.encryption (List.replicate 8 0) (message.take 32) =
        .ok contents := by
  -- the last eight bytes are compared with the MAC over the padded cryptogram
  have hv : CipherSuite.tdes.verifyMac keys.mac (Padding.pad 8 (message.take 32))
      (message.drop 32) =
      .ok (Mac.retail keys.mac (Padding.pad 8 (message.take 32)) == message.drop 32) := by
    rw [CipherSuite.verifyMac, CipherSuite.mac, if_neg (by omega)]
    rfl
  constructor
  · intro h
    rw [decryptMessage] at h
    split at h
    · cases h
    · rename_i hl
      obtain ⟨genuine, hg, h⟩ := Except.bind_eq_ok.1 h
      obtain rfl := Except.ok.inj ((liftCrypto_eq_ok hg).symm.trans hv)
      split at h
      · cases h
      · rename_i hmac
        exact ⟨not_not.1 hl, by simpa using hmac, liftCrypto_eq_ok h⟩
  · rintro ⟨hl, hmac, hd⟩
    rw [beq_iff_eq.2 hmac] at hv
    have hsize : ¬ message.length ≠ messageSize := not_not.2 hl
    rw [decryptMessage, if_neg hsize]
    refine Except.bind_eq_ok.2 ⟨true, congrArg liftCrypto hv, ?_⟩
    exact congrArg liftCrypto hd

theorem checkContents_eq_ok {rndIc rndIfd contents kIc : Bytes} (hic : rndIc.length = 8)
    (hifd : rndIfd.length = 8) :
    checkContents rndIc rndIfd contents = .ok kIc ↔ contents = rndIc ++ rndIfd ++ kIc := by
  constructor
  · intro h
    rw [checkContents] at h
    split at h
    · cases h
    · rename_i h₁
      split at h
      · cases h
      · rename_i h₂
        cases h
        have h₁ := not_not.1 h₁
        have h₂ := not_not.1 h₂
        rw [← h₁, ← h₂, List.append_assoc, show 16 = 8 + 8 from rfl, ← List.drop_drop,
          List.take_append_drop, List.take_append_drop]
  · rintro rfl
    exact checkContents_ok hic hifd

theorem Genuine.length_kIc {keys : SessionKeys} {rndIc rndIfd kIc : Bytes}
    {response : Apdu.Response}
    (he : keys.encryption.length = CipherSuite.tdes.keySize) (hic : rndIc.length = 8)
    (hifd : rndIfd.length = 8) (h : Genuine keys rndIc rndIfd kIc response) : kIc.length = 16 := by
  have hl := CipherSuite.length_decrypt he CipherSuite.tdes.length_zeroIv h.contents
  rw [List.length_append, List.length_append, hic, hifd, List.length_take, h.length] at hl
  omega

/-- A message in which the random values stand in the order of the terminal is a genuine answer only
if they are the same. -/
theorem Genuine.eq_of_contents {keys : SessionKeys} {rndIc rndIfd kIc kIfd own : Bytes}
    {status : Apdu.StatusWord} (hm : keys.mac.length = CipherSuite.tdes.keySize)
    (hl : rndIc.length = rndIfd.length)
    (hd : decryptMessage keys own = .ok (rndIfd ++ rndIc ++ kIfd))
    (h : Genuine keys rndIc rndIfd kIc ⟨own, status⟩) : rndIc = rndIfd := by
  have hown := ((decryptMessage_eq_ok hm).1 hd).2.2
  have heq := Except.ok.inj (h.contents.symm.trans hown)
  rw [List.append_assoc, List.append_assoc] at heq
  exact (List.append_inj heq hl).1

/-! ## Runs -/

variable {seed rndIc : Bytes} {values : TerminalValues}

/-- The channel has the keys of the combined key material, and its counter is made up of the random
values. -/
theorem channel_eq_ok (hic : rndIc.length = 8) (hifd : values.rndIfd.length = 8) (kIc : Bytes)
    {c : Channel} : channel rndIc values kIc = .ok c ↔
      c.suite = .tdes ∧ c.keys = CipherSuite.tdes.deriveSessionKeys
        (Bytes.xor values.kIfd kIc) ∧
      c.counter = Bytes.toNat (rndIc.drop 4 ++ values.rndIfd.drop 4) ∧ c.macPolicy = .strict := by
  have hcounter : initialCounter rndIc values.rndIfd % CipherSuite.tdes.counterRange =
      Bytes.toNat (rndIc.drop 4 ++ values.rndIfd.drop 4) := by
    have hlt := Bytes.toNat_lt (rndIc.drop 4 ++ values.rndIfd.drop 4)
    have hl : (rndIc.drop 4 ++ values.rndIfd.drop 4).length = 8 := by
      rw [List.length_append, List.length_drop, List.length_drop, hic, hifd]
    have hic4 : (rndIc.drop 4).take 4 = rndIc.drop 4 := List.take_of_length_le (by simp [hic])
    have hifd4 : (values.rndIfd.drop 4).take 4 = values.rndIfd.drop 4 :=
      List.take_of_length_le (by simp [hifd])
    rw [initialCounter, hic4, hifd4, CipherSuite.counterRange_eq, if_pos rfl, Nat.mod_eq_of_lt]
    rw [hl] at hlt
    exact hlt
  rw [channel, Channel.make_derived_eq_ok, hcounter]

theorem exists_channel (rndIc : Bytes) (values : TerminalValues) (kIc : Bytes) :
    ∃ c, channel rndIc values kIc = .ok c := by
  obtain ⟨c, hc, -⟩ := Channel.make_derived .tdes (Bytes.xor values.kIfd kIc)
    (initialCounter rndIc values.rndIfd)
  exact ⟨c, hc⟩

/-- The message of the terminal. -/
theorem exists_message (seed : Bytes) (hic : rndIc.length = 8) (hifd : values.rndIfd.length = 8)
    (hkifd : values.kIfd.length = 16) : ∃ own,
      encryptMessage (CipherSuite.tdes.deriveSessionKeys seed)
        (values.rndIfd ++ rndIc ++ values.kIfd) = .ok own ∧
      own.length = 40 ∧
      decryptMessage (CipherSuite.tdes.deriveSessionKeys seed) own =
        .ok (values.rndIfd ++ rndIc ++ values.kIfd) := by
  refine encryptMessage_spec (length_sessionKeys seed).1 (length_sessionKeys seed).2 ?_
  rw [List.length_append, List.length_append, hic, hifd, hkifd]
  rfl

section

variable {σ : Type} {card : Card σ} {link after : Link σ} {own : Bytes}

/-- After the exchange everything is computed by the terminal alone. -/
theorem run_establishWith_link
    (hown : encryptMessage (CipherSuite.tdes.deriveSessionKeys seed)
      (values.rndIfd ++ rndIc ++ values.kIfd) = .ok own) :
    ((establishWith seed rndIc values).run card link).2 = (link.transmit card (command own)).2 := by
  simp only [establishWith, hown]
  exact Dialogue.run_expectSuccess_bind_link fun _ =>
    (Dialogue.silent_ofExcept _).bind fun _ =>
      (Dialogue.silent_ofExcept _).bind fun _ => Dialogue.silent_ofCrypto _

/-- **A run succeeds exactly if the answer is genuine.** -/
theorem run_establishWith_eq_ok (hic : rndIc.length = 8) (hifd : values.rndIfd.length = 8)
    (hown : encryptMessage (CipherSuite.tdes.deriveSessionKeys seed)
      (values.rndIfd ++ rndIc ++ values.kIfd) = .ok own) {c : Channel} :
    (establishWith seed rndIc values).run card link = (.ok c, after) ↔
      ∃ response kIc, link.transmit card (command own) = (.ok response, after) ∧
        Genuine (CipherSuite.tdes.deriveSessionKeys seed) rndIc values.rndIfd kIc response ∧
        channel rndIc values kIc = .ok c := by
  simp only [establishWith, Dialogue.run_bind_eq_ok, Dialogue.run_ofCrypto_eq_ok,
    Dialogue.run_expectSuccess_eq_ok, Dialogue.run_ofExcept_eq_ok, hown,
    decryptMessage_eq_ok (length_sessionKeys seed).2, checkContents_eq_ok hic hifd]
  constructor
  · rintro ⟨_, _, ⟨ho, rfl⟩, response, _, ⟨hs, ht⟩, contents, _,
      ⟨⟨hl, hmac, hd⟩, rfl⟩, kIc, _, ⟨rfl, rfl⟩, hc, rfl⟩
    cases ho
    exact ⟨response, kIc, ht, ⟨hs, hl, hmac, hd⟩, hc⟩
  · rintro ⟨response, kIc, ht, hg, hc⟩
    exact ⟨own, _, ⟨rfl, rfl⟩, response, _, ⟨hg.status, ht⟩, _, _,
      ⟨⟨hg.length, hg.mac, hg.contents⟩, rfl⟩, kIc, _, ⟨rfl, rfl⟩, hc, rfl⟩

/-- **A run succeeds exactly if the answer is genuine**, and then the channel is known. -/
theorem outcome_establishWith_eq_ok (hic : rndIc.length = 8) (hifd : values.rndIfd.length = 8)
    (hown : encryptMessage (CipherSuite.tdes.deriveSessionKeys seed)
      (values.rndIfd ++ rndIc ++ values.kIfd) = .ok own) (c : Channel) :
    ((establishWith seed rndIc values).run card link).1 = .ok c ↔
      ∃ response kIc, (link.transmit card (command own)).1 = .ok response ∧
        Genuine (CipherSuite.tdes.deriveSessionKeys seed) rndIc values.rndIfd kIc response ∧
        kIc.length = 16 ∧ c.suite = .tdes ∧
        c.keys = CipherSuite.tdes.deriveSessionKeys (Bytes.xor values.kIfd kIc) ∧
        c.counter = Bytes.toNat (rndIc.drop 4 ++ values.rndIfd.drop 4) ∧
          c.macPolicy = .strict := by
  constructor
  · intro h
    have hrun : (establishWith seed rndIc values).run card link =
        (.ok c, ((establishWith seed rndIc values).run card link).2) := Prod.ext h rfl
    obtain ⟨response, kIc, ht, hg, hc⟩ := (run_establishWith_eq_ok hic hifd hown).1 hrun
    exact ⟨response, kIc, congrArg Prod.fst ht, hg,
      hg.length_kIc (length_sessionKeys seed).1 hic hifd, (channel_eq_ok hic hifd kIc).1 hc⟩
  · rintro ⟨response, kIc, ht, hg, -, hc⟩
    have ht' : link.transmit card (command own) =
        (.ok response, (link.transmit card (command own)).2) := Prod.ext ht rfl
    have hrun := (run_establishWith_eq_ok hic hifd hown).2
      ⟨response, kIc, ht', hg, (channel_eq_ok hic hifd kIc).2 hc⟩
    exact congrArg Prod.fst hrun

/-- A card that gives a genuine answer is accepted. -/
theorem run_of_genuine (hic : rndIc.length = 8) (hifd : values.rndIfd.length = 8)
    (hown : encryptMessage (CipherSuite.tdes.deriveSessionKeys seed)
      (values.rndIfd ++ rndIc ++ values.kIfd) = .ok own) {message kIc : Bytes}
    (hg : Genuine (CipherSuite.tdes.deriveSessionKeys seed) rndIc values.rndIfd kIc
      ⟨message, .success⟩)
    (he : Link.Exchanged card link [(command own, message)] after) :
    ∃ c, (establishWith seed rndIc values).run card link = (.ok c, after) ∧
      c.keys = CipherSuite.tdes.deriveSessionKeys (Bytes.xor values.kIfd kIc) ∧
      c.counter = Bytes.toNat (rndIc.drop 4 ++ values.rndIfd.drop 4) := by
  obtain ⟨c, hc⟩ := exists_channel rndIc values kIc
  obtain ⟨-, hkeys, hcounter, -⟩ := (channel_eq_ok hic hifd kIc).1 hc
  have ht := Link.Exchanged.single.1 he
  exact ⟨c, (run_establishWith_eq_ok hic hifd hown).2 ⟨_, kIc, ht, hg, hc⟩, hkeys, hcounter⟩

end

/-! ## The chip's side -/

/-- What a chip knows after it has sent its challenge. -/
structure Responder where
  seed : Bytes
  rndIc : Bytes
  kIc : Bytes

namespace Responder

/-- How far a chip has come. -/
inductive State where
  | challenged
  /-- The message of the terminal was right. -/
  | established (keys : SessionKeys) (counter : Nat)

variable (chip : Responder)

/-- Verifies the message of the terminal, looks for its own random value in it and answers with a
message of its own. -/
def authenticate (instruction : Instruction) : Option (Bytes × State) := do
  let keys := CipherSuite.tdes.deriveSessionKeys chip.seed
  let contents ← (decryptMessage keys (← instruction.request)).toOption
  let rndIfd := contents.take 8
  let kIfd := contents.drop 16
  if (contents.drop 8).take 8 = chip.rndIc then
    let message ← (encryptMessage keys (chip.rndIc ++ rndIfd ++ chip.kIc)).toOption
    return (message, .established (CipherSuite.tdes.deriveSessionKeys (Bytes.xor kIfd chip.kIc))
      (Bytes.toNat (chip.rndIc.drop 4 ++ rndIfd.drop 4)))
  else none

/-- Takes the next command. -/
def step : State → Instruction → Option (Bytes × State)
  | .challenged, instruction =>
    if instruction.header = Channel.maskHeader (command []).header
      then chip.authenticate instruction
    else none
  | .established _ _, _ => none

def card : InnerCard State := .ofStep chip.step

variable {chip}

/-- **The chip finds the message of the terminal right**, and its answer is genuine. -/
theorem answer_command (hic : chip.rndIc.length = 8) (hifd : values.rndIfd.length = 8)
    (hkic : chip.kIc.length = 16) {own : Bytes} (hl : own.length = 40)
    (hown : decryptMessage (CipherSuite.tdes.deriveSessionKeys chip.seed) own =
      .ok (values.rndIfd ++ chip.rndIc ++ values.kIfd)) :
    ∃ message, chip.card.answer .challenged (.ofCommand (command own)) = (⟨message, .success⟩,
        .established (CipherSuite.tdes.deriveSessionKeys (Bytes.xor values.kIfd chip.kIc))
          (Bytes.toNat (chip.rndIc.drop 4 ++ values.rndIfd.drop 4))) ∧
      Genuine (CipherSuite.tdes.deriveSessionKeys chip.seed) chip.rndIc values.rndIfd chip.kIc
        ⟨message, .success⟩ := by
  have hkeys := length_sessionKeys chip.seed
  obtain ⟨message, hmessage, hml, hd⟩ := encryptMessage_spec hkeys.1 hkeys.2
    (show (chip.rndIc ++ values.rndIfd ++ chip.kIc).length = cryptogramSize by
      rw [List.length_append, List.length_append, hic, hifd, hkic]
      rfl)
  obtain ⟨hl40, hmac, hdecrypt⟩ := (decryptMessage_eq_ok hkeys.2).1 hd
  refine ⟨message, InnerCard.answer_ofStep ?_ (by rw [hl40]; decide), rfl, hl40, hmac, hdecrypt⟩
  have hne : own ≠ [] := by
    rintro rfl
    cases hl
  have hreq : (command own).body.request = some own := Apdu.Body.request_shortest hne _
  obtain ⟨htake, hmid, hdrop⟩ := parts hifd hic values.kIfd
  have hauthenticate : chip.authenticate (.ofCommand (command own)) = some (message,
      .established (CipherSuite.tdes.deriveSessionKeys (Bytes.xor values.kIfd chip.kIc))
        (Bytes.toNat (chip.rndIc.drop 4 ++ values.rndIfd.drop 4))) := by
    simp [-List.append_assoc, authenticate, Instruction.ofCommand, hreq, hown, htake, hmid, hdrop,
      hmessage, Except.toOption]
  exact (if_pos rfl).trans hauthenticate

end Responder

/-! ## Acceptance -/

/-- **BAC accepts exactly the genuine answers.** A run is one exchange. It succeeds if and only if
the answer is genuine, and then the channel has the keys of the combined key material and starts
with the counter of both random values. A chip that knows the seed finds the message of the terminal
right and is accepted, with the same keys and the same counter on both sides. The terminal's own
message is not accepted as an answer if the random values differ. -/
theorem establishWith_exact (seed : Bytes) (hic : rndIc.length = 8)
    (hifd : values.rndIfd.length = 8) (hkifd : values.kIfd.length = 16) : ∃ own,
      encryptMessage (CipherSuite.tdes.deriveSessionKeys seed)
        (values.rndIfd ++ rndIc ++ values.kIfd) = .ok own ∧
      (∀ {σ : Type} (card : Card σ) (link : Link σ),
        (∃ sent answer, ((establishWith seed rndIc values).run card link).2.log =
          .exchange (command own) sent answer :: link.log) ∧
        (∀ c, ((establishWith seed rndIc values).run card link).1 = .ok c ↔
          ∃ response kIc, (link.transmit card (command own)).1 = .ok response ∧
            Genuine (CipherSuite.tdes.deriveSessionKeys seed) rndIc values.rndIfd kIc response ∧
            kIc.length = 16 ∧ c.suite = .tdes ∧
            c.keys = CipherSuite.tdes.deriveSessionKeys (Bytes.xor values.kIfd kIc) ∧
            c.counter = Bytes.toNat (rndIc.drop 4 ++ values.rndIfd.drop 4) ∧
              c.macPolicy = .strict) ∧
        (rndIc ≠ values.rndIfd → ∀ status c, (link.transmit card (command own)).1 = .ok
          ⟨own, status⟩ → ((establishWith seed rndIc values).run card link).1 ≠ .ok c)) ∧
      ∀ kIc : Bytes, kIc.length = 16 →
        (∀ link : Link Responder.State, link.channel = none → link.card = .challenged →
          ∃ c after, (establishWith seed rndIc values).run
            (Responder.card ⟨seed, rndIc, kIc⟩).plain link =
              (.ok c, after) ∧
            after.card = .established c.keys c.counter) ∧
        ∀ (policy : MacPolicy) (link : Link (Chip Responder.State)) (previous : Channel),
          link.channel = some previous → link.card.channel = previous.withPolicy policy →
          link.card.inner.memory = .challenged →
          ∃ c after, (establishWith seed rndIc values).run
              (Chip.respond (Responder.card ⟨seed, rndIc, kIc⟩)) link = (.ok c, after) ∧
            after.card.inner.memory = .established c.keys c.counter := by
  obtain ⟨own, hown, hl, hd⟩ := exists_message seed hic hifd hkifd
  refine ⟨own, hown, ?_, ?_⟩
  · intro σ card link
    refine ⟨?_, outcome_establishWith_eq_ok hic hifd hown, ?_⟩
    · rw [run_establishWith_link hown]
      exact Link.transmit_log card (command own) link
    · intro hne status c ht hrun
      -- a reflected message would have the random values in the wrong order
      obtain ⟨response, kIc, ht', hg, -⟩ := (outcome_establishWith_eq_ok hic hifd hown c).1 hrun
      obtain rfl := Except.ok.inj (ht'.symm.trans ht)
      exact hne (hg.eq_of_contents (length_sessionKeys seed).2 (hic.trans hifd.symm) hd)
  · intro kIc hkic
    let chip : Responder := ⟨seed, rndIc, kIc⟩
    -- the chip answers with a genuine message, so both links below differ in the transport only
    obtain ⟨message, ha, hg⟩ :=
      Responder.answer_command (show chip.rndIc.length = 8 from hic) hifd
      (show chip.kIc.length = 16 from hkic) hl hd
    have hanswers := InnerCard.Answers.next ha (.none _)
    have hlength : ∀ e ∈ [(command own, message)], ∀ data ∈ e.1.body.request,
        data.length < 2 ^ 63 := by
      intro e he data hdata
      obtain rfl := List.mem_singleton.1 he
      rw [Apdu.Body.eq_of_mem_request_shortest hdata, hl]
      decide
    constructor
    · intro link hc hcard
      obtain ⟨after, he, hafter⟩ := hanswers.plain hc hcard
      obtain ⟨c, hrun, hkeys, hcounter⟩ := run_of_genuine hic hifd hown hg he
      exact ⟨c, after, hrun, by rw [hafter, hkeys, hcounter]⟩
    · intro policy link previous hc hchip hcard
      obtain ⟨after, d, he, -, -, hafter⟩ := hanswers.throughChannel hlength hc hchip hcard
      obtain ⟨c, hrun, hkeys, hcounter⟩ := run_of_genuine hic hifd hown hg he
      exact ⟨c, after, hrun, by rw [hafter, hkeys, hcounter]⟩

/-- The key seed and the random values written out in ICAO Doc 9303-11, D.3. -/
theorem establishWith_exact_workedExample :
    let seed : Bytes := [0x23, 0x9A, 0xB9, 0xCB, 0x28, 0x2D, 0xAF, 0x66,
      0x23, 0x1D, 0xC5, 0xA4, 0xDF, 0x6B, 0xFB, 0xAE]
    let rndIc : Bytes := [0x46, 0x08, 0xF9, 0x19, 0x88, 0x70, 0x22, 0x12]
    let values : TerminalValues :=
      { rndIfd := [0x78, 0x17, 0x23, 0x86, 0x0C, 0x06, 0xC2, 0x26]
        kIfd := [0x0B, 0x79, 0x52, 0x40, 0xCB, 0x70, 0x49, 0xB0,
          0x1C, 0x19, 0xB3, 0x3E, 0x32, 0x80, 0x4F, 0x0B] }
    let kIc : Bytes := [0x0B, 0x4F, 0x80, 0x32, 0x3E, 0xB3, 0x19, 0x1C,
      0xB0, 0x49, 0x70, 0xCB, 0x40, 0x52, 0x79, 0x0B]
    rndIc.length = 8 ∧ values.rndIfd.length = 8 ∧ values.kIfd.length = 16 ∧
      ∃ c after, (establishWith seed rndIc values).run
        (Responder.card ⟨seed, rndIc, kIc⟩).plain
          ⟨.challenged, none, [], []⟩ = (.ok c, after) ∧
        after.card = .established c.keys c.counter ∧ c.counter = 0x887022120C06C226 ∧
        ∃ request sent answer, after.log = [.exchange request sent answer] := by
  intro seed rndIc values kIc
  obtain ⟨own, -, hany, hhonest⟩ := establishWith_exact seed (show rndIc.length = 8 from rfl)
    (show values.rndIfd.length = 8 from rfl) rfl
  obtain ⟨c, after, hrun, hafter⟩ := (hhonest kIc rfl).1 ⟨.challenged, none, [], []⟩ rfl rfl
  obtain ⟨⟨sent, answer, hlog⟩, hok, -⟩ :=
    hany (Responder.card ⟨seed, rndIc, kIc⟩).plain
    ⟨.challenged, none, [], []⟩
  obtain ⟨-, -, -, -, -, -, -, hcounter, -⟩ := (hok c).1 (congrArg Prod.fst hrun)
  rw [hrun] at hlog
  exact ⟨rfl, rfl, rfl, c, after, hrun, hafter, hcounter, _, sent, answer, hlog⟩

end Bac
end TravelDocument

import TravelDocument.Dialogue.Link
import TravelDocument.Handshake.Bac
import TravelDocument.Proofs.Apdu.Command
import TravelDocument.Proofs.SecureMessaging.Channel

/-!
# BAC with a chip that knows the key

Messages are decrypted to what was encrypted (`encryptMessage_spec`). So a chip that knows the key
seed and sends both random values back is accepted (`establishWith_run`), and `Bac.chip` is one
(`establish_run`).
-/

namespace TravelDocument.Bac

/-- **A message is decrypted to its contents** under the keys it was encrypted with. -/
theorem encryptMessage_spec {keys : SessionKeys} {contents : Bytes}
    (he : keys.encryption.length = CipherSuite.tdes.keySize)
    (hm : keys.mac.length = CipherSuite.tdes.keySize) (hc : contents.length = cryptogramSize) :
    ∃ message, encryptMessage keys contents = .ok message ∧ message.length = messageSize ∧
      decryptMessage keys message = .ok contents := by
  have hblocks : contents.length % CipherSuite.tdes.blockSize = 0 := by
    rw [hc]
    rfl
  obtain ⟨cryptogram, hcrypt, hl, hd⟩ :=
    CipherSuite.encrypt_spec he CipherSuite.tdes.length_zeroIv hblocks
  obtain ⟨mac, hmac, hml⟩ := CipherSuite.mac_spec hm
    (Padding.pad CipherSuite.tdes.macBlockSize cryptogram)
  rw [hc] at hl
  have hlength : (cryptogram ++ mac).length = messageSize := by
    rw [List.length_append, hl, hml]
    rfl
  refine ⟨cryptogram ++ mac, ?_, hlength, ?_⟩
  · rw [encryptMessage]
    simp only [hcrypt, hmac, bind, Except.bind, pure, Except.pure]
  · -- the receiver computes the same MAC over the same padded cryptogram
    have hv : CipherSuite.tdes.verifyMac keys.mac
        (Padding.pad CipherSuite.tdes.macBlockSize cryptogram) mac = .ok true := by
      rw [CipherSuite.verifyMac, hmac]
      simp [bind, Except.bind, pure, Except.pure]
    rw [decryptMessage, if_neg (by rw [hlength]; exact not_not.2 rfl)]
    simp only [List.take_left' hl, List.drop_left' hl, hv, hd, liftCrypto, Except.mapError, bind,
      Except.bind]
    rfl

/-- Contents are taken apart after eight and after sixteen bytes. -/
theorem parts {a b : Bytes} (ha : a.length = 8) (hb : b.length = 8) (c : Bytes) :
    (a ++ b ++ c).take 8 = a ∧ ((a ++ b ++ c).drop 8).take 8 = b ∧
      (a ++ b ++ c).drop 16 = c := by
  refine ⟨?_, ?_, ?_⟩
  · rw [List.append_assoc, List.take_left' ha]
  · rw [List.append_assoc, List.drop_left' ha, List.take_left' hb]
  · exact List.drop_left' (by rw [List.length_append, ha, hb])

theorem checkContents_ok {rndIc rndIfd kIc : Bytes} (hic : rndIc.length = 8)
    (hifd : rndIfd.length = 8) :
    checkContents rndIc rndIfd (rndIc ++ rndIfd ++ kIc) = .ok kIc := by
  obtain ⟨h8, h16, hk⟩ := parts hic hifd kIc
  rw [checkContents, if_neg (not_not.2 h8), if_neg (not_not.2 h16), hk]

theorem length_sessionKeys (seed : Bytes) :
    (CipherSuite.tdes.deriveSessionKeys seed).encryption.length = CipherSuite.tdes.keySize ∧
      (CipherSuite.tdes.deriveSessionKeys seed).mac.length = CipherSuite.tdes.keySize :=
  ⟨CipherSuite.length_deriveKey .tdes .encryption seed,
    CipherSuite.length_deriveKey .tdes .mac seed⟩

variable {σ : Type} {card : Card σ}

/-- **A chip that knows the seed is accepted**: it answers the terminal's message with one of its
own in which both random values stand. -/
theorem establishWith_run {seed rndIc kIc own other : Bytes} (values : TerminalValues)
    {link after : Link σ} (hic : rndIc.length = 8) (hifd : values.rndIfd.length = 8)
    (hkic : kIc.length = 16)
    (hown : encryptMessage (CipherSuite.tdes.deriveSessionKeys seed)
      (values.rndIfd ++ rndIc ++ values.kIfd) = .ok own)
    (hother : encryptMessage (CipherSuite.tdes.deriveSessionKeys seed)
      (rndIc ++ values.rndIfd ++ kIc) = .ok other)
    (ht : link.transmit card (command own) = (.ok ⟨other, .success⟩, after)) :
    ∃ c, (establishWith seed rndIc values).run card link = (.ok c, after) := by
  have hcontents : (rndIc ++ values.rndIfd ++ kIc).length = cryptogramSize := by
    rw [List.length_append, List.length_append, hic, hifd, hkic]
    rfl
  obtain ⟨message, hmessage, -, hd⟩ :=
    encryptMessage_spec (length_sessionKeys seed).1 (length_sessionKeys seed).2 hcontents
  obtain rfl : message = other := Except.ok.inj (hmessage.symm.trans hother)
  obtain ⟨c, hc⟩ := Channel.make_ok (length_sessionKeys (Bytes.xor values.kIfd kIc)).1
    (length_sessionKeys (Bytes.xor values.kIfd kIc)).2 (initialCounter rndIc values.rndIfd)
  refine ⟨c, ?_⟩
  simp only [establishWith, hown, Dialogue.ofCrypto, liftCrypto, Except.mapError, Dialogue.ofExcept,
    Dialogue.bind_done, Dialogue.expectSuccess, Dialogue.bind_send, Dialogue.run, ht, Except.bind,
    Dialogue.requireSuccess, Apdu.Response.isSuccess, BEq.rfl, ↓reduceIte, hd,
    checkContents_ok hic hifd, channel, hc]

/-- A challenge of the right length is accepted. -/
theorem obtain_run {challenge : Bytes} {link after : Link σ} (h : challenge.length = 8)
    (ht : link.transmit card Challenge.command = (.ok ⟨challenge, .success⟩, after)) :
    Challenge.obtain.run card link = (.ok challenge, after) := by
  simp only [Challenge.obtain, Dialogue.expectSuccess, Dialogue.bind_send, Dialogue.run,
    ht, Except.bind,
    Dialogue.requireSuccess, Apdu.Response.isSuccess, BEq.rfl, ↓reduceIte, Dialogue.ofExcept,
    Dialogue.bind_done, Challenge.check, h, Challenge.size]

/-- A chip that knows the key seed. It sends its challenge, and answers a message that decrypts with
one of its own. -/
def chip (seed rndIc kIc : Bytes) : Card Unit := fun _ request =>
  let keys := CipherSuite.tdes.deriveSessionKeys seed
  let answer : Except Error Bytes :=
    if request = Challenge.command then .ok rndIc
    else do
      let contents ← decryptMessage keys (request.body.request.getD [])
      liftCrypto (encryptMessage keys (rndIc ++ contents.take 8 ++ kIc))
  match answer with
  | .ok data => (.ok ⟨data, .success⟩, ())
  | .error _ => (.ok ⟨[], .secureMessagingIncorrect⟩, ())

theorem chip_command {seed own contents other : Bytes} (rndIc kIc : Bytes)
    (hl : own.length = messageSize)
    (hown : decryptMessage (CipherSuite.tdes.deriveSessionKeys seed) own = .ok contents)
    (hother : encryptMessage (CipherSuite.tdes.deriveSessionKeys seed)
      (rndIc ++ contents.take 8 ++ kIc) = .ok other) :
    chip seed rndIc kIc () (command own) = (.ok ⟨other, .success⟩, ()) := by
  have hne : command own ≠ Challenge.command := by
    intro h
    have : (0x82 : UInt8) = 0x84 := congrArg (fun c : Apdu.Command => c.header.ins) h
    exact absurd this (by decide)
  have hreq : (command own).body.request = some own := by
    refine Apdu.Body.request_shortest ?_ _
    rintro rfl
    cases hl
  simp only [chip, hne, ↓reduceIte, hreq, Option.getD_some, hown, hother, liftCrypto,
    Except.mapError, bind, Except.bind]

/-- **BAC succeeds** with a chip that knows the key, over a link without a channel. -/
theorem establish_run (key : Mrz.AccessKey) {rndIc kIc : Bytes} (hic : rndIc.length = 8)
    (hkic : kIc.length = 16) (link : Link Unit) (hc : link.channel = none)
    (he : 24 ≤ link.entropy.length) :
    ∃ c after, (establish key).run (chip key.bacSeed rndIc kIc) link = (.ok c, after) := by
  obtain ⟨⟨⟩, channel, entropy, log⟩ := link
  subst hc
  have hifd : (entropy.take 8).length = 8 := by
    rw [List.length_take]
    exact Nat.min_eq_left (Nat.le_trans (by decide) he)
  have hkifd : ((entropy.drop 8).take 16).length = 16 := by
    rw [List.length_take, List.length_drop]
    simp only at he
    omega
  have hchallenge : Link.transmit (chip key.bacSeed rndIc kIc) Challenge.command
      ⟨(), none, entropy, log⟩ = (.ok ⟨rndIc, .success⟩, ⟨(), none, entropy,
        .exchange Challenge.command Challenge.command (.ok ⟨rndIc, .success⟩) :: log⟩) := by
    simp [Link.transmit, Link.transmitPlain, Link.exchange, chip, Except.mapError]
  obtain ⟨own, hown, hl, hd⟩ := encryptMessage_spec (length_sessionKeys key.bacSeed).1
    (length_sessionKeys key.bacSeed).2
    (show (entropy.take 8 ++ rndIc ++ (entropy.drop 8).take 16).length = cryptogramSize by
      rw [List.length_append, List.length_append, hic, hifd, hkifd]
      rfl)
  obtain ⟨other, hother, -, -⟩ := encryptMessage_spec (length_sessionKeys key.bacSeed).1
    (length_sessionKeys key.bacSeed).2
    (show (rndIc ++ entropy.take 8 ++ kIc).length = cryptogramSize by
      rw [List.length_append, List.length_append, hic, hifd, hkic]
      rfl)
  have htake : (entropy.take 8 ++ rndIc ++ (entropy.drop 8).take 16).take 8 = entropy.take 8 := by
    rw [List.append_assoc, List.take_left' hifd]
  have hcommand : chip key.bacSeed rndIc kIc () (command own) = (.ok ⟨other, .success⟩, ()) :=
    chip_command rndIc kIc hl hd (by rw [htake]; exact hother)
  -- the drawing of the random values takes nothing but entropy from the link
  have hrest : ∀ (next : Link Unit), next.card = () → next.channel = none →
      ∃ c after, (establishWith key.bacSeed rndIc
        ⟨entropy.take 8, (entropy.drop 8).take 16⟩).run (chip key.bacSeed rndIc kIc) next =
          (.ok c, after) := by
    rintro ⟨⟨⟩, _, rest, events⟩ - rfl
    have ht : Link.transmit (chip key.bacSeed rndIc kIc) (command own)
        ⟨(), none, rest, events⟩ = (.ok ⟨other, .success⟩, ⟨(), none, rest,
          .exchange (command own) (command own) (.ok ⟨other, .success⟩) :: events⟩) := by
      simp only [Link.transmit, Link.transmitPlain, Link.exchange, hcommand, Except.mapError]
    obtain ⟨c, hc⟩ := establishWith_run ⟨entropy.take 8, (entropy.drop 8).take 16⟩ hic
      hifd hkic hown
      hother ht
    exact ⟨c, _, hc⟩
  have h8 : ¬ entropy.length < 8 := by
    simp only at he
    omega
  have h16 : ¬ (entropy.drop 8).length < 16 := by
    rw [List.length_drop]
    simp only at he
    omega
  rw [establish, Dialogue.run_bind, obtain_run hic hchallenge]
  simp only [Outcome.andThen, Dialogue.random, Dialogue.bind_draw, Dialogue.bind_done, Dialogue.run,
    Link.takeEntropy?, h8, h16, ↓reduceIte]
  exact hrest _ rfl rfl

end TravelDocument.Bac

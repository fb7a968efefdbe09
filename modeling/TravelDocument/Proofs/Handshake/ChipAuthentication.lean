import TravelDocument.Handshake.ChipAuthentication
import TravelDocument.Proofs.Dialogue.Completion
import TravelDocument.Proofs.Dialogue.Traffic
import TravelDocument.Proofs.Group.KeyAgreement
import TravelDocument.Proofs.SecureMessaging.Channel

/-!
# Chip Authentication is decided by one answer

Whatever can fail on the terminal's side fails before anything is sent (`run_of_fails`). After that
there is one exchange, and a run succeeds exactly if it is answered with `9000`
(`run_establishWith_eq_ok`). The chip that holds the private key then has the keys of the new
channel, for both parties agree on the secret (`establishWith_decided`).
-/

namespace TravelDocument.ChipAuthentication

/-! ## Before anything is sent -/

/-- The first computation of the terminal that fails. The last one never does (`exists_keyHash`). -/
inductive Fails (chipKey : ChipPublicKey) (privateKey : Nat) (e : CryptoError) : Prop
  | publicKey : chipKey.group.publicKey privateKey = .error e → Fails chipKey privateKey e
  | sharedSecret {key : Bytes} : chipKey.group.publicKey privateKey = .ok key →
    chipKey.group.sharedSecret privateKey chipKey.publicKey = .error e →
      Fails chipKey privateKey e
  | keyHash {key secret : Bytes} : chipKey.group.publicKey privateKey = .ok key →
    chipKey.group.sharedSecret privateKey chipKey.publicKey = .ok secret →
    keyHashOf chipKey.group key = .error e → Fails chipKey privateKey e

/-- What identifies a public key: the SHA-1 hash of a value of a finite field, and the first
coordinate of a point, in as many bytes as the elements of the field have. -/
inductive IsKeyHash (privateKey : Nat) (key : Bytes) : KeyAgreement → Bytes → Prop
  | finiteField (g : DhGroup) : IsKeyHash privateKey key (.finiteField g) (Sha1.hash key)
  | ellipticCurve {c : WeierstrassCurve} {p : AffinePoint} {x : Bytes} :
    c.publicPoint privateKey = .ok p → c.encodePoint p = .ok key →
    x.length = c.fieldSize → Bytes.toNat x = p.x → IsKeyHash privateKey key (.ellipticCurve c) x

/-- The data object of the identifier of a key, if there is one. -/
inductive IsIdentifier : Option Nat → Bytes → Prop
  | absent : IsIdentifier none []
  | present {id : Nat} {value : Bytes} : Bytes.IsShortest id value →
    IsIdentifier (some id) (DataObject.encode 0x84 value)

variable {chipKey : ChipPublicKey} {keyId : Option Nat} {privateKey : Nat} {key secret hash : Bytes}

/-- A public key that was computed has something that identifies it. -/
theorem exists_keyHash {group : KeyAgreement} (h : group.publicKey privateKey = .ok key) :
    ∃ hash, keyHashOf group key = .ok hash ∧ IsKeyHash privateKey key group hash := by
  cases group with
  | finiteField g => exact ⟨_, rfl, .finiteField g⟩
  | ellipticCurve c =>
    obtain ⟨p, hp, hkey⟩ := KeyAgreement.publicKey_ellipticCurve h
    obtain ⟨x, y, rfl, hx, hy, hpx, -⟩ := WeierstrassCurve.encodePoint_eq_ok_iff.1 hkey
    have hl : (x ++ y).length = c.fieldSize + c.fieldSize := by rw [List.length_append, hx, hy]
    have hhalf : (x ++ y).length / 2 = x.length := by omega
    refine ⟨x, ?_, .ellipticCurve hp hkey hx hpx⟩
    rw [keyHashOf, if_pos ⟨rfl, by omega⟩, hhalf, List.take_left]

theorem exists_identifier (keyId : Option Nat) : ∃ identifier, IsIdentifier keyId identifier ∧
    ∀ key, setTemplateCommand key keyId =
      ⟨⟨0x00, 0x22, 0x41, 0xA6⟩,
        .shortest (DataObject.encode 0x91 key ++ identifier) none⟩ := by
  cases keyId with
  | none => exact ⟨_, .absent, fun _ => rfl⟩
  | some id => exact ⟨_, .present (Bytes.isShortest_minimal id), fun _ => rfl⟩

theorem prepare_of_fails {e : CryptoError} (h : Fails chipKey privateKey e) :
    prepare chipKey keyId privateKey = .error e := by
  cases h with
  | publicKey hk => simp only [prepare, hk, bind, Except.bind]
  | sharedSecret hk hs => simp only [prepare, hk, hs, bind, Except.bind]
  | keyHash hk hs hh => simp only [prepare, hk, hs, hh, bind, Except.bind]

theorem prepare_eq_ok (hk : chipKey.group.publicKey privateKey = .ok key)
    (hs : chipKey.group.sharedSecret privateKey chipKey.publicKey = .ok secret)
    (hh : keyHashOf chipKey.group key = .ok hash) :
    prepare chipKey keyId privateKey =
      .ok (⟨keyId, chipKey, hash, ⟨privateKey, key⟩⟩, secret) := by
  simp only [prepare, hk, hs, hh, bind, Except.bind, pure, Except.pure]

/-! ## Runs -/

section

variable {σ : Type} {card : Card σ} {link after : Link σ} {result : ChipAuthentication}

/-- **A failure of the terminal leaves the link as it was.** -/
theorem run_of_fails {e : CryptoError} (h : Fails chipKey privateKey e) :
    (establishWith chipKey keyId privateKey).run card link = (.failed (.crypto e), link) := by
  rw [establishWith, prepare_of_fails h]
  rfl

/-- After the exchange everything is computed by the terminal alone. -/
theorem run_establishWith_link (h : prepare chipKey keyId privateKey = .ok (result, secret)) :
    ((establishWith chipKey keyId privateKey).run card link).2 =
      (link.transmit card (setTemplateCommand result.ephemeral.publicKey keyId)).2 := by
  rw [establishWith, h]
  exact Dialogue.run_expectSuccess_bind_link fun _ =>
    (Dialogue.silent_ofCrypto _).bind fun _ => Dialogue.silent_pure _

/-- **A run succeeds exactly if the command is answered with success.** -/
theorem run_establishWith_eq_ok (h : prepare chipKey keyId privateKey = .ok (result, secret))
    {c : Channel} {r : ChipAuthentication} :
    (establishWith chipKey keyId privateKey).run card link = (.ok (c, r), after) ↔
      ∃ data, link.transmit card (setTemplateCommand result.ephemeral.publicKey keyId) =
          (.ok ⟨data, .success⟩, after) ∧
        Channel.make .tdes (CipherSuite.tdes.deriveSessionKeys secret) 0 = .ok c ∧
          r = result := by
  simp only [establishWith, Dialogue.run_bind_eq_ok, Dialogue.run_ofCrypto_eq_ok,
    Dialogue.run_expectSuccess_eq_ok, Dialogue.run_pure_eq_ok, h]
  constructor
  · rintro ⟨_, _, ⟨ho, rfl⟩, ⟨data, status⟩, _, ⟨hs, ht⟩, channel, _,
      ⟨hc, rfl⟩, hr, rfl⟩
    cases ho
    cases hs
    cases hr
    exact ⟨data, ht, hc, rfl⟩
  · rintro ⟨data, ht, hc, rfl⟩
    exact ⟨_, _, ⟨rfl, rfl⟩, _, _, ⟨rfl, ht⟩, c, _, ⟨hc, rfl⟩, rfl, rfl⟩

end

/-- The channel of a secret. -/
structure IsChannelOf (secret : Bytes) (c : Channel) : Prop where
  suite : c.suite = .tdes
  keys : c.keys = CipherSuite.tdes.deriveSessionKeys secret
  counter : c.counter = 0
  macPolicy : c.macPolicy = .strict

theorem channel_eq_ok {c : Channel} :
    Channel.make .tdes (CipherSuite.tdes.deriveSessionKeys secret) 0 = .ok c ↔
      IsChannelOf secret c := by
  rw [Channel.make_derived_eq_ok, Nat.zero_mod]
  exact ⟨fun ⟨hs, hk, hc, hp⟩ => ⟨hs, hk, hc, hp⟩, fun ⟨hs, hk, hc, hp⟩ =>
    ⟨hs, hk, hc, hp⟩⟩

/-! ## One answer -/

/-- A run that sends one command to the card, and succeeds if and only if the answer is a
success. -/
structure DecidedBy {σ : Type} (command : Apdu.Command) (secret : Bytes)
    (result : ChipAuthentication)
    (card : Card σ) (link : Link σ) (run : Outcome (Channel × ChipAuthentication) × Link σ) :
    Prop where
  exchange : ∃ sent answer, run.2.log = .exchange command sent answer :: link.log ∧
    Traffic card link.channel link.card [.exchange command sent answer] run.2.channel run.2.card
  outcome (c : Channel) (r : ChipAuthentication) : run.1 = .ok (c, r) ↔
    (∃ data, (link.transmit card command).1 = .ok ⟨data, .success⟩) ∧
      IsChannelOf secret c ∧ r = result

theorem decidedBy_establishWith {σ : Type} (card : Card σ) (link : Link σ)
    {result : ChipAuthentication} (h : prepare chipKey keyId privateKey = .ok (result, secret)) :
    DecidedBy (setTemplateCommand result.ephemeral.publicKey keyId) secret result card link
      ((establishWith chipKey keyId privateKey).run card link) where
  exchange := by
    rw [run_establishWith_link h]
    exact link.transmit_traffic card _
  outcome c r := by
    constructor
    · intro hrun
      obtain ⟨data, ht, hc, hr⟩ := (run_establishWith_eq_ok h).1 (Prod.ext hrun rfl)
      exact ⟨⟨data, congrArg Prod.fst ht⟩, channel_eq_ok.1 hc, hr⟩
    · rintro ⟨⟨data, ht⟩, hc, hr⟩
      have hrun := (run_establishWith_eq_ok h).2 ⟨data, Prod.ext ht rfl, channel_eq_ok.2 hc, hr⟩
      exact congrArg Prod.fst hrun

/-- **Chip Authentication is decided by one answer.** If one of the terminal's computations fails,
its error is the outcome and nothing is sent. Otherwise there is one exchange, MSE:Set KAT with the
public key and the identifier of the chip's key, and the run succeeds if and only if it is answered
with `9000`. The channel then has the keys of the shared secret and starts at zero, and a chip that
has computed its public key and the secret has the same keys. -/
theorem establishWith_decided (chipKey : ChipPublicKey) (keyId : Option Nat)
    (privateKey : Nat) {σ : Type} (card : Card σ) (link : Link σ) :
    (∀ e, Fails chipKey privateKey e →
      (establishWith chipKey keyId privateKey).run card link = (.failed (.crypto e), link)) ∧
    ∀ key secret, chipKey.group.publicKey privateKey = .ok key →
      chipKey.group.sharedSecret privateKey chipKey.publicKey = .ok secret →
      ∃ identifier hash, IsIdentifier keyId identifier ∧
        IsKeyHash privateKey key chipKey.group hash ∧
        DecidedBy ⟨⟨0x00, 0x22, 0x41, 0xA6⟩,
          .shortest (DataObject.encode 0x91 key ++ identifier) none⟩
          secret ⟨keyId, chipKey, hash, ⟨privateKey, key⟩⟩ card link
          ((establishWith chipKey keyId privateKey).run card link) ∧
        (chipKey.group.Accepted → ∀ chipPrivateKey chipSecret,
          chipKey.group.publicKey chipPrivateKey = .ok chipKey.publicKey →
          chipKey.group.sharedSecret chipPrivateKey key = .ok chipSecret →
          ∀ c result, ((establishWith chipKey keyId privateKey).run card link).1 =
            .ok (c, result) → c.keys = CipherSuite.tdes.deriveSessionKeys chipSecret) := by
  refine ⟨fun e he => run_of_fails he, ?_⟩
  intro key secret hk hs
  obtain ⟨hash, hh, hhash⟩ := exists_keyHash hk
  obtain ⟨identifier, hid, hcommand⟩ := exists_identifier keyId
  have hprepare : prepare chipKey keyId privateKey =
      .ok (⟨keyId, chipKey, hash, ⟨privateKey, key⟩⟩, secret) := prepare_eq_ok hk hs hh
  have hdecided := decidedBy_establishWith card link hprepare
  rw [hcommand] at hdecided
  refine ⟨identifier, hash, hid, hhash, hdecided, ?_⟩
  intro haccepted chipPrivateKey chipSecret hchip hchipSecret c result hrun
  obtain ⟨-, hc, -⟩ := (hdecided.outcome c result).1 hrun
  rw [hc.keys, KeyAgreement.sharedSecret_comm haccepted.sound hk hchip hs hchipSecret]

/-- A curve modulo 23 and a card that grants whatever it is asked for. An empty public key of the
chip is found to be bad before the card is asked. -/
theorem establishWith_decided_small :
    let group : KeyAgreement := .ellipticCurve ⟨23, 64, 1, 1, ⟨13, 16⟩, 4, rfl⟩
    let card : Card Unit := fun _ _ => (.ok ⟨[], .success⟩, ())
    let link : Link Unit := ⟨(), none, [], []⟩
    group.Accepted ∧ group.publicKey 3 = .ok [4, 17, 20] ∧ group.publicKey 5 = .ok [4, 5, 4] ∧
      (∃ c result chipSecret, group.sharedSecret 3 [4, 5, 4] = .ok chipSecret ∧
        ((establishWith ⟨group, [4, 17, 20]⟩ (some 256) 5).run card link).1 =
          .ok (c, result) ∧
        c.keys = CipherSuite.tdes.deriveSessionKeys chipSecret ∧
        IsKeyHash 5 [4, 5, 4] group result.keyHash) ∧
      Fails ⟨group, []⟩ 5 .invalidPublicKey ∧
      (establishWith ⟨group, []⟩ none 5).run card link =
        (.failed (.crypto .invalidPublicKey), link) := by
  intro group card link
  have haccepted : group.Accepted :=
    .ellipticCurve (show WeierstrassCurve.make ⟨23, 64⟩ 1 1 ⟨13, 16⟩ 4 = .ok _ from rfl)
      (by decide)
      (by decide)
  have hchip : group.publicKey 3 = .ok [4, 17, 20] := by decide +kernel
  have hkey : group.publicKey 5 = .ok [4, 5, 4] := by decide +kernel
  -- both sides come to the point with first coordinate 17
  have hsecret : group.sharedSecret 5 [4, 17, 20] = .ok [17] := by decide +kernel
  have hchipSecret : group.sharedSecret 3 [4, 5, 4] = .ok [17] := by decide +kernel
  have hfails : Fails ⟨group, []⟩ 5 .invalidPublicKey := .sharedSecret hkey rfl
  obtain ⟨identifier, hash, -, hhash, hdecided, hagree⟩ :=
    (establishWith_decided ⟨group, [4, 17, 20]⟩ (some 256) 5 card link).2 _ _ hkey hsecret
  obtain ⟨c, hc, -⟩ := Channel.make_derived .tdes [17] 0
  have hrun := (hdecided.outcome c _).2 ⟨⟨[], rfl⟩, channel_eq_ok.1 hc, rfl⟩
  exact ⟨haccepted, hchip, hkey,
    ⟨c, _, [17], hchipSecret, hrun, hagree haccepted 3 [17] hchip hchipSecret c _ hrun, hhash⟩,
      hfails,
    (establishWith_decided ⟨group, []⟩ none 5 card link).1 _ hfails⟩

end TravelDocument.ChipAuthentication

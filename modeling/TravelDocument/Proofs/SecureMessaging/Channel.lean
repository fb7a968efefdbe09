import TravelDocument.Proofs.Cipher.Suite
import TravelDocument.SecureMessaging.Protection

/-!
# The operations of a channel do not fail

The keys of a channel have the right lengths, so its initialisation vector, its encryption and its
MAC are always there (`iv_spec`, `encrypt_spec`, `mac_spec`), decryption at the same counter undoes
encryption, and a MAC input determines what it was made from (`macInput_inj`). `checkMac_spec` says
when a MAC is accepted.
-/

namespace TravelDocument

theorem CipherSuite.counterRange_eq (suite : CipherSuite) :
    suite.counterRange = if suite = .tdes then 2 ^ 64 else 2 ^ 128 := by
  cases suite <;> rfl

namespace Channel

variable (c : Channel)

/-- The keys, the suite and the policy of a channel: what stays the same while its counter moves. -/
structure SameKeys (c d : Channel) : Prop where
  suite : c.suite = d.suite
  keys : c.keys = d.keys
  macPolicy : c.macPolicy = d.macPolicy

theorem SameKeys.refl : SameKeys c c := ⟨rfl, rfl, rfl⟩

theorem SameKeys.trans {c d e : Channel} (h : SameKeys c d) (h' : SameKeys d e) : SameKeys c e :=
  ⟨h.suite.trans h'.suite, h.keys.trans h'.keys, h.macPolicy.trans h'.macPolicy⟩

theorem step_sameKeys : SameKeys c c.step := ⟨rfl, rfl, rfl⟩

@[simp] theorem step_suite : c.step.suite = c.suite := rfl
@[simp] theorem step_keys : c.step.keys = c.keys := rfl
@[simp] theorem step_macPolicy : c.step.macPolicy = c.macPolicy := rfl
@[simp] theorem step_counter : c.step.counter = (c.counter + 1) % c.suite.counterRange := rfl

@[simp] theorem length_counterBlock : c.counterBlock.length = c.suite.blockSize := by
  rw [counterBlock, Bytes.length_be]

/-- What is made has the suite, the keys and the policy asked for. -/
theorem make_spec {suite : CipherSuite} {keys : SessionKeys} {counter : Nat} {c : Channel}
    (h : make suite keys counter = .ok c) :
    c.suite = suite ∧ c.keys = keys ∧ c.macPolicy = .strict := by
  rw [make] at h
  split at h
  · split at h
    · cases h
      exact ⟨rfl, rfl, rfl⟩
    · cases h
  · cases h

theorem make_ok {suite : CipherSuite} {keys : SessionKeys}
    (he : keys.encryption.length = suite.keySize) (hm : keys.mac.length = suite.keySize)
    (counter : Nat) : ∃ c, make suite keys counter = .ok c := by
  rw [make, dif_pos he, dif_pos hm]
  exact ⟨_, rfl⟩

/-- Keys derived from a secret make a channel. -/
theorem make_derived (suite : CipherSuite) (secret : Bytes) (counter : Nat) :
    ∃ c, make suite (suite.deriveSessionKeys secret) counter = .ok c ∧ c.suite = suite ∧
      c.keys = suite.deriveSessionKeys secret ∧ c.counter = counter % suite.counterRange ∧
      c.macPolicy = .strict := by
  have he : (suite.deriveSessionKeys secret).encryption.length = suite.keySize :=
    suite.length_deriveKey .encryption secret
  have hm : (suite.deriveSessionKeys secret).mac.length = suite.keySize :=
    suite.length_deriveKey .mac secret
  rw [make, dif_pos he, dif_pos hm]
  exact ⟨_, rfl, rfl, rfl, rfl, rfl⟩

theorem eq_of_fields {c d : Channel} (hs : c.suite = d.suite) (hk : c.keys = d.keys)
    (hc : c.counter = d.counter) (hp : c.macPolicy = d.macPolicy) : c = d := by
  cases c
  cases d
  cases hs
  cases hk
  cases hc
  cases hp
  rfl

theorem make_derived_eq_ok {suite : CipherSuite} {secret : Bytes} {counter : Nat} {c : Channel} :
    make suite (suite.deriveSessionKeys secret) counter = .ok c ↔
      c.suite = suite ∧ c.keys = suite.deriveSessionKeys secret ∧
        c.counter = counter % suite.counterRange ∧ c.macPolicy = .strict := by
  obtain ⟨d, hmake, hsuite, hkeys, hcounter, hpolicy⟩ := make_derived suite secret counter
  rw [hmake]
  constructor
  · intro h
    cases h
    exact ⟨hsuite, hkeys, hcounter, hpolicy⟩
  · rintro ⟨hsuite', hkeys', hcounter', hpolicy'⟩
    exact congrArg Except.ok (eq_of_fields (hsuite.trans hsuite'.symm) (hkeys.trans hkeys'.symm)
      (hcounter.trans hcounter'.symm) (hpolicy.trans hpolicy'.symm))

/-- The counter of a channel is in the range of every AES suite. -/
theorem counter_lt_of_ne {suite : CipherSuite} (h : suite ≠ .tdes) :
    c.counter < suite.counterRange := by
  have hlt := c.counter_lt
  rw [CipherSuite.counterRange_eq] at hlt
  rw [CipherSuite.counterRange_eq, if_neg h]
  split at hlt <;> omega

/-! ## Encryption -/

theorem iv_spec : ∃ iv, c.iv = .ok iv ∧ iv.length = c.suite.blockSize := by
  by_cases h : c.suite.isAes
  · have hb := c.length_counterBlock
    have hblocks : c.counterBlock.length % c.suite.blockSize = 0 := by
      rw [hb, Nat.mod_self]
    obtain ⟨v, hv, hl, -⟩ :=
      CipherSuite.encrypt_spec c.length_encryption c.suite.length_zeroIv hblocks
    exact ⟨v, by rw [iv, if_pos h, hv], by rw [hl, hb]⟩
  · exact ⟨c.suite.zeroIv, by rw [iv, if_neg h], c.suite.length_zeroIv⟩

/-- The number of bytes to which a suite encrypts data of the given length. -/
def ciphertextLength (suite : CipherSuite) (n : Nat) : Nat :=
  (n / suite.blockSize + 1) * suite.blockSize

/-- **Data is encrypted to whole blocks, and decryption at the same counter gives it back.** -/
theorem encrypt_spec (data : Bytes) : ∃ ciphertext, c.encrypt data = .ok ciphertext ∧
    ciphertext.length = ciphertextLength c.suite data.length ∧
      c.decrypt ciphertext = .ok data := by
  have hpos := c.suite.blockSize_pos
  obtain ⟨iv, hiv, hlen⟩ := c.iv_spec
  obtain ⟨ciphertext, he, hl, hd⟩ := CipherSuite.encrypt_spec c.length_encryption hlen
    (Padding.length_pad_mod hpos data)
  refine ⟨ciphertext, ?_, ?_, ?_⟩
  · rw [encrypt, hiv]
    exact he
  · rw [hl, Padding.length_pad hpos, ciphertextLength]
  · rw [decrypt, hiv]
    show (c.suite.decrypt c.keys.encryption iv ciphertext >>= Padding.unpad) = .ok data
    rw [hd]
    exact Padding.unpad_pad _ _

/-- Decryption fails on ciphertext that is not a whole number of blocks, or on padding. -/
theorem decrypt_eq_error {ciphertext : Bytes} {e : CryptoError}
    (h : c.decrypt ciphertext = .error e) : e = .invalidPadding ∨
      ciphertext.length % c.suite.blockSize ≠ 0 ∧
        e = .invalidDataLength c.suite.blockSize ciphertext.length := by
  obtain ⟨iv, hiv, hl⟩ := c.iv_spec
  rw [decrypt, hiv] at h
  change (c.suite.decrypt c.keys.encryption iv ciphertext >>= Padding.unpad) = .error e at h
  cases hd : c.suite.decrypt c.keys.encryption iv ciphertext with
  | error e' =>
    rw [hd] at h
    cases h
    exact .inr (CipherSuite.decrypt_eq_error c.length_encryption hl hd)
  | ok padded =>
    rw [hd] at h
    exact .inl (Padding.unpad_eq_error h)

theorem length_decrypt_le {ciphertext data : Bytes} (h : c.decrypt ciphertext = .ok data) :
    data.length ≤ ciphertext.length := by
  obtain ⟨iv, hiv, hl⟩ := c.iv_spec
  rw [decrypt, hiv] at h
  change (c.suite.decrypt c.keys.encryption iv ciphertext >>= Padding.unpad) = .ok data at h
  obtain ⟨padded, hd, hu⟩ := Except.bind_eq_ok.1 h
  rw [← CipherSuite.length_decrypt c.length_encryption hl hd]
  exact Padding.length_unpad_le hu

/-! ## MACs -/

theorem mac_spec (objects : Bytes) : ∃ m, c.mac objects = .ok m ∧ m.length = Mac.size :=
  CipherSuite.mac_spec c.length_mac _

theorem macInput_inj {a b : Bytes} (h : c.macInput a = c.macInput b) : a = b :=
  List.append_cancel_left (Padding.pad_inj h)

/-- A MAC is accepted if it is the right one, or else if the policy is lenient. -/
theorem checkMac_spec (objects received : Bytes) : c.checkMac objects received =
    if c.mac objects = .ok received ∨ c.macPolicy = .lenient then .ok ()
    else .error (.integrity .responseMac) := by
  obtain ⟨m, hm, -⟩ := c.mac_spec objects
  have hv : c.suite.verifyMac c.keys.mac (c.macInput objects) received = .ok (m == received) := by
    rw [CipherSuite.verifyMac, show c.suite.mac c.keys.mac (c.macInput objects) = .ok m from hm]
    rfl
  rw [checkMac, hv, hm]
  by_cases h : m = received
  · subst h
    simp [liftCrypto, Except.mapError, bind, Except.bind, pure, Except.pure]
  · have hb : (m == received) = false := beq_eq_false_iff_ne.2 h
    simp only [hb, liftCrypto, Except.mapError, bind, Except.bind, Except.ok.injEq, h, false_or]
    cases c.macPolicy <;> rfl

/-! ## An example -/

/-- The channel of a session whose keys and counter are written out in ICAO Doc 9303-11, D.4. -/
def workedExample : Channel where
  suite := .tdes
  keys :=
    { encryption := [0x97, 0x9E, 0xC1, 0x3B, 0x1C, 0xBF, 0xE9, 0xDC, 0xD0, 0x1A, 0xB0,
      0xFE, 0xD3, 0x07,
        0xEA, 0xE5]
      mac := [0xF1, 0xCB, 0x1F, 0x1F, 0xB5, 0xAD, 0xF2, 0x08, 0x80, 0x6B, 0x89, 0xDC,
        0x57, 0x9D, 0xC1, 0xF8] }
  counter := 0x887022120C06C227
  macPolicy := .strict
  length_encryption := rfl
  length_mac := rfl
  counter_lt := by decide

end Channel
end TravelDocument

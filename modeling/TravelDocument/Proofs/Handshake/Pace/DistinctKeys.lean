import TravelDocument.Proofs.Handshake.Pace.Agreement

/-!
# The keys of a successful run are distinct

The terminal refuses a public key of the chip that is, byte for byte, its own. On a curve a point
has one encoding, so the chip cannot have sent the terminal's point. In a finite field the chip may
leave out leading zeroes, so it may have sent the terminal's value in fewer bytes, and only so
(`establishWith_keys_distinct`).
-/

namespace TravelDocument

namespace KeyAgreement

/-- The bytes are taken for the public key of the given private key: they are read as the same
element of the group. -/
def ReadAsPublicKey (k : KeyAgreement) (privateKey : Nat) (b : Bytes) : Prop :=
  match k with
  | .finiteField g => ∃ v, g.publicValue privateKey = .ok v ∧ g.decodePublic b = .ok v
  | .ellipticCurve c => ∃ p, c.publicPoint privateKey = .ok p ∧ c.decodePoint b = .ok p

/-- **What is read as a public key is the public key**, on a curve, or the integer of one in fewer
bytes. -/
theorem ReadAsPublicKey.eq_or_shorter {k : KeyAgreement} {privateKey : Nat} {key b : Bytes}
    (hk : k.publicKey privateKey = .ok key) (h : k.ReadAsPublicKey privateKey b) :
    key = b ∨ k.isElliptic = false ∧ b.length < key.length ∧
      Bytes.toNat b = Bytes.toNat key := by
  cases k with
  | finiteField g =>
    obtain ⟨hvalue, hl⟩ := publicKey_finiteField hk
    obtain ⟨v, hv, hb⟩ := h
    obtain ⟨hlb, rfl⟩ := DhGroup.decodePublic_eq hb
    have heq : Bytes.toNat b = Bytes.toNat key := Except.ok.inj (hv.symm.trans hvalue)
    -- leading zeros may be missing; a longer encoding is refused
    by_cases hlength : b.length = key.length
    · left
      exact Bytes.eq_of_toNat_eq hlength.symm heq.symm
    · right
      exact ⟨rfl, by omega, heq⟩
  | ellipticCurve c =>
    left
    obtain ⟨q, hq, hkey⟩ := publicKey_ellipticCurve hk
    obtain ⟨p, hp, hb⟩ := h
    obtain rfl : q = p := Except.ok.inj (hq.symm.trans hp)
    exact Except.ok.inj (hkey.symm.trans (WeierstrassCurve.encodePoint_of_decodePoint hb))

end KeyAgreement

namespace Pace

variable {params : PaceParameters} {password : PacePassword} {privateKeys : PrivateKeys} {σ : Type}
  {card : Card σ} {link after : Link σ} {c : Channel}

/-- **In a successful run the chip has not sent the terminal's own key**, in either step, unless in
a finite field it has sent the integer in fewer bytes than the terminal. -/
theorem establishWith_keys_distinct
    (h : (establishWith params password privateKeys).run card link = (.ok c, after)) :
    ∃ course : Course, course.Valid params password privateKeys ∧
      Link.Exchanged card link (course.exchanges password) after ∧
      (params.group.ReadAsPublicKey privateKeys.mapping course.otherMapping →
        params.group.isElliptic = false ∧
          course.otherMapping.length < course.ownMapping.length) ∧
      (course.mapped.ReadAsPublicKey privateKeys.agreement course.agreed.other →
        course.mapped.isElliptic = false ∧
          course.agreed.other.length < course.agreed.own.length) := by
  obtain ⟨course, hv, he, -⟩ := run_establishWith_eq_ok.1 h
  refine ⟨course, hv, he, ?_, ?_⟩
  · intro hread
    rcases hread.eq_or_shorter hv.ownMapping with heq | ⟨hdh, hl, -⟩
    · exact absurd heq hv.mapping_ne
    · exact ⟨hdh, hl⟩
  · intro hread
    rcases hread.eq_or_shorter hv.own with heq | ⟨hdh, hl, -⟩
    · exact absurd heq hv.agreement_ne
    · exact ⟨hdh, hl⟩

theorem establishWith_keys_distinct_smallChip :
    ∃ c after, (establishWith smallChip.params smallChip.password ⟨3, 2⟩).run
      smallChip.card.plain
        ⟨.idle, none, [], []⟩ = (.ok c, after) ∧
      ∃ course : Course, course.Valid smallChip.params smallChip.password ⟨3, 2⟩ ∧
        ¬ smallChip.params.group.ReadAsPublicKey 3 course.otherMapping ∧
        (course.mapped.ReadAsPublicKey 2 course.agreed.other →
          course.mapped.isElliptic = false ∧
            course.agreed.other.length < course.agreed.own.length) := by
  obtain ⟨c, after, hrun⟩ := smallChip_run
  obtain ⟨course, hv, -, hm, ha⟩ := establishWith_keys_distinct hrun
  refine ⟨c, after, hrun, course, hv, fun h => ?_, ha⟩
  exact absurd (hm h).1 (by decide)

/-- A course in which the chip sends the terminal's mapping key without its leading zero. -/
def echoedKeyCourse : Course where
  templateData := []
  nonceData := [0x7C, 0x0A, 0x80, 0x08, 0x00, 0x00, 0x00, 0x00, 0x00, 0x00, 0x00, 0x00]
  mappingData := [0x7C, 0x03, 0x82, 0x01, 0x04]
  agreementData := [0x7C, 0x04, 0x84, 0x02, 0x00, 0xCB]
  tokenData := [0x7C, 0x0A, 0x86, 0x08, 0x07, 0xA8, 0x72, 0x0A, 0x8F, 0xDC, 0x66, 0x6E]
  protocol := [0x04, 0x00, 0x7F, 0x00, 0x07, 0x02, 0x02, 0x04, 0x01, 0x01]
  encryptedNonce := [0x00, 0x00, 0x00, 0x00, 0x00, 0x00, 0x00, 0x00]
  nonce := 0xA2DF23D1DF37ABA8
  ownMapping := [0x00, 0x04]
  otherMapping := [0x04]
  mapped := .finiteField ⟨263, 64, 9, 131⟩
  agreed := ⟨[0x00, 0x51], [0x00, 0xCB], [0x00, 0xB5]⟩
  outgoing := [0x62, 0x46, 0xB6, 0xA1, 0x08, 0x09, 0x68, 0x3F]
  incoming := [0x07, 0xA8, 0x72, 0x0A, 0x8F, 0xDC, 0x66, 0x6E]

/-- **The keys need not be distinct.** A chip that sends the terminal's own value in one byte
instead of two is accepted. -/
theorem echoed_key_accepted :
    PaceParameters.make smallParameters.protocol smallParameters.group = .ok smallParameters ∧
      ∃ c after, (establishWith smallParameters (.can "123456") ⟨1, 2⟩).run Card.replay
          ⟨echoedKeyCourse.answers, none, [], []⟩ = (.ok c, after) ∧
        echoedKeyCourse.Valid smallParameters (.can "123456") ⟨1, 2⟩ ∧
        Link.Exchanged Card.replay ⟨echoedKeyCourse.answers, none, [], []⟩
          (echoedKeyCourse.exchanges (.can "123456")) after ∧
        smallParameters.group.ReadAsPublicKey 1 echoedKeyCourse.otherMapping := by
  have hv : echoedKeyCourse.Valid smallParameters (.can "123456") ⟨1, 2⟩ := by
    decide +kernel
  obtain ⟨c, after, hrun, he⟩ := hv.replay (by decide +kernel)
    (show (⟨echoedKeyCourse.answers, none, [], []⟩ : Link (List Bytes)).card = _ from rfl) rfl
  exact ⟨by decide, c, after, hrun, hv, he, 4, by decide +kernel, by decide +kernel⟩

end Pace
end TravelDocument

import TravelDocument.Proofs.Cipher.Suite
import TravelDocument.Proofs.Handshake.Pace.Agreement

/-!
# What a successful run says about the password

The nonce of a successful run is the decryption of what the chip sent under the key of the password
(`establishWith_nonce`). That binds the run to the password if the chip has sent a block at least.
The terminal also takes an empty object, whose decryption is empty under every password: then the
nonce is zero and the run succeeds with any password of the same kind
(`Course.Valid.of_empty_nonce`).
-/

namespace TravelDocument

namespace Pace

variable {params : PaceParameters} {password : PacePassword} {privateKeys : PrivateKeys}

/-- An empty object is decrypted to zero, whatever the password. -/
theorem decryptNonce_nil (params : PaceParameters) (password : PacePassword) :
    decryptNonce params password [] = .ok 0 := by
  refine decryptNonce_eq_ok.2 ⟨[], ?_, rfl⟩
  have hk := CipherSuite.length_deriveKey params.suite .password password.secret
  exact CipherSuite.decrypt_nil hk params.suite.length_zeroIv

/-- With an empty object a course fits any password. -/
theorem Course.Valid.of_empty_nonce {course : Course} (h : course.Valid params password privateKeys)
    (he : course.encryptedNonce = []) (other : PacePassword) :
    course.Valid params other privateKeys := by
  have hnonce : course.nonce = 0 := by
    have := h.nonce
    rw [he, decryptNonce_nil] at this
    exact (Except.ok.inj this).symm
  exact { h with nonce := by rw [he, decryptNonce_nil, hnonce] }

variable {σ : Type} {card : Card σ} {link after : Link σ} {c : Channel}

/-- **The nonce of a successful run is a decryption under the key of the password.** It is one of a
block or more, or else the chip has sent an empty object, and the run says nothing about the
password. -/
theorem establishWith_nonce
    (h : (establishWith params password privateKeys).run card link = (.ok c, after)) :
    ∃ course : Course, course.Valid params password privateKeys ∧
      Link.Exchanged card link (course.exchanges password) after ∧
      (∃ plain, params.suite.decrypt (params.suite.deriveKey .password password.secret)
          params.suite.zeroIv course.encryptedNonce = .ok plain ∧
        params.group.mapNonce (Bytes.toNat plain) privateKeys.mapping course.otherMapping =
          .ok course.mapped) ∧
      (params.suite.blockSize ≤ course.encryptedNonce.length ∨
        course.encryptedNonce = [] ∧ ∀ other :
          PacePassword, other.reference = password.reference →
          (establishWith params other privateKeys).run card link = (.ok c, after)) := by
  obtain ⟨course, hv, he, hmake⟩ := run_establishWith_eq_ok.1 h
  obtain ⟨plain, hplain, hn⟩ := decryptNonce_eq_ok.1 hv.nonce
  refine ⟨course, hv, he, ⟨plain, hplain, hn ▸ hv.mapped⟩, ?_⟩
  by_cases hempty : course.encryptedNonce = []
  · right
    refine ⟨hempty, fun other href => ?_⟩
    have hexchanges : course.exchanges other = course.exchanges password := by
      simp only [Course.exchanges, href]
    exact run_establishWith_eq_ok.2
      ⟨course, hv.of_empty_nonce hempty other, hexchanges ▸ he, hmake⟩
  · left
    have hpos := List.length_pos_iff.2 hempty
    exact Nat.le_of_dvd hpos
      (Nat.dvd_of_mod_eq_zero (CipherSuite.length_mod_of_decrypt_eq_ok hplain))

theorem establishWith_nonce_smallChip :
    ∃ c after, (establishWith smallChip.params smallChip.password ⟨3, 2⟩).run
      smallChip.card.plain
        ⟨.idle, none, [], []⟩ = (.ok c, after) ∧
      ∃ course : Course, course.Valid smallChip.params smallChip.password ⟨3, 2⟩ ∧
        (16 ≤ course.encryptedNonce.length ∨ course.encryptedNonce = [] ∧
          ∀ other : PacePassword, other.reference = smallChip.password.reference →
            (establishWith smallChip.params other ⟨3, 2⟩).run smallChip.card.plain
              ⟨.idle, none, [], []⟩ = (.ok c, after)) := by
  obtain ⟨c, after, hrun⟩ := smallChip_run
  obtain ⟨course, hv, -, -, hn⟩ := establishWith_nonce hrun
  exact ⟨c, after, hrun, course, hv, hn⟩

/-- A course in which the chip sends an empty object. -/
def emptyNonceCourse : Course where
  templateData := []
  nonceData := [0x7C, 0x02, 0x80, 0x00]
  mappingData := [0x7C, 0x04, 0x82, 0x02, 0x00, 0xEB]
  agreementData := [0x7C, 0x04, 0x84, 0x02, 0x00, 0xB5]
  tokenData := [0x7C, 0x0A, 0x86, 0x08, 0x44, 0xE3, 0x01, 0x3D, 0x53, 0x88, 0x86, 0xF3]
  protocol := [0x04, 0x00, 0x7F, 0x00, 0x07, 0x02, 0x02, 0x04, 0x01, 0x01]
  encryptedNonce := []
  nonce := 0
  ownMapping := [0x00, 0x40]
  otherMapping := [0x00, 0xEB]
  mapped := .finiteField ⟨263, 64, 140, 131⟩
  agreed := ⟨[0x00, 0x8A], [0x00, 0xB5], [0x00, 0x95]⟩
  outgoing := [0x7B, 0x45, 0x0D, 0x6C, 0xD3, 0xE3, 0xBE, 0x5F]
  incoming := [0x44, 0xE3, 0x01, 0x3D, 0x53, 0x88, 0x86, 0xF3]

/-- **The nonce need not be a block long.** A chip that sends an empty object is accepted. -/
theorem empty_nonce_accepted :
    PaceParameters.make smallParameters.protocol smallParameters.group = .ok smallParameters ∧
      ∃ c after, (establishWith smallParameters (.can "123456") ⟨3, 2⟩).run Card.replay
          ⟨emptyNonceCourse.answers, none, [], []⟩ = (.ok c, after) ∧
        emptyNonceCourse.Valid smallParameters (.can "123456") ⟨3, 2⟩ ∧
        Link.Exchanged Card.replay ⟨emptyNonceCourse.answers, none, [], []⟩
          (emptyNonceCourse.exchanges (.can "123456")) after ∧
        ¬ smallParameters.suite.blockSize ≤ emptyNonceCourse.encryptedNonce.length := by
  have hv : emptyNonceCourse.Valid smallParameters (.can "123456") ⟨3, 2⟩ := by
    decide +kernel
  obtain ⟨c, after, hrun, he⟩ := hv.replay (by decide +kernel)
    (show (⟨emptyNonceCourse.answers, none, [], []⟩ : Link (List Bytes)).card = _ from rfl) rfl
  exact ⟨by decide, c, after, hrun, hv, he, by decide⟩

end Pace
end TravelDocument

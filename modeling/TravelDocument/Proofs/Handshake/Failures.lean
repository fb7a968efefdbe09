import TravelDocument.Handshake.Pace.Protocol
import TravelDocument.Handshake.TerminalAuthentication
import TravelDocument.Proofs.Failures
import TravelDocument.Proofs.Handshake.Bac

/-!
# What the computations of a handshake fail with

Keys are derived in the length their suite has, and what is encrypted is a whole number of blocks.
So a computation of a handshake fails, if at all, for another reason than a length: its failure is
ordinary. The exception is the nonce of PACE, which is decrypted as the chip has sent it
(`Pace.decryptNonce_eq_error`).
-/

namespace TravelDocument

open Except (failsIn_ok failsIn_error failsIn_of_eq_ok)

/-! ## Groups -/

namespace DhGroup

variable (g : DhGroup)

theorem decodePublic_failsIn (b : Bytes) : (g.decodePublic b).FailsIn CryptoError.IsOrdinary := by
  rw [decodePublic]
  split
  · exact failsIn_error trivial
  · dsimp only
    split
    · exact failsIn_ok _
    · exact failsIn_error trivial

theorem publicValue_failsIn (privateKey : Nat) :
    (g.publicValue privateKey).FailsIn CryptoError.IsOrdinary := by
  rw [publicValue]
  split
  · exact failsIn_error trivial
  · exact failsIn_ok _

theorem sharedValue_failsIn (privateKey other : Nat) :
    (g.sharedValue privateKey other).FailsIn CryptoError.IsOrdinary := by
  rw [sharedValue]
  split
  · exact failsIn_error trivial
  · dsimp only
    split
    · exact failsIn_error trivial
    · exact failsIn_ok _

theorem mapNonce_failsIn (nonce shared : Nat) :
    (g.mapNonce nonce shared).FailsIn CryptoError.IsOrdinary := by
  rw [mapNonce]
  split
  · exact failsIn_error trivial
  · dsimp only
    split
    · exact failsIn_error trivial
    · exact failsIn_ok _

end DhGroup

namespace WeierstrassCurve

variable (c : WeierstrassCurve)

theorem decodePoint_failsIn (b : Bytes) : (c.decodePoint b).FailsIn CryptoError.IsOrdinary := by
  rw [decodePoint.eq_def]
  split
  · exact failsIn_error trivial
  · split
    · exact failsIn_error trivial
    · dsimp only
      split
      · exact failsIn_ok _
      · exact failsIn_error trivial

theorem encodePoint_failsIn (p : AffinePoint) :
    (c.encodePoint p).FailsIn CryptoError.IsOrdinary := by
  rw [encodePoint]
  split
  · exact failsIn_ok _
  · exact failsIn_error trivial

theorem publicPoint_failsIn (privateKey : Nat) :
    (c.publicPoint privateKey).FailsIn CryptoError.IsOrdinary := by
  rw [publicPoint]
  split
  · exact failsIn_ok _
  · exact failsIn_error trivial

theorem sharedPoint_failsIn (privateKey : Nat) (other : AffinePoint) :
    (c.sharedPoint privateKey other).FailsIn CryptoError.IsOrdinary := by
  rw [sharedPoint]
  split
  · exact failsIn_error trivial
  · split
    · exact failsIn_ok _
    · exact failsIn_error trivial

theorem mapNonce_failsIn (nonce : Nat) (shared : AffinePoint) :
    (c.mapNonce nonce shared).FailsIn CryptoError.IsOrdinary := by
  rw [mapNonce]
  split
  · exact failsIn_error trivial
  · split
    · exact failsIn_ok _
    · exact failsIn_error trivial

end WeierstrassCurve

namespace KeyAgreement

theorem fixedOr_failsIn (width n : Nat) {e : CryptoError} (h : e.IsOrdinary) :
    (fixedOr e width n).FailsIn CryptoError.IsOrdinary := by
  rw [fixedOr]
  split
  · exact failsIn_ok _
  · exact failsIn_error h

theorem publicKey_failsIn (k : KeyAgreement) (privateKey : Nat) :
    (k.publicKey privateKey).FailsIn CryptoError.IsOrdinary := by
  cases k with
  | finiteField g => exact (g.publicValue_failsIn _).bind fun _ _ => fixedOr_failsIn _ _ trivial
  | ellipticCurve c => exact (c.publicPoint_failsIn _).bind fun _ _ => c.encodePoint_failsIn _

theorem sharedSecret_failsIn (k : KeyAgreement) (privateKey : Nat) (other : Bytes) :
    (k.sharedSecret privateKey other).FailsIn CryptoError.IsOrdinary := by
  cases k with
  | finiteField g =>
    refine (g.decodePublic_failsIn _).bind fun y _ => ?_
    exact (g.sharedValue_failsIn _ _).bind fun _ _ => fixedOr_failsIn _ _ trivial
  | ellipticCurve c =>
    refine (c.decodePoint_failsIn _).bind fun p _ => ?_
    exact (c.sharedPoint_failsIn _ _).bind fun _ _ => fixedOr_failsIn _ _ trivial

theorem mapNonce_failsIn (k : KeyAgreement) (nonce privateKey : Nat) (other : Bytes) :
    (k.mapNonce nonce privateKey other).FailsIn CryptoError.IsOrdinary := by
  cases k with
  | finiteField g =>
    refine (g.decodePublic_failsIn _).bind fun y _ => (g.sharedValue_failsIn _ _).bind fun v _ => ?_
    exact (g.mapNonce_failsIn _ _).bind fun _ _ => failsIn_ok _
  | ellipticCurve c =>
    refine (c.decodePoint_failsIn _).bind fun p _ => (c.sharedPoint_failsIn _ _).bind fun q _ => ?_
    exact (c.mapNonce_failsIn _ _).bind fun _ _ => failsIn_ok _

end KeyAgreement

/-- Keys that are derived make a channel. -/
theorem Channel.make_failsIn (suite : CipherSuite) (secret : Bytes) (counter : Nat)
    {bad : CryptoError → Prop} :
    (Channel.make suite (suite.deriveSessionKeys secret) counter).FailsIn bad := by
  obtain ⟨c, hc, -⟩ := Channel.make_derived suite secret counter
  exact failsIn_of_eq_ok hc

/-! ## Basic Access Control -/

theorem Challenge.check_failsIn (data : Bytes) : (check data).FailsIn Error.IsOrdinary := by
  rw [check]
  split
  · exact failsIn_ok _
  · exact failsIn_error trivial

namespace Bac

variable (seed : Bytes)

theorem encryptMessage_failsIn {contents : Bytes} {bad : CryptoError → Prop}
    (h : contents.length = cryptogramSize) :
    (encryptMessage (CipherSuite.tdes.deriveSessionKeys seed) contents).FailsIn bad := by
  obtain ⟨he, hm⟩ := length_sessionKeys seed
  obtain ⟨_, hmessage, -⟩ := encryptMessage_spec he hm h
  exact failsIn_of_eq_ok hmessage

theorem decryptMessage_failsIn (message : Bytes) :
    (decryptMessage (CipherSuite.tdes.deriveSessionKeys seed) message).FailsIn
      Error.IsOrdinary := by
  obtain ⟨he, hm⟩ := length_sessionKeys seed
  rw [decryptMessage]
  split
  · exact failsIn_error trivial
  rename_i hl
  obtain ⟨_, hmac, -⟩ := CipherSuite.mac_spec hm
    (Padding.pad CipherSuite.tdes.macBlockSize (message.take cryptogramSize))
  have hsize : (message.take cryptogramSize).length = cryptogramSize :=
    List.length_take_of_le (by rw [not_not.1 hl]; decide)
  refine (failsIn_liftCrypto ((failsIn_of_eq_ok hmac).bind fun _ _ => failsIn_ok _)).bind
    fun genuine _ => ?_
  cases genuine with
  | false => exact failsIn_error trivial
  | true =>
    -- four blocks are decrypted, whatever they are
    refine failsIn_liftCrypto fun e hd => ?_
    have hragged := (CipherSuite.decrypt_eq_error he CipherSuite.tdes.length_zeroIv hd).1
    rw [hsize] at hragged
    exact absurd rfl hragged

theorem checkContents_failsIn (rndIc rndIfd contents : Bytes) :
    (checkContents rndIc rndIfd contents).FailsIn Error.IsOrdinary := by
  rw [checkContents]
  split
  · exact failsIn_error trivial
  split
  · exact failsIn_error trivial
  · exact failsIn_ok _

end Bac

/-! ## PACE -/

namespace Pace

theorem encodeProtocol_failsIn (protocol : ObjectIdentifier) :
    (encodeProtocol protocol).FailsIn Error.IsOrdinary := by
  rw [encodeProtocol]
  split
  · exact failsIn_ok _
  · exact failsIn_error trivial

theorem Step.answer_failsIn (step : Step) (data : Bytes) :
    (step.answer data).FailsIn Error.IsOrdinary := by
  rw [Step.answer]
  split
  · exact failsIn_error trivial
  split
  · exact failsIn_error trivial
  · exact failsIn_ok _

theorem checkDifferent_failsIn (own other : Bytes) :
    (checkDifferent own other).FailsIn CryptoError.IsOrdinary := by
  rw [checkDifferent]
  split
  · exact failsIn_error trivial
  · exact failsIn_ok _

variable {params : PaceParameters}

theorem token_failsIn (secret publicKey : Bytes) :
    (token params (params.suite.deriveSessionKeys secret).mac publicKey).FailsIn
      Error.IsOrdinary := by
  refine (encodeProtocol_failsIn _).bind fun protocol _ => ?_
  obtain ⟨_, hmac, -⟩ := CipherSuite.mac_spec (params.suite.length_deriveKey .mac secret)
    (tokenInput params protocol publicKey)
  exact failsIn_liftCrypto (failsIn_of_eq_ok hmac)

/-- **The nonce is decrypted** unless it is not a whole number of blocks. -/
theorem decryptNonce_eq_error {password : PacePassword} {encrypted : Bytes} {e : CryptoError}
    (h : decryptNonce params password encrypted = .error e) :
    encrypted.length % params.suite.blockSize ≠ 0 ∧
      e = .invalidDataLength params.suite.blockSize encrypted.length := by
  rw [decryptNonce] at h
  cases hd : params.suite.decrypt (params.suite.deriveKey .password password.secret)
    params.suite.zeroIv
      encrypted with
  | error e' =>
    rw [hd] at h
    cases h
    exact CipherSuite.decrypt_eq_error (params.suite.length_deriveKey .password _)
      params.suite.length_zeroIv hd
  | ok plain =>
    rw [hd] at h
    cases h

end Pace

/-! ## Chip Authentication and Terminal Authentication -/

namespace ChipAuthentication

theorem keyHashOf_failsIn (group : KeyAgreement) (publicKey : Bytes) :
    (keyHashOf group publicKey).FailsIn CryptoError.IsOrdinary := by
  rw [keyHashOf.eq_def]
  split
  · exact failsIn_ok _
  split
  · exact failsIn_error trivial
  split
  · exact failsIn_ok _
  · exact failsIn_error trivial

theorem prepare_failsIn (chipKey : ChipPublicKey) (keyId : Option Nat) (privateKey : Nat) :
    (prepare chipKey keyId privateKey).FailsIn CryptoError.IsOrdinary := by
  refine (chipKey.group.publicKey_failsIn _).bind fun publicKey _ => ?_
  refine (chipKey.group.sharedSecret_failsIn _ _).bind fun secret _ => ?_
  exact (keyHashOf_failsIn _ _).bind fun _ _ => failsIn_ok _

end ChipAuthentication

theorem TerminalAuthentication.plainSignature_failsIn (algorithm : SignatureAlgorithm)
    (signature : Bytes) :
    (plainSignature algorithm signature).FailsIn CryptoError.IsOrdinary := by
  rw [plainSignature.eq_def]
  split
  · exact failsIn_ok _
  split
  · exact failsIn_ok _
  · exact failsIn_error trivial

end TravelDocument

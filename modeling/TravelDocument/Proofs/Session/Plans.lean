import TravelDocument.Proofs.Dialogue.Terms
import TravelDocument.Proofs.Handshake.Failures
import TravelDocument.Session.Request

/-!
# How requests end

Commands keep to all terms that are fair (`Request.command_keeps`). So does a handshake, with the
kind of channel it makes (`Handshake.Makes`), unless it fails on its certificate chain before
anything is sent (`Request.handshake_keeps`); but the terms have to cover two failures of other
kinds, that the nonce of PACE is not decrypted and that the signer fails (`Terms.Covers`). The
failures of Chip Authentication on the key it has drawn come before anything is sent as well
(`ChipAuthentication.establishWith_of_error`).
-/

namespace TravelDocument

open Dialogue
open Except (failsIn_ok failsIn_error)

variable {t : Terms}

/-! ## Reading files -/

namespace File

theorem readData_failsIn (offset : Nat) (response : Bytes) :
    (readData offset response).FailsIn Error.IsOrdinary := by
  rw [readData]
  split
  · exact failsIn_ok _
  rw [unwrapContents]
  split
  · exact failsIn_error trivial
  split
  · exact failsIn_error trivial
  split
  · exact failsIn_error trivial
  split
  · exact failsIn_error trivial
  · exact failsIn_ok _

variable (ht : t.Fair)
include ht

theorem selectApplet_keeps (aid : Bytes) : (selectApplet aid).Keeps t fun _ => True :=
  (keeps_expectSuccess ht (ht.sends_make ..) _).bind fun _ _ => keeps_pure trivial

theorem refineSelectError_fails {e : Error} (h : t.fails e) : t.fails (refineSelectError e) := by
  rw [refineSelectError.eq_def]
  split
  · split
    · exact ht.fails_ordinary trivial
    · exact h
  · exact h

theorem selectFile_keeps (file : FileIdentifier) : (selectFile file).Keeps t fun _ => True := by
  refine ⟨ht.sends_make .., fun answer hanswer => ?_⟩
  dsimp only
  cases hr : answer.bind (requireSuccess .selectFile) with
  | ok response => exact keeps_pure trivial
  | error e =>
    rcases requireSuccess_eq_error hr with rfl | ⟨status, rfl⟩
    · exact refineSelectError_fails ht (ht.fails_answered hanswer)
    · exact refineSelectError_fails ht (ht.fails_ordinary trivial)

theorem sends_readCommand (offset length : Nat) : t.sends (readCommand offset length) := by
  rw [readCommand]
  split
  · exact ht.sends_make ..
  · exact ht.sends_make ..

theorem readCorrected_keeps (offset length : Nat) :
    (readCorrected offset length).Keeps t fun _ => True := by
  induction length with
  | zero => exact keeps_pure trivial
  | succ length ih =>
    rw [readCorrected]
    refine (keeps_transmit ht (sends_readCommand ht _ _)).bind fun response _ => ?_
    split
    · exact (keeps_ordinary ht (readData_failsIn _ _)).mono fun _ _ => trivial
    split
    · exact ih
    · exact ht.fails_ordinary trivial

theorem readUncorrected_keeps (offset length : Nat) :
    (readUncorrected offset length).Keeps t fun _ => True := by
  induction length with
  | zero => exact keeps_pure trivial
  | succ length ih =>
    rw [readUncorrected]
    refine (keeps_transmit ht (sends_readCommand ht _ _)).bind fun response _ => ?_
    split
    · exact (keeps_ordinary ht (readData_failsIn _ _)).mono fun _ _ => trivial
    split
    · exact ih
    split
    · exact readCorrected_keeps ht _ _
    · exact ht.fails_ordinary trivial

theorem readBinary_keeps (config : SessionConfig) (offset length : Nat) :
    (readBinary config offset length).Keeps t fun _ => True :=
  readUncorrected_keeps ht _ _

theorem readRest_keeps (config : SessionConfig) (total : Nat) (contents : Bytes) :
    (readRest config total contents).Keeps t fun _ => True := by
  induction hn : total - contents.length using Nat.strongRecOn generalizing contents with
  | ind n ih =>
    rw [readRest]
    split
    · refine (readBinary_keeps ht _ _ _).bind fun chunk _ => ?_
      cases chunk with
      | nil => exact ht.fails_ordinary trivial
      | cons b rest =>
        refine ih _ ?_ _ rfl
        simp only [List.length_append, List.length_cons]
        omega
    · exact keeps_pure trivial

theorem readSelected_keeps (config : SessionConfig) :
    (readSelected config).Keeps t fun _ => True := by
  refine (readBinary_keeps ht _ _ _).bind fun first _ => ?_
  split
  · exact readRest_keeps ht _ _ _
  · refine (readBinary_keeps ht _ _ _).bind fun more _ => ?_
    split
    · exact readRest_keeps ht _ _ _
    · exact ht.fails_ordinary trivial

theorem read_keeps (config : SessionConfig) (file : FileIdentifier) :
    (read config file).Keeps t fun _ => True :=
  (selectFile_keeps ht file).bind fun _ _ => readSelected_keeps ht config

end File

/-! ## Basic Access Control -/

section
variable (ht : t.Fair)
include ht

/-- A challenge has eight bytes. -/
theorem Challenge.obtain_keeps :
    Challenge.obtain.Keeps t fun challenge => challenge.length = size := by
  refine (keeps_expectSuccess ht (ht.sends_make ..) _).bind fun response _ => ?_
  refine (keeps_ordinary ht (check_failsIn _)).mono fun challenge hc => ?_
  rw [check] at hc
  split at hc
  · cases hc
    assumption
  · cases hc

theorem Bac.establish_keeps (key : Mrz.AccessKey) : (establish key).Keeps t fun _ => True := by
  refine (Challenge.obtain_keeps ht).bind fun rndIc hic => ?_
  refine (keeps_random _).bind fun rndIfd hifd => (keeps_random _).bind fun kIfd hkifd => ?_
  have hcontents : (rndIfd ++ rndIc ++ kIfd).length = cryptogramSize := by
    rw [List.length_append, List.length_append, hifd, hic, hkifd]
    rfl
  refine (keeps_ordinaryCrypto ht (encryptMessage_failsIn _ hcontents)).bind fun message _ => ?_
  refine (keeps_expectSuccess ht (ht.sends_make ..) _).bind fun response _ => ?_
  refine (keeps_ordinary ht (decryptMessage_failsIn _ _)).bind fun contents _ => ?_
  refine (keeps_ordinary ht (checkContents_failsIn _ _ _)).bind fun kIc _ => ?_
  exact (keeps_ordinaryCrypto ht (Channel.make_failsIn _ _ _)).mono fun _ _ => trivial

end

/-! ## PACE -/

namespace Pace

variable (ht : t.Fair)
include ht

/-- What a step of GENERAL AUTHENTICATE ends with is the object in the response to its command. -/
theorem Step.exchange_keeps (step : Step) (objects : Bytes) :
    (step.exchange objects).Keeps t fun value => ∃ response : Apdu.Response,
      t.answers (step.command objects) (.ok response) ∧ response.status = .success ∧
        step.answer response.data = .ok value := by
  refine (keeps_expectSuccess ht (ht.sends_make ..) _).bind fun response hr => ?_
  exact (keeps_ordinary ht (step.answer_failsIn _)).mono fun value hv =>
    ⟨response, hr.2, hr.1, hv⟩

theorem setTemplate_keeps (params : PaceParameters) (password : PacePassword) :
    (setTemplate params password).Keeps t fun _ => True := by
  refine (keeps_ordinary ht (encodeProtocol_failsIn _)).bind fun protocol _ => ?_
  exact (keeps_expectSuccess ht (ht.sends_make ..) _).bind fun _ _ => keeps_pure trivial

theorem mapNonce_keeps (group : KeyAgreement) (nonce privateKey : Nat) :
    (mapNonce group nonce privateKey).Keeps t fun _ => True := by
  refine (keeps_ordinaryCrypto ht (group.publicKey_failsIn _)).bind fun own _ => ?_
  refine (Step.exchange_keeps ht _ _).bind fun other _ => ?_
  refine (keeps_ordinaryCrypto ht (checkDifferent_failsIn _ _)).bind fun _ _ => ?_
  exact (keeps_ordinaryCrypto ht (group.mapNonce_failsIn _ _ _)).mono fun _ _ => trivial

theorem agree_keeps (group : KeyAgreement) (privateKey : Nat) :
    (agree group privateKey).Keeps t fun _ => True := by
  refine (keeps_ordinaryCrypto ht (group.publicKey_failsIn _)).bind fun own _ => ?_
  refine (Step.exchange_keeps ht _ _).bind fun other _ => ?_
  refine (keeps_ordinaryCrypto ht (checkDifferent_failsIn _ _)).bind fun _ _ => ?_
  refine (keeps_ordinaryCrypto ht (group.sharedSecret_failsIn _ _)).bind fun secret _ => ?_
  exact keeps_pure trivial

theorem authenticate_keeps (params : PaceParameters) (secret : Bytes) (agreed : Agreed) :
    (authenticate params (params.suite.deriveSessionKeys secret).mac agreed).Keeps t fun _ =>
      True := by
  refine (keeps_ordinary ht (token_failsIn _ _)).bind fun outgoing _ => ?_
  refine (keeps_ordinary ht (token_failsIn _ _)).bind fun expected _ => ?_
  refine (Step.exchange_keeps ht _ _).bind fun incoming _ => ?_
  split
  · exact keeps_pure trivial
  · exact ht.fails_ordinary trivial

omit ht in
theorem drawPrivateKey_keeps (group : KeyAgreement) :
    (drawPrivateKey group).Keeps t fun _ => True :=
  fun _ _ => trivial

/-- PACE fails ordinarily, unless the nonce that the chip has sent is not decrypted. -/
theorem establish_keeps {params : PaceParameters} {password : PacePassword}
    (hn : ∀ (response : Apdu.Response) encrypted, t.answers (nonceStep.command [])
      (.ok response) →
      response.status = .success → nonceStep.answer response.data = .ok encrypted →
      (decryptNonce params password encrypted).FailsIn fun reason => t.fails (.crypto reason)) :
    (establish params password).Keeps t fun _ => True := by
  refine (drawPrivateKey_keeps _).bind fun mapping _ => ?_
  refine (drawPrivateKey_keeps _).bind fun agreement _ => ?_
  refine (setTemplate_keeps ht _ _).bind fun _ _ => ?_
  have hnonce : (obtainNonce params password).Keeps t fun _ => True := by
    refine (Step.exchange_keeps ht _ _).bind fun encrypted hencrypted => ?_
    obtain ⟨response, hanswer, hstatus, hvalue⟩ := hencrypted
    exact keeps_ofCrypto (fun _ _ => trivial) (hn response encrypted hanswer hstatus hvalue)
  refine hnonce.bind fun nonce _ => ?_
  refine (mapNonce_keeps ht _ _ _).bind fun mapped _ => ?_
  refine (agree_keeps ht _ _).bind fun agreed _ => ?_
  refine (authenticate_keeps ht _ _ _).bind fun _ _ => ?_
  intro previous
  exact (keeps_ordinaryCrypto ht (Channel.make_failsIn _ _ _)).mono fun _ _ => trivial

end Pace

/-! ## Chip Authentication -/

namespace ChipAuthentication

variable {chipKey : ChipPublicKey} {keyId : Option Nat} {privateKey : Nat}

/-- A key computation that fails ends the protocol before anything is sent. -/
theorem establishWith_of_error {reason : CryptoError}
    (h : prepare chipKey keyId privateKey = .error reason) :
    establishWith chipKey keyId privateKey = .fail (.crypto reason) := by
  rw [establishWith, h]
  rfl

theorem establishWith_keeps (ht : t.Fair) :
    (establishWith chipKey keyId privateKey).Keeps t fun made => made.1.suite = .tdes := by
  refine (keeps_ordinaryCrypto ht (prepare_failsIn _ _ _)).bind fun prepared _ => ?_
  refine (keeps_expectSuccess ht (ht.sends_make ..) _).bind fun _ _ => ?_
  refine (keeps_ordinaryCrypto ht (Channel.make_failsIn _ _ _)).bind fun channel hc => ?_
  exact keeps_pure (Channel.make_spec hc).1

theorem establish_keeps (ht : t.Fair) :
    (establish chipKey keyId).Keeps t fun made => made.1.suite = .tdes :=
  (keeps_random _).bind fun _ _ => establishWith_keeps ht

end ChipAuthentication

/-! ## Terminal Authentication -/

theorem CertificateChain.validate_ne_nil {expected : Option String} {chain : List Certificate}
    {validated : ValidatedChain} (h : validate expected chain = .ok validated) :
    validated.certificates ≠ [] := by
  rw [validate] at h
  cases hd : dropCvca expected chain with
  | error e =>
    rw [hd] at h
    cases h
  | ok dropped =>
    obtain ⟨reference, certificates⟩ := dropped
    rw [hd] at h
    change checkLinks reference certificates = .ok validated at h
    cases certificates with
    | nil => cases h
    | cons first rest =>
      rw [checkLinks] at h
      split at h
      · cases h
      split at h
      · cases h
      dsimp only at h
      split at h
      · cases h
      · cases h
        exact List.cons_ne_nil _ _

namespace TerminalAuthentication

variable {blockSize : Nat} {chip : ChipAuthentication} {credentials : TerminalCredentials}

/-- A chain that is not valid ends the protocol before anything is sent. -/
theorem authenticate_of_error {reason : ChainError}
    (h : CertificateChain.validate credentials.caReference credentials.chain = .error reason) :
    authenticate blockSize chip credentials = .fail (.chain reason) := by
  rw [authenticate, h]
  rfl

variable (ht : t.Fair)
include ht

theorem sendBlocks_keeps (size : Nat) (data : Bytes) :
    (sendBlocks size data).Keeps t fun _ => True := by
  induction hn : data.length using Nat.strongRecOn generalizing data with
  | ind n ih =>
    rw [sendBlocks]
    split
    · split
      · exact keeps_pure trivial
      · exact (keeps_expectSuccess ht (ht.sends_make ..) _).bind fun _ _ => keeps_pure trivial
    · refine (keeps_expectSuccess ht (ht.sends_make ..) _).bind fun _ _ => ih _ ?_ _ rfl
      rw [List.length_drop]
      omega

theorem sendCertificates_keeps (size : Nat) (certificates : List Certificate) :
    (sendCertificates size certificates).Keeps t fun _ => True := by
  induction certificates with
  | nil => exact keeps_pure trivial
  | cons c rest ih =>
    rw [sendCertificates, sendCertificate]
    exact Keeps.bind ((keeps_expectSuccess ht (ht.sends_make ..) _).bind fun _ _ =>
      sendBlocks_keeps ht _ _) fun _ _ => ih

/-- With a valid chain Terminal Authentication fails ordinarily, unless the signer fails. -/
theorem authenticate_keeps {chain : ValidatedChain}
    (h : CertificateChain.validate credentials.caReference credentials.chain = .ok chain)
    (hsign : ∀ data, t.signs data →
      (credentials.signer.sign data).FailsIn fun reason => t.fails (.crypto reason)) :
    (authenticate blockSize chip credentials).Keeps t fun _ => True := by
  have hleaf : (leafReference chain.certificates).FailsIn Error.IsOrdinary := by
    rw [leafReference]
    split
    · exact failsIn_ok _
    · rename_i hn
      exact absurd (List.getLast?_eq_none_iff.1 hn) (CertificateChain.validate_ne_nil h)
  rw [authenticate, h]
  refine (sendCertificates_keeps ht _ _).bind fun _ _ => ?_
  refine (keeps_ordinary ht hleaf).bind fun leaf _ => ?_
  refine (keeps_expectSuccess ht (ht.sends_make ..) _).bind fun _ _ => ?_
  refine (Challenge.obtain_keeps ht).bind fun challenge _ => ?_
  refine (keeps_signature (hsign _)).bind fun signature _ => ?_
  refine (keeps_ordinaryCrypto ht (plainSignature_failsIn _ _)).bind fun plain _ => ?_
  exact (keeps_expectSuccess ht (ht.sends_make ..) _).bind fun _ _ => keeps_pure trivial

end TerminalAuthentication

/-! ## Plans -/

/-- What a handshake makes in the way of a channel. -/
def Handshake.Makes : Handshake → Option Channel → Prop
  | .bac, channel | .pace, channel => ∃ c, channel = some c
  | .chipAuthentication, channel => ∃ c, channel = some c ∧ c.suite = .tdes
  | .terminalAuthentication, channel => channel = none

/-- The terms allow the two failures that need not be ordinary: that a nonce is not decrypted which
the chip sends, and those of the signer. -/
def Dialogue.Terms.Covers (t : Terms) : Request → Prop
  | .pace params password => ∀ (response : Apdu.Response) encrypted,
    t.answers (Pace.nonceStep.command []) (.ok response) → response.status = .success →
    Pace.nonceStep.answer response.data = .ok encrypted →
    (Pace.decryptNonce params password encrypted).FailsIn fun reason => t.fails (.crypto reason)
  | .terminalAuthentication _ credentials =>
    ∀ data, t.signs data →
      (credentials.signer.sign data).FailsIn fun reason => t.fails (.crypto reason)
  | .open | .close | .selectApplet _ | .selectFile _ | .readBinary _ _ | .readContents _ | .bac _
  | .chipAuthentication _ _ => True

theorem Dialogue.Terms.operational_covers (request : Request) :
    Terms.operational.Covers request := by
  cases request with
  | pace _ _ => exact fun _ _ _ _ _ _ _ => trivial
  | terminalAuthentication _ _ => exact fun _ _ _ _ => trivial
  | «open» | close | selectApplet _ | selectFile _ | readBinary _ _ | readContents _ | bac _
  | chipAuthentication _ _ => exact trivial

namespace Request

variable {config : SessionConfig} {request : Request} (ht : t.Fair)
include ht

/-- **A command keeps to the terms.** -/
theorem command_keeps {operation : Operation} {dialogue : Dialogue Value}
    (h : request.plan config = .command operation dialogue) : dialogue.Keeps t fun _ => True := by
  cases request with
  | «open» | close | bac _ | pace _ _ | chipAuthentication _ _ | terminalAuthentication _ _ =>
    cases h
  | selectApplet aid =>
    cases h
    exact (File.selectApplet_keeps ht aid).bind fun _ _ => keeps_pure trivial
  | selectFile file =>
    cases h
    exact (File.selectFile_keeps ht file).bind fun _ _ => keeps_pure trivial
  | readBinary offset length =>
    cases h
    exact (File.readBinary_keeps ht config offset length).bind fun _ _ => keeps_pure trivial
  | readContents file =>
    cases h
    exact (File.read_keeps ht config file).bind fun _ _ => keeps_pure trivial

/-- **A handshake keeps to the terms and makes its kind of channel**, unless its certificate chain
is refused at once. -/
theorem handshake_keeps (hc : t.Covers request) {handshake : Handshake}
    {dialogue : Dialogue (Option Channel × Value)}
    (h : request.plan config = .handshake handshake dialogue) :
    (∃ reason, dialogue = .fail (.chain reason)) ∨
      dialogue.Keeps t fun made => handshake.Makes made.1 := by
  cases request with
  | «open» | close | selectApplet _ | selectFile _ | readBinary _ _ | readContents _ => cases h
  | bac key =>
    cases h
    exact .inr ((Bac.establish_keeps ht key).bind fun c _ => keeps_pure ⟨c, rfl⟩)
  | pace params password =>
    cases h
    exact .inr ((Pace.establish_keeps ht hc).bind fun c _ => keeps_pure ⟨c, rfl⟩)
  | chipAuthentication chipKey keyId =>
    cases h
    exact .inr ((ChipAuthentication.establish_keeps ht).bind fun made hmade =>
      keeps_pure ⟨made.1, rfl, hmade⟩)
  | terminalAuthentication chip credentials =>
    cases h
    -- a broken chain is refused before anything is sent
    cases hv : CertificateChain.validate credentials.caReference credentials.chain with
    | error reason =>
      refine .inl ⟨reason, ?_⟩
      rw [TerminalAuthentication.authenticate_of_error hv]
      rfl
    | ok chain =>
      exact .inr ((TerminalAuthentication.authenticate_keeps ht hv hc).bind fun _ _ =>
        keeps_pure rfl)

end Request
end TravelDocument

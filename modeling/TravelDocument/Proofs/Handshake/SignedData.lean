import TravelDocument.Proofs.Dialogue.Completion
import TravelDocument.Proofs.Handshake.TerminalAuthentication
import TravelDocument.Proofs.Mrz.NumberField
import TravelDocument.Proofs.Session.Steps

/-!
# What the terminal signs is unambiguous

The data that is signed has three parts without lengths in front of them, and the first one is as
long as the document number needs it to be. Still the parts can be told (`signedData_eq_iff`), since
the two others have a fixed length and the first one ends with its check digit. Any text is good
enough for a document number: whether the signer is called does not depend on it
(`signed_unambiguously`).
-/

namespace TravelDocument.TerminalAuthentication

open Mrz (AgreeUpToFillers)

/-! ## The parts of the data -/

theorem numberWithCheckDigit_inj {number number' : String} :
    Mrz.numberWithCheckDigit number = Mrz.numberWithCheckDigit number' ↔
      AgreeUpToFillers number.toList number'.toList := by
  rw [Mrz.numberWithCheckDigit, Mrz.numberWithCheckDigit, String.ofList_inj, Mrz.numberField_inj]

/-- **The signed data tells its parts.** Challenges and key hashes are compared as they are,
document numbers up to fillers at the end. -/
theorem signedData_eq_iff {number number' : String} {challenge challenge' keyHash keyHash' : Bytes}
    (hc : challenge.length = challenge'.length) (hk : keyHash.length = keyHash'.length) :
    signedData number challenge keyHash = signedData number' challenge' keyHash' ↔
      AgreeUpToFillers number.toList number'.toList ∧ challenge = challenge' ∧
        keyHash = keyHash' := by
  rw [← numberWithCheckDigit_inj, ← Text.utf8_inj, signedData, signedData]
  constructor
  · intro h
    obtain ⟨hfront, hkeyHash⟩ := List.append_inj' h hk
    obtain ⟨hnumber, hchallenge⟩ := List.append_inj' hfront hc
    exact ⟨hnumber, hchallenge, hkeyHash⟩
  · rintro ⟨hnumber, rfl, rfl⟩
    rw [hnumber]

/-! ## The way to the signature -/

/-- What comes before the signature. It ends with the challenge of the chip. -/
def approach (blockSize : Nat) (chain : ValidatedChain) (leaf : Certificate) : Dialogue Bytes := do
  Dialogue.sendAll (preparationSteps blockSize chain.certificates leaf)
  let response ← Dialogue.expectSuccess .getChallenge Challenge.command
  Dialogue.ofExcept (Challenge.check response.data)

/-- What comes after it has been called for. -/
def answerChallenge (chip : ChipAuthentication) (credentials : TerminalCredentials)
    (chain : ValidatedChain) (challenge : Bytes) : Dialogue TerminalAuthentication := do
  let plain ← Dialogue.ofCrypto
    (plainSign credentials.signer (signedData credentials.documentNumber challenge chip.keyHash))
  let _ ← Dialogue.expectSuccess .terminalExternalAuthenticate (authenticateCommand plain)
  return result chip credentials chain challenge

variable {σ : Type} {blockSize : Nat} {chip : ChipAuthentication}
  {credentials : TerminalCredentials}
  {chain : ValidatedChain} {leaf : Certificate}

theorem authenticate_eq_approach
    (h : CertificateChain.validate credentials.caReference credentials.chain = .ok chain)
    (hl : chain.certificates.getLast? = some leaf) :
    authenticate blockSize chip credentials = approach blockSize chain leaf >>= fun challenge =>
      .sign (signedData credentials.documentNumber challenge chip.keyHash)
        (answerChallenge chip credentials chain challenge) := by
  rw [authenticate_eq h hl, approach, bind_assoc]
  congr 1
  funext _
  rw [bind_assoc]
  congr 1
  funext response
  rw [conclude]
  congr 1
  funext challenge
  rw [Dialogue.signature, Dialogue.bind_sign, answerChallenge, plainSign]
  congr 1
  cases credentials.signer.sign (signedData credentials.documentNumber challenge chip.keyHash) with
  | error reason => rfl
  | ok signature => rfl

theorem signings_refused {commands : List Apdu.Command} {turns : List Turn}
    (h : Dialogue.Refused commands turns) : Turn.signings turns = [] := by
  obtain ⟨-, -⟩ := h
  simp

theorem turns_ofExcept {α : Type} (r : Except Error α) (card : Card σ) (link : Link σ) :
    (Dialogue.ofExcept r).turns card link = [] := by
  cases r with
  | error e => rfl
  | ok a => rfl

/-- Nothing is signed before the challenge is there. -/
theorem signings_approach (card : Card σ) (link : Link σ) :
    Turn.signings ((approach blockSize chain leaf).turns card link) = [] := by
  rcases Dialogue.sendAll_bind (preparationSteps blockSize chain.certificates leaf)
      (fun _ => Dialogue.expectSuccess .getChallenge Challenge.command >>= fun response =>
        Dialogue.ofExcept (Challenge.check response.data)) card link with
    ⟨exchanges, after, -, -, hturns⟩ | ⟨hrefused, -⟩
  · rw [approach, hturns, Turn.signings_append, Turn.signings_granted, List.nil_append]
    rcases Dialogue.expectSuccess_bind .getChallenge Challenge.command
        (fun response => Dialogue.ofExcept (Challenge.check response.data)) card after with
      ⟨data, last, -, hturns⟩ | ⟨answer, e, last, -, -, hturns⟩
    · rw [hturns, Turn.signings_granted_cons, turns_ofExcept, Turn.signings_nil]
    · rw [hturns, Turn.signings_exchange, Turn.signings_nil]
  · exact signings_refused hrefused

/-- Nothing else is signed afterwards. -/
theorem signings_answerChallenge (challenge : Bytes) (card : Card σ) (link : Link σ) :
    Turn.signings ((answerChallenge chip credentials chain challenge).turns card link) = [] := by
  rw [answerChallenge]
  cases plainSign credentials.signer
      (signedData credentials.documentNumber challenge chip.keyHash) with
  | error reason => rfl
  | ok plain =>
    rcases Dialogue.expectSuccess_bind .terminalExternalAuthenticate (authenticateCommand plain)
        (fun _ => .done (result chip credentials chain challenge)) card link with
      ⟨data, last, -, hturns⟩ | ⟨answer, e, last, -, -, hturns⟩
    · exact congrArg Turn.signings hturns
    · exact congrArg Turn.signings hturns

/-- A challenge that the approach ends with has eight bytes. -/
theorem length_of_approach {card : Card σ} {link after : Link σ} {challenge : Bytes}
    (h : (approach blockSize chain leaf).run card link = (.ok challenge, after)) :
    challenge.length = 8 := by
  obtain ⟨_, _, -, h⟩ := Dialogue.run_bind_eq_ok.1 h
  obtain ⟨response, _, -, h⟩ := Dialogue.run_bind_eq_ok.1 h
  have hcheck := (Dialogue.run_ofExcept_eq_ok.1 h).1
  rw [Challenge.check] at hcheck
  split at hcheck
  · cases hcheck
    assumption
  · cases hcheck

/-- What is signed is decided by the approach, but for the document number. -/
theorem signings_authenticate (credentials : TerminalCredentials)
    (h : CertificateChain.validate credentials.caReference credentials.chain = .ok chain)
    (hl : chain.certificates.getLast? = some leaf) (card : Card σ) (link : Link σ) :
    Turn.signings ((authenticate blockSize chip credentials).turns card link) =
      match ((approach blockSize chain leaf).run card link).1 with
      | .ok challenge => [signedData credentials.documentNumber challenge chip.keyHash]
      | .failed _ | .interrupted => [] := by
  rw [authenticate_eq_approach h hl, Dialogue.turns_bind, Turn.signings_append, signings_approach]
  rcases (approach blockSize chain leaf).run card link with ⟨challenge | e | _, after⟩
  · exact congrArg (List.cons _) (signings_answerChallenge challenge card _)
  · rfl
  · rfl

/-- **The document number has no say in whether the signer is called**: there is a challenge or
none, and with every number it is signed together with this number. -/
theorem exists_challenge (blockSize : Nat) (chip : ChipAuthentication)
    (credentials : TerminalCredentials) (card : Card σ) (link : Link σ) :
    ∃ challenge : Option Bytes, (∀ c ∈ challenge, c.length = 8) ∧ ∀ number,
      Turn.signings ((authenticate blockSize chip
        { credentials with documentNumber := number }).turns card link) =
          (challenge.map (signedData number · chip.keyHash)).toList := by
  cases h : CertificateChain.validate credentials.caReference credentials.chain with
  | error reason =>
    refine ⟨none, nofun, fun number => ?_⟩
    have hfail : authenticate blockSize chip { credentials with documentNumber := number } =
        .fail (.chain reason) := authenticate_of_error h
    rw [hfail]
    rfl
  | ok chain =>
    cases hl : chain.certificates.getLast? with
    | none => exact absurd (List.getLast?_eq_none_iff.1 hl) (CertificateChain.validate_ne_nil h)
    | some leaf =>
      -- the number goes into what is signed, but not into what leads to the challenge
      have hsignings := fun number => @signings_authenticate _ blockSize chip _ _
        { credentials with documentNumber := number } h hl card link
      rcases hrun : (approach blockSize chain leaf).run card link
        with ⟨challenge | e | _, after⟩
      · rw [hrun] at hsignings
        refine ⟨some challenge, ?_, hsignings⟩
        rintro _ ⟨⟩
        exact length_of_approach hrun
      · rw [hrun] at hsignings
        exact ⟨none, nofun, hsignings⟩
      · rw [hrun] at hsignings
        exact ⟨none, nofun, hsignings⟩

/-! ## Sessions -/

/-- A request for Terminal Authentication signs what the protocol signs, if the session lets it
run. -/
theorem perform_signings (config : SessionConfig) (card : Card σ) (s : Session σ)
    (chip : ChipAuthentication) (credentials : TerminalCredentials) : ∃ events,
    (s.perform config card (.terminalAuthentication chip credentials)).2.link.log =
      events ++ s.link.log ∧
    events.reverse.filterMap Event.signed? =
      if s.blocked = false ∧ s.state = .caAuthenticated then
        Turn.signings ((authenticate config.blockSize chip credentials).turns card s.link)
      else [] := by
  rw [Session.perform, Request.plan, Session.execute, Session.runHandshake.eq_def]
  split
  · rename_i hb
    exact ⟨[], rfl, by rw [if_neg (by rw [hb]; simp)]; rfl⟩
  · rename_i hn _
    refine ⟨[], rfl, ?_⟩
    rw [if_neg]
    · rfl
    · rintro ⟨-, hs⟩
      rw [hs] at hn
      cases hn
  · rename_i next hb hn
    -- there is only one state from which terminal authentication leads on
    have hs : s.state = .caAuthenticated := by
      cases hs : s.state with
      | caAuthenticated => rfl
      | closed | «open» | bacAuthenticated | taAuthenticated =>
        rw [hs] at hn
        cases hn
    obtain ⟨events, hlog, -, hsigned⟩ :=
      (authenticate config.blockSize chip credentials).run_log card s.link
    refine ⟨events, ?_, by rw [if_pos ⟨hb, hs⟩, hsigned]⟩
    rw [Session.runDialogue_eq, Dialogue.run_bind, ← hlog]
    rcases (authenticate config.blockSize chip credentials).run card s.link with
      ⟨result | e | _, after⟩
    · rfl
    · rfl
    · rfl

/-- **What the terminal signs is unambiguous.** The same data is signed for two document numbers,
challenges of eight bytes and key hashes of one length exactly if the numbers agree up to fillers at
the end and the others are equal. No number is rejected, however long: in any session, with any
card, a request for Terminal Authentication signs nothing or a challenge, whatever the number, and
signs it together with the number. -/
theorem signed_unambiguously :
    (∀ (number number' : String) (challenge challenge' keyHash keyHash' : Bytes),
      challenge.length = 8 → challenge'.length = 8 → keyHash.length = keyHash'.length →
      (signedData number challenge keyHash = signedData number' challenge' keyHash' ↔
        AgreeUpToFillers number.toList number'.toList ∧ challenge = challenge' ∧
          keyHash = keyHash')) ∧
    ∀ (σ : Type) (config : SessionConfig) (card : Card σ) (s : Session σ)
      (chip : ChipAuthentication)
      (credentials : TerminalCredentials), ∃ challenge : Option Bytes,
      (∀ c ∈ challenge, c.length = 8) ∧ ∀ number, ∃ events,
        (s.perform config card (.terminalAuthentication chip
          { credentials with documentNumber := number })).2.link.log = events ++ s.link.log ∧
        events.reverse.filterMap Event.signed? =
          (challenge.map (signedData number · chip.keyHash)).toList := by
  refine ⟨?_, ?_⟩
  · intro number number' challenge challenge' keyHash keyHash' hc hc' hk
    exact signedData_eq_iff (hc.trans hc'.symm) hk
  · intro σ config card s chip credentials
    -- only an open session after chip authentication gets as far as a challenge
    by_cases hs : s.blocked = false ∧ s.state = .caAuthenticated
    · obtain ⟨challenge, hlength, hsignings⟩ :=
        exists_challenge config.blockSize chip credentials card s.link
      refine ⟨challenge, hlength, fun number => ?_⟩
      obtain ⟨events, hlog, hsigned⟩ :=
        perform_signings config card s chip { credentials with documentNumber := number }
      exact ⟨events, hlog, by rw [hsigned, if_pos hs, hsignings]⟩
    · refine ⟨none, nofun, fun number => ?_⟩
      obtain ⟨events, hlog, hsigned⟩ :=
        perform_signings config card s chip { credentials with documentNumber := number }
      exact ⟨events, hlog, by rw [hsigned, if_neg hs]; rfl⟩

/-- A number of twelve characters is signed, and in the same way with a filler at its end. -/
theorem signed_unambiguously_longNumber :
    let challenge : Bytes := List.replicate 8 0
    let keyHash : Bytes := [0xAB, 0xCD]
    let chip : ChipAuthentication :=
      ⟨none, ⟨.finiteField .modp1024, []⟩, keyHash, ⟨1, []⟩⟩
    let leaf : Certificate :=
      ⟨"DEIS000001", "DEDV000001", .inspectionSystem, [0x7F, 0x4E, 0x00], [0xAA]⟩
    let signer : TerminalSigner := ⟨.rsa 1, fun _ => .ok [0x01]⟩
    let card : Card Unit := fun _ command =>
      (.ok ⟨if command = Challenge.command then challenge else [], .success⟩, ())
    let s : Session Unit := ⟨.caAuthenticated, false, ⟨(), none, [], []⟩⟩
    challenge.length = 8 ∧
    signedData "D23145890734" challenge keyHash = signedData "D23145890734<" challenge keyHash ∧
    AgreeUpToFillers "D23145890734".toList "D23145890734<".toList ∧
    (s.perform {} card (.terminalAuthentication chip
      ⟨[leaf], none, signer, "D23145890734"⟩)).2.link.log.reverse.filterMap Event.signed? =
        [signedData "D23145890734" challenge keyHash] := by
  intro challenge keyHash chip leaf signer card s
  have h : signedData "D23145890734" challenge keyHash =
      signedData "D23145890734<" challenge keyHash := by decide
  exact ⟨rfl, h, ((signed_unambiguously.1 _ _ _ _ _ _ rfl rfl rfl).1 h).1, by decide +kernel⟩

end TravelDocument.TerminalAuthentication

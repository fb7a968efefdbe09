import TravelDocument.Proofs.Dialogue.Turns
import TravelDocument.Proofs.Session.Plans

/-!
# How Terminal Authentication goes

A certificate is sent in blocks that make up its data (`IsDivision`), and the chain is a sequence of
commands that have to succeed (`sendCertificates_eq`). With a valid chain there are five courses
that Terminal Authentication can take (`Course`, `authenticate_course`). What they have in common is
put together in `Faithful`: the chain goes out as it is, up to the first command that is refused,
and the signer is called last and once.
-/

namespace TravelDocument.TerminalAuthentication

/-! ## Certificates in blocks -/

/-- The blocks that data is sent in. -/
def blocks (size : Nat) (data : Bytes) : List Bytes :=
  if data.length ≤ max size 1 then
    if data.isEmpty then [] else [data]
  else data.take (max size 1) :: blocks size (data.drop (max size 1))
termination_by data.length
decreasing_by
  simp only [List.length_drop]
  omega

/-- Data divided into blocks, none of which is empty or longer than the given size; zero counts as
one. -/
structure IsDivision (size : Nat) (data : Bytes) (blocks : List Bytes) : Prop where
  flatten_eq : blocks.flatten = data
  ne_nil : ∀ block ∈ blocks, block ≠ []
  length_le : ∀ block ∈ blocks, block.length ≤ max size 1

theorem isDivision_blocks (size : Nat) (data : Bytes) :
    IsDivision size data (blocks size data) := by
  -- each step takes a block off, so the induction is on the length and not on the list
  induction hn : data.length using Nat.strongRecOn generalizing data with
  | ind n ih =>
    rw [blocks]
    split
    · rename_i hle
      split
      · rename_i he
        rw [List.isEmpty_iff.1 he]
        exact ⟨rfl, nofun, nofun⟩
      · rename_i he
        rw [List.isEmpty_iff] at he
        refine ⟨List.flatten_singleton, ?_, ?_⟩
        · intro block hb
          rwa [List.mem_singleton.1 hb]
        · intro block hb
          rwa [List.mem_singleton.1 hb]
    · rename_i hlt
      have hrest : (data.drop (max size 1)).length < n := by
        rw [List.length_drop]
        omega
      obtain ⟨hflatten, hne, hlength⟩ := ih _ hrest _ rfl
      have hfirst : (data.take (max size 1)).length = max size 1 := by
        rw [List.length_take]
        omega
      refine ⟨?_, ?_, ?_⟩
      · rw [List.flatten_cons, hflatten, List.take_append_drop]
      · intro block hb
        rcases List.mem_cons.1 hb with rfl | hb
        · exact List.ne_nil_of_length_pos (by omega)
        · exact hne block hb
      · intro block hb
        rcases List.mem_cons.1 hb with rfl | hb
        · exact Nat.le_of_eq hfirst
        · exact hlength block hb

/-- PSO:Verify Certificate with one block after the other, all but the last marked as chained. -/
def verifyCommands (blocks : List Bytes) : List Apdu.Command :=
  blocks.dropLast.map (verifyCommand false) ++ blocks.getLast?.toList.map (verifyCommand true)

theorem verifyCommands_cons {rest : List Bytes} (block : Bytes) (h : rest ≠ []) :
    verifyCommands (block :: rest) = verifyCommand false block :: verifyCommands rest := by
  rw [verifyCommands, verifyCommands, List.dropLast_cons_of_ne_nil h,
    List.getLast?_cons_of_ne_nil h, List.map_cons, List.cons_append]

theorem sendBlocks_eq (size : Nat) (data : Bytes) :
    sendBlocks size data = Dialogue.sendAll
      ((verifyCommands (blocks size data)).map (Operation.terminalVerifyCertificate, ·)) := by
  induction hn : data.length using Nat.strongRecOn generalizing data with
  | ind n ih =>
    rw [sendBlocks, blocks]
    split
    · split
      · rfl
      · rfl
    · have hrest : (data.drop (max size 1)).length < n := by
        rw [List.length_drop]
        omega
      -- something is left, so the block is not the last one
      have hne : blocks size (data.drop (max size 1)) ≠ [] := by
        intro h
        have hflatten := (isDivision_blocks size (data.drop (max size 1))).flatten_eq
        rw [h, List.flatten_nil] at hflatten
        have := congrArg List.length hflatten
        rw [List.length_nil, List.length_drop] at this
        omega
      rw [verifyCommands_cons _ hne, List.map_cons, Dialogue.sendAll, ih _ hrest _ rfl]

/-- What is sent of a certificate that is divided into blocks. -/
def certificateCommands (c : Certificate) (blocks : List Bytes) : List Apdu.Command :=
  setTemplateCommand 0xB6 c.authority :: verifyCommands blocks

/-- The commands for a certificate with the operations they belong to. -/
def certificateSteps (size : Nat) (c : Certificate) : List (Operation × Apdu.Command) :=
  (.terminalSetDigitalSignatureTemplate, setTemplateCommand 0xB6 c.authority) ::
    (verifyCommands (blocks size (certificateData c))).map (Operation.terminalVerifyCertificate, ·)

theorem map_certificateSteps (size : Nat) (c : Certificate) :
    (certificateSteps size c).map Prod.snd =
      certificateCommands c (blocks size (certificateData c)) := by
  rw [certificateSteps, List.map_cons, List.map_map, certificateCommands]
  exact congrArg _ (List.map_id _)

theorem sendCertificates_eq (size : Nat) (certificates : List Certificate) :
    sendCertificates size certificates =
      Dialogue.sendAll (certificates.flatMap (certificateSteps size)) := by
  induction certificates with
  | nil => rfl
  | cons c rest ih =>
    rw [sendCertificates, sendCertificate, sendBlocks_eq, ih, List.flatMap_cons,
      Dialogue.sendAll_append]
    rfl

/-! ## Courses -/

/-- The signature over data in the form that the chip wants. -/
def plainSign (signer : TerminalSigner) (data : Bytes) : Except CryptoError Bytes := do
  plainSignature signer.algorithm (← signer.sign data)

/-- The ways Terminal Authentication can go with a valid chain, and what it ends with. Before the
challenge `preparation` is sent, and the challenge is signed as `data` says. -/
inductive Course (preparation : List Apdu.Command) (data : Bytes → Bytes)
    (signer : TerminalSigner) (result : Bytes → TerminalAuthentication) :
    List Turn → Outcome TerminalAuthentication → Prop
  /-- A command up to GET CHALLENGE does not succeed. -/
  | refused {turns : List Turn} {e : Error} :
    Dialogue.Refused (preparation ++ [Challenge.command]) turns →
    Course preparation data signer result turns (.failed e)
  | badChallenge {exchanges : List (Apdu.Command × Bytes)} {challenge : Bytes} {e : Error} :
    exchanges.map Prod.fst = preparation → challenge.length ≠ Challenge.size →
    Course preparation data signer result
      (exchanges.map .granted ++ [.granted (Challenge.command, challenge)]) (.failed e)
  | unsigned {exchanges : List (Apdu.Command × Bytes)} {challenge : Bytes} {reason : CryptoError}
      {e : Error} :
    exchanges.map Prod.fst = preparation → challenge.length = Challenge.size →
    plainSign signer (data challenge) = .error reason →
    Course preparation data signer result
      (exchanges.map .granted ++
        [.granted (Challenge.command, challenge), .signing (data challenge)])
      (.failed e)
  | signatureRefused {exchanges : List (Apdu.Command × Bytes)} {challenge plain : Bytes}
      {answer : Except Error Apdu.Response} {e : Error} :
    exchanges.map Prod.fst = preparation → challenge.length = Challenge.size →
    plainSign signer (data challenge) = .ok plain →
    ¬ (Turn.exchange (authenticateCommand plain) answer).Succeeds →
    Course preparation data signer result
      (exchanges.map .granted ++
        [.granted (Challenge.command, challenge), .signing (data challenge),
        .exchange (authenticateCommand plain) answer]) (.failed e)
  | accepted {exchanges : List (Apdu.Command × Bytes)} {challenge plain response : Bytes} :
    exchanges.map Prod.fst = preparation → challenge.length = Challenge.size →
    plainSign signer (data challenge) = .ok plain →
    Course preparation data signer result
      (exchanges.map .granted ++
        [.granted (Challenge.command, challenge), .signing (data challenge),
        .granted (authenticateCommand plain, response)]) (.ok (result challenge))

/-- What is sent before the challenge. -/
def preparation (certificates : List Certificate) (blocks : Certificate → List Bytes)
    (leaf : Certificate) : List Apdu.Command :=
  certificates.flatMap (fun c => certificateCommands c (blocks c)) ++
    [setTemplateCommand 0xA4 leaf.holder]

/-- The commands before the challenge with the operations they belong to. -/
def preparationSteps (size : Nat) (certificates : List Certificate) (leaf : Certificate) :
    List (Operation × Apdu.Command) :=
  certificates.flatMap (certificateSteps size) ++
    [(.terminalSetAuthenticationTemplate, setTemplateCommand 0xA4 leaf.holder)]

theorem map_preparationSteps (size : Nat) (certificates : List Certificate) (leaf : Certificate) :
    (preparationSteps size certificates leaf).map Prod.snd =
      preparation certificates (fun c => blocks size (certificateData c)) leaf := by
  rw [preparationSteps, List.map_append, List.map_flatMap, preparation]
  simp only [map_certificateSteps]
  rfl

/-- What Terminal Authentication returns if the chip has sent this challenge. -/
def result (chip : ChipAuthentication) (credentials : TerminalCredentials) (chain : ValidatedChain)
    (challenge : Bytes) : TerminalAuthentication :=
  ⟨chip, chain.caReference, chain.certificates, credentials.signer.algorithm,
    credentials.documentNumber, challenge⟩

/-- The end of Terminal Authentication, once the chip has sent its challenge. -/
def conclude (chip : ChipAuthentication) (credentials : TerminalCredentials)
    (chain : ValidatedChain) (response : Apdu.Response) : Dialogue TerminalAuthentication := do
  let challenge ← Dialogue.ofExcept (Challenge.check response.data)
  let signature ← Dialogue.signature credentials.signer.sign
    (signedData credentials.documentNumber challenge chip.keyHash)
  let plain ← Dialogue.ofCrypto (plainSignature credentials.signer.algorithm signature)
  let _ ← Dialogue.expectSuccess .terminalExternalAuthenticate (authenticateCommand plain)
  return result chip credentials chain challenge

variable {σ : Type} {blockSize : Nat} {chip : ChipAuthentication}
  {credentials : TerminalCredentials}
  {chain : ValidatedChain} {leaf : Certificate}

theorem authenticate_eq
    (h : CertificateChain.validate credentials.caReference credentials.chain = .ok chain)
    (hl : chain.certificates.getLast? = some leaf) :
    authenticate blockSize chip credentials =
      Dialogue.sendAll (preparationSteps blockSize chain.certificates leaf) >>= fun _ =>
      Dialogue.expectSuccess .getChallenge Challenge.command >>=
        conclude chip credentials chain := by
  simp only [authenticate, h, Except.mapError, Dialogue.ofExcept, Dialogue.bind_done,
    leafReference, hl,
    sendCertificates_eq, preparationSteps, Dialogue.sendAll_append, Dialogue.sendAll,
      Challenge.obtain,
    bind_assoc, pure_bind]
  rfl

/-- A signature that is not made or has no plain form ends the dialogue, any other is sent. -/
theorem conclude_eq {challenge : Bytes} (h : challenge.length = Challenge.size) :
    let data := signedData credentials.documentNumber challenge chip.keyHash
    conclude chip credentials chain ⟨challenge, .success⟩ =
      .sign data (Dialogue.ofCrypto (plainSign credentials.signer data) >>= fun plain =>
        Dialogue.expectSuccess .terminalExternalAuthenticate
          (authenticateCommand plain) >>= fun _ =>
        .done (result chip credentials chain challenge)) := by
  intro data
  rw [conclude, Challenge.check, if_pos h, plainSign]
  simp only [Dialogue.ofExcept, Dialogue.bind_done, Dialogue.signature, Dialogue.bind_sign]
  congr 1
  cases credentials.signer.sign data with
  | error reason => rfl
  | ok signature => rfl

/-- Once the challenge is there, the course is decided by its length, the signature and the
answer. -/
theorem conclude_course {exchanges : List (Apdu.Command × Bytes)} {preparation : List Apdu.Command}
    (he : exchanges.map Prod.fst = preparation) (challenge : Bytes) (card : Card σ)
    (link : Link σ) :
    Course preparation (signedData credentials.documentNumber · chip.keyHash) credentials.signer
      (result chip credentials chain)
      (exchanges.map .granted ++ .granted (Challenge.command, challenge) ::
        (conclude chip credentials chain ⟨challenge, .success⟩).turns card link)
      ((conclude chip credentials chain ⟨challenge, .success⟩).run card link).1 := by
  by_cases hl : challenge.length = Challenge.size
  · rw [conclude_eq hl, Dialogue.turns, Dialogue.run]
    cases hs : plainSign credentials.signer
        (signedData credentials.documentNumber challenge chip.keyHash) with
    | error reason => exact .unsigned he hl hs
    | ok plain =>
      -- the signature has been logged, and EXTERNAL AUTHENTICATE decides the rest
      rcases Dialogue.expectSuccess_bind .terminalExternalAuthenticate (authenticateCommand plain)
          (fun _ => .done (result chip credentials chain challenge)) card
          { link with
            log :=
              .signing (signedData credentials.documentNumber challenge chip.keyHash) :: link.log }
        with ⟨response, after, hrun, hturns⟩ | ⟨answer, e, after, hf, hrun, hturns⟩
      · simp only [Dialogue.ofCrypto, liftCrypto, Except.mapError, Dialogue.ofExcept,
          Dialogue.bind_done, hrun, hturns]
        exact .accepted he hl hs
      · simp only [Dialogue.ofCrypto, liftCrypto, Except.mapError, Dialogue.ofExcept,
          Dialogue.bind_done, hrun, hturns]
        exact .signatureRefused he hl hs hf
  · rw [conclude, Challenge.check, if_neg hl]
    exact .badChallenge he hl

/-- **There are no other courses.** -/
theorem authenticate_course
    (h : CertificateChain.validate credentials.caReference credentials.chain = .ok chain)
    (hl : chain.certificates.getLast? = some leaf) (card : Card σ) (link : Link σ) :
    Course (preparation chain.certificates (fun c => blocks blockSize (certificateData c)) leaf)
      (signedData credentials.documentNumber · chip.keyHash) credentials.signer
      (result chip credentials chain) ((authenticate blockSize chip credentials).turns card link)
      ((authenticate blockSize chip credentials).run card link).1 := by
  rw [authenticate_eq h hl]
  rcases Dialogue.sendAll_bind (preparationSteps blockSize chain.certificates leaf)
      (fun _ => Dialogue.expectSuccess .getChallenge Challenge.command >>=
        conclude chip credentials chain)
      card link with ⟨exchanges, next, he, hrun, hturns⟩ | ⟨hrefused, e, after, hrun⟩
  · rw [hrun, hturns]
    rw [map_preparationSteps] at he
    rcases Dialogue.expectSuccess_bind .getChallenge Challenge.command
      (conclude chip credentials chain)
        card next with ⟨challenge, after, hrun, hturns⟩ | ⟨answer, e, after, hf,
          hrun, hturns⟩
    · rw [hrun, hturns]
      exact conclude_course he challenge card after
    · rw [hrun, hturns]
      exact .refused (.upTo ⟨[], by rw [List.append_nil, he]⟩ hf)
  · rw [hrun]
    rw [map_preparationSteps] at hrefused
    exact .refused (hrefused.mono (List.prefix_append _ _))

/-! ## What all courses have in common -/

/-- **Terminal Authentication is faithful** to what it is to send and to sign. -/
structure Faithful (preparation : List Apdu.Command) (data : Bytes → Bytes)
    (signer : TerminalSigner) (result : Bytes → TerminalAuthentication) (turns : List Turn)
    (outcome : Outcome TerminalAuthentication) : Prop where
  /-- The commands are the first ones of the chain, GET CHALLENGE and EXTERNAL AUTHENTICATE with the
  signature that was made. -/
  commands : Turn.commands turns <+: preparation ++ [Challenge.command] ∨ ∃ challenge plain,
    Turn.signings turns = [data challenge] ∧ plainSign signer (data challenge) = .ok plain ∧
    Turn.commands turns = preparation ++ [Challenge.command, authenticateCommand plain]
  /-- Nothing follows a command that does not succeed. -/
  stops : ∀ turn ∈ turns.dropLast, turn.Succeeds
  /-- Nothing is left out before the signature. -/
  complete : (∀ turn ∈ turns, turn.Succeeds) →
    preparation ++ [Challenge.command] <+: Turn.commands turns
  /-- The signer is called at most once, right after a challenge of eight bytes. -/
  signed : Turn.signings turns = [] ∨ ∃ before challenge after,
    turns = before ++ .granted (Challenge.command, challenge) :: .signing
      (data challenge) :: after ∧
    Turn.commands before = preparation ∧ challenge.length = 8 ∧
    Turn.signings before = [] ∧ Turn.signings after = []
  /-- A run succeeds if and only if all that it sends does, and the challenge can be signed. -/
  succeeds : (∃ r, outcome = .ok r) ↔ (∀ turn ∈ turns, turn.Succeeds) ∧
    ∃ challenge signature plain, .granted (Challenge.command, challenge) ∈ turns ∧
      challenge.length = 8 ∧ signer.sign (data challenge) = .ok signature ∧
      plainSignature signer.algorithm signature = .ok plain
  /-- A success has sent everything, and what is returned has the challenge in it. -/
  returns : ∀ r, outcome = .ok r → ∃ challenge plain,
    .granted (Challenge.command, challenge) ∈ turns ∧
    plainSign signer (data challenge) = .ok plain ∧ r = result challenge ∧
    Turn.commands turns = preparation ++ [Challenge.command, authenticateCommand plain]

/-- GET CHALLENGE is the only one of its kind. -/
theorem challenge_not_mem_preparation (certificates : List Certificate)
    (blocks : Certificate → List Bytes) (leaf : Certificate) :
    Challenge.command ∉ preparation certificates blocks leaf := by
  have hins : ∀ command ∈ preparation certificates blocks leaf,
      command.header.ins = 0x22 ∨ command.header.ins = 0x2A := by
    intro command hcommand
    rcases List.mem_append.1 hcommand with hc | hc
    · obtain ⟨c, -, hc⟩ := List.mem_flatMap.1 hc
      rcases List.mem_cons.1 hc with rfl | hc
      · exact .inl rfl
      · rcases List.mem_append.1 hc with hc | hc
        all_goals
          obtain ⟨block, -, rfl⟩ := List.mem_map.1 hc
          exact .inr rfl
    · rw [List.mem_singleton.1 hc]
      exact .inl rfl
  intro h
  exact absurd (hins _ h) (by decide)

section
variable {preparation : List Apdu.Command} {data : Bytes → Bytes} {signer : TerminalSigner}
  {result : Bytes → TerminalAuthentication} {exchanges : List (Apdu.Command × Bytes)}
  {challenge : Bytes} {turns : List Turn} {outcome : Outcome TerminalAuthentication}

theorem plainSign_eq_ok {b plain : Bytes} : plainSign signer b = .ok plain ↔
    ∃ signature, signer.sign b = .ok signature ∧
      plainSignature signer.algorithm signature = .ok plain :=
  Except.bind_eq_ok

/-- There is one challenge, even if the chip goes on answering. -/
theorem challenge_unique (he : exchanges.map Prod.fst = preparation)
    (hp : Challenge.command ∉ preparation) {c : Bytes} {later : List Turn}
    (hlater : ∀ c, .granted (Challenge.command, c) ∉ later)
    (h : .granted (Challenge.command, c) ∈
      exchanges.map .granted ++ .granted (Challenge.command, challenge) :: later) : c =
        challenge := by
  rcases List.mem_append.1 h with h | h
  · obtain ⟨e, hm, heq⟩ := List.mem_map.1 h
    have hcommand : e.1 = Challenge.command := (Turn.exchange.inj heq).1
    exact absurd (he ▸ List.mem_map.2 ⟨e, hm, hcommand⟩) hp
  · rcases List.mem_cons.1 h with h | h
    · cases h
      rfl
    · exact absurd h (hlater c)

/-- A challenge of eight bytes is signed right away. -/
theorem signed_after_challenge (he : exchanges.map Prod.fst = preparation)
    (hl : challenge.length = Challenge.size) {later : List Turn} (hs : Turn.signings later = []) :
    ∃ before c after, exchanges.map .granted ++
        .granted (Challenge.command, challenge) :: .signing (data challenge) :: later =
      before ++ .granted (Challenge.command, c) :: .signing (data c) :: after ∧
      Turn.commands before = preparation ∧ c.length = 8 ∧
      Turn.signings before = [] ∧ Turn.signings after = [] :=
  ⟨exchanges.map .granted, challenge, later, rfl, by rw [Turn.commands_granted, he], hl,
    Turn.signings_granted exchanges, hs⟩

theorem Course.faithful (hp : Challenge.command ∉ preparation)
    (h : Course preparation data signer result turns outcome) :
    Faithful preparation data signer result turns outcome := by
  -- a course ends at a refusal, at a bad challenge, without a signature, or at its end
  cases h with
  | refused hr =>
    obtain ⟨hfront, hf⟩ := hr
    refine ⟨.inl ?_, ?_, ?_, .inl ?_, ⟨nofun, ?_⟩, nofun⟩
    · simpa using hfront
    · exact (Turn.forall_succeeds_dropLast _ (List.cons_ne_nil _ _)).2 (by simp)
    · exact fun hall => absurd (hall _ (by simp)) hf
    · simp
    · exact fun hall => absurd (hall.1 _ (by simp)) hf
  | @badChallenge exchanges challenge _ he hl =>
    refine ⟨.inl ?_, ?_, ?_, .inl ?_, ⟨nofun, ?_⟩, nofun⟩
    · simp [he]
    · exact (Turn.forall_succeeds_dropLast _ (List.cons_ne_nil _ _)).2 (by simp)
    · simp [he]
    · simp
    · rintro ⟨-, c, _, _, hc, hl', -⟩
      -- GET CHALLENGE is sent once, so the challenge that success would need is this one
      rw [challenge_unique he hp (by simp) hc] at hl'
      exact absurd hl' hl
  | @unsigned exchanges challenge reason _ he hl hs =>
    refine ⟨.inl ?_, ?_, ?_, .inr ?_, ⟨nofun, ?_⟩, nofun⟩
    · simp [he]
    · exact (Turn.forall_succeeds_dropLast _ (List.cons_ne_nil _ _)).2 (by simp)
    · simp [he]
    · exact signed_after_challenge he hl Turn.signings_nil
    · rintro ⟨-, c, signature, plain, hc, -, hsign, hplain⟩
      rw [challenge_unique he hp (by simp [Turn.granted]) hc] at hsign
      rw [plainSign_eq_ok.2 ⟨signature, hsign, hplain⟩] at hs
      cases hs
  | @signatureRefused exchanges challenge plain answer _ he hl hs hf =>
    refine ⟨.inr ?_, ?_, ?_, .inr ?_, ⟨nofun, ?_⟩, nofun⟩
    · exact ⟨challenge, plain, by simp, hs, by simp [he]⟩
    · exact (Turn.forall_succeeds_dropLast _ (List.cons_ne_nil _ _)).2 (by simp)
    · simp [he]
    · exact signed_after_challenge he hl (Turn.signings_exchange _ _ _)
    · exact fun hall => absurd (hall.1 _ (by simp)) hf
  | @accepted exchanges challenge plain response he hl hs =>
    obtain ⟨signature, hsign, hplain⟩ := plainSign_eq_ok.1 hs
    refine ⟨.inr ?_, ?_, ?_, .inr ?_, ⟨fun _ => ?_, fun _ => ⟨_, rfl⟩⟩, ?_⟩
    · exact ⟨challenge, plain, by simp, hs, by simp [he]⟩
    · exact (Turn.forall_succeeds_dropLast _ (List.cons_ne_nil _ _)).2 (by simp)
    · simp [he]
    · exact signed_after_challenge he hl (Turn.signings_exchange _ _ _)
    · refine ⟨?_, challenge, signature, plain, by simp, hl, hsign, hplain⟩
      rw [Turn.forall_succeeds_append]
      simp
    · rintro r hr
      cases hr
      exact ⟨challenge, plain, by simp, hs, rfl, by simp [he]⟩

end

/-- **Terminal Authentication sends its chain and signs last**, whatever the chain, the signer, the
size of the blocks and the card. If the chain is not valid nothing is done. Otherwise each
certificate goes out as its data in blocks, and the run is faithful to that; the log has the same
commands and the same data. -/
theorem authenticate_faithful (blockSize : Nat) (chip : ChipAuthentication)
    (credentials : TerminalCredentials) {σ : Type} (card : Card σ) (link : Link σ) :
    let dialogue := authenticate blockSize chip credentials
    let turns := dialogue.turns card link
    (∃ events, (dialogue.run card link).2.log = events ++ link.log ∧
      events.reverse.filterMap Event.request? = Turn.commands turns ∧
      events.reverse.filterMap Event.signed? = Turn.signings turns) ∧
    match CertificateChain.validate credentials.caReference credentials.chain with
    | .error reason => turns = [] ∧ dialogue.run card link = (.failed (.chain reason), link)
    | .ok chain => ∃ leaf blocks, chain.certificates.getLast? = some leaf ∧
      (∀ c ∈ chain.certificates,
        IsDivision blockSize (c.body ++ DataObject.encode 0x5F37 c.signature) (blocks c)) ∧
      Faithful (preparation chain.certificates blocks leaf)
        (fun challenge => Text.utf8 (Mrz.numberWithCheckDigit credentials.documentNumber) ++
          challenge ++ chip.keyHash)
        credentials.signer (result chip credentials chain) turns (dialogue.run card link).1 := by
  intro dialogue turns
  refine ⟨dialogue.run_log card link, ?_⟩
  cases h : CertificateChain.validate credentials.caReference credentials.chain with
  | error reason =>
    have hd : dialogue = .fail (.chain reason) := authenticate_of_error h
    dsimp only [turns]
    rw [hd]
    exact ⟨rfl, rfl⟩
  | ok chain =>
    -- a chain that has been validated is not empty, so there is a last certificate
    cases hl : chain.certificates.getLast? with
    | none => exact absurd (List.getLast?_eq_none_iff.1 hl) (CertificateChain.validate_ne_nil h)
    | some leaf =>
      exact ⟨leaf, fun c => blocks blockSize (certificateData c), hl, fun c _ =>
        isDivision_blocks _ _,
        (authenticate_course h hl card link).faithful (challenge_not_mem_preparation _ _ _)⟩

end TravelDocument.TerminalAuthentication

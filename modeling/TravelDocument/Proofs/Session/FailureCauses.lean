import TravelDocument.Proofs.Session.Steps

/-!
# Why a request fails

`Session.Cause` lists the causes for which a request fails, with what the log of the link has to say
about them, and `perform_accounted` says that the list is complete. Failures about lengths occur in
two of them only: if ciphertext from the card is not a whole number of blocks, and if the signer
fails.
-/

namespace TravelDocument

variable {σ : Type} {card : Card σ}

/-! ## What is sent has a serialized form or is too long -/

theorem Channel.wrap_encode_ne_emptyData {c : Channel} {command wrapped : Apdu.Command}
    (h : c.wrap command = .ok wrapped) : wrapped.encode ≠ .error .emptyData := by
  obtain ⟨_, _, -, -, -, hw⟩ := c.wrap_spec command
  rw [h] at hw
  cases hw
  exact Apdu.encode_shortest_ne_emptyData _ _ _

/-- What is sent in place of a request is the request itself or wraps it. -/
theorem Traffic.sent_eq_or_wraps {channel d : Option Channel} {memory m : σ} {events : List Event}
    (h : Traffic card channel memory events d m) {request sent : Apdu.Command}
    {answer : Except TransportError Apdu.Response} (he : .exchange request sent answer ∈ events) :
    sent = request ∨ ∃ sender : Channel, sender.wrap request = .ok sent := by
  cases channel with
  | none => exact .inl (h.sent_of_none he)
  | some c =>
    obtain ⟨sender, -, hw⟩ := h.wrapped he
    exact .inr ⟨sender, hw⟩

namespace Session

/-! ## Causes -/

/-- Ciphertext that the card has sent while a request was carried out, and the suite it is decrypted
with. -/
inductive Receives (s : Session σ) (request : Request) (events : List Event) :
    CipherSuite → Bytes → Prop
  /-- It is in the encrypted object of a response that the channel unwraps. -/
  | object {c : Channel} {command sent : Apdu.Command} {response : Apdu.Response}
    {ciphertext : Bytes} :
    s.link.channel = some c → .exchange command sent (.ok response) ∈ events →
    Channel.HoldsCiphertext response ciphertext → Receives s request events c.suite ciphertext
  /-- It is the nonce of PACE. -/
  | nonce {params : PaceParameters} {password : PacePassword} {sent : Apdu.Command}
      {received : Except TransportError Apdu.Response} {response : Apdu.Response}
        {encrypted : Bytes} :
    request = .pace params password →
      .exchange (Pace.nonceStep.command []) sent received ∈ events →
    Link.Delivers s.link.channel received (.ok response) → response.status = .success →
    Pace.nonceStep.answer response.data = .ok encrypted →
    Receives s request events params.suite encrypted

/-- The signer that the caller has provided fails. -/
def SignerFails (request : Request) (events : List Event) (reason : CryptoError) : Prop :=
  ∃ chip credentials data, request = .terminalAuthentication chip credentials ∧
    .signing data ∈ events ∧ credentials.signer.sign data = .error reason

/-- Why a request fails that leaves these events in the log of the link. -/
inductive Cause (s : Session σ) (request : Request) (events : List Event) : Error → Prop
  | refused (operation : Operation) : Cause s request events (.invalidState operation s.state)
  | brokenChain (reason : ChainError) : Cause s request events (.chain reason)
  | ordinary {e : Error} : e.IsOrdinary → Cause s request events e
  /-- The card does not respond. -/
  | transport {command sent : Apdu.Command} {e : TransportError} :
    .exchange command sent (.error e) ∈ events → Cause s request events (.transport e)
  | ragged {suite : CipherSuite} {ciphertext : Bytes} :
    s.Receives request events suite ciphertext → ciphertext.length % suite.blockSize ≠ 0 →
    Cause s request events (.crypto (.invalidDataLength suite.blockSize ciphertext.length))
  | signer {reason : CryptoError} : SignerFails request events reason →
    Cause s request events (.crypto reason)

variable {config : SessionConfig} {request : Request} {s : Session σ} {events : List Event}

/-- The terms on which a request is carried out that leaves these events in the log of the link.
What fails has a cause. -/
def terms (s : Session σ) (request : Request) (events : List Event) : Dialogue.Terms where
  sends command := command.encode ≠ .error .emptyData
  answers command answer := ∃ sent received, .exchange command sent received ∈ events ∧
    Link.Delivers s.link.channel received answer
  signs data := .signing data ∈ events
  fails := s.Cause request events

theorem cause_of_refuses {c receiver : Channel} {command sent : Apdu.Command}
    {response : Apdu.Response} {e : Error} (hc : s.link.channel = some c) (hs : c.SameKeys receiver)
    (hm : .exchange command sent (.ok response) ∈ events) (h : receiver.Refuses response e) :
    s.Cause request events e := by
  cases h with
  | unprotected | integrity _ | malformed _ | padding => exact .ordinary trivial
  | ragged hholds hragged =>
    rw [← hs.suite] at hragged ⊢
    exact .ragged (.object hc hm hholds) hragged

theorem terms_fair (s : Session σ) (request : Request) (events : List Event) :
    (s.terms request events).Fair where
  sends_make _ _ _ _ _ _ := Apdu.encode_shortest_ne_emptyData _ _ _
  fails_answered := by
    rintro command e ⟨sent, received, hm, hd⟩
    rcases hd.of_error with ⟨_, rfl, rfl⟩ | ⟨_, _, _, hc, hs, rfl, hrefuses⟩
    · exact .transport hm
    · exact cause_of_refuses hc hs hm hrefuses
  fails_ordinary := .ordinary

theorem terms_covers (s : Session σ) (request : Request) (events : List Event) :
    (s.terms request events).Covers request := by
  cases request with
  | pace params password =>
    rintro response encrypted ⟨sent, received, hm, hd⟩ hstatus hanswer reason hreason
    obtain ⟨hragged, rfl⟩ := Pace.decryptNonce_eq_error hreason
    exact .ragged (.nonce rfl hm hd hstatus hanswer) hragged
  | terminalAuthentication chip credentials =>
    exact fun data hs reason hreason => .signer ⟨chip, credentials, data, rfl, hs, hreason⟩
  | «open» | close | selectApplet _ | selectFile _ | readBinary _ _ | readContents _ | bac _
  | chipAuthentication _ _ => exact trivial

/-- What the log of the link says about a request that has come to an end. -/
structure Accounted (card : Card σ) (s : Session σ) (request : Request)
    (result : Outcome Value × Session σ) (events : List Event) : Prop where
  log : result.2.link.log = events ++ s.link.log
  answers : ∀ command sent answer, .exchange command sent answer ∈ events →
    ∃ memory, (card memory sent).1 = answer
  encode_ne : ∀ command sent answer, .exchange command sent answer ∈ events →
    sent.encode ≠ .error .emptyData
  cause : ∀ e, result.1 = .failed e → s.Cause request events e

/-- A request that has not sent anything. -/
theorem Accounted.of_nothing {outcome : Outcome Value} {next : Session σ}
    (hlog : next.link.log = s.link.log) (hc : ∀ e, outcome = .failed e → s.Cause request [] e) :
    Accounted card s request (outcome, next) [] where
  log := hlog
  answers _ _ _ h := absurd h List.not_mem_nil
  encode_ne _ _ _ h := absurd h List.not_mem_nil
  cause := hc

/-- A dialogue that keeps to the terms of a request, whatever is made of its value. -/
theorem Accounted.of_keeps {α : Type} {ok : α → Prop} {d : Dialogue α} (card : Card σ)
    (hd : ∀ events, d.Keeps (s.terms request events) ok) : ∃ events,
    ∀ (outcome : Outcome Value) (next : Session σ), next.link.log = (d.run card s.link).2.log →
      (∀ e, outcome = .failed e → (d.run card s.link).1 = .failed e) →
      Accounted card s request (outcome, next) events := by
  -- three views of the run, with one list of events behind them
  obtain ⟨events, hlog, hcommands, hsignings⟩ := d.run_log card s.link
  obtain ⟨traffic, htraffic, ht⟩ := d.run_traffic card s.link
  obtain rfl : events = traffic := List.append_cancel_right (hlog.symm.trans htraffic)
  obtain ⟨delivered, hdelivered, hanswers⟩ := d.run_delivers card s.link
  obtain rfl : events = delivered := List.append_cancel_right (hlog.symm.trans hdelivered)
  have hsigned : ∀ data, .signing data ∈ d.turns card s.link → .signing data ∈ events := by
    intro data h
    rw [Turn.signing_mem_iff, ← hsignings, ← Event.signing_mem_iff] at h
    exact h
  obtain ⟨-, hfails, hsends⟩ := (hd events).run card s.link hanswers hsigned
  refine ⟨events, fun outcome next hnext houtcome => ⟨hnext.trans hlog, ?_, ?_, ?_⟩⟩
  · exact fun command sent answer hm => ht.answered_by hm
  · intro command sent answer hm
    have hsend : command.encode ≠ .error .emptyData :=
      hsends command (hcommands ▸ Event.mem_requests hm)
    -- a wrapped command always carries a MAC, so its body is not empty
    rcases ht.sent_eq_or_wraps hm with rfl | ⟨_, hw⟩
    · exact hsend
    · exact Channel.wrap_encode_ne_emptyData hw
  · exact fun e he => hfails e (houtcome e he)

/-- **Every request that fails does so for one of the causes.** -/
theorem perform_accounted (config : SessionConfig) (card : Card σ) (request : Request)
    (s : Session σ) :
    ∃ events, Accounted card s request (s.perform config card request) events := by
  -- what is refused before the first command leaves the link alone, whatever the request
  have hrefused : ∀ operation, ∃ events, Accounted card s request
      (.failed (.invalidState operation s.state), s) events := by
    refine fun operation => ⟨[], .of_nothing rfl ?_⟩
    rintro _ ⟨⟩
    exact .refused operation
  rw [perform, execute.eq_def]
  cases hp : request.plan config with
  | opening =>
    dsimp only
    rw [opened]
    split
    · exact hrefused _
    · exact ⟨[], .of_nothing rfl (by rintro _ ⟨⟩)⟩
  | closing => exact ⟨[], .of_nothing rfl (by rintro _ ⟨⟩)⟩
  | command operation dialogue =>
    dsimp only
    rw [runCommand]
    split
    · exact hrefused _
    · obtain ⟨events, h⟩ := Accounted.of_keeps card fun events =>
        Request.command_keeps (s.terms_fair request events) hp
      rw [runDialogue_eq]
      exact ⟨events, h _ _ rfl fun _ => id⟩
  | handshake handshake dialogue =>
    dsimp only
    rw [runHandshake.eq_def]
    split
    · exact hrefused _
    · exact hrefused _
    -- a broken chain fails before any command, which the terms of a handshake do not allow
    by_cases hr : ∃ reason, dialogue = .fail (.chain reason)
    · obtain ⟨reason, rfl⟩ := hr
      refine ⟨[], .of_nothing rfl ?_⟩
      rintro _ ⟨⟩
      exact .brokenChain reason
    -- every command keeps the terms of the request, and from these the cause is read off
    obtain ⟨events, h⟩ := Accounted.of_keeps card fun events =>
      (Request.handshake_keeps (s.terms_fair request events) (s.terms_covers request events)
        hp).resolve_left hr
    rw [runDialogue_eq]
    cases ho : (dialogue.run card s.link).1 with
    | ok made => exact ⟨events, h _ _ rfl (by rintro _ ⟨⟩)⟩
    | failed e =>
      refine ⟨events, h _ _ rfl ?_⟩
      rintro _ ⟨⟩
      exact ho
    | interrupted => exact ⟨events, h _ _ rfl (by rintro _ ⟨⟩)⟩

/-! ## Failures about lengths -/

/-- **Nothing that a terminal makes has a wrong length.** Wrapping never fails. No request fails
over the length of a key, unless the signer does; over the length of data only if ciphertext from
the card is not a whole number of blocks, or again if the signer does; and over missing request data
only if the card says so of a command that does not miss any. -/
theorem length_failures (config : SessionConfig) (card : Card σ) (request : Request)
    (s : Session σ) :
    (∀ (c : Channel) (command : Apdu.Command), ∃ wrapped, c.wrap command = .ok wrapped) ∧
    ∃ events, (s.perform config card request).2.link.log = events ++ s.link.log ∧
      (∀ command sent answer, .exchange command sent answer ∈ events →
        sent.encode ≠ .error .emptyData) ∧
      ∀ e, (s.perform config card request).1 = .failed e →
        (e = .transport (.write .emptyData) → ∃ memory sent,
          (card memory sent).1 = .error (.write .emptyData) ∧
            sent.encode ≠ .error .emptyData) ∧
        (∀ expected obtained, e = .crypto (.invalidKeyLength expected obtained) →
          SignerFails request events (.invalidKeyLength expected obtained)) ∧
        ∀ blockSize obtained, e = .crypto (.invalidDataLength blockSize obtained) →
          SignerFails request events (.invalidDataLength blockSize obtained) ∨
            ∃ suite ciphertext, s.Receives request events suite ciphertext ∧
              ciphertext.length % suite.blockSize ≠ 0 ∧
              blockSize = suite.blockSize ∧ obtained = ciphertext.length := by
  refine ⟨Channel.wrap_ok, ?_⟩
  obtain ⟨events, hlog, hanswers, hencode, hcause⟩ := s.perform_accounted config card request
  refine ⟨events, hlog, hencode, fun e he => ⟨?_, ?_, ?_⟩⟩
  · rintro rfl
    cases hcause _ he with
    | ordinary h => cases h
    | transport hm =>
      obtain ⟨memory, hc⟩ := hanswers _ _ _ hm
      exact ⟨memory, _, hc, hencode _ _ _ hm⟩
  · rintro expected obtained rfl
    cases hcause _ he with
    | ordinary h => cases h
    | signer h => exact h
  · rintro blockSize obtained rfl
    cases hcause _ he with
    | ordinary h => cases h
    | ragged hr hn => exact .inr ⟨_, _, hr, hn, rfl, rfl⟩
    | signer h => exact .inl h

theorem failed_of_toExcept? {α : Type} {outcome : Outcome α} {e : Error}
    (h : outcome.toExcept? = some (.error e)) : outcome = .failed e := by
  cases outcome <;> cases h
  rfl

/-- A session in the given state with a card that gives out prepared responses. -/
def prepared (state : SessionState) (responses : List Bytes) : Session (List Bytes) :=
  ⟨state, false, ⟨responses, none, List.replicate 40 0x01, []⟩⟩

/-- An open session with a chip that sends three bytes for the nonce of PACE. -/
def raggedNonce : Session (List Bytes) :=
  prepared .open [[0x90, 0x00], [0x7C, 0x05, 0x80, 0x03, 0x01, 0x02, 0x03, 0x90, 0x00]]

def nonceRequest : Request :=
  .pace ⟨PaceParameters.root ++ [1, 1], .tdes, .finiteField .modp1024⟩ (.can "123456")

/-- A card that says of every command that it lacks request data. -/
def faultfinder : Card (List Bytes) := fun responses _ => (.error (.write .emptyData), responses)

/-- A session in which a chip gives a challenge to sign. -/
def challenged : Session (List Bytes) :=
  prepared .caAuthenticated [[0x90, 0x00], [0x90, 0x00], [0x90, 0x00],
    List.replicate 8 0x00 ++ [0x90, 0x00]]

/-- Terminal Authentication with a signer that has a key of three bytes. -/
def shortKeyRequest : Request :=
  .terminalAuthentication ⟨none, ⟨.finiteField .modp1024, []⟩, [0xAB], ⟨1, []⟩⟩
    { chain := [⟨"DEIS000001", "DEDV000001", .inspectionSystem, [0x7F, 0x4E, 0x00], [0xAA]⟩]
      caReference := none
      signer := ⟨.rsa 1, fun _ => .error (.invalidKeyLength 16 3)⟩
      documentNumber := "L898902C" }

/-- What remains: a nonce of three bytes, a card that finds fault with a command, a signer that
fails. -/
theorem length_failures_remaining :
    ((raggedNonce.perform {} Card.replay nonceRequest).1 =
      .failed (.crypto (.invalidDataLength 8 3)) ∧
      ∃ events suite ciphertext, raggedNonce.Receives nonceRequest events suite ciphertext ∧
        ciphertext.length % suite.blockSize ≠ 0 ∧ 8 = suite.blockSize ∧
          3 = ciphertext.length) ∧
    ((raggedNonce.perform {} faultfinder nonceRequest).1 =
      .failed (.transport (.write .emptyData)) ∧
      ∃ memory sent, (faultfinder memory sent).1 = .error (.write .emptyData) ∧
        sent.encode ≠ .error .emptyData) ∧
    (challenged.perform {} Card.replay shortKeyRequest).1 =
      .failed (.crypto (.invalidKeyLength 16 3)) ∧
      ∃ events, SignerFails shortKeyRequest events (.invalidKeyLength 16 3) := by
  refine ⟨?_, ?_, ?_⟩
  · have h : (raggedNonce.perform {} Card.replay nonceRequest).1 =
        .failed (.crypto (.invalidDataLength 8 3)) :=
      failed_of_toExcept? (by decide +kernel)
    obtain ⟨-, events, -, -, hfailures⟩ :=
      length_failures {} Card.replay nonceRequest raggedNonce
    rcases (hfailures _ h).2.2 8 3 rfl
      with ⟨_, _, _, hrequest, -⟩ | ⟨suite, ciphertext, hreceived⟩
    · cases hrequest
    · exact ⟨h, events, suite, ciphertext, hreceived⟩
  · have h : (raggedNonce.perform {} faultfinder nonceRequest).1 =
        .failed (.transport (.write .emptyData)) :=
      failed_of_toExcept? (by decide +kernel)
    obtain ⟨-, events, -, -, hfailures⟩ :=
      length_failures {} faultfinder nonceRequest raggedNonce
    exact ⟨h, (hfailures _ h).1 rfl⟩
  · have h : (challenged.perform {} Card.replay shortKeyRequest).1 =
        .failed (.crypto (.invalidKeyLength 16 3)) :=
      failed_of_toExcept? (by decide +kernel)
    obtain ⟨-, events, -, -, hfailures⟩ :=
      length_failures {} Card.replay shortKeyRequest challenged
    exact ⟨h, events, (hfailures _ h).2.1 16 3 rfl⟩

end Session
end TravelDocument

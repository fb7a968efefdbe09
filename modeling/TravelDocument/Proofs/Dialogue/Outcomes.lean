import TravelDocument.Dialogue.Link
import TravelDocument.Proofs.Failures
import TravelDocument.Proofs.SecureMessaging.Unwrapping
import TravelDocument.Proofs.SecureMessaging.Wrapping

/-!
# What a link answers with

An answer is the failure of the card, or the response of the card, which a channel has unwrapped if
there is one: `Link.Delivers` (`Link.transmit_delivers`). If it is a failure then an operational one
(`Delivers.isOperational`).
-/

namespace TravelDocument

theorem Dialogue.requireSuccess_eq_error {operation : Operation}
    {answer : Except Error Apdu.Response}
    {e : Error} (h : answer.bind (requireSuccess operation) = .error e) :
    answer = .error e ∨ ∃ status, e = .protocolAbort operation status := by
  cases answer with
  | error e' =>
    cases h
    exact .inl rfl
  | ok response =>
    simp only [Except.bind, requireSuccess] at h
    split at h
    · cases h
    · cases h
      exact .inr ⟨_, rfl⟩

theorem Dialogue.requireSuccess_eq_ok {operation : Operation} {answer : Except Error Apdu.Response}
    {response : Apdu.Response} (h : answer.bind (requireSuccess operation) = .ok response) :
    answer = .ok response ∧ response.status = .success := by
  cases answer with
  | error e => cases h
  | ok r =>
    simp only [Except.bind, requireSuccess] at h
    split at h
    · rename_i hs
      cases h
      exact ⟨rfl, by simpa [Apdu.Response.isSuccess] using hs⟩
    · cases h

theorem Channel.Refuses.isOperational {c : Channel} {response : Apdu.Response} {e : Error}
    (h : c.Refuses response e) : e.IsOperational := by
  cases h <;> exact trivial

namespace Link

/-- What a link makes of an answer of the card if its channel has the given keys. -/
inductive Delivers : Option Channel → Except TransportError Apdu.Response →
    Except Error Apdu.Response → Prop
  | failed (channel : Option Channel) (e : TransportError) :
    Delivers channel (.error e) (.error (.transport e))
  | plain (response : Apdu.Response) : Delivers none (.ok response) (.ok response)
  | unwrapped {c receiver : Channel} (response : Apdu.Response) : c.SameKeys receiver →
    Delivers (some c) (.ok response) (receiver.unwrap response)

theorem Delivers.of_sameKeys {channel d : Option Channel}
    {received : Except TransportError Apdu.Response}
    {answer : Except Error Apdu.Response} (h : Delivers d received answer)
    (hk : Option.Rel Channel.SameKeys channel d) : Delivers channel received answer := by
  cases h with
  | failed _ e => exact .failed channel e
  | plain response =>
    cases hk
    exact .plain response
  | unwrapped response hs =>
    cases hk with
    | some hk => exact .unwrapped response (hk.trans hs)

/-- There is a failure if the card does not respond, or if a channel refuses the response. -/
theorem Delivers.of_error {channel : Option Channel}
    {received : Except TransportError Apdu.Response}
    {e : Error} (h : Delivers channel received (.error e)) :
    (∃ reason, received = .error reason ∧ e = .transport reason) ∨
      ∃ c receiver response, channel = some c ∧ c.SameKeys receiver ∧
        received = .ok response ∧ receiver.Refuses response e := by
  generalize ha : (Except.error e : Except Error Apdu.Response) = answer at h
  cases h with
  | failed _ reason =>
    cases ha
    exact .inl ⟨reason, rfl, rfl⟩
  | plain _ => cases ha
  | unwrapped response hs =>
    exact .inr ⟨_, _, response, rfl, hs, rfl, Channel.unwrap_refuses ha.symm⟩

theorem Delivers.isOperational {channel : Option Channel}
    {received : Except TransportError Apdu.Response}
    {e : Error} (h : Delivers channel received (.error e)) : e.IsOperational := by
  rcases h.of_error with ⟨_, -, rfl⟩ | ⟨_, _, _, -, -, -, hrefuses⟩
  · exact trivial
  · exact hrefuses.isOperational

variable {σ : Type}

/-- **A transmission delivers the answer of the card** that it records. -/
theorem transmit_delivers (card : Card σ) (request : Apdu.Command) (link : Link σ) :
    ∃ sent received, (link.transmit card request).2.log =
      .exchange request sent received :: link.log ∧
      Delivers link.channel received (link.transmit card request).1 := by
  obtain ⟨memory, channel, entropy, log⟩ := link
  cases channel with
  | none =>
    rcases hc : card memory request with ⟨answer, m⟩
    simp only [transmit, transmitPlain, exchange, hc]
    cases answer with
    | error e => exact ⟨_, _, rfl, .failed _ e⟩
    | ok response => exact ⟨_, _, rfl, .plain response⟩
  | some c =>
    obtain ⟨wrapped, hw⟩ := c.step.wrap_ok request
    rcases hc : card memory wrapped with ⟨answer, m⟩
    simp only [transmit, transmitWrapped, hw, exchange, hc]
    cases answer with
    | error e => exact ⟨_, _, rfl, .failed _ e⟩
    | ok response =>
      exact ⟨_, _, rfl, .unwrapped response (c.step_sameKeys.trans c.step.step_sameKeys)⟩

end Link
end TravelDocument

import TravelDocument.Proofs.Session.Steps

/-!
# Failures leave a session as it was

A request that fails or is interrupted leaves the state of the session and the keys of its channel
alone, and the counter tells how many commands and responses there were (`perform_failed`). Some
failures come before anything is sent: `Silent`.
-/

namespace TravelDocument

/-- Between two channels, or none, there lie some events: keys and policy stay, and the counter
moves on by one for every command and every response. -/
def Channel.MovedOn (events : List Event) : Option Channel → Option Channel → Prop :=
  Option.Rel fun c d => c.suite = d.suite ∧ c.keys = d.keys ∧ c.macPolicy = d.macPolicy ∧
    d.counter = (c.counter + (Event.commands events + Event.responses events)) %
      if c.suite = .tdes then 2 ^ 64 else 2 ^ 128

theorem Channel.MovedOn.refl (channel : Option Channel) : MovedOn [] channel channel := by
  cases channel with
  | none => exact .none
  | some c =>
    refine .some ⟨rfl, rfl, rfl, ?_⟩
    rw [← CipherSuite.counterRange_eq, Event.commands_nil, Event.responses_nil, Nat.add_zero,
      Nat.mod_eq_of_lt c.counter_lt]

theorem Traffic.movedOn {σ : Type} {card : Card σ} {channel d : Option Channel} {memory m : σ}
    {events : List Event} (h : Traffic card channel memory events d m) :
    Channel.MovedOn events channel d := by
  cases channel with
  | none =>
    rw [h.channel_of_none]
    exact .none
  | some c =>
    obtain ⟨after, rfl, hs, hc⟩ := h.channel_of_some
    rw [CipherSuite.counterRange_eq] at hc
    exact .some ⟨hs.suite, hs.keys, hs.macPolicy, hc⟩

namespace Session

/-- Failures that come before anything is sent: a request that the state does not permit, a broken
certificate chain, and a key computation of Chip Authentication with the private key that is
drawn. -/
inductive Silent (request : Request) (entropy : Bytes) : Error → Prop
  | invalidState (operation : Operation) (state : SessionState) :
    Silent request entropy (.invalidState operation state)
  | chain (reason : ChainError) : Silent request entropy (.chain reason)
  | keyComputation {chipKey : ChipPublicKey} {keyId : Option Nat} {reason : CryptoError} :
    request = .chipAuthentication chipKey keyId →
    ChipAuthentication.prepare chipKey keyId
      (Bytes.toNat (entropy.take chipKey.group.privateKeySize)) = .error reason →
    Silent request entropy (.crypto reason)

variable {σ : Type} {config : SessionConfig} {card : Card σ} {s : Session σ}

/-- A run of Chip Authentication whose key computation fails is over when the key has been drawn. -/
theorem establish_run_of_error {chipKey : ChipPublicKey} {keyId : Option Nat} {reason : CryptoError}
    {link : Link σ} (h : ChipAuthentication.prepare chipKey keyId
      (Bytes.toNat (link.entropy.take chipKey.group.privateKeySize)) = .error reason) :
    (ChipAuthentication.establish chipKey keyId).run card link =
      if link.entropy.length < chipKey.group.privateKeySize then (.interrupted, link)
      else (.failed (.crypto reason),
        { link with entropy := link.entropy.drop chipKey.group.privateKeySize }) := by
  rw [ChipAuthentication.establish, Dialogue.random, Dialogue.bind_draw, Dialogue.run,
    Link.takeEntropy?]
  split
  · rename_i hn
    split at hn
    · rename_i hl
      rw [if_pos hl]
    · cases hn
  · rename_i bytes rest hn
    split at hn
    · cases hn
    · rename_i hl
      cases hn
      rw [if_neg hl, Dialogue.bind_done, ChipAuthentication.establishWith_of_error h]
      rfl

/-- Nothing is sent then, and the channel stays as it is. -/
theorem perform_of_prepare_error {chipKey : ChipPublicKey} {keyId : Option Nat}
    {reason : CryptoError} (h : ChipAuthentication.prepare chipKey keyId
      (Bytes.toNat (s.link.entropy.take chipKey.group.privateKeySize)) = .error reason) :
    (s.perform config card (.chipAuthentication chipKey keyId)).2.link.log = s.link.log ∧
      (s.perform config card (.chipAuthentication chipKey keyId)).2.link.channel =
        s.link.channel := by
  rw [perform, Request.plan, execute, runHandshake.eq_def]
  split
  · exact ⟨rfl, rfl⟩
  · exact ⟨rfl, rfl⟩
  · rw [runDialogue_eq, Dialogue.run_bind, establish_run_of_error h]
    by_cases hl : s.link.entropy.length < chipKey.group.privateKeySize
    · rw [if_pos hl]
      exact ⟨rfl, rfl⟩
    · rw [if_neg hl]
      exact ⟨rfl, rfl⟩

/-- **A request that fails or is interrupted leaves the session as it was**, up to the counter of
the channel: this has moved on by the commands the card was sent and the responses it gave. After a
silent failure there are none. -/
theorem perform_failed (config : SessionConfig) (card : Card σ) (request : Request)
    (s : Session σ) (hf : ∀ value, (s.perform config card request).1 ≠ .ok value) :
    (s.perform config card request).2.state = s.state ∧ ∃ events,
      (s.perform config card request).2.link.log = events ++ s.link.log ∧
      Traffic card s.link.channel s.link.card events (s.perform config card request).2.link.channel
        (s.perform config card request).2.link.card ∧
      Channel.MovedOn events s.link.channel (s.perform config card request).2.link.channel ∧
      ∀ e, (s.perform config card request).1 = .failed e → Silent request s.link.entropy e →
        events = [] ∧ (s.perform config card request).2.link.channel = s.link.channel := by
  have hkey : ∀ {chipKey keyId reason}, request = .chipAuthentication chipKey keyId →
      ChipAuthentication.prepare chipKey keyId
        (Bytes.toNat (s.link.entropy.take chipKey.group.privateKeySize)) = .error reason →
      (s.perform config card request).2.link.log = s.link.log ∧
        (s.perform config card request).2.link.channel = s.link.channel := by
    rintro chipKey keyId reason rfl hp
    exact perform_of_prepare_error hp
  -- what a step does is said by `Step`; only the key computation has to be looked up in `perform`
  generalize hresult : s.perform config card request = result at hf hkey ⊢
  have hstep : Step config card request s result := hresult ▸ perform_step config card request s
  cases hstep with
  | refused _ => exact ⟨rfl, [], rfl, .start, .refl _, fun _ _ _ => ⟨rfl, rfl⟩⟩
  | brokenChain _ => exact ⟨rfl, [], rfl, .start, .refl _, fun _ _ _ => ⟨rfl, rfl⟩⟩
  | opened _ _ _ => exact absurd rfl (hf _)
  | closed _ => exact absurd rfl (hf _)
  | advanced _ _ _ _ _ _ => exact absurd rfl (hf _)
  | @ran outcome link events _ _ hlog ht hoperational =>
    refine ⟨rfl, events, hlog, ht, ht.movedOn, ?_⟩
    intro e he hsilent
    -- a dialogue that ran fails operationally, which leaves the key computation
    have he' := hoperational e he
    cases hsilent with
    | invalidState _ _ => exact he'.elim
    | chain _ => exact he'.elim
    | keyComputation hr hp =>
      obtain ⟨hlog', hchannel⟩ := hkey hr hp
      have hnone : events ++ s.link.log = s.link.log := hlog.symm.trans hlog'
      exact ⟨List.append_left_eq_self.1 hnone, hchannel⟩

/-- A chip refuses the selection of the application with a response in the clear: the session stays
where it was, and the counter has moved on twice. -/
theorem perform_failed_refusal :
    let card : Card Unit := fun _ _ => (.ok ⟨[], .secureMessagingIncorrect⟩, ())
    let s : Session Unit := ⟨.bacAuthenticated, false,
      ⟨(), some Channel.workedExample, [], []⟩⟩
    let result := s.perform {} card (.selectApplet applicationIdentifier)
    (∀ value, result.1 ≠ .ok value) ∧ result.2.state = s.state ∧ ∃ events,
      result.2.link.log = events ++ s.link.log ∧
      Traffic card s.link.channel s.link.card events result.2.link.channel result.2.link.card ∧
      Channel.MovedOn events s.link.channel result.2.link.channel ∧
      ∀ e, result.1 = .failed e →
        Silent (.selectApplet applicationIdentifier) s.link.entropy e →
        events = [] ∧ result.2.link.channel = s.link.channel := by
  intro card s result
  -- an empty response is no protected one, so the channel itself refuses it
  have hresult :
      result.1 = .failed (.protocolAbort .secureMessaging .secureMessagingIncorrect) := by
    obtain ⟨wrapped, hw⟩ := Channel.workedExample.step.wrap_ok
      (File.selectAppletCommand applicationIdentifier)
    have ht : (s.link.transmit card (File.selectAppletCommand applicationIdentifier)).1 =
        .error (.protocolAbort .secureMessaging .secureMessagingIncorrect) := by
      simp only [s, card, Link.transmit, Link.transmitWrapped, hw, Link.exchange]
      exact Channel.unwrap_of_empty rfl
    have hrun : (Dialogue.run card (do
        File.selectApplet applicationIdentifier
        return Value.unit) s.link).1 =
          .failed (.protocolAbort .secureMessaging .secureMessagingIncorrect) := by
      simp only [File.selectApplet, Dialogue.expectSuccess, Dialogue.bind_send, Dialogue.run, ht,
        Except.bind, Dialogue.ofExcept, Dialogue.bind_fail]
    simp only [result, perform, Request.plan, execute, runCommand, runDialogue_eq, hrun, s]
    rfl
  have hf : ∀ value, result.1 ≠ .ok value := by
    intro value h
    rw [hresult] at h
    cases h
  exact ⟨hf, perform_failed {} card _ s hf⟩

end Session
end TravelDocument

import TravelDocument.Dialogue.Link
import TravelDocument.Proofs.SecureMessaging.Wrapping

/-!
# What goes over a link

`Traffic` relates what the log of a link has gained to what has become of its channel and its card.
Every run of every dialogue leaves such traffic (`run_traffic`). A link without a channel keeps none
(`Traffic.channel_of_none`). One with a channel keeps its keys, and the counter tells how many
commands and responses there were (`Traffic.channel_of_some`); whatever the card has received was
wrapped by the channel (`Traffic.wrapped`).
-/

namespace TravelDocument

variable {σ α : Type}

/-- What has gone over a link since it had the given channel and its card the given memory: the
events, the last first, and the channel and the memory after them. Without a channel the card
receives requests as they are. With one it receives what the channel wraps them to after it has
moved on, and the channel moves on once more if the card responds. -/
inductive Traffic (card : Card σ) (channel : Option Channel) (memory : σ) :
    List Event → Option Channel → σ → Prop
  | start : Traffic card channel memory [] channel memory
  | signing {events : List Event} {c : Option Channel} {m : σ} (data : Bytes) :
    Traffic card channel memory events c m →
    Traffic card channel memory (.signing data :: events) c m
  | plain {events : List Event} {m : σ} (request : Apdu.Command) :
    Traffic card channel memory events none m →
    Traffic card channel memory (.exchange request request (card m request).1 :: events) none
      (card m request).2
  | unanswered {events : List Event} {c : Channel} {m m' : σ} {request sent : Apdu.Command}
      {e : TransportError} :
    Traffic card channel memory events (some c) m → c.step.wrap request = .ok sent →
    card m sent = (.error e, m') →
    Traffic card channel memory (.exchange request sent (.error e) :: events) (some c.step) m'
  | answered {events : List Event} {c : Channel} {m m' : σ} {request sent : Apdu.Command}
      {response : Apdu.Response} :
    Traffic card channel memory events (some c) m → c.step.wrap request = .ok sent →
    card m sent = (.ok response, m') →
    Traffic card channel memory (.exchange request sent (.ok response) :: events)
      (some c.step.step) m'

variable {card : Card σ}

theorem Traffic.trans {channel c d : Option Channel} {memory m m' : σ} {events later : List Event}
    (h : Traffic card channel memory events c m) (h' : Traffic card c m later d m') :
    Traffic card channel memory (later ++ events) d m' := by
  induction h' with
  | start => exact h
  | signing data _ ih => exact .signing data ih
  | plain request _ ih => exact .plain request ih
  | unanswered _ hw hc ih => exact .unanswered ih hw hc
  | answered _ hw hc ih => exact .answered ih hw hc

/-! ## Runs -/

/-- One transmission is one exchange. -/
theorem Link.transmit_traffic (card : Card σ) (request : Apdu.Command) (link : Link σ) :
    ∃ sent answer,
    (link.transmit card request).2.log = .exchange request sent answer :: link.log ∧
    Traffic card link.channel link.card [.exchange request sent answer]
      (link.transmit card request).2.channel (link.transmit card request).2.card := by
  obtain ⟨memory, channel, entropy, log⟩ := link
  cases channel with
  | none => exact ⟨_, _, rfl, .plain request .start⟩
  | some c =>
    obtain ⟨wrapped, hw⟩ := c.step.wrap_ok request
    rcases hc : card memory wrapped with ⟨answer, m⟩
    cases answer with
    | error e =>
      simp only [transmit, transmitWrapped, hw, exchange, hc]
      exact ⟨_, _, rfl, .unanswered .start hw hc⟩
    | ok response =>
      simp only [transmit, transmitWrapped, hw, exchange, hc]
      exact ⟨_, _, rfl, .answered .start hw hc⟩

theorem Link.transmit_log (card : Card σ) (request : Apdu.Command) (link : Link σ) :
    ∃ sent answer, (link.transmit card request).2.log =
      .exchange request sent answer :: link.log :=
  let ⟨sent, answer, hlog, _⟩ := link.transmit_traffic card request
  ⟨sent, answer, hlog⟩

/-- **Every run leaves traffic.** The induction is on the dialogue: what it sends first comes
first. -/
theorem Dialogue.run_traffic (card : Card σ) (d : Dialogue α) (link : Link σ) : ∃ events,
    (d.run card link).2.log = events ++ link.log ∧
    Traffic card link.channel link.card events (d.run card link).2.channel
      (d.run card link).2.card := by
  -- traffic of one part and traffic of the rest make traffic of both (`Traffic.trans`)
  induction d generalizing link with
  | done a => exact ⟨[], rfl, .start⟩
  | fail e => exact ⟨[], rfl, .start⟩
  | send command next ih =>
    obtain ⟨sent, answer, hlog, ht⟩ := link.transmit_traffic card command
    obtain ⟨events, hlog', ht'⟩ := ih (link.transmit card command).1
      (link.transmit card command).2
    refine ⟨events ++ [.exchange command sent answer], ?_, ht.trans ht'⟩
    rw [List.append_assoc, List.singleton_append, ← hlog]
    exact hlog'
  | draw count next ih =>
    rw [run]
    cases he : link.takeEntropy? count with
    | none => exact ⟨[], rfl, .start⟩
    | some drawn =>
      obtain ⟨bytes, rest⟩ := drawn
      have hrest : rest = { link with entropy := link.entropy.drop count } := by
        rw [Link.takeEntropy?] at he
        split at he
        · cases he
        · cases he
          rfl
      subst hrest
      exact ih bytes _
  | sign data next ih =>
    obtain ⟨events, hlog, ht⟩ := ih { link with log := .signing data :: link.log }
    refine ⟨events ++ [.signing data], ?_, (Traffic.signing data .start).trans ht⟩
    rw [List.append_assoc, List.singleton_append]
    exact hlog
  | counter next ih => exact ih _ link

/-! ## The channel after some traffic -/

/-- A link without a channel keeps none. -/
theorem Traffic.channel_of_none {memory m : σ} {events : List Event} {d : Option Channel}
    (h : Traffic card none memory events d m) : d = none := by
  induction h with
  | start => rfl
  | signing _ _ ih => exact ih
  | plain _ _ _ => rfl
  | unanswered _ _ _ ih => cases ih
  | answered _ _ _ ih => cases ih

/-- Without a channel the card receives the requests themselves. -/
theorem Traffic.sent_of_none {memory m : σ} {events : List Event} {d : Option Channel}
    (h : Traffic card none memory events d m) {request sent : Apdu.Command}
    {answer : Except TransportError Apdu.Response} (he : .exchange request sent answer ∈ events) :
    sent = request := by
  induction h with
  | start => cases he
  | signing _ _ ih =>
    rcases List.mem_cons.1 he with he | he
    · cases he
    · exact ih he
  | plain _ _ ih =>
    rcases List.mem_cons.1 he with he | he
    · cases he
      rfl
    · exact ih he
  | unanswered h _ _ _ | answered h _ _ _ => cases h.channel_of_none

/-- The number of commands among some events. -/
def Event.commands (events : List Event) : Nat :=
  events.countP fun
    | .exchange _ _ _ => true
    | .signing _ => false

/-- The number of commands among some events that the card has responded to. -/
def Event.responses (events : List Event) : Nat :=
  events.countP fun
    | .exchange _ _ (.ok _) => true
    | .exchange _ _ (.error _) => false
    | .signing _ => false

@[simp] theorem Event.commands_nil : Event.commands [] = 0 := rfl
@[simp] theorem Event.responses_nil : Event.responses [] = 0 := rfl

/-- **A channel keeps its keys, and its counter moves on with every command and every response.** -/
theorem Traffic.channel_of_some {c : Channel} {memory m : σ} {events : List Event}
    {d : Option Channel} (h : Traffic card (some c) memory events d m) :
    ∃ after, d = some after ∧ c.SameKeys after ∧ after.counter =
      (c.counter + (Event.commands events + Event.responses events)) % c.suite.counterRange := by
  induction h with
  | start =>
    refine ⟨c, rfl, .refl c, ?_⟩
    rw [Event.commands_nil, Event.responses_nil, Nat.add_zero, Nat.mod_eq_of_lt c.counter_lt]
  | signing data _ ih => exact ih
  | plain request _ ih =>
    obtain ⟨_, hn, -⟩ := ih
    cases hn
  | @unanswered events d m m' request sent e _ hw hc ih =>
    obtain ⟨_, he, hs, hd⟩ := ih
    cases he
    refine ⟨d.step, rfl, hs.trans d.step_sameKeys, ?_⟩
    have hcommands : Event.commands (.exchange request sent (.error e) :: events) =
        Event.commands events + 1 := by simp [Event.commands]
    have hresponses : Event.responses (.exchange request sent (.error e) :: events) =
        Event.responses events := by simp [Event.responses]
    -- a command that nothing came back for has moved the counter once
    rw [Channel.step_counter, hd, ← hs.suite, hcommands, hresponses, Nat.mod_add_mod]
    congr 1
    omega
  | @answered events d m m' request sent response _ hw hc ih =>
    obtain ⟨_, he, hs, hd⟩ := ih
    cases he
    refine ⟨d.step.step, rfl, (hs.trans d.step_sameKeys).trans d.step.step_sameKeys, ?_⟩
    have hcommands : Event.commands (.exchange request sent (.ok response) :: events) =
        Event.commands events + 1 := by simp [Event.commands]
    have hresponses : Event.responses (.exchange request sent (.ok response) :: events) =
        Event.responses events + 1 := by simp [Event.responses]
    rw [Channel.step_counter, Channel.step_counter, Channel.step_suite, hd, ← hs.suite, hcommands,
      hresponses, Nat.mod_add_mod, Nat.add_assoc, Nat.mod_add_mod]
    congr 1
    omega

/-- A link keeps being without a channel or keeps the keys of the one it has. -/
theorem Traffic.sameKeys {channel d : Option Channel} {memory m : σ} {events : List Event}
    (h : Traffic card channel memory events d m) : Option.Rel Channel.SameKeys channel d := by
  cases channel with
  | none =>
    rw [h.channel_of_none]
    exact .none
  | some c =>
    obtain ⟨after, rfl, hs, -⟩ := h.channel_of_some
    exact .some hs

/-- The answers are the ones that the card has given to what was sent. -/
theorem Traffic.answered_by {channel d : Option Channel} {memory m : σ} {events : List Event}
    (h : Traffic card channel memory events d m) {request sent : Apdu.Command}
    {answer : Except TransportError Apdu.Response} (he : .exchange request sent answer ∈ events) :
    ∃ before, (card before sent).1 = answer := by
  induction h with
  | start => cases he
  | signing _ _ ih =>
    rcases List.mem_cons.1 he with he | he
    · cases he
    · exact ih he
  | plain _ _ ih =>
    rcases List.mem_cons.1 he with he | he
    · cases he
      exact ⟨_, rfl⟩
    · exact ih he
  | unanswered _ _ hc ih | answered _ _ hc ih =>
    rcases List.mem_cons.1 he with he | he
    · cases he
      exact ⟨_, by rw [hc]⟩
    · exact ih he

/-- **What the card has received was wrapped by the channel**, at some value of its counter. -/
theorem Traffic.wrapped {c : Channel} {memory m : σ} {events : List Event} {d : Option Channel}
    (h : Traffic card (some c) memory events d m) {request sent : Apdu.Command}
    {answer : Except TransportError Apdu.Response} (he : .exchange request sent answer ∈ events) :
    ∃ sender, c.SameKeys sender ∧ sender.wrap request = .ok sent := by
  induction h with
  | start => cases he
  | signing data _ ih =>
    rcases List.mem_cons.1 he with he | he
    · cases he
    · exact ih he
  | plain request h ih =>
    -- there is a channel at the start, and a channel is never lost
    obtain ⟨_, hn, -⟩ := h.channel_of_some
    cases hn
  | @unanswered events d _ _ _ _ _ h hw _ ih =>
    rcases List.mem_cons.1 he with he | he
    · cases he
      obtain ⟨_, hd, hs, -⟩ := h.channel_of_some
      cases hd
      exact ⟨d.step, hs.trans d.step_sameKeys, hw⟩
    · exact ih he
  | @answered events d _ _ _ _ _ h hw _ ih =>
    rcases List.mem_cons.1 he with he | he
    · cases he
      obtain ⟨_, hd, hs, -⟩ := h.channel_of_some
      cases hd
      exact ⟨d.step, hs.trans d.step_sameKeys, hw⟩
    · exact ih he

end TravelDocument

import TravelDocument.Proofs.Dialogue.Outcomes
import TravelDocument.Proofs.SecureMessaging.Wrapping

/-!
# Dialogues that come to their end

A run that ends with a value has done so in every part (`run_bind_eq_ok`), and each part tells what
was sent, what came back and what was computed. `Link.Exchanged` is the record of the exchanges of
such a run: commands that were all answered with status `9000`, each with the data of its answer. A
dialogue that is `Silent` after a command leaves nothing but that exchange
(`run_expectSuccess_bind_link`).
-/

namespace TravelDocument

variable {σ α β : Type} {card : Card σ}

/-! ## Exchanges -/

/-- The commands, sent one after the other, are answered with success and the given data. -/
inductive Link.Exchanged (card : Card σ) :
    Link σ → List (Apdu.Command × Bytes) → Link σ → Prop
  | none (link : Link σ) : Exchanged card link [] link
  | next {link next after : Link σ} {command : Apdu.Command} {data : Bytes}
      {rest : List (Apdu.Command × Bytes)} :
    link.transmit card command = (.ok ⟨data, .success⟩, next) →
      Exchanged card next rest after →
    Exchanged card link ((command, data) :: rest) after

namespace Link.Exchanged

variable {link after : Link σ} {exchanges : List (Apdu.Command × Bytes)}

theorem single {command : Apdu.Command} {data : Bytes} :
    Exchanged card link [(command, data)] after ↔
      link.transmit card command = (.ok ⟨data, .success⟩, after) := by
  constructor
  · rintro (_ | ⟨ht, _ | _⟩)
    exact ht
  · exact fun ht => .next ht (.none after)

/-- An answered command leaves a link without a channel as it is, and moves a channel on twice. -/
theorem transmit_channel {command : Apdu.Command} {response : Apdu.Response}
    (h : link.transmit card command = (.ok response, after)) :
    after.channel = link.channel.map fun c => c.step.step := by
  obtain ⟨memory, channel, entropy, log⟩ := link
  cases channel with
  | none =>
    rw [← (Prod.mk.inj h).2]
    rfl
  | some c =>
    obtain ⟨wrapped, hw⟩ := c.step.wrap_ok command
    rcases hc : card memory wrapped with ⟨answer, next⟩
    cases answer with
    | error e =>
      simp only [transmit, transmitWrapped, hw, exchange, hc] at h
      cases h
    | ok response =>
      simp only [transmit, transmitWrapped, hw, exchange, hc] at h
      rw [← (Prod.mk.inj h).2]
      rfl

/-- A link without a channel keeps none. -/
theorem channel_of_none (h : Exchanged card link exchanges after)
    (hc : link.channel = Option.none) :
    after.channel = Option.none := by
  induction h with
  | none => exact hc
  | next ht _ ih =>
    refine ih ?_
    rw [transmit_channel ht, hc]
    rfl

/-- **A channel keeps its keys, and its counter moves on twice with every exchange.** -/
theorem channel_of_some (h : Exchanged card link exchanges after) {c : Channel}
    (hc : link.channel = some c) : ∃ d, after.channel = some d ∧ c.SameKeys d ∧
      d.counter = (c.counter + 2 * exchanges.length) % c.suite.counterRange := by
  induction h generalizing c with
  | none =>
    exact ⟨c, hc, .refl c, (Nat.mod_eq_of_lt c.counter_lt).symm⟩
  | next ht _ ih =>
    obtain ⟨d, hd, hs, hcounter⟩ := ih (c := c.step.step) (by rw [transmit_channel ht, hc]; rfl)
    refine ⟨d, hd, (c.step_sameKeys.trans c.step.step_sameKeys).trans hs, ?_⟩
    simp only [hcounter, Channel.step_counter, Channel.step_suite, List.length_cons,
      Nat.mod_add_mod]
    congr 1
    omega

/-- A card that replays answers gives them if every command has a serialized form. -/
theorem replay {exchanges : List (Apdu.Command × Bytes)} {link : Link (List Bytes)}
    (hcard : link.card = exchanges.map fun e => (⟨e.2, .success⟩ : Apdu.Response).encode)
    (hc : link.channel = Option.none) (he : ∀ e ∈ exchanges, e.1.encode.isOk = true) :
    ∃ after, Exchanged Card.replay link exchanges after := by
  induction exchanges generalizing link with
  | nil => exact ⟨link, .none link⟩
  | cons e rest ih =>
    obtain ⟨memory, channel, entropy, log⟩ := link
    obtain ⟨command, data⟩ := e
    subst hcard hc
    have hencode : ∃ bytes, command.encode = .ok bytes := by
      have := he _ List.mem_cons_self
      cases hb : command.encode with
      | error e => rw [hb] at this; cases this
      | ok bytes => exact ⟨bytes, rfl⟩
    obtain ⟨bytes, hb⟩ := hencode
    have ht : transmit Card.replay command ⟨((command, data) :: rest).map fun e =>
        (⟨e.2, .success⟩ : Apdu.Response).encode, Option.none, entropy, log⟩ =
          (.ok ⟨data, .success⟩,
            ⟨rest.map fun e => (⟨e.2, .success⟩ : Apdu.Response).encode, Option.none,
            entropy, .exchange command command (.ok ⟨data, .success⟩) :: log⟩) := by
      simp only [transmit, transmitPlain, exchange, List.map_cons, Card.replay, hb, Card.receive,
        Apdu.Response.decode?_encode, Except.mapError]
    obtain ⟨after, h⟩ := @ih ⟨_, Option.none, entropy, _ :: log⟩ rfl rfl
      fun e h => he e (List.mem_cons_of_mem _ h)
    exact ⟨after, .next ht h⟩

end Link.Exchanged

namespace Dialogue

variable {link after : Link σ}

/-- **A dialogue of two parts comes to its end if both parts do.** -/
theorem run_bind_eq_ok {d : Dialogue α} {k : α → Dialogue β} {b : β} :
    (d >>= k).run card link = (.ok b, after) ↔
      ∃ a next, d.run card link = (.ok a, next) ∧ (k a).run card next = (.ok b, after) := by
  rw [run_bind]
  rcases d.run card link with ⟨a | e | _, next⟩
  · constructor
    · intro h
      exact ⟨a, next, rfl, h⟩
    · rintro ⟨_, _, hd, hk⟩
      cases hd
      exact hk
  all_goals
    constructor
    · intro h
      cases h
    · rintro ⟨_, _, hd, -⟩
      cases hd

theorem run_pure_eq_ok {a b : α} :
    (pure a : Dialogue α).run card link = (.ok b, after) ↔ a = b ∧ link = after := by
  show (Outcome.ok a, link) = _ ↔ _
  rw [Prod.mk.injEq, Outcome.ok.injEq]

theorem run_ofExcept_eq_ok {r : Except Error α} {a : α} :
    (ofExcept r).run card link = (.ok a, after) ↔ r = .ok a ∧ link = after := by
  cases r with
  | error e => simp [ofExcept, run]
  | ok b => simp [ofExcept, run]

theorem run_ofCrypto_eq_ok {r : Except CryptoError α} {a : α} :
    (ofCrypto r).run card link = (.ok a, after) ↔ r = .ok a ∧ link = after := by
  rw [ofCrypto, run_ofExcept_eq_ok]
  cases r with
  | error e => simp [liftCrypto, Except.mapError]
  | ok b => simp [liftCrypto, Except.mapError]

theorem run_expectSuccess_eq_ok {operation : Operation} {command : Apdu.Command}
    {response : Apdu.Response} :
    (expectSuccess operation command).run card link = (.ok response, after) ↔
      response.status = .success ∧ link.transmit card command = (.ok response, after) := by
  rw [expectSuccess, run]
  rcases link.transmit card command with ⟨answer, next⟩
  dsimp only
  rw [run_ofExcept_eq_ok]
  cases answer with
  | error e => simp [Except.bind]
  | ok r =>
    have hr : requireSuccess operation r = .ok response ↔ response.status = .success ∧
        r = response := by
      rw [requireSuccess, Apdu.Response.isSuccess]
      by_cases hs : r.status = .success
      · simp [hs]
        exact fun h => h ▸ hs
      · simp [hs]
        exact fun h hr => absurd (hr ▸ h) hs
    rw [Except.bind, hr]
    simp [and_assoc]

theorem run_activeCounter_eq_ok {counter : Option Nat} :
    activeCounter.run card link = (.ok counter, after) ↔
      counter = link.channel.map (·.counter) ∧ link = after := by
  rw [activeCounter, run, run, Prod.mk.injEq, Outcome.ok.injEq, eq_comm]

/-! ## One exchange -/

/-- A dialogue that does nothing but end. -/
def Silent (d : Dialogue α) : Prop :=
  ∃ r, d = ofExcept r

theorem silent_ofExcept (r : Except Error α) : (ofExcept r).Silent := ⟨r, rfl⟩

theorem silent_ofCrypto (r : Except CryptoError α) : (ofCrypto r).Silent := ⟨liftCrypto r, rfl⟩

theorem silent_pure (a : α) : (pure a : Dialogue α).Silent := ⟨.ok a, rfl⟩

theorem Silent.bind {d : Dialogue α} {k : α → Dialogue β} (h : d.Silent) (hk : ∀ a, (k a).Silent) :
    (d >>= k).Silent := by
  obtain ⟨r, rfl⟩ := h
  cases r with
  | error e => exact ⟨.error e, rfl⟩
  | ok a => exact hk a

theorem Silent.run_link {d : Dialogue α} (h : d.Silent) (card : Card σ) (link : Link σ) :
    (d.run card link).2 = link := by
  obtain ⟨r | r, rfl⟩ := h
  all_goals rfl

/-- If nothing comes after a command, its transmission is all that happens to the link. -/
theorem run_expectSuccess_bind_link {operation : Operation} {command : Apdu.Command}
    {k : Apdu.Response → Dialogue β} (hk : ∀ response, (k response).Silent) :
    ((expectSuccess operation command >>= k).run card link).2 = (link.transmit card command).2 := by
  have hsilent : ∀ answer : Except Error Apdu.Response,
      (ofExcept (answer.bind (requireSuccess operation)) >>= k).Silent :=
    fun _ => (silent_ofExcept _).bind hk
  rw [expectSuccess, bind_send, run]
  exact (hsilent _).run_link card _

end Dialogue
end TravelDocument

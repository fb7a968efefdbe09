import TravelDocument.Proofs.Handshake.Bac
import TravelDocument.Proofs.Session.Steps

/-!
# State and channel belong together

A session has a channel exactly if access control has succeeded, after Chip Authentication it is a
triple DES channel, and its policy is the one the session is configured with: `Coupled`. Every step
preserves this (`Step.coupled`), so it holds of every reachable session, and none of these sends
anything to the card without protection once it has a channel (`reachable_coupled`).
-/

namespace TravelDocument

/-- Whether access control has succeeded. -/
def SessionState.isAuthenticated : SessionState → Bool
  | .closed | .open => false
  | .bacAuthenticated | .caAuthenticated | .taAuthenticated => true

namespace Session

/-- What state, channel and configured policy of a session have to do with each other. -/
structure Coupled (policy : MacPolicy) (state : SessionState) (channel : Option Channel) :
    Prop where
  isSome_iff : channel.isSome ↔ state.isAuthenticated
  suite_eq : state = .caAuthenticated ∨ state = .taAuthenticated → ∀ c ∈ channel,
    c.suite = .tdes
  length_keys : ∀ c ∈ channel,
    c.keys.encryption.length = c.suite.keySize ∧ c.keys.mac.length = c.suite.keySize
  counter_lt : ∀ c ∈ channel, c.suite = .tdes → c.counter < 2 ^ 64
  macPolicy_eq : ∀ c ∈ channel, c.macPolicy = policy

variable {policy : MacPolicy} {state : SessionState}

theorem Coupled.of_none (h : state.isAuthenticated = false) : Coupled policy state none where
  isSome_iff := by simp [h]
  suite_eq := nofun
  length_keys := nofun
  counter_lt := nofun
  macPolicy_eq := nofun

theorem Coupled.of_some {c : Channel} (h : state.isAuthenticated = true)
    (hs : state = .caAuthenticated ∨ state = .taAuthenticated → c.suite = .tdes)
    (hp : c.macPolicy = policy) : Coupled policy state (some c) where
  isSome_iff := by simp [h]
  suite_eq := by
    rintro h' _ ⟨⟩
    exact hs h'
  length_keys := by
    rintro _ ⟨⟩
    exact ⟨c.length_encryption, c.length_mac⟩
  counter_lt := by
    rintro _ ⟨⟩ ht
    have := c.counter_lt
    rwa [ht] at this
  macPolicy_eq := by
    rintro _ ⟨⟩
    exact hp

theorem Coupled.of_sameKeys {channel d : Option Channel} (h : Coupled policy state channel)
    (hk : Option.Rel Channel.SameKeys channel d) : Coupled policy state d := by
  cases hk with
  | none => exact h
  | @some c d hk =>
    refine .of_some (h.isSome_iff.1 rfl) (fun hs => ?_) ?_
    · rw [← hk.suite]
      exact h.suite_eq hs c rfl
    · rw [← hk.macPolicy]
      exact h.macPolicy_eq c rfl

theorem Coupled.eq_none {channel : Option Channel} (h : Coupled policy state channel)
    (hs : state.isAuthenticated = false) : channel = none := by
  rw [← Option.not_isSome_iff_eq_none, h.isSome_iff, hs]
  decide

/-- A new channel may be of any suite after BAC and PACE. -/
theorem Coupled.install {c : Channel} {channel : Option Channel} (h : state.isAuthenticated = true)
    (hs : state = .bacAuthenticated ∨ c.suite = .tdes) :
    Coupled policy state (installed policy (some c) channel) := by
  refine .of_some h (fun hlate => ?_) rfl
  rcases hs with rfl | hs
  · rcases hlate with hlate | hlate <;> cases hlate
  · exact hs

/-- A permitted handshake leads to a state with the channel that it makes or leaves. -/
theorem Coupled.advance {handshake : Handshake} {next : SessionState}
    {made channel : Option Channel}
    (h : Coupled policy state channel) (hn : state.after? handshake = some next)
    (hm : handshake.Makes made) : Coupled policy next (installed policy made channel) := by
  -- each handshake installs the channel its state calls for; terminal authentication keeps one
  cases handshake with
  | bac =>
    obtain ⟨c, rfl⟩ := hm
    cases state <;> cases hn
    exact .install rfl (.inl rfl)
  | pace =>
    obtain ⟨c, rfl⟩ := hm
    cases state <;> cases hn
    · exact .install rfl (.inl rfl)
    · exact .install rfl (.inl rfl)
  | chipAuthentication =>
    obtain ⟨c, rfl, hs⟩ := hm
    cases state <;> cases hn
    exact .install rfl (.inr hs)
  | terminalAuthentication =>
    cases hm
    cases state <;> cases hn
    obtain ⟨c, rfl⟩ := Option.isSome_iff_exists.1 (h.isSome_iff.2 rfl)
    exact .of_some rfl (fun _ => h.suite_eq (.inl rfl) c rfl) (h.macPolicy_eq c rfl)

variable {σ : Type} {config : SessionConfig} {card : Card σ} {request : Request} {s : Session σ}

/-- A step preserves the coupling of state and channel. -/
theorem Step.coupled {result : Outcome Value × Session σ} (h : Step config card request s result)
    (hc : Coupled config.macPolicy s.state s.link.channel) :
    Coupled config.macPolicy result.2.state result.2.link.channel := by
  cases h with
  | refused _ => exact hc
  | brokenChain _ => exact hc
  | opened _ _ hs =>
    rw [hc.eq_none (by rw [hs]; rfl)]
    exact .of_none rfl
  | closed _ => exact .of_none rfl
  | ran _ _ _ ht _ => exact hc.of_sameKeys ht.sameKeys
  | advanced _ _ hn hm _ ht => exact (hc.of_sameKeys ht.sameKeys).advance hn hm

theorem Reachable.coupled (h : Reachable config card s) :
    Coupled config.macPolicy s.state s.link.channel := by
  induction h with
  | new memory entropy => exact .of_none rfl
  | perform request _ ih => exact (perform_step config card request _).coupled ih

/-- Whatever a step does, it does to the card over the channel that was there before. -/
theorem Step.traffic {result : Outcome Value × Session σ} (h : Step config card request s result) :
    ∃ events channel, result.2.link.log = events ++ s.link.log ∧
      Traffic card s.link.channel s.link.card events channel result.2.link.card := by
  cases h with
  | refused _ => exact ⟨[], _, rfl, .start⟩
  | brokenChain _ => exact ⟨[], _, rfl, .start⟩
  | opened _ _ _ => exact ⟨[], _, rfl, .start⟩
  | closed _ => exact ⟨[], _, rfl, .start⟩
  | ran _ _ hlog ht _ => exact ⟨_, _, hlog, ht⟩
  | advanced _ _ _ _ hlog ht => exact ⟨_, _, hlog, ht⟩

/-- What a request sends in an authenticated state is recorded in the log, takes the card from its
memory before to the one after, and was wrapped by the installed channel. -/
theorem Reachable.wraps (h : Reachable config card s) (hs : s.state.isAuthenticated = true)
    (request : Request) : ∃ c events after, s.link.channel = some c ∧
      (s.perform config card request).2.link.log = events ++ s.link.log ∧
      Traffic card (some c) s.link.card events after (s.perform config card request).2.link.card ∧
      ∀ command sent answer, .exchange command sent answer ∈ events →
        ∃ sender, c.SameKeys sender ∧ sender.wrap command = .ok sent := by
  obtain ⟨c, hc⟩ := Option.isSome_iff_exists.1 (h.coupled.isSome_iff.2 hs)
  obtain ⟨events, after, hlog, ht⟩ := (perform_step config card request s).traffic
  rw [hc] at ht
  exact ⟨c, events, after, hc, hlog, ht, fun _ _ _ he => ht.wrapped he⟩

/-- **In every reachable session state and channel belong together, and nothing is sent in the clear
after access control.** What a request sends in an authenticated state is recorded in the log, takes
the card from its memory before to the one after, and was wrapped by the installed channel. -/
theorem reachable_coupled (h : Reachable config card s) :
    Coupled config.macPolicy s.state s.link.channel ∧
    ∀ request, s.state.isAuthenticated = true → ∃ c events after,
      s.link.channel = some c ∧
      (s.perform config card request).2.link.log = events ++ s.link.log ∧
      Traffic card (some c) s.link.card events after (s.perform config card request).2.link.card ∧
      ∀ command sent answer, .exchange command sent answer ∈ events →
        ∃ sender, c.SameKeys sender ∧ sender.wrap command = .ok sent :=
  ⟨h.coupled, fun request hs => h.wraps hs request⟩

/-- A session with a chip that knows the key, opened and taken through BAC. -/
def afterBac (config : SessionConfig) (key : Mrz.AccessKey) (rndIc kIc entropy : Bytes) :
    Session Unit :=
  let card := Bac.chip key.bacSeed rndIc kIc
  (((Session.new () entropy).perform config card .open).2.perform config card (.bac key)).2

theorem afterBac_spec (config : SessionConfig) (key : Mrz.AccessKey) {rndIc kIc entropy : Bytes}
    (hic : rndIc.length = 8) (hkic : kIc.length = 16) (he : 24 ≤ entropy.length) :
    Reachable config (Bac.chip key.bacSeed rndIc kIc) (afterBac config key rndIc kIc entropy) ∧
      (afterBac config key rndIc kIc entropy).state = .bacAuthenticated := by
  refine ⟨.perform _ (.perform _ (.new () entropy)), ?_⟩
  have hopen : ((Session.new () entropy).perform config (Bac.chip key.bacSeed rndIc kIc) .open).2 =
      ⟨.open, false, ⟨(), none, entropy, []⟩⟩ := rfl
  obtain ⟨c, after, hrun⟩ := Bac.establish_run key hic hkic ⟨(), none, entropy, []⟩ rfl he
  have hdialogue : Dialogue.run (Bac.chip key.bacSeed rndIc kIc)
      (do return (some (← Bac.establish key), Value.unit)) ⟨(), none, entropy, []⟩ =
        (.ok (some c, .unit), after) := by
    rw [Dialogue.run_bind, hrun]
    rfl
  rw [afterBac, hopen, perform, Request.plan, execute, runHandshake, runDialogue_eq, hdialogue]
  rfl

/-- The session after BAC with a chip that answers with zeroes is about to select the
application. -/
theorem reachable_coupled_afterBac :
    let key : Mrz.AccessKey := ⟨"L898902C", "690806", "940623"⟩
    let card := Bac.chip key.bacSeed (List.replicate 8 0) (List.replicate 16 0)
    let s := afterBac {} key (List.replicate 8 0) (List.replicate 16 0) (List.replicate 24 0)
    s.state = .bacAuthenticated ∧ Coupled .strict s.state s.link.channel ∧ ∃ c events after,
      s.link.channel = some c ∧
      (s.perform {} card (.selectApplet applicationIdentifier)).2.link.log =
        events ++ s.link.log ∧
      Traffic card (some c) s.link.card events after
        (s.perform {} card (.selectApplet applicationIdentifier)).2.link.card ∧
      ∀ command sent answer, .exchange command sent answer ∈ events →
        ∃ sender, c.SameKeys sender ∧ sender.wrap command = .ok sent := by
  intro key card s
  obtain ⟨hr, hs⟩ : Reachable {} card s ∧ s.state = .bacAuthenticated :=
    afterBac_spec {} key (by decide) (by decide) (by decide)
  exact ⟨hs, (reachable_coupled hr).1, (reachable_coupled hr).2 _ (by rw [hs]; rfl)⟩

end Session
end TravelDocument

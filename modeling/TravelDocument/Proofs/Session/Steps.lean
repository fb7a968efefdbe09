import TravelDocument.Proofs.Dialogue.Traffic
import TravelDocument.Proofs.Session.Plans
import TravelDocument.Session.Perform

/-!
# What a request can do to a session

`Session.Step` lists the ways in which a request is carried out, with the traffic on the link, and
`perform_step` says that there are no others. `Session.Reachable` are the sessions that any
requests, cards and random bytes lead to.
-/

namespace TravelDocument

/-- Whether an outcome leaves the session blocked. -/
def Outcome.blocks {α : Type} : Outcome α → Bool
  | .interrupted => true
  | .ok _ | .failed _ => false

namespace Session

variable {σ : Type}

/-- One step of a session: the outcome of a request and the session after it. -/
inductive Step (config : SessionConfig) (card : Card σ) (request : Request) (s : Session σ) :
    Outcome Value × Session σ → Prop
  /-- The state does not permit the request. -/
  | refused (operation : Operation) :
    Step config card request s (.failed (.invalidState operation s.state), s)
  /-- A handshake found its certificate chain broken before it sent anything. -/
  | brokenChain (reason : ChainError) :
    Step config card request s (.failed (.chain reason), s)
  | opened : request = .open → s.blocked = false → s.state = .closed →
    Step config card request s (.ok .unit, { s with state := .open })
  | closed : request = .close →
    Step config card request s
      (.ok .unit, { s with state := .closed, blocked := false, link.channel := none })
  /-- A dialogue ran and left the state as it was. -/
  | ran {outcome : Outcome Value} {link : Link σ} {events : List Event} :
    s.blocked = false → s.state ≠ .closed →
    link.log = events ++ s.link.log →
    Traffic card s.link.channel s.link.card events link.channel link.card →
    (∀ e, outcome = .failed e → e.IsOperational) →
    Step config card request s (outcome, ⟨s.state, outcome.blocks, link⟩)
  /-- A handshake succeeded. -/
  | advanced {handshake : Handshake} {dialogue : Dialogue (Option Channel × Value)}
      {next : SessionState} {made : Option Channel} {value : Value} {link : Link σ}
      {events : List Event} :
    request.plan config = .handshake handshake dialogue →
    s.blocked = false → s.state.after? handshake = some next →
    handshake.Makes made →
    link.log = events ++ s.link.log →
    Traffic card s.link.channel s.link.card events link.channel link.card →
    Step config card request s
      (.ok value, ⟨next, false,
        { link with channel := installed config.macPolicy made link.channel }⟩)

theorem runDialogue_eq {α : Type} (card : Card σ) (dialogue : Dialogue α) (s : Session σ) :
    s.runDialogue card dialogue = ((dialogue.run card s.link).1,
      ⟨s.state, s.blocked || (dialogue.run card s.link).1.blocks,
        (dialogue.run card s.link).2⟩) := by
  rw [runDialogue]
  rcases dialogue.run card s.link with ⟨outcome, link⟩
  cases outcome with
  | ok a => simp [Outcome.blocks]
  | failed e => simp [Outcome.blocks]
  | interrupted => simp [Outcome.blocks]

variable {config : SessionConfig} {card : Card σ} {request : Request} {s : Session σ}

/-- A handshake that is not refused leaves the log of its dialogue behind. -/
theorem log_runHandshake (policy : MacPolicy) (card : Card σ) {handshake : Handshake}
    {next : SessionState} (dialogue : Dialogue (Option Channel × Value)) (hb : s.blocked = false)
    (hn : s.state.after? handshake = some next) :
    (s.runHandshake policy card handshake dialogue).2.link.log =
      (dialogue.run card s.link).2.log := by
  rw [runHandshake.eq_def, hb, hn]
  dsimp only
  rw [runDialogue_eq]
  cases (dialogue.run card s.link).1 <;> rfl

theorem runCommand_step {operation : Operation} {dialogue : Dialogue Value}
    (hp : request.plan config = .command operation dialogue) :
    Step config card request s (s.runCommand card operation dialogue) := by
  have hd := Request.command_keeps Dialogue.Terms.operational_fair hp
  rw [runCommand]
  split
  · exact .refused operation
  · rename_i hs
    obtain ⟨hb, hc⟩ := not_or.1 hs
    rw [Bool.not_eq_true] at hb
    obtain ⟨events, hlog, ht⟩ := dialogue.run_traffic card s.link
    rw [runDialogue_eq, hb, Bool.false_or]
    exact .ran hb hc hlog ht (hd.run_operational card s.link).2

theorem runHandshake_step {handshake : Handshake} {dialogue : Dialogue (Option Channel × Value)}
    (hp : request.plan config = .handshake handshake dialogue) :
    Step config card request s (s.runHandshake config.macPolicy card handshake dialogue) := by
  rw [runHandshake.eq_def]
  split
  · exact .refused _
  · exact .refused _
  rename_i next hb hnext
  have hc : s.state ≠ .closed := by
    intro hc
    rw [hc] at hnext
    cases handshake <;> cases hnext
  obtain ⟨events, hlog, ht⟩ := dialogue.run_traffic card s.link
  -- a chain that is refused at once ends the handshake before there is any traffic
  rcases Request.handshake_keeps Dialogue.Terms.operational_fair
    (Dialogue.Terms.operational_covers request) hp with ⟨reason, rfl⟩ | hd
  · exact .brokenChain reason
  obtain ⟨hok, hfail⟩ := hd.run_operational card s.link
  rw [runDialogue_eq, hb, Bool.false_or]
  cases ho : (dialogue.run card s.link).1 with
  | ok made =>
    exact .advanced hp hb hnext (hok made ho) hlog ht
  | failed e =>
    refine .ran hb hc hlog ht fun e' he => ?_
    cases he
    exact hfail e ho
  | interrupted => exact .ran hb hc hlog ht nofun

/-- **There are no other steps.** -/
theorem perform_step (config : SessionConfig) (card : Card σ) (request : Request) (s : Session σ) :
    Step config card request s (s.perform config card request) := by
  -- one case for each kind of plan
  rw [perform, execute.eq_def]
  cases hp : request.plan config with
  | opening =>
    have hr : request = .open := by
      cases request <;> first | rfl | cases hp
    show Step config card request s s.opened
    rw [Session.opened]
    split
    · exact .refused _
    · rename_i hs
      obtain ⟨hb, hc⟩ := not_or.1 hs
      exact .opened hr (by simpa using hb) (not_not.1 hc)
  | closing =>
    have hr : request = .close := by
      cases request <;> first | rfl | cases hp
    exact .closed hr
  | command operation dialogue => exact runCommand_step hp
  | handshake handshake dialogue => exact runHandshake_step hp

/-- The sessions that are reached from a new one. -/
inductive Reachable (config : SessionConfig) (card : Card σ) : Session σ → Prop
  | new (memory : σ) (entropy : Bytes) : Reachable config card (.new memory entropy)
  | perform {s : Session σ} (request : Request) : Reachable config card s →
    Reachable config card (s.perform config card request).2

end Session
end TravelDocument

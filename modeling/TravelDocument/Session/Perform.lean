import TravelDocument.Dialogue.Link
import TravelDocument.Session.Request

/-!
# Sessions

A session owns a link to a card and carries out requests as its state permits. A handshake that
succeeds takes the session to the next state and installs the channel it has made; one that fails
leaves both as they were. A request that is interrupted leaves the session blocked until it is
closed.
-/

namespace TravelDocument

/-- A session with a card of memory `σ`. -/
structure Session (σ : Type) where
  state : SessionState
  /-- Whether a request has been interrupted since the session was last closed. -/
  blocked : Bool
  link : Link σ

namespace Session

variable {σ : Type}

/-- A closed session with a card and a supply of random bytes. -/
def new (card : σ) (entropy : Bytes) : Session σ :=
  ⟨.closed, false, ⟨card, none, entropy, []⟩⟩

/-- The failure of a request that the state does not permit. -/
def refuse {α : Type} (operation : Operation) (s : Session σ) : Outcome α × Session σ :=
  (.failed (.invalidState operation s.state), s)

/-- Runs a dialogue on the link. An interruption blocks the session. -/
def runDialogue {α : Type} (card : Card σ) (dialogue : Dialogue α) (s : Session σ) :
    Outcome α × Session σ :=
  let (outcome, link) := dialogue.run card s.link
  match outcome with
  | .interrupted => (.interrupted, { s with blocked := true, link := link })
  | outcome => (outcome, { s with link := link })

/-- The channel after a handshake: the new one, under the policy of the session, if there is one. -/
def installed (policy : MacPolicy) (new previous : Option Channel) : Option Channel :=
  match new with
  | some channel => some (channel.withPolicy policy)
  | none => previous

/-- The session after a handshake has succeeded. -/
def advance (policy : MacPolicy) (state : SessionState) (new : Option Channel) (s : Session σ) :
    Session σ :=
  { s with state := state, link.channel := installed policy new s.link.channel }

def opened (s : Session σ) : Outcome Value × Session σ :=
  if s.blocked ∨ s.state ≠ .closed then s.refuse .open
  else (.ok .unit, { s with state := .open })

/-- Closes a session; this succeeds always. -/
def closed (s : Session σ) : Outcome Value × Session σ :=
  (.ok .unit, { s with state := .closed, blocked := false, link.channel := none })

/-- Runs the dialogue of a command in an open session. -/
def runCommand (card : Card σ) (operation : Operation) (dialogue : Dialogue Value) (s : Session σ) :
    Outcome Value × Session σ :=
  if s.blocked ∨ s.state = .closed then s.refuse operation
  else s.runDialogue card dialogue

/-- Runs a handshake in a state that permits it. -/
def runHandshake (policy : MacPolicy) (card : Card σ) (handshake : Handshake)
    (dialogue : Dialogue (Option Channel × Value)) (s : Session σ) :
    Outcome Value × Session σ :=
  match s.blocked, s.state.after? handshake with
  | true, _ | _, none => s.refuse handshake.operation
  | false, some next =>
    match s.runDialogue card dialogue with
    | (.ok (channel, value), s) => (.ok value, s.advance policy next channel)
    | (.failed e, s) => (.failed e, s)
    | (.interrupted, s) => (.interrupted, s)

def execute (policy : MacPolicy) (card : Card σ) (plan : Plan) (s : Session σ) :
    Outcome Value × Session σ :=
  match plan with
  | .opening => s.opened
  | .closing => s.closed
  | .command operation dialogue => s.runCommand card operation dialogue
  | .handshake handshake dialogue => s.runHandshake policy card handshake dialogue

/-- Carries out a request. -/
def perform (config : SessionConfig) (card : Card σ) (request : Request) (s : Session σ) :
    Outcome Value × Session σ :=
  s.execute config.macPolicy card (request.plan config)

end Session
end TravelDocument

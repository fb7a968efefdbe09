import TravelDocument.Card
import TravelDocument.Dialogue.Basic
import TravelDocument.SecureMessaging.Protection

/-!
# Running dialogues

A link is everything a dialogue runs against: a card, possibly a channel that protects what is sent
to it, and a supply of random bytes. It keeps a log of what it has done.
-/

namespace TravelDocument

/-- One thing a link has done. -/
inductive Event where
  /-- A command of a dialogue, the command sent to the card in its place, and the answer. -/
  | exchange (request sent : Apdu.Command) (answer : Except TransportError Apdu.Response)
  | signing (data : Bytes)

/-- A link to a card with memory `σ`. -/
structure Link (σ : Type) where
  card : σ
  channel : Option Channel
  /-- The random bytes that have not been drawn. -/
  entropy : Bytes
  /-- What has been done, the last first. -/
  log : List Event

/-- How a dialogue ends. -/
inductive Outcome (α : Type) where
  | ok (a : α)
  | failed (e : Error)
  /-- The random bytes did not suffice. -/
  | interrupted

/-- The outcome as a result, an interruption being none. -/
def Outcome.toExcept? {α : Type} : Outcome α → Option (Except Error α)
  | .ok a => some (.ok a)
  | .failed e => some (.error e)
  | .interrupted => none

namespace Event

def sent? : Event → Option Apdu.Command
  | .exchange _ sent _ => some sent
  | .signing _ => none

def request? : Event → Option Apdu.Command
  | .exchange request _ _ => some request
  | .signing _ => none

def signed? : Event → Option Bytes
  | .exchange _ _ _ => none
  | .signing data => some data

end Event

namespace Link

variable {σ : Type}

/-- The commands in the log as the card saw them, in the order they were sent. One that has no
serialized form has not reached the card. -/
def transcript (log : List Event) : List Bytes :=
  log.reverse.filterMap fun event => event.sent?.bind fun command => command.encode.toOption

/-- The data in the log that was signed, in the order of signing. -/
def signedData (log : List Event) : List Bytes :=
  log.reverse.filterMap Event.signed?

/-- Sends a command to the card as it is. -/
def exchange (card : Card σ) (request sent : Apdu.Command) (link : Link σ) :
    Except TransportError Apdu.Response × Link σ :=
  let (answer, memory) := card link.card sent
  (answer, { link with card := memory, log := .exchange request sent answer :: link.log })

/-- Sends a command without protection. -/
def transmitPlain (card : Card σ) (request : Apdu.Command) (link : Link σ) :
    Except Error Apdu.Response × Link σ :=
  let (answer, link) := link.exchange card request request
  (answer.mapError .transport, link)

/-- Sends a command through a channel. The counter moves on before the command and, if the card
answers, before the response. -/
def transmitWrapped (card : Card σ) (channel : Channel) (request : Apdu.Command) (link : Link σ) :
    Except Error Apdu.Response × Link σ :=
  let sending := channel.step
  match sending.wrap request with
  | .error e => (.error (.crypto e), { link with channel := some sending })
  | .ok wrapped =>
    let (answer, link) := link.exchange card request wrapped
    match answer with
    | .error e => (.error (.transport e), { link with channel := some sending })
    | .ok response =>
      let receiving := sending.step
      (receiving.unwrap response, { link with channel := some receiving })

/-- Sends a command, through the channel if there is one. -/
def transmit (card : Card σ) (request : Apdu.Command) (link : Link σ) :
    Except Error Apdu.Response × Link σ :=
  match link.channel with
  | none => link.transmitPlain card request
  | some channel => link.transmitWrapped card channel request

/-- Takes random bytes from the supply, none if there are not enough. -/
def takeEntropy? (count : Nat) (link : Link σ) : Option (Bytes × Link σ) :=
  if link.entropy.length < count then none
  else some (link.entropy.take count, { link with entropy := link.entropy.drop count })

end Link

def Dialogue.run {σ α : Type} (card : Card σ) : Dialogue α → Link σ → Outcome α × Link σ
  | .done a, link => (.ok a, link)
  | .fail e, link => (.failed e, link)
  | .send command next, link =>
    let (answer, link) := link.transmit card command
    (next answer).run card link
  | .draw count next, link =>
    match link.takeEntropy? count with
    | none => (.interrupted, link)
    | some (bytes, link) => (next bytes).run card link
  | .sign data next, link => next.run card { link with log := .signing data :: link.log }
  | .counter next, link => (next (link.channel.map (·.counter))).run card link

/-- Goes on with a run whose first part has ended. -/
def Outcome.andThen {σ α β : Type} (card : Card σ) (k : α → Dialogue β) :
    Outcome α × Link σ → Outcome β × Link σ
  | (.ok a, link) => (k a).run card link
  | (.failed e, link) => (.failed e, link)
  | (.interrupted, link) => (.interrupted, link)

/-- One dialogue after another runs the second where the first has left off. -/
theorem Dialogue.run_bind {σ α β : Type} (card : Card σ) (d : Dialogue α) (k : α → Dialogue β)
    (link : Link σ) : (d >>= k).run card link = Outcome.andThen card k (d.run card link) := by
  induction d generalizing link with
  | done a => rfl
  | fail e => rfl
  | send command next ih => exact ih _ _
  | draw count next ih =>
    simp only [bind_draw, run]
    split
    · rfl
    · exact ih _ _
  | sign data next ih => exact ih _
  | counter next ih => exact ih _ _

end TravelDocument

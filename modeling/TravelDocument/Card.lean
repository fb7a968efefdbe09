import TravelDocument.Error

/-!
# Cards

A card answers commands one at a time. What it remembers between them is a value of any type, so a
statement about all cards is one about all such functions. `Card.replay` is the card that gives out
prepared responses, and `Card.bounded` puts a reader with a receive buffer in front of a card.
-/

namespace TravelDocument

/-- A card with memory `σ`: its answer to a command, and its memory afterwards. -/
abbrev Card (σ : Type) := σ → Apdu.Command → Except TransportError Apdu.Response × σ

namespace Card

def receive (raw : Bytes) : Except TransportError Apdu.Response :=
  match Apdu.Response.decode? raw with
  | some response => .ok response
  | none => .error .shortResponse

/-- A card that gives out prepared responses in order, whatever the commands, and answers `6988`
after the last one. A command that has no serialized form does not reach it. -/
def replay : Card (List Bytes) := fun responses command =>
  match command.encode, responses with
  | .error e, _ => (.error (.write e), responses)
  | .ok _, [] => (.ok ⟨[], .secureMessagingIncorrect⟩, [])
  | .ok _, raw :: rest => (receive raw, rest)

/-- A card behind a reader that provides room for as much response data as the command expects. -/
def bounded {σ : Type} (card : Card σ) : Card σ := fun memory command =>
  match card memory command with
  | (.ok response, after) =>
    if command.body.expectedLength.getD 0 < response.data.length then
      (.error (.reader .insufficientBuffer), after)
    else (.ok response, after)
  | failed => failed

end Card
end TravelDocument

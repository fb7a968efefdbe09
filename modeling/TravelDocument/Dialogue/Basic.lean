import TravelDocument.Error

/-!
# Dialogues with a card

A dialogue is what one side of a protocol does: it sends commands and goes on with their answers,
draws random bytes, calls a signer, and ends with a value or a failure. It says nothing about the
card, the channel or the source of randomness; `Dialogue.run` supplies these. Statements about every
card are statements about every branch of a dialogue.
-/

namespace TravelDocument

/-- A dialogue that ends with a value of type `α`. -/
inductive Dialogue (α : Type) where
  | done (a : α)
  | fail (e : Error)
  /-- Sends a command; the answer may be a failure. -/
  | send (command : Apdu.Command) (next : Except Error Apdu.Response → Dialogue α)
  /-- Draws random bytes. -/
  | draw (count : Nat) (next : Bytes → Dialogue α)
  /-- Calls a signer on data; `next` depends on what it returned. -/
  | sign (data : Bytes) (next : Dialogue α)
  /-- Looks at the counter of the active channel. -/
  | counter (next : Option Nat → Dialogue α)

namespace Dialogue

def bind {α β : Type} (d : Dialogue α) (k : α → Dialogue β) : Dialogue β :=
  match d with
  | .done a => k a
  | .fail e => .fail e
  | .send command next => .send command fun answer => (next answer).bind k
  | .draw count next => .draw count fun bytes => (next bytes).bind k
  | .sign data next => .sign data (next.bind k)
  | .counter next => .counter fun value => (next value).bind k

instance : Monad Dialogue where
  pure := .done
  bind := bind

@[simp] theorem bind_done {α β : Type} (a : α) (k : α → Dialogue β) :
    (done a >>= k) = k a := rfl

@[simp] theorem bind_fail {α β : Type} (e : Error) (k : α → Dialogue β) :
    (fail e >>= k) = fail e := rfl

@[simp] theorem bind_send {α β : Type} (command : Apdu.Command)
    (next : Except Error Apdu.Response → Dialogue α) (k : α → Dialogue β) :
    (send command next >>= k) = send command fun answer => next answer >>= k := rfl

@[simp] theorem bind_draw {α β : Type} (count : Nat) (next : Bytes → Dialogue α)
    (k : α → Dialogue β) :
    (draw count next >>= k) = draw count fun bytes => next bytes >>= k := rfl

@[simp] theorem bind_sign {α β : Type} (data : Bytes) (next : Dialogue α)
    (k : α → Dialogue β) :
    (sign data next >>= k) = sign data (next >>= k) := rfl

@[simp] theorem bind_counter {α β : Type} (next : Option Nat → Dialogue α)
    (k : α → Dialogue β) :
    (counter next >>= k) = counter fun value => next value >>= k := rfl

theorem bind_pure_self {α : Type} (d : Dialogue α) : d.bind done = d := by
  induction d with
  | done | fail => rfl
  | send _ _ ih | draw _ _ ih | counter _ ih => simp only [bind, ih]
  | sign _ _ ih => simp only [bind, ih]

theorem bind_bind {α β γ : Type} (d : Dialogue α) (k : α → Dialogue β) (l : β → Dialogue γ) :
    (d.bind k).bind l = d.bind fun a => (k a).bind l := by
  induction d with
  | done | fail => rfl
  | send _ _ ih | draw _ _ ih | counter _ ih => simp only [bind, ih]
  | sign _ _ ih => simp only [bind, ih]

instance : LawfulMonad Dialogue :=
  LawfulMonad.mk' Dialogue bind_pure_self (fun _ _ => rfl) bind_bind

/-- Ends with the result of a computation or with its failure. -/
def ofExcept {α : Type} : Except Error α → Dialogue α
  | .ok a => .done a
  | .error e => .fail e

/-- Ends with the result of a cryptographic computation or with its failure. -/
def ofCrypto {α : Type} (r : Except CryptoError α) : Dialogue α :=
  ofExcept (liftCrypto r)

/-- Sends a command and goes on with its answer if there is one. -/
def transmit (command : Apdu.Command) : Dialogue Apdu.Response :=
  .send command ofExcept

/-- A response with status `9000`; any other ends the operation. -/
def requireSuccess (operation : Operation) (response : Apdu.Response) :
    Except Error Apdu.Response :=
  if response.isSuccess then .ok response else .error (.protocolAbort operation response.status)

/-- Sends a command that has to be answered with status `9000`. -/
def expectSuccess (operation : Operation) (command : Apdu.Command) : Dialogue Apdu.Response :=
  .send command fun answer => ofExcept (answer.bind (requireSuccess operation))

def random (count : Nat) : Dialogue Bytes :=
  .draw count .done

def signature (signer : Bytes → Except CryptoError Bytes) (data : Bytes) : Dialogue Bytes :=
  .sign data (ofCrypto (signer data))

/-- The counter of the active channel, if there is one. -/
def activeCounter : Dialogue (Option Nat) :=
  .counter .done

end Dialogue
end TravelDocument

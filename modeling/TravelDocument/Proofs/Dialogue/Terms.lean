import TravelDocument.Proofs.Dialogue.Turns

/-!
# Dialogues on terms

`Dialogue.Terms` say which commands may be sent, what comes back for them, what is signed, and which
failures a dialogue may end with. `Keeps t ok d`: as long as commands are answered and data is
signed on the terms `t`, `d` sends and fails on them, and every value it ends with is in `ok`. This
follows the structure of the dialogue (`Keeps.bind`) and then holds of every run (`Keeps.run`).
Terms are `Fair` if they allow what every protocol does: it sends commands that `Command.make` has
made, and fails ordinarily or when a command gets no response. Every link answers on the terms
`Terms.operational` (`Keeps.run_operational`).
-/

namespace TravelDocument.Dialogue

/-- What may be sent, answered, signed and fail in a dialogue. -/
structure Terms where
  sends : Apdu.Command → Prop
  answers : Apdu.Command → Except Error Apdu.Response → Prop
  signs : Bytes → Prop
  fails : Error → Prop

structure Terms.Fair (t : Terms) : Prop where
  sends_make (cla ins p1 p2 : UInt8) (request : Bytes) (expected : Option Nat) :
    t.sends (.make cla ins p1 p2 request expected)
  fails_answered {command : Apdu.Command} {e : Error} : t.answers command (.error e) → t.fails e
  fails_ordinary {e : Error} : e.IsOrdinary → t.fails e

variable {α β σ : Type} {t : Terms} {ok : α → Prop}

/-- Whatever is answered and signed on the terms, the dialogue keeps to them and ends with values in
`ok`. -/
def Keeps (t : Terms) (ok : α → Prop) : Dialogue α → Prop
  | .done a => ok a
  | .fail e => t.fails e
  | .send command next =>
    t.sends command ∧ ∀ answer, t.answers command answer → (next answer).Keeps t ok
  | .draw count next => ∀ bytes : Bytes, bytes.length = count → (next bytes).Keeps t ok
  | .sign data next => t.signs data → next.Keeps t ok
  | .counter next => ∀ value, (next value).Keeps t ok

theorem Keeps.bind {ok' : β → Prop} {d : Dialogue α} {k : α → Dialogue β} (h : d.Keeps t ok)
    (hk : ∀ a, ok a → (k a).Keeps t ok') : (d >>= k).Keeps t ok' := by
  induction d with
  | done a => exact hk a h
  | fail e => exact h
  | send command next ih => exact ⟨h.1, fun answer hanswer => ih answer (h.2 answer hanswer)⟩
  | draw count next ih => exact fun bytes hl => ih bytes (h bytes hl)
  | sign data next ih => exact fun hs => ih (h hs)
  | counter next ih => exact fun value => ih value (h value)

theorem Keeps.mono {ok' : α → Prop} {d : Dialogue α} (h : d.Keeps t ok) (ho : ∀ a, ok a → ok' a) :
    d.Keeps t ok' := by
  have hb := h.bind (k := pure) ho
  rwa [bind_pure] at hb

theorem keeps_pure {a : α} (h : ok a) : (pure a : Dialogue α).Keeps t ok := h

theorem keeps_ofExcept {r : Except Error α} (ho : ∀ a, r = .ok a → ok a) (hf : r.FailsIn t.fails) :
    (ofExcept r).Keeps t ok := by
  cases r with
  | ok a => exact ho a rfl
  | error e => exact hf e rfl

theorem keeps_ofCrypto {r : Except CryptoError α} (ho : ∀ a, r = .ok a → ok a)
    (hf : r.FailsIn fun reason => t.fails (.crypto reason)) : (ofCrypto r).Keeps t ok := by
  refine keeps_ofExcept (fun a h => ho a (liftCrypto_eq_ok h)) fun e h => ?_
  obtain ⟨reason, rfl, hr⟩ := liftCrypto_eq_error h
  exact hf reason hr

/-- What is drawn has the length asked for. -/
theorem keeps_random (count : Nat) : (random count).Keeps t fun bytes => bytes.length = count :=
  fun _ hl => hl

theorem keeps_signature {signer : Bytes → Except CryptoError Bytes} {data : Bytes}
    (hf : t.signs data → (signer data).FailsIn fun reason => t.fails (.crypto reason)) :
    (signature signer data).Keeps t fun _ => True :=
  fun hs => keeps_ofCrypto (fun _ _ => trivial) (hf hs)

/-! ## Fair terms -/

section Fair

variable (ht : t.Fair)
include ht

theorem keeps_ordinary {r : Except Error α} (h : r.FailsIn Error.IsOrdinary) :
    (ofExcept r).Keeps t fun a => r = .ok a :=
  keeps_ofExcept (fun _ => id) fun e he => ht.fails_ordinary (h e he)

theorem keeps_ordinaryCrypto {r : Except CryptoError α} (h : r.FailsIn CryptoError.IsOrdinary) :
    (ofCrypto r).Keeps t fun a => r = .ok a :=
  keeps_ofCrypto (fun _ => id) fun e he => ht.fails_ordinary (h e he)

variable {command : Apdu.Command} (hs : t.sends command)
include hs

theorem keeps_transmit :
    (transmit command).Keeps t fun response => t.answers command (.ok response) := by
  refine ⟨hs, fun answer hanswer => keeps_ofExcept ?_ ?_⟩
  · rintro response rfl
    exact hanswer
  · rintro e rfl
    exact ht.fails_answered hanswer

/-- A command that has to succeed is answered, and with status `9000`. -/
theorem keeps_expectSuccess (operation : Operation) : (expectSuccess operation command).Keeps t
    fun response => response.status = .success ∧ t.answers command (.ok response) := by
  refine ⟨hs, fun answer hanswer => keeps_ofExcept ?_ fun e he => ?_⟩
  · intro response hr
    obtain ⟨rfl, hstatus⟩ := requireSuccess_eq_ok hr
    exact ⟨hstatus, hanswer⟩
  · rcases requireSuccess_eq_error he with rfl | ⟨status, rfl⟩
    · exact ht.fails_answered hanswer
    · exact ht.fails_ordinary trivial

end Fair

/-! ## Runs -/

/-- **Runs keep to the terms**, if their turns do. -/
theorem Keeps.run {d : Dialogue α} (h : d.Keeps t ok) (card : Card σ) (link : Link σ)
    (ha : ∀ command answer, .exchange command answer ∈ d.turns card link →
      t.answers command answer)
    (hs : ∀ data, .signing data ∈ d.turns card link → t.signs data) :
    (∀ a, (d.run card link).1 = .ok a → ok a) ∧
      (∀ e, (d.run card link).1 = .failed e → t.fails e) ∧
      ∀ command ∈ Turn.commands (d.turns card link), t.sends command := by
  -- `ha` and `hs` are about the turns of this run, so they are taken apart along with it
  induction d generalizing link with
  | done a =>
    refine ⟨?_, ?_, fun _ h => absurd h List.not_mem_nil⟩
    · rintro _ ⟨⟩
      exact h
    · rintro _ ⟨⟩
  | fail e =>
    refine ⟨?_, ?_, fun _ h => absurd h List.not_mem_nil⟩
    · rintro _ ⟨⟩
    · rintro _ ⟨⟩
      exact h
  | send command next ih =>
    obtain ⟨hok, hfails, hsends⟩ := ih _ (h.2 _ (ha command _ List.mem_cons_self)) _
      (fun c a hmem => ha c a (List.mem_cons_of_mem _ hmem))
      fun data hmem => hs data (List.mem_cons_of_mem _ hmem)
    refine ⟨hok, hfails, ?_⟩
    rw [turns, Turn.commands_exchange, List.forall_mem_cons]
    exact ⟨h.1, hsends⟩
  | draw count next ih =>
    rw [turns] at ha hs ⊢
    rw [Dialogue.run]
    cases he : link.takeEntropy? count with
    | none =>
      refine ⟨?_, ?_, fun _ h => absurd h List.not_mem_nil⟩
      · rintro _ ⟨⟩
      · rintro _ ⟨⟩
    | some drawn =>
      rw [he] at ha hs
      exact ih _ (h _ (Link.length_takeEntropy? he)) _ ha hs
  | sign data next ih =>
    exact ih (h (hs data List.mem_cons_self))
      _ (fun c a hmem => ha c a (List.mem_cons_of_mem _ hmem))
      fun x hmem => hs x (List.mem_cons_of_mem _ hmem)
  | counter next ih => exact ih _ (h _) _ ha hs

/-- The terms of every link: anything may be sent and signed, and what fails is operational. -/
def Terms.operational : Terms where
  sends _ := True
  answers _ answer := answer.FailsIn Error.IsOperational
  signs _ := True
  fails := Error.IsOperational

theorem Terms.operational_fair : Terms.operational.Fair where
  sends_make _ _ _ _ _ _ := trivial
  fails_answered h := h _ rfl
  fails_ordinary := Error.IsOrdinary.isOperational

theorem Keeps.run_operational {d : Dialogue α} (h : d.Keeps .operational ok) (card : Card σ)
    (link : Link σ) : (∀ a, (d.run card link).1 = .ok a → ok a) ∧
      ∀ e, (d.run card link).1 = .failed e → e.IsOperational := by
  obtain ⟨_, -, hdelivers⟩ := d.run_delivers card link
  refine (h.run card link (fun command answer hmem e he => ?_) fun _ _ => trivial).imp_right
    And.left
  obtain ⟨_, _, -, hd⟩ := hdelivers command answer hmem
  exact (he ▸ hd).isOperational

end TravelDocument.Dialogue

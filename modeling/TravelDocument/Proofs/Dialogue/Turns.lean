import TravelDocument.Proofs.Dialogue.Outcomes
import TravelDocument.Proofs.Dialogue.Traffic

/-!
# What a dialogue does on its way

`Dialogue.turns` are the exchanges of a run and its calls of the signer, in their order; the log of
the link records the same commands and the same data (`Dialogue.run_log`). Commands that have to
succeed are all granted, or are sent up to the first that is not (`sendAll_bind`).
-/

namespace TravelDocument

variable {σ α β : Type} {card : Card σ}

/-- One thing that a dialogue does: it sends a command and gets an answer, or has data signed. -/
inductive Turn where
  | exchange (command : Apdu.Command) (answer : Except Error Apdu.Response)
  | signing (data : Bytes)

namespace Turn

def command? : Turn → Option Apdu.Command
  | .exchange command _ => some command
  | .signing _ => none

def signed? : Turn → Option Bytes
  | .exchange _ _ => none
  | .signing data => some data

/-- The turn is not a command that fails or is answered with another status than `9000`. -/
def Succeeds : Turn → Prop
  | .exchange _ answer => ∃ data, answer = .ok ⟨data, .success⟩
  | .signing _ => True

/-- A command that is answered with status `9000` and data. -/
def granted (exchange : Apdu.Command × Bytes) : Turn :=
  .exchange exchange.1 (.ok ⟨exchange.2, .success⟩)

/-- The commands that were sent, in their order. -/
def commands (turns : List Turn) : List Apdu.Command :=
  turns.filterMap command?

/-- The data that was signed, in the order of signing. -/
def signings (turns : List Turn) : List Bytes :=
  turns.filterMap signed?

@[simp] theorem commands_nil : commands [] = [] := rfl
@[simp] theorem signings_nil : signings [] = [] := rfl

@[simp] theorem commands_exchange (command : Apdu.Command) (answer : Except Error Apdu.Response)
    (turns : List Turn) :
    commands (.exchange command answer :: turns) = command :: commands turns := rfl

@[simp] theorem commands_signing (data : Bytes) (turns : List Turn) :
    commands (.signing data :: turns) = commands turns := rfl

@[simp] theorem signings_exchange (command : Apdu.Command) (answer : Except Error Apdu.Response)
    (turns : List Turn) : signings (.exchange command answer :: turns) = signings turns := rfl

@[simp] theorem signings_signing (data : Bytes) (turns : List Turn) :
    signings (.signing data :: turns) = data :: signings turns := rfl

@[simp] theorem commands_granted_cons (exchange : Apdu.Command × Bytes) (turns : List Turn) :
    commands (.granted exchange :: turns) = exchange.1 :: commands turns := rfl

@[simp] theorem signings_granted_cons (exchange : Apdu.Command × Bytes) (turns : List Turn) :
    signings (.granted exchange :: turns) = signings turns := rfl

@[simp] theorem commands_append (a b : List Turn) : commands (a ++ b) = commands a ++ commands b :=
  List.filterMap_append

@[simp] theorem signings_append (a b : List Turn) : signings (a ++ b) = signings a ++ signings b :=
  List.filterMap_append

@[simp] theorem commands_granted (exchanges : List (Apdu.Command × Bytes)) :
    commands (exchanges.map granted) = exchanges.map Prod.fst := by
  induction exchanges with
  | nil => rfl
  | cons e rest ih => rw [List.map_cons, List.map_cons, commands_granted_cons, ih]

@[simp] theorem signings_granted (exchanges : List (Apdu.Command × Bytes)) :
    signings (exchanges.map granted) = [] := by
  induction exchanges with
  | nil => rfl
  | cons e rest ih => rw [List.map_cons, signings_granted_cons, ih]

@[simp] theorem succeeds_granted (exchange : Apdu.Command × Bytes) : (granted exchange).Succeeds :=
  ⟨exchange.2, rfl⟩

@[simp] theorem succeeds_signing (data : Bytes) : (signing data).Succeeds := trivial

theorem forall_succeeds_append (exchanges : List (Apdu.Command × Bytes)) (rest : List Turn) :
    (∀ turn ∈ exchanges.map granted ++ rest, turn.Succeeds) ↔ ∀ turn ∈ rest,
      turn.Succeeds := by
  rw [List.forall_mem_append]
  refine and_iff_right fun turn h => ?_
  obtain ⟨e, -, rfl⟩ := List.mem_map.1 h
  exact succeeds_granted e

theorem forall_succeeds_dropLast (exchanges : List (Apdu.Command × Bytes)) {rest : List Turn}
    (h : rest ≠ []) :
    (∀ turn ∈ (exchanges.map granted ++ rest).dropLast, turn.Succeeds) ↔
      ∀ turn ∈ rest.dropLast, turn.Succeeds := by
  rw [List.dropLast_append_of_ne_nil h, forall_succeeds_append]

end Turn

theorem Turn.signing_mem_iff {turns : List Turn} {data : Bytes} :
    .signing data ∈ turns ↔ data ∈ signings turns := by
  rw [signings, List.mem_filterMap]
  constructor
  · exact fun h => ⟨_, h, rfl⟩
  · rintro ⟨_ | _, h, hd⟩
    · cases hd
    · cases hd
      exact h

namespace Event

variable {events : List Event}

theorem signing_mem_iff {data : Bytes} :
    .signing data ∈ events ↔ data ∈ events.reverse.filterMap signed? := by
  rw [List.mem_filterMap]
  constructor
  · exact fun h => ⟨_, List.mem_reverse.2 h, rfl⟩
  · rintro ⟨_ | _, h, hd⟩
    · cases hd
    · cases hd
      exact List.mem_reverse.1 h

theorem mem_requests {command sent : Apdu.Command} {answer : Except TransportError Apdu.Response}
    (h : .exchange command sent answer ∈ events) :
    command ∈ events.reverse.filterMap request? :=
  List.mem_filterMap.2 ⟨_, List.mem_reverse.2 h, rfl⟩

end Event

theorem Link.takeEntropy?_keeps {count : Nat} {link rest : Link σ} {bytes : Bytes}
    (h : link.takeEntropy? count = some (bytes, rest)) :
    rest.log = link.log ∧ rest.channel = link.channel := by
  rw [takeEntropy?] at h
  split at h
  · cases h
  · cases h
    exact ⟨rfl, rfl⟩

theorem Link.length_takeEntropy? {count : Nat} {link : Link σ} {drawn : Bytes × Link σ}
    (h : link.takeEntropy? count = some drawn) : drawn.1.length = count := by
  rw [takeEntropy?] at h
  split at h
  · cases h
  · rename_i hl
    cases h
    exact List.length_take_of_le (Nat.le_of_not_lt hl)

namespace Dialogue

/-- The turns of a run, in their order. -/
def turns (card : Card σ) : Dialogue α → Link σ → List Turn
  | .done _, _ | .fail _, _ => []
  | .send command next, link =>
    let (answer, link) := link.transmit card command
    .exchange command answer :: (next answer).turns card link
  | .draw count next, link =>
    match link.takeEntropy? count with
    | none => []
    | some (bytes, link) => (next bytes).turns card link
  | .sign data next, link =>
    .signing data :: next.turns card { link with log := .signing data :: link.log }
  | .counter next, link => (next (link.channel.map (·.counter))).turns card link

/-- **The log tells the turns**: the same commands and the same data in the same order. -/
theorem run_log (card : Card σ) (d : Dialogue α) (link : Link σ) : ∃ events,
    (d.run card link).2.log = events ++ link.log ∧
    events.reverse.filterMap Event.request? = Turn.commands (d.turns card link) ∧
    events.reverse.filterMap Event.signed? = Turn.signings (d.turns card link) := by
  -- the log has the last event first, so what the rest of the run adds stands in front
  induction d generalizing link with
  | done a => exact ⟨[], rfl, rfl, rfl⟩
  | fail e => exact ⟨[], rfl, rfl, rfl⟩
  | send command next ih =>
    obtain ⟨sent, answer, hlog⟩ := link.transmit_log card command
    obtain ⟨events, hrun, hcommands, hsignings⟩ :=
      ih (link.transmit card command).1 (link.transmit card command).2
    refine ⟨events ++ [.exchange command sent answer], ?_, ?_, ?_⟩
    · rw [List.append_assoc, List.singleton_append, ← hlog]
      exact hrun
    · rw [List.reverse_append, List.filterMap_append, hcommands]
      rfl
    · rw [List.reverse_append, List.filterMap_append, hsignings]
      rfl
  | draw count next ih =>
    rw [run, turns]
    cases he : link.takeEntropy? count with
    | none => exact ⟨[], rfl, rfl, rfl⟩
    | some drawn =>
      obtain ⟨bytes, rest⟩ := drawn
      rw [← (Link.takeEntropy?_keeps he).1]
      exact ih bytes rest
  | sign data next ih =>
    obtain ⟨events, hrun, hcommands, hsignings⟩ :=
      ih { link with log := .signing data :: link.log }
    refine ⟨events ++ [.signing data], ?_, ?_, ?_⟩
    · rw [List.append_assoc, List.singleton_append]
      exact hrun
    · rw [List.reverse_append, List.filterMap_append, hcommands]
      rfl
    · rw [List.reverse_append, List.filterMap_append, hsignings]
      rfl
  | counter next ih => exact ih _ link

/-- **The log tells where the answers come from**: each is delivered from one of the card that the
log records. The channel keeps its keys on the way. -/
theorem run_delivers (card : Card σ) (d : Dialogue α) (link : Link σ) : ∃ events,
    (d.run card link).2.log = events ++ link.log ∧
    ∀ command answer, .exchange command answer ∈ d.turns card link → ∃ sent received,
      .exchange command sent received ∈ events ∧
        Link.Delivers link.channel received answer := by
  induction d generalizing link with
  | done a => exact ⟨[], rfl, fun _ _ h => absurd h List.not_mem_nil⟩
  | fail e => exact ⟨[], rfl, fun _ _ h => absurd h List.not_mem_nil⟩
  | send command next ih =>
    obtain ⟨sent, received, hlog, hd⟩ := link.transmit_delivers card command
    obtain ⟨_, _, -, ht⟩ := link.transmit_traffic card command
    obtain ⟨events, hrun, hevents⟩ :=
      ih (link.transmit card command).1 (link.transmit card command).2
    -- the log grows at its front, so this exchange comes after the later ones
    refine ⟨events ++ [.exchange command sent received], ?_, fun c a ha => ?_⟩
    · rw [List.append_assoc, List.singleton_append, ← hlog]
      exact hrun
    · rcases List.mem_cons.1 ha with ha | ha
      · cases ha
        exact ⟨sent, received, List.mem_append_right _ List.mem_cons_self, hd⟩
      · obtain ⟨s, r, hmem, hdelivers⟩ := hevents c a ha
        exact ⟨s, r, List.mem_append_left _ hmem, hdelivers.of_sameKeys ht.sameKeys⟩
  | draw count next ih =>
    rw [run, turns]
    cases he : link.takeEntropy? count with
    | none => exact ⟨[], rfl, fun _ _ h => absurd h List.not_mem_nil⟩
    | some drawn =>
      obtain ⟨bytes, rest⟩ := drawn
      obtain ⟨hlog, hchannel⟩ := Link.takeEntropy?_keeps he
      dsimp only
      rw [← hlog, ← hchannel]
      -- drawing random bytes moves neither the log nor the channel
      exact ih bytes rest
  | sign data next ih =>
    obtain ⟨events, hrun, hevents⟩ := ih { link with log := .signing data :: link.log }
    refine ⟨events ++ [.signing data], ?_, fun c a ha => ?_⟩
    · rw [List.append_assoc, List.singleton_append]
      exact hrun
    · rcases List.mem_cons.1 ha with ha | ha
      · cases ha
      · obtain ⟨s, r, hmem, hdelivers⟩ := hevents c a ha
        exact ⟨s, r, List.mem_append_left _ hmem, hdelivers⟩
  | counter next ih => exact ih _ link

/-- The turns of one dialogue after another, the second of which starts where the first has left
off. -/
theorem turns_bind (card : Card σ) (d : Dialogue α) (k : α → Dialogue β) (link : Link σ) :
    (d >>= k).turns card link = d.turns card link ++
      match d.run card link with
      | (.ok a, after) => (k a).turns card after
      | (.failed _, _) | (.interrupted, _) => [] := by
  induction d generalizing link with
  | done a => rfl
  | fail e => rfl
  | send command next ih =>
    rw [bind_send, turns, turns, run, List.cons_append]
    exact congrArg _ (ih _ _)
  | draw count next ih =>
    rw [bind_draw, turns, turns, run]
    cases link.takeEntropy? count with
    | none => rfl
    | some drawn => exact ih _ _
  | sign data next ih =>
    rw [bind_sign, turns, turns, run, List.cons_append]
    exact congrArg _ (ih _)
  | counter next ih => exact ih _ _

/-! ## Commands that have to succeed -/

/-- A command that has to succeed is granted and the dialogue goes on, or there is no response, or
one with another status. -/
theorem expectSuccess_bind_cases (operation : Operation) (command : Apdu.Command)
    (k : Apdu.Response → Dialogue β) (card : Card σ) (link : Link σ) :
    (∃ data after, (expectSuccess operation command >>= k).run card link =
        (k ⟨data, .success⟩).run card after ∧
      (expectSuccess operation command >>= k).turns card link =
        .granted (command, data) :: (k ⟨data, .success⟩).turns card after) ∨
    (∃ e after, (expectSuccess operation command >>= k).run card link = (.failed e, after) ∧
      (expectSuccess operation command >>= k).turns card link = [.exchange command (.error e)]) ∨
    ∃ data status after, status ≠ .success ∧
      (expectSuccess operation command >>= k).run card link =
        (.failed (.protocolAbort operation status), after) ∧
      (expectSuccess operation command >>= k).turns card link =
        [.exchange command (.ok ⟨data, status⟩)] := by
  rw [expectSuccess, bind_send, run, turns]
  rcases link.transmit card command with ⟨answer, next⟩
  cases answer with
  | error e => exact .inr (.inl ⟨e, next, rfl, rfl⟩)
  | ok response =>
    obtain ⟨data, status⟩ := response
    by_cases hs : status = .success
    · subst hs
      exact .inl ⟨data, next, rfl, rfl⟩
    · refine .inr (.inr ⟨data, status, next, hs, ?_, ?_⟩)
      all_goals simp [Except.bind, requireSuccess, Apdu.Response.isSuccess, hs,
        ofExcept, run, turns]

/-- A command that has to succeed is granted and the dialogue goes on, or it is not and that is
all. -/
theorem expectSuccess_bind (operation : Operation) (command : Apdu.Command)
    (k : Apdu.Response → Dialogue β) (card : Card σ) (link : Link σ) :
    (∃ data after, (expectSuccess operation command >>= k).run card link =
        (k ⟨data, .success⟩).run card after ∧
      (expectSuccess operation command >>= k).turns card link =
        .granted (command, data) :: (k ⟨data, .success⟩).turns card after) ∨
    ∃ answer e after, ¬ (Turn.exchange command answer).Succeeds ∧
      (expectSuccess operation command >>= k).run card link = (.failed e, after) ∧
      (expectSuccess operation command >>= k).turns card link = [.exchange command answer] := by
  rcases expectSuccess_bind_cases operation command k card link with
    hgranted | ⟨e, after, hrun, hturns⟩ | ⟨data, status, after, hs, hrun, hturns⟩
  · exact .inl hgranted
  · refine .inr ⟨_, e, after, ?_, hrun, hturns⟩
    rintro ⟨_, hd⟩
    cases hd
  · refine .inr ⟨_, _, after, ?_, hrun, hturns⟩
    rintro ⟨_, hd⟩
    cases hd
    exact hs rfl

/-- Sends commands one after the other, all of which have to succeed. -/
def sendAll : List (Operation × Apdu.Command) → Dialogue Unit
  | [] => return ()
  | (operation, command) :: rest => do
    let _ ← expectSuccess operation command
    sendAll rest

theorem sendAll_append (steps more : List (Operation × Apdu.Command)) :
    sendAll (steps ++ more) = sendAll steps >>= fun _ => sendAll more := by
  induction steps with
  | nil => rfl
  | cons step rest ih =>
    rw [List.cons_append, sendAll, sendAll, ih, bind_assoc]

/-- Some of the commands are granted, and the next one is not. -/
inductive Refused (commands : List Apdu.Command) : List Turn → Prop
  | upTo {exchanges : List (Apdu.Command × Bytes)} {command : Apdu.Command}
      {answer : Except Error Apdu.Response} :
    exchanges.map Prod.fst ++ [command] <+: commands →
      ¬ (Turn.exchange command answer).Succeeds →
    Refused commands (exchanges.map .granted ++ [.exchange command answer])

theorem Refused.cons {commands : List Apdu.Command} {turns : List Turn} (h : Refused commands turns)
    (exchange : Apdu.Command × Bytes) :
    Refused (exchange.1 :: commands) (.granted exchange :: turns) := by
  obtain ⟨hp, hf⟩ := h
  rw [← List.cons_append, ← List.map_cons]
  refine .upTo ?_ hf
  rw [List.map_cons, List.cons_append]
  exact List.prefix_cons_inj _ |>.2 hp

theorem Refused.mono {commands more : List Apdu.Command} {turns : List Turn}
    (h : Refused commands turns) (hp : commands <+: more) : Refused more turns := by
  obtain ⟨hp', hf⟩ := h
  exact .upTo (hp'.trans hp) hf

/-- **Commands that have to succeed** are all granted and the dialogue goes on, or they are sent up
to the first that is not. -/
theorem sendAll_bind (steps : List (Operation × Apdu.Command)) (k : Unit → Dialogue β)
    (card : Card σ) (link : Link σ) :
    (∃ (exchanges : List (Apdu.Command × Bytes)) (after : Link σ),
      exchanges.map Prod.fst = steps.map Prod.snd ∧
      (sendAll steps >>= k).run card link = (k ()).run card after ∧
      (sendAll steps >>= k).turns card link = exchanges.map .granted ++ (k ()).turns card after) ∨
    Refused (steps.map Prod.snd) ((sendAll steps >>= k).turns card link) ∧
      ∃ e after, (sendAll steps >>= k).run card link = (.failed e, after) := by
  induction steps generalizing link with
  | nil => exact .inl ⟨[], link, rfl, rfl, rfl⟩
  | cons step rest ih =>
    obtain ⟨operation, command⟩ := step
    rw [sendAll, bind_assoc]
    rcases expectSuccess_bind operation command (fun _ => sendAll rest >>= k) card link with
      ⟨data, next, hrun, hturns⟩ | ⟨answer, e, after, hf, hrun, hturns⟩
    · rw [hrun, hturns]
      rcases ih next with ⟨exchanges, after, he, hr, ht⟩ | ⟨hrefused, hfailed⟩
      · refine .inl ⟨(command, data) :: exchanges, after, ?_, hr, ?_⟩
        · rw [List.map_cons, he, List.map_cons]
        · rw [ht, List.map_cons, List.cons_append]
      · exact .inr ⟨hrefused.cons (command, data), hfailed⟩
    · rw [hrun, hturns]
      refine .inr ⟨?_, e, after, rfl⟩
      exact @Refused.upTo _ [] _ _ (List.cons_prefix_cons.2 ⟨rfl, List.nil_prefix⟩) hf

end Dialogue
end TravelDocument

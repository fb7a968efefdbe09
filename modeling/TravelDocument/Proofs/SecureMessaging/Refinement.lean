import Mathlib.Data.List.Forall2
import Mathlib.Data.List.Infix
import TravelDocument.Proofs.SecureMessaging.Chip

/-!
# Secure Messaging refines the plain link

A link to an honest chip at the other end of its channel behaves as if it were a link to the chip's
inner card: every command is answered by what the inner card answers to the same instruction, the
inner card receives nothing else, and both ends of the channel stay together. `transmit_mirrors` is
one exchange, `transmitAll_refines` any run of them.
-/

namespace TravelDocument

variable {σ : Type}

/-- Sends commands one after the other: every answer with the link after it. -/
def Link.transmitAll (card : Card σ) :
    List Apdu.Command → Link σ → List (Except Error Apdu.Response × Link σ)
  | [], _ => []
  | command :: rest, link =>
    let result := link.transmit card command
    result :: Link.transmitAll card rest result.2

namespace InnerCard

/-- The inner card has received exactly the instructions it has carried out. -/
theorem received_performAll (inner : InnerCard σ) (instructions : List Instruction)
    (state : State σ) :
    (inner.performAll instructions state).map (·.2.received) =
      instructions.inits.tail.map (state.received ++ ·) := by
  induction instructions generalizing state with
  | nil => rfl
  | cons i is ih =>
    have hreceived : (inner.perform state i).2.received = state.received ++ [i] := rfl
    rw [performAll, List.map_cons, ih, hreceived, List.inits_cons, List.tail_cons, List.map_map]
    have hi : is.inits = [] :: is.inits.tail := by
      cases is <;> rfl
    conv_rhs => rw [hi, List.map_cons]
    simp only [Function.comp_def, List.append_assoc, List.singleton_append]

end InnerCard

/-- What the reader got in an exchange is what the inner card did, and reader and chip are left with
the same keys and the same counter. The chip's policy plays no part. -/
structure Mirrors (policy : MacPolicy) (exchange : Except Error Apdu.Response × Link (Chip σ))
    (plain : Apdu.Response × InnerCard.State σ) : Prop where
  answer : exchange.1 = .ok plain.1
  inner : exchange.2.card.inner = plain.2
  channel : ∃ c, exchange.2.channel = some c ∧ exchange.2.card.channel = c.withPolicy policy

/-- The chip has its inner card carry out the command that was wrapped, and the reader gets the
answer. -/
theorem Chip.respond_wrap (inner : InnerCard σ) {chip : Chip σ} {c : Channel} {policy : MacPolicy}
    {command wrapped : Apdu.Command} (hchip : chip.channel = c.withPolicy policy)
    (hlength : ∀ data ∈ command.body.request, data.length < 2 ^ 63)
    (hw : c.step.wrap command = .ok wrapped) : ∃ response,
      Chip.respond inner chip wrapped = (.ok response, ⟨(c.withPolicy policy).step.step,
        (inner.perform chip.inner (Instruction.ofCommand command)).2⟩) ∧
      c.step.step.unwrap response =
        .ok (inner.perform chip.inner (Instruction.ofCommand command)).1 := by
  have hread : (c.withPolicy policy).step.readCommand? wrapped =
      some (Instruction.ofCommand command) :=
    Channel.readCommand?_wrap hlength hw
  have hdata : (inner.perform chip.inner (Instruction.ofCommand command)).1.data.length < 2 ^ 63 :=
    inner.length_answer _ _
  obtain ⟨response, hs, hu⟩ := c.step.step.unwrap_seal
    (inner.answersTlv chip.inner.memory (Instruction.ofCommand command)) hdata
  have hseal : (c.withPolicy policy).step.step.sealAnswer
      (inner.answersTlv chip.inner.memory (Instruction.ofCommand command))
      (inner.perform chip.inner (Instruction.ofCommand command)).1 = .ok response := hs
  refine ⟨response, ?_, hu⟩
  simp only [Chip.respond, hchip, hread, hseal]

/-- A card that moves on as the chip does mirrors the inner card. -/
theorem mirrors_of_answer {card : Card (Chip σ)} {c : Channel} {policy : MacPolicy}
    {link : Link (Chip σ)} {command wrapped : Apdu.Command} {response : Apdu.Response}
    {plain : Apdu.Response × InnerCard.State σ}
    (hl : link.channel = some c) (hw : c.step.wrap command = .ok wrapped)
    (hcard : card link.card wrapped =
      (.ok response, ⟨(c.withPolicy policy).step.step, plain.2⟩))
    (hu : c.step.step.unwrap response = .ok plain.1) :
    Mirrors policy (link.transmit card command) plain ∧
      (link.transmit card command).2.channel = some c.step.step := by
  have ht : link.transmit card command =
      (c.step.step.unwrap response,
        { link with
          card := ⟨(c.withPolicy policy).step.step, plain.2⟩
          log := .exchange command wrapped (.ok response) :: link.log
          channel := some c.step.step }) := by
    simp only [Link.transmit, hl, Link.transmitWrapped, hw, Link.exchange, hcard]
  rw [ht]
  exact ⟨⟨hu, rfl, c.step.step, rfl, rfl⟩, rfl⟩

/-- **One exchange.** A command that has a protected form is answered by the inner card. -/
theorem transmit_mirrors (inner : InnerCard σ) {c : Channel} {policy : MacPolicy}
    {link : Link (Chip σ)} {command : Apdu.Command} (hl : link.channel = some c)
    (hchip : link.card.channel = c.withPolicy policy) (hc : c.Carries command) :
    Mirrors policy (link.transmit (Chip.card inner) command)
        (inner.perform link.card.inner (Instruction.ofCommand command)) ∧
      (link.transmit (Chip.card inner) command).2.channel = some c.step.step := by
  have hlength := Channel.length_request_of_carries hc
  obtain ⟨wrapped, bytes, hw, he⟩ := hc
  obtain ⟨response, hrespond, hu⟩ := Chip.respond_wrap inner hchip hlength hw
  exact mirrors_of_answer hl hw ((Chip.card_of_encode inner _ he).trans hrespond) hu

/-- One exchange without a transport in between, of whatever length. -/
theorem transmit_respond (inner : InnerCard σ) {c : Channel} {policy : MacPolicy}
    {link : Link (Chip σ)} {command : Apdu.Command} (hl : link.channel = some c)
    (hchip : link.card.channel = c.withPolicy policy)
    (hlength : ∀ data ∈ command.body.request, data.length < 2 ^ 63) :
    Mirrors policy (link.transmit (Chip.respond inner) command)
        (inner.perform link.card.inner (Instruction.ofCommand command)) ∧
      (link.transmit (Chip.respond inner) command).2.channel = some c.step.step := by
  obtain ⟨wrapped, hw⟩ := c.step.wrap_ok command
  obtain ⟨response, hrespond, hu⟩ := Chip.respond_wrap inner hchip hlength hw
  exact mirrors_of_answer hl hw hrespond hu

/-- **Secure Messaging refines the plain link.** Commands sent through a channel to an honest chip
with the same keys and the same counter are answered by the inner card, in every exchange of every
run. After each of them the inner card has received the instructions of the commands so far, and the
counters are equal again. -/
theorem transmitAll_refines (inner : InnerCard σ) (c : Channel) (policy : MacPolicy)
    (link : Link (Chip σ)) (commands : List Apdu.Command) (hl : link.channel = some c)
    (hchip : link.card.channel = c.withPolicy policy)
    (hc : ∀ command ∈ commands, c.Carries command) :
    List.Forall₂ (Mirrors policy) (link.transmitAll (Chip.card inner) commands)
        (inner.performAll (commands.map Instruction.ofCommand) link.card.inner) ∧
      (link.transmitAll (Chip.card inner) commands).map (·.2.card.inner.received) =
        (commands.map Instruction.ofCommand).inits.tail.map (link.card.inner.received ++ ·) := by
  have hrun : List.Forall₂ (Mirrors policy) (link.transmitAll (Chip.card inner) commands)
      (inner.performAll (commands.map Instruction.ofCommand) link.card.inner) := by
    induction commands generalizing c link with
    | nil => exact .nil
    | cons command rest ih =>
      obtain ⟨hm, hstep⟩ := transmit_mirrors inner hl hchip (hc command List.mem_cons_self)
      refine .cons hm ?_
      obtain ⟨d, hd, hchip'⟩ := hm.channel
      obtain rfl : c.step.step = d := Option.some.inj (hstep.symm.trans hd)
      have hrest : ∀ next ∈ rest, c.step.step.Carries next := by
        intro next hnext
        -- the counter has moved, but lengths have not
        have := Channel.carries_iff.1 (hc next (List.mem_cons_of_mem _ hnext))
        exact Channel.carries_iff.2 this
      have := ih _ _ hd hchip' hrest
      rwa [hm.inner] at this
  refine ⟨hrun, ?_⟩
  rw [← inner.received_performAll]
  rw [← List.forall₂_eq_eq_eq, List.forall₂_map_left_iff, List.forall₂_map_right_iff]
  exact List.Forall₂.imp (fun _ _ h => congrArg InnerCard.State.received h.inner) hrun

/-- An inner card that answers every instruction with its request data. -/
def InnerCard.echo : InnerCard Unit where
  answer := fun _ instruction => (⟨(instruction.request.getD []).take 256, .success⟩, ())
  answersTlv := fun _ instruction => instruction.header.ins.toNat % 2 == 1
  length_answer := fun _ instruction => by
    have : ((instruction.request.getD []).take 256).length ≤ 256 := List.length_take_le _ _
    show ((instruction.request.getD []).take 256).length < _
    omega

/-- A selection and an odd READ BINARY with an extended length through the channel of an example. -/
theorem transmitAll_refines_echo :
    let link : Link (Chip Unit) :=
      ⟨⟨Channel.workedExample, ⟨(), []⟩⟩, some Channel.workedExample, [], []⟩
    let commands : List Apdu.Command :=
      [.make 0x00 0xA4 0x02 0x0C [0x01, 0x1E] none,
        .make 0x00 0xB1 0x00 0x00 [0x54, 0x01, 0x00] (some 1000)]
    (∀ command ∈ commands, Channel.workedExample.Carries command) ∧
      List.Forall₂ (Mirrors .strict) (link.transmitAll (Chip.card InnerCard.echo) commands)
        (InnerCard.echo.performAll (commands.map Instruction.ofCommand) ⟨(), []⟩) := by
  intro link commands
  have hc : ∀ command ∈ commands, Channel.workedExample.Carries command := by
    simp only [Channel.carries_iff]
    decide +kernel
  exact ⟨hc, (transmitAll_refines InnerCard.echo _ .strict link commands rfl rfl hc).1⟩

end TravelDocument

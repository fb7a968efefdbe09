import TravelDocument.Proofs.Dialogue.Completion
import TravelDocument.Proofs.SecureMessaging.Refinement

/-!
# Protocols with an inner card

A chip's side of a protocol is an inner card. `InnerCard.Answers` says what it answers to some
commands and where that leaves it. A link to the card alone then exchanges just that
(`Answers.plain`), and so does a link with a channel to a chip that has the card inside
(`Answers.throughChannel`).
-/

namespace TravelDocument

variable {σ : Type}

namespace InnerCard

/-- A card that takes steps. Where there is no step it refuses the instruction and stays as it
is. -/
def ofStep (step : σ → Instruction → Option (Bytes × σ)) : InnerCard σ where
  answer := fun memory instruction =>
    match step memory instruction with
    | none => (⟨[], .secureMessagingIncorrect⟩, memory)
    | some (data, after) =>
      if data.length < 2 ^ 63 then (⟨data, .success⟩, after)
      else (⟨[], .secureMessagingIncorrect⟩, memory)
  answersTlv := fun _ instruction => instruction.header.ins.toNat % 2 == 1
  length_answer := by
    intro memory instruction
    split
    · exact Nat.two_pow_pos 63
    · split
      · assumption
      · exact Nat.two_pow_pos 63

/-- The card on its own, without a channel. -/
def plain (inner : InnerCard σ) : Card σ := fun memory command =>
  let (answer, after) := inner.answer memory (Instruction.ofCommand command)
  (.ok answer, after)

/-- The card answers the commands one after the other with success and the given data. -/
inductive Answers (inner : InnerCard σ) : σ → List (Apdu.Command × Bytes) → σ → Prop
  | none (memory : σ) : Answers inner memory [] memory
  | next {memory next after : σ} {command : Apdu.Command} {data : Bytes}
      {rest : List (Apdu.Command × Bytes)} :
    inner.answer memory (Instruction.ofCommand command) = (⟨data, .success⟩, next) →
    Answers inner next rest after → Answers inner memory ((command, data) :: rest) after

theorem answer_ofStep {step : σ → Instruction → Option (Bytes × σ)} {memory after : σ}
    {instruction : Instruction} {data : Bytes} (h : step memory instruction = some (data, after))
    (hl : data.length < 2 ^ 63) :
    (ofStep step).answer memory instruction = (⟨data, .success⟩, after) := by
  simp only [ofStep, h, hl, ↓reduceIte]

end InnerCard

/-- What the inner card of a chip answers comes out at the other end of the channel, and both ends
stay together. -/
theorem Chip.transmit_of_answer {inner : InnerCard σ} {policy : MacPolicy} {link : Link (Chip σ)}
    {c : Channel} (hc : link.channel = some c) (hchip : link.card.channel = c.withPolicy policy)
    {command : Apdu.Command} (hlength : ∀ data ∈ command.body.request, data.length < 2 ^ 63)
    {response : Apdu.Response} {memory : σ}
    (ha : inner.answer link.card.inner.memory (Instruction.ofCommand command) =
      (response, memory)) :
    ∃ next d, link.transmit (Chip.respond inner) command = (.ok response, next) ∧
      next.channel = some d ∧
      next.card.channel = d.withPolicy policy ∧ next.card.inner.memory = memory := by
  obtain ⟨hm, -⟩ := transmit_respond inner hc hchip hlength
  have hperform : inner.perform link.card.inner (Instruction.ofCommand command) =
      (response, ⟨memory, link.card.inner.received ++ [Instruction.ofCommand command]⟩) := by
    rw [InnerCard.perform, ha]
  rw [hperform] at hm
  obtain ⟨d, hd, hchip'⟩ := hm.channel
  exact ⟨_, d, Prod.ext hm.answer rfl, hd, hchip', by rw [hm.inner]⟩

namespace InnerCard.Answers

variable {inner : InnerCard σ} {memory after : σ} {exchanges : List (Apdu.Command × Bytes)}

/-- **A link to the card alone** exchanges what the card answers. -/
theorem plain (h : inner.Answers memory exchanges after) {link : Link σ}
    (hc : link.channel = Option.none) (hcard : link.card = memory) :
    ∃ final, Link.Exchanged inner.plain link exchanges final ∧ final.card = after := by
  induction h generalizing link with
  | none memory => exact ⟨link, .none link, hcard⟩
  | @next memory next after command data rest ha _ ih =>
    obtain ⟨card, channel, entropy, log⟩ := link
    obtain rfl : card = memory := hcard
    obtain rfl : channel = Option.none := hc
    have ht : Link.transmit inner.plain command ⟨card, Option.none, entropy, log⟩ =
        (.ok ⟨data, .success⟩, ⟨next, Option.none, entropy,
          .exchange command command (.ok ⟨data, .success⟩) :: log⟩) := by
      simp only [Link.transmit, Link.transmitPlain, Link.exchange, InnerCard.plain, ha,
        Except.mapError]
    obtain ⟨final, he, hfinal⟩ := @ih ⟨next, Option.none, entropy, _ :: log⟩ rfl rfl
    exact ⟨final, .next ht he, hfinal⟩

/-- **A link with a channel to a chip with the card inside** exchanges the same, and both ends of
the channel stay together. -/
theorem throughChannel (h : inner.Answers memory exchanges after)
    (hlength : ∀ e ∈ exchanges, ∀ data ∈ e.1.body.request, data.length < 2 ^ 63)
    {policy : MacPolicy} {link : Link (Chip σ)} {c : Channel} (hc : link.channel = some c)
    (hchip : link.card.channel = c.withPolicy policy) (hcard : link.card.inner.memory = memory) :
    ∃ final d, Link.Exchanged (Chip.respond inner) link exchanges final ∧
      final.channel = some d ∧
      final.card.channel = d.withPolicy policy ∧ final.card.inner.memory = after := by
  induction h generalizing link c with
  | none memory => exact ⟨link, c, .none link, hc, hchip, hcard⟩
  | @next memory next after command data rest ha _ ih =>
    obtain ⟨link', d, ht, hd, hchip', hmemory⟩ :=
      Chip.transmit_of_answer hc hchip (hlength _ List.mem_cons_self) (by rw [hcard, ha])
    obtain ⟨final, d', he, hfinal⟩ :=
      ih (fun e he => hlength e (List.mem_cons_of_mem _ he)) hd hchip' hmemory
    exact ⟨final, d', .next ht he, hfinal⟩

end InnerCard.Answers
end TravelDocument

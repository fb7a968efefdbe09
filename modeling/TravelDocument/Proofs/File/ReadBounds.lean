import TravelDocument.Proofs.File.LengthCorrection
import TravelDocument.Proofs.File.Reading
import TravelDocument.Proofs.SecureMessaging.Serving

/-!
# How much one read can come to

A card decides how often a READ BINARY is sent, and with a corrected length also how much is asked
for. The number of commands is bounded all the same (`readBinary_ends`). The number of bytes is
bounded by what the caller wants only as long as the card does not ask for more; otherwise what it
asks for is the bound (`readBinary_amount`).
-/

namespace TravelDocument

/-! ## Cards that keep to the expected length -/

/-- The response brings no more data than the command expects. -/
def Turn.Within : Turn → Prop
  | .exchange command (.ok response) => response.data.length ≤ command.body.expectedLength.getD 0
  | .exchange _ (.error _) | .signing _ => True

/-- The card never answers with more data than the command expects. -/
def Card.Restrained {σ : Type} (card : Card σ) : Prop :=
  ∀ memory command response, (card memory command).1 = .ok response →
    response.data.length ≤ command.body.expectedLength.getD 0

/-- The same for a card inside a chip, which gets to see the command without its protection. -/
def InnerCard.Restrained {σ : Type} (inner : InnerCard σ) : Prop :=
  ∀ memory instruction,
    (inner.answer memory instruction).1.data.length ≤ instruction.expected.getD 0

/-- A reader with room for what is expected restrains every card. -/
theorem Card.restrained_bounded {σ : Type} (card : Card σ) : card.bounded.Restrained := by
  intro memory command response h
  rw [bounded] at h
  split at h
  · split at h
    · cases h
    · cases h
      omega
  · rename_i hfailed
    rcases hc : card memory command with ⟨answer, after⟩
    rw [hc] at h
    cases h
    exact absurd hc (hfailed _ _)

namespace File

variable {σ : Type} {offset length : Nat} {corrected : Bool} {turns : List Turn}
  {outcome : Outcome Bytes}

/-- Over a link that is `ready` no READ BINARY brings more data than it expects, and the link stays
so. -/
def Rations (card : Card σ) (offset : Nat) (ready : Link σ → Prop) : Prop :=
  ∀ link, ready link → ∀ length, ∃ answer after,
    link.transmit card (readCommand offset length) = (answer, after) ∧
      (Turn.exchange (readCommand offset length) answer).Within ∧ ready after

/-- A restrained card on a link of its own. -/
theorem rations_of_restrained {card : Card σ} (h : card.Restrained) (offset : Nat) :
    Rations card offset fun link => link.channel = none := by
  rintro ⟨memory, channel, entropy, log⟩ hc length
  obtain rfl : channel = none := hc
  refine ⟨_, _, rfl, ?_, rfl⟩
  show Turn.Within (.exchange _ ((card memory (readCommand offset length)).1.mapError .transport))
  cases ha : (card memory (readCommand offset length)).1 with
  | error e => exact True.intro
  | ok response => exact h memory _ response ha

/-- A restrained card in a chip at the other end of the channel. -/
theorem rations_of_inner {inner : InnerCard σ} (h : inner.Restrained) (policy : MacPolicy)
    (ho : offset < UInt64.size) : Rations (Chip.respond inner) offset fun link =>
      ∃ c, link.channel = some c ∧ link.card.channel = c.withPolicy policy := by
  rintro link ⟨c, hc, hchip⟩ length
  obtain ⟨next, d, ht, hd, hchip', -⟩ :=
    Chip.transmit_of_answer hc hchip (length_request_readCommand ho length) rfl
  exact ⟨_, next, ht, h _ _, d, hd, hchip'⟩

namespace Rations

variable {card : Card σ} {ready : Link σ → Prop}

/-- One command of a read, if what is done after it is within bounds. -/
theorem attempt_within (h : Rations card offset ready) {again : Dialogue Bytes}
    {refuse : Apdu.Response → Dialogue Bytes}
    (hagain : ∀ link, ready link → ∀ turn ∈ again.turns card link, turn.Within)
    (hrefuse : ∀ response link, ready link → ∀ turn ∈ (refuse response).turns card link,
      turn.Within)
    (link : Link σ) (hr : ready link) :
    ∀ turn ∈ (attempt offset length again refuse).turns card link, turn.Within := by
  obtain ⟨answer, after, ht, hwithin, hr'⟩ := h link hr length
  rw [attempt, Dialogue.transmit, Dialogue.bind_send, Dialogue.turns, ht]
  refine List.forall_mem_cons.2 ⟨hwithin, ?_⟩
  cases answer with
  | error e => exact List.forall_mem_nil _
  | ok response =>
    simp only [Dialogue.ofExcept, Dialogue.bind_done]
    split
    · cases readData offset response.data with
      | error e => exact List.forall_mem_nil _
      | ok chunk => exact List.forall_mem_nil _
    · split
      · exact hagain after hr'
      · exact hrefuse response after hr'

theorem readCorrected_within (h : Rations card offset ready) (length : Nat) (link : Link σ)
    (hr : ready link) :
    ∀ turn ∈ (readCorrected offset length).turns card link, turn.Within := by
  induction length generalizing link with
  | zero => exact List.forall_mem_nil _
  | succ length ih => exact h.attempt_within ih (fun _ _ _ => List.forall_mem_nil _) link hr

theorem readUncorrected_within (h : Rations card offset ready) (length : Nat) (link : Link σ)
    (hr : ready link) :
    ∀ turn ∈ (readUncorrected offset length).turns card link, turn.Within := by
  induction length generalizing link with
  | zero => exact List.forall_mem_nil _
  | succ length ih =>
    refine h.attempt_within ih (fun response next hr' => ?_) link hr
    split
    · exact h.readCorrected_within _ next hr'
    · exact List.forall_mem_nil _

/-- **A whole read stays within what its commands expect.** -/
theorem readBinary_within (h : Rations card offset ready) (config : SessionConfig) (length : Nat)
    {link : Link σ} (hr : ready link) :
    ∀ turn ∈ (readBinary config offset length).turns card link, turn.Within :=
  h.readUncorrected_within (requestedLength config length) link hr

end Rations

/-! ## The lengths that are asked for -/

/-- The first command asks for `length` bytes, each later one for one byte less than the one before,
and none for no bytes. -/
def AsksDown (offset length : Nat) (turns : List Turn) : Prop :=
  ∀ k command, (Turn.commands turns)[k]? = some command →
    k < length ∧ command = readCommand offset (length - k)

/-- The lengths go down from `length`, and start anew at most once, from what the card has asked
for. -/
inductive Descends (offset length : Nat) : List Turn → Prop
  | uncorrected {turns : List Turn} : AsksDown offset length turns →
    (∀ turn ∈ turns, ¬ Corrects turn) → Descends offset length turns
  | corrected {before after : List Turn} {command : Apdu.Command} {data : Bytes} {sw2 : UInt8} :
    AsksDown offset length (before ++ [correction command data sw2]) →
      (∀ turn ∈ before, ¬ Corrects turn) →
    AsksDown offset (correctedLength sw2) after →
      (∀ turn ∈ after.dropLast, ¬ Corrects turn) →
    Descends offset length (before ++ correction command data sw2 :: after)

namespace AsksDown

theorem nil : AsksDown offset length [] :=
  fun _ _ h => by cases h

theorem cons (h : AsksDown offset length turns) (answer : Except Error Apdu.Response) :
    AsksDown offset (length + 1) (.exchange (readCommand offset (length + 1)) answer :: turns) := by
  rintro (_ | k) command hk
  · cases hk
    exact ⟨Nat.succ_pos length, rfl⟩
  · obtain ⟨hlt, hcommand⟩ := h k command hk
    exact ⟨Nat.succ_lt_succ hlt, by rwa [Nat.add_sub_add_right]⟩

theorem length_le (h : AsksDown offset length turns) : (Turn.commands turns).length ≤ length := by
  by_contra hlt
  exact Nat.lt_irrefl length (h length _ (List.getElem?_eq_getElem (Nat.lt_of_not_le hlt))).1

end AsksDown

theorem not_corrects_error (command : Apdu.Command) (e : Error) :
    ¬ Corrects (.exchange command (.error e)) := by
  rintro ⟨_, _, _, h⟩
  cases h

theorem not_corrects_granted (exchange : Apdu.Command × Bytes) :
    ¬ Corrects (.granted exchange) := by
  rintro ⟨_, _, _, h⟩
  cases h

/-- After a correction the lengths only go down, and another correction is the end. -/
theorem Attempts.asksDown (h : Attempts offset corrected length turns outcome)
    (hc : corrected = true) :
    AsksDown offset length turns ∧ ∀ turn ∈ turns.dropLast, ¬ Corrects turn := by
  induction h with
  | nothing => exact ⟨.nil, List.forall_mem_nil _⟩
  | unanswered | read _ | unreadable _ | refused _ _ _ =>
    exact ⟨.cons .nil _, List.forall_mem_nil _⟩
  | @shorter _ _ data turns _ _ ih =>
    obtain ⟨hdown, hnot⟩ := ih hc
    refine ⟨hdown.cons _, ?_⟩
    cases turns with
    | nil => exact List.forall_mem_nil _
    | cons next rest => exact List.forall_mem_cons.2 ⟨not_corrects_endOfFile _ data, hnot⟩
  | corrected _ _ => cases hc

/-- The lengths of a read. The induction puts what is asked for at the end of the file in front. -/
theorem Attempts.descends (h : Attempts offset corrected length turns outcome)
    (hc : corrected = false) :
    Descends offset length turns := by
  induction h with
  | nothing => exact .uncorrected .nil (List.forall_mem_nil _)
  | unanswered =>
    exact .uncorrected (.cons .nil _) (List.forall_mem_singleton.2 (not_corrects_error _ _))
  | read _ | unreadable _ =>
    exact .uncorrected (.cons .nil _) (List.forall_mem_singleton.2 (not_corrects_granted _))
  | shorter _ ih =>
    -- 62 82 only shortens the request: it joins the part before the correction
    cases ih hc with
    | uncorrected hdown hnot =>
      exact .uncorrected (hdown.cons _)
        (List.forall_mem_cons.2 ⟨not_corrects_endOfFile _ _, hnot⟩)
    | @corrected before _ _ _ _ hdown hnot hafter hnot' =>
      exact @Descends.corrected _ _ (_ :: before) _ _ _ _ (hdown.cons _)
        (List.forall_mem_cons.2 ⟨not_corrects_endOfFile _ _, hnot⟩) hafter hnot'
  | corrected hafter _ =>
    obtain ⟨hdown, hnot⟩ := hafter.asksDown rfl
    exact @Descends.corrected _ _ [] _ _ _ _ (.cons .nil _) (List.forall_mem_nil _) hdown hnot
  | refused _ _ hwrong =>
    refine .uncorrected (.cons .nil _) (List.forall_mem_singleton.2 ?_)
    -- before the correction, 6Cxx is not among the refusals
    rintro ⟨_, _, _, hcorrection⟩
    cases hcorrection
    rw [hwrong rfl] at hc
    cases hc

/-- Before the correction there is a command for each length, and after it at most 256 more. -/
theorem Descends.length_le (h : Descends offset length turns) :
    (Turn.commands turns).length ≤ length + 256 := by
  cases h with
  | uncorrected hdown _ => exact Nat.le_trans hdown.length_le (Nat.le_add_right _ _)
  | @corrected before after command data sw2 hdown _ hafter _ =>
    have hbefore := hdown.length_le
    have hbehind := Nat.le_trans hafter.length_le (correctedLength_bounds sw2).2
    rw [List.append_cons, Turn.commands_append, List.length_append]
    exact Nat.add_le_add hbefore hbehind

/-- No randomness is needed, so there is nothing that could interrupt a read. -/
theorem Attempts.ends (h : Attempts offset corrected length turns outcome) :
    ∃ result, outcome.toExcept? = some result := by
  induction h with
  | nothing | unanswered | read _ | unreadable _ | refused _ _ _ => exact ⟨_, rfl⟩
  | shorter _ ih | corrected _ ih => exact ih

/-! ## The number of commands -/

/-- A card that says so often that the file ends earlier, then asks for 256 bytes, and goes on to
say that the file ends earlier. -/
def exhaustingCard : Card Nat
  | 0, _ => (.ok ⟨[], .endOfFile⟩, 0)
  | 1, _ => (.ok ⟨[], ⟨Apdu.StatusWord.wrongLength, 0x00⟩⟩, 0)
  | left + 2, _ => (.ok ⟨[], .endOfFile⟩, left + 1)

theorem commands_readCorrected_exhausting (offset length : Nat) (entropy : Bytes)
    (log : List Event) :
    (Turn.commands ((readCorrected offset length).turns exhaustingCard
      ⟨0, none, entropy, log⟩)).length = length := by
  induction length generalizing log with
  | zero => rfl
  | succ length ih => exact congrArg Nat.succ (ih _)

/-- Every length down to 1 is asked for, and then every length from 256 down to 1. -/
theorem commands_readUncorrected_exhausting (offset length : Nat) (entropy : Bytes)
    (log : List Event) :
    (Turn.commands ((readUncorrected offset (length + 1)).turns exhaustingCard
      ⟨length + 1, none, entropy, log⟩)).length = length + 1 + 256 := by
  induction length generalizing log with
  | zero => exact congrArg Nat.succ (commands_readCorrected_exhausting offset 256 entropy _)
  | succ length ih =>
    rw [Nat.add_right_comm]
    exact congrArg Nat.succ (ih _)

/-- **Every read ends**, with data or with an error, whatever the card answers. A read for up to `n`
bytes sends at most `n + 256` commands, and none if `n` is zero. Each asks for one byte less than
the one before, and for at least one, but for the one that follows the first correction of the
length. There is a card that gets all of these commands. -/
theorem readBinary_ends (config : SessionConfig) (offset length : Nat) {σ : Type} (card : Card σ)
    (link : Link σ) :
    let dialogue := readBinary config offset length
    let n := requestedLength config length
    (∃ result, (dialogue.run card link).1.toExcept? = some result) ∧
    (∃ events, (dialogue.run card link).2.log = events ++ link.log ∧
      events.reverse.filterMap Event.request? = Turn.commands (dialogue.turns card link)) ∧
    Descends offset n (dialogue.turns card link) ∧
    (Turn.commands (dialogue.turns card link)).length ≤ (if n = 0 then 0 else n + 256) ∧
    (Turn.commands (dialogue.turns exhaustingCard ⟨n, none, [], []⟩)).length =
      if n = 0 then 0 else n + 256 := by
  intro dialogue n
  have hattempts := readUncorrected_attempts offset n card link
  -- every request on the log is a command of some turn, in order
  obtain ⟨events, hlog, hcommands, -⟩ := dialogue.run_log card link
  have hdescends : Descends offset n (dialogue.turns card link) := hattempts.descends rfl
  refine ⟨hattempts.ends, ⟨events, hlog, hcommands⟩, hdescends, ?_⟩
  show (Turn.commands ((readUncorrected offset n).turns card link)).length ≤ _ ∧
    (Turn.commands
      ((readUncorrected offset n).turns exhaustingCard ⟨n, none, [], []⟩)).length = _
  -- for the last two parts: nothing at all is sent when no byte is asked for
  cases hn : n with
  | zero => exact ⟨Nat.le_refl 0, rfl⟩
  | succ m =>
    rw [if_neg (Nat.succ_ne_zero m), ← hn]
    refine ⟨hdescends.length_le, ?_⟩
    rw [hn]
    exact commands_readUncorrected_exhausting offset m [] []

/-! ## The amount of data -/

/-- A length of 128 or more has a length field of two bytes or more. -/
theorem length_longField {input rest : Bytes} {n : Nat}
    (h : DataObject.decodeLength? input = some (n, rest)) (hn : 128 ≤ n) :
    rest.length + 2 ≤ input.length := by
  cases input with
  | nil => cases h
  | cons b input =>
    simp only [DataObject.decodeLength?] at h
    split at h
    · cases h
      omega
    · split at h
      · cases h
      · split at h
        · obtain ⟨-, rfl⟩ := Prod.mk.inj (Option.some.inj h)
          rw [List.length_drop, List.length_cons]
          omega
        · cases h

/-- The object around the data takes two bytes, or three if there are 128 bytes of data or more. -/
theorem length_unwrapContents {response chunk : Bytes} (h : unwrapContents response = .ok chunk) :
    chunk.length + 2 ≤ response.length ∧
      (128 ≤ chunk.length → chunk.length + 3 ≤ response.length) := by
  rw [unwrapContents] at h
  split at h
  · cases h
  · rename_i tag afterTag ht
    -- one byte of tag at least, then the length field
    have htag := DataObject.length_decodeTag? ht
    split at h
    · cases h
    · split at h
      · cases h
      · rename_i n value hn
        have hfield := DataObject.length_decodeLength? hn
        split at h
        · cases h
        · rename_i hle
          cases h
          have hchunk : (value.take n).length = n := by
            rw [List.length_take]
            omega
          rw [hchunk]
          refine ⟨by omega, fun hlong => ?_⟩
          have hlongField := length_longField hn hlong
          omega

/-- The room that is made for the object around the data is not enough for more data. -/
theorem length_readData {data chunk : Bytes} (hl : 0 < length)
    (hd : data.length ≤ (readCommand offset length).body.expectedLength.getD 0)
    (h : readData offset data = .ok chunk) : chunk.length ≤ length := by
  rw [expectedLength_readCommand offset hl, Option.getD_some] at hd
  have hle := Nat.le_trans hd (Nat.min_le_left _ _)
  rw [readData] at h
  split at h
  · rename_i hs
    cases h
    rwa [if_pos hs] at hle
  · rename_i hs
    obtain ⟨hshort, hlong⟩ := length_unwrapContents h
    rw [if_neg hs, wrappedLength] at hle
    simp only [Apdu.maxShortNe] at hle
    -- for 126 bytes there is room for 128, but then these would need a longer field
    split at hle
    · omega
    · split at hle <;> omega

/-- If no answer is too long, a correction bounds the data, and without one the length does. There
is none behind the first, or the read would not have ended with data. -/
theorem Attempts.amount (h : Attempts offset corrected length turns outcome)
    (hw : ∀ turn ∈ turns, turn.Within) {data : Bytes} (ho : outcome = .ok data) :
    (∀ command bytes sw2, correction command bytes sw2 ∈ turns →
      corrected = false ∧ data.length ≤ correctedLength sw2) ∧
    ((∀ turn ∈ turns, ¬ Corrects turn) → data.length ≤ length) := by
  induction h with
  | nothing =>
    cases ho
    exact ⟨fun _ _ _ hm => absurd hm List.not_mem_nil, fun _ => Nat.le_refl 0⟩
  | unanswered | unreadable _ | refused _ _ _ => cases ho
  | read hd =>
    cases ho
    have hle := length_readData (Nat.succ_pos _) (hw _ List.mem_cons_self) hd
    refine ⟨fun command bytes sw2 hm => ?_, fun _ => hle⟩
    exact absurd ⟨_, _, _, (List.mem_singleton.1 hm).symm⟩ (not_corrects_granted _)
  | shorter _ ih =>
    obtain ⟨hcorrection, hlength⟩ := ih (fun turn hm => hw turn (List.mem_cons_of_mem _ hm)) ho
    refine ⟨fun command bytes sw2 hm => ?_, fun hnot => ?_⟩
    · rcases List.mem_cons.1 hm with heq | hm
      · exact absurd ⟨_, _, _, heq.symm⟩ (not_corrects_endOfFile _ _)
      · exact hcorrection command bytes sw2 hm
    · exact Nat.le_succ_of_le (hlength fun turn hm => hnot turn (List.mem_cons_of_mem _ hm))
  | corrected _ ih =>
    obtain ⟨hcorrection, hlength⟩ := ih (fun turn hm => hw turn (List.mem_cons_of_mem _ hm)) ho
    -- none of the later turns corrects, so the length that was asked for bounds the data
    refine ⟨fun command bytes sw2 hm => ⟨rfl, ?_⟩, fun hnot => ?_⟩
    · rcases List.mem_cons.1 hm with heq | hm
      · cases heq
        refine hlength ?_
        rintro turn hm ⟨_, _, _, rfl⟩
        cases (hcorrection _ _ _ hm).1
      · cases (hcorrection _ _ _ hm).1
    · exact absurd (corrects_correction _ _ _) (hnot _ List.mem_cons_self)

theorem requestedLength_le (config : SessionConfig) (length : Nat) :
    requestedLength config length ≤ length := by
  rw [requestedLength]
  split
  · exact Nat.le_refl length
  · exact Nat.min_le_left _ _

/-- A card that asks for another length, and then answers with as much data as is expected. -/
def correctingCard (sw2 : UInt8) : Card Bool
  | false, _ => (.ok ⟨[], ⟨Apdu.StatusWord.wrongLength, sw2⟩⟩, true)
  | true, command =>
    (.ok ⟨List.replicate (command.body.expectedLength.getD 0) 0, .success⟩, true)

theorem restrained_correctingCard (sw2 : UInt8) : (correctingCard sw2).Restrained := by
  rintro (_ | _) command response h
  · cases h
    exact Nat.zero_le _
  · cases h
    rw [List.length_replicate]

/-- After the correction the card gives what is expected. -/
theorem run_readCorrected_correctingCard (ho : offset ≤ maxShortOffset) {length : Nat}
    (hl : length ≤ Apdu.maxExtendedNe) (sw2 : UInt8) (log : List Event) :
    ((readCorrected offset length).run (correctingCard sw2) ⟨true, none, [], log⟩).1 =
      .ok (List.replicate length 0) := by
  cases length with
  | zero => rfl
  | succ length =>
    have hexpected : (readCommand offset (length + 1)).body.expectedLength = some (length + 1) := by
      rw [expectedLength_readCommand offset (Nat.succ_pos length), if_pos ho, Nat.min_eq_left hl]
    show ((Dialogue.ofExcept (readData offset (List.replicate
      ((readCommand offset (length + 1)).body.expectedLength.getD 0) 0))).run _ _).1 = _
    rw [hexpected, readData, if_pos ho]
    rfl

/-- The bound is reached: what a restrained card asks for, it can also give. -/
theorem run_correctingCard (config : SessionConfig) (hl : 0 < length) (ho : offset ≤ maxShortOffset)
    (sw2 : UInt8) :
    ((readBinary config offset length).run (correctingCard sw2) ⟨false, none, [], []⟩).1 =
      .ok (List.replicate (correctedLength sw2) 0) := by
  obtain ⟨n, hn⟩ := Nat.exists_eq_succ_of_ne_zero (Nat.ne_of_gt (requestedLength_pos config hl))
  have hle : correctedLength sw2 ≤ Apdu.maxExtendedNe :=
    Nat.le_trans (correctedLength_bounds sw2).2 (by decide)
  show ((readUncorrected offset (requestedLength config length)).run _ _).1 = _
  rw [hn]
  exact run_readCorrected_correctingCard ho hle sw2 _

/-- The same card in a chip. However much is expected, it answers with 256 bytes at most. -/
def correctingInner (sw2 : UInt8) : InnerCard Bool where
  answer
    | false, _ => (⟨[], ⟨Apdu.StatusWord.wrongLength, sw2⟩⟩, true)
    | true, instruction =>
      (⟨List.replicate (min (instruction.expected.getD 0) Apdu.maxShortNe) 0, .success⟩, true)
  answersTlv _ _ := false
  length_answer := by
    rintro (_ | _) instruction
    · exact Nat.two_pow_pos 63
    · rw [List.length_replicate]
      exact Nat.lt_of_le_of_lt (Nat.min_le_right _ _) (by decide)

theorem restrained_correctingInner (sw2 : UInt8) : (correctingInner sw2).Restrained := by
  rintro (_ | _) instruction
  · exact Nat.zero_le _
  · show (List.replicate _ _).length ≤ _
    rw [List.length_replicate]
    exact Nat.min_le_left _ _

/-- What the chip gives is what it has asked for. -/
theorem answer_correctingInner (ho : offset ≤ maxShortOffset) (sw2 : UInt8) :
    (correctingInner sw2).answer true
        (Instruction.ofCommand (readCommand offset (correctedLength sw2))) =
      (⟨List.replicate (correctedLength sw2) 0, .success⟩, true) := by
  obtain ⟨hpos, hle⟩ := correctedLength_bounds sw2
  have hexpected : (readCommand offset (correctedLength sw2)).body.expectedLength =
      some (correctedLength sw2) := by
    rw [expectedLength_readCommand offset hpos, if_pos ho,
      Nat.min_eq_left (Nat.le_trans hle (by decide))]
  have hmin : min (correctedLength sw2) Apdu.maxShortNe = correctedLength sw2 := Nat.min_eq_left hle
  show (Apdu.Response.mk (List.replicate (min ((readCommand offset
    (correctedLength sw2)).body.expectedLength.getD 0) Apdu.maxShortNe) 0) .success, true) = _
  rw [hexpected, Option.getD_some, hmin]

/-- A correction that is not the second one has the command sent again. -/
theorem readUncorrected_corrected {card : Card σ} {link after : Link σ} {data : Bytes} {sw2 : UInt8}
    (hl : 0 < length) (ht : link.transmit card (readCommand offset length) =
      (.ok ⟨data, ⟨Apdu.StatusWord.wrongLength, sw2⟩⟩, after)) :
    let again := readCorrected offset (correctedLength sw2)
    (readUncorrected offset length).turns card link =
        correction (readCommand offset length) data sw2 :: again.turns card after ∧
      (readUncorrected offset length).run card link = again.run card after := by
  obtain ⟨n, rfl⟩ := Nat.exists_eq_succ_of_ne_zero (Nat.ne_of_gt hl)
  have hsuccess : (⟨Apdu.StatusWord.wrongLength, sw2⟩ : Apdu.StatusWord) ≠ .success := nofun
  have hend : (⟨Apdu.StatusWord.wrongLength, sw2⟩ : Apdu.StatusWord) ≠ .endOfFile := nofun
  simp only [readUncorrected, Dialogue.transmit, Dialogue.bind_send, Dialogue.turns,
    Dialogue.run, ht, Dialogue.ofExcept, Dialogue.bind_done, hsuccess, hend, ↓reduceIte,
    and_true]
  rfl

/-- After it, success ends the read. -/
theorem readCorrected_granted {card : Card σ} {link after : Link σ} {data chunk : Bytes}
    (hl : 0 < length)
    (ht : link.transmit card (readCommand offset length) = (.ok ⟨data, .success⟩, after))
    (hd : readData offset data = .ok chunk) :
    (readCorrected offset length).turns card link = [.granted (readCommand offset length, data)] ∧
      (readCorrected offset length).run card link = (.ok chunk, after) := by
  obtain ⟨n, rfl⟩ := Nat.exists_eq_succ_of_ne_zero (Nat.ne_of_gt hl)
  simp only [readCorrected, Dialogue.transmit, Dialogue.bind_send, Dialogue.turns, Dialogue.run, ht,
    Dialogue.ofExcept, Dialogue.bind_done, hd, ↓reduceIte, and_true]
  rfl

/-- Through any channel the chip gets two commands, and gives what it has asked for. -/
theorem run_correctingInner (config : SessionConfig) (hl : 0 < length)
    (ho : offset ≤ maxShortOffset)
    (sw2 : UInt8) {policy : MacPolicy} {link : Link (Chip Bool)} {c : Channel}
    (hc : link.channel = some c) (hchip : link.card.channel = c.withPolicy policy)
    (hmemory : link.card.inner.memory = false) :
    let dialogue := readBinary config offset length
    let data : Bytes := List.replicate (correctedLength sw2) 0
    dialogue.turns (Chip.respond (correctingInner sw2)) link =
        [correction (readCommand offset (requestedLength config length)) [] sw2,
          .granted (readCommand offset (correctedLength sw2), data)] ∧
      (dialogue.run (Chip.respond (correctingInner sw2)) link).1 = .ok data := by
  intro dialogue data
  have hrequest := length_request_readCommand
    (Nat.lt_of_le_of_lt ho (by decide) : offset < UInt64.size)
  have hread : readData offset data = .ok data := by rw [readData, if_pos ho]
  have hcorrects : (correctingInner sw2).answer link.card.inner.memory
      (Instruction.ofCommand (readCommand offset (requestedLength config length))) =
      (⟨[], ⟨Apdu.StatusWord.wrongLength, sw2⟩⟩, true) := by rw [hmemory]; rfl
  -- the answer leaves both ends of the channel together, so the chip gets the second command too
  obtain ⟨next, d, hfirst, hd, hchip', hmemory'⟩ :=
    Chip.transmit_of_answer hc hchip (hrequest _) hcorrects
  have hgives := answer_correctingInner ho sw2
  rw [← hmemory'] at hgives
  obtain ⟨after, -, hsecond, -⟩ := Chip.transmit_of_answer hd hchip' (hrequest _) hgives
  obtain ⟨hturns, hrun⟩ := readUncorrected_corrected (requestedLength_pos config hl) hfirst
  obtain ⟨hturns', hrun'⟩ := readCorrected_granted (correctedLength_bounds sw2).1 hsecond hread
  show (readUncorrected offset (requestedLength config length)).turns _ _ = _ ∧
    ((readUncorrected offset (requestedLength config length)).run _ _).1 = _
  rw [hturns, hrun, hturns', hrun']
  exact ⟨rfl, rfl⟩

/-- **What a read comes to.** If no answer brings more data than its command expects, a read that
succeeds gives no more bytes than the card has asked for, if it has corrected the length. It gives
no more than the caller wants if the card has not asked for more than that. But a card that keeps to
what is expected can ask for more, and all of it is the result. -/
theorem readBinary_amount (config : SessionConfig) (offset length : Nat) {σ : Type}
    {card : Card σ} {link : Link σ} {data : Bytes}
    (hw : ∀ turn ∈ (readBinary config offset length).turns card link, turn.Within)
    (hrun : ((readBinary config offset length).run card link).1 = .ok data) :
    let turns := (readBinary config offset length).turns card link
    (∀ command bytes sw2, correction command bytes sw2 ∈ turns →
      data.length ≤ correctedLength sw2) ∧
    ((∀ command bytes sw2, correction command bytes sw2 ∈ turns →
      correctedLength sw2 ≤ length) → data.length ≤ length) ∧
    (0 < length → offset ≤ maxShortOffset → ∀ sw2, (correctingCard sw2).Restrained ∧
      ((readBinary config offset length).run (correctingCard sw2) ⟨false, none, [], []⟩).1 =
        .ok (List.replicate (correctedLength sw2) 0)) := by
  intro turns
  have hattempts := readUncorrected_attempts offset (requestedLength config length) card link
  obtain ⟨hcorrection, hlength⟩ := hattempts.amount hw hrun
  have hbound : ∀ command bytes sw2, correction command bytes sw2 ∈ turns →
      data.length ≤ correctedLength sw2 :=
    fun command bytes sw2 hm => (hcorrection command bytes sw2 hm).2
  refine ⟨hbound, fun hasked => ?_, fun hl ho sw2 =>
    ⟨restrained_correctingCard sw2, run_correctingCard config hl ho sw2⟩⟩
  -- without a correction the requested length itself is the bound
  by_cases hc : ∃ turn ∈ turns, Corrects turn
  · obtain ⟨_, hm, command, bytes, sw2, rfl⟩ := hc
    exact Nat.le_trans (hbound command bytes sw2 hm) (hasked command bytes sw2 hm)
  · have hnot : ∀ turn ∈ turns, ¬ Corrects turn := fun turn hm hcorrects =>
      hc ⟨turn, hm, hcorrects⟩
    exact Nat.le_trans (hlength hnot) (requestedLength_le config length)

/-- A card that asks for five bytes where sixteen are wanted, on its own and in a chip at the other
end of any channel. -/
theorem readBinary_amount_correctingCard :
    let dialogue := readBinary {} 0 16
    let link : Link Bool := ⟨false, none, [], []⟩
    let data : Bytes := List.replicate 5 0
    ((∀ turn ∈ dialogue.turns (correctingCard 0x05) link, turn.Within) ∧
      (dialogue.run (correctingCard 0x05) link).1 = .ok data ∧
      (∀ command bytes sw2, correction command bytes sw2 ∈ dialogue.turns
        (correctingCard 0x05) link → data.length ≤ correctedLength sw2) ∧
      data.length ≤ 16) ∧
    ∀ (c : Channel) (policy : MacPolicy),
      let link : Link (Chip Bool) :=
        ⟨⟨c.withPolicy policy, ⟨false, []⟩⟩, some c, [], []⟩
      let card := Chip.respond (correctingInner 0x05)
      (∀ turn ∈ dialogue.turns card link, turn.Within) ∧
        (dialogue.run card link).1 = .ok data ∧
        (∀ command bytes sw2, correction command bytes sw2 ∈ dialogue.turns card link →
          data.length ≤ correctedLength sw2) ∧
        data.length ≤ 16 := by
  intro dialogue link data
  -- the only correction is to five bytes
  have hasked : ∀ command bytes sw2, correction command bytes sw2 ∈
      [correction (readCommand 0 16) [] 0x05, .granted (readCommand 0 5, data)] →
        correctedLength sw2 ≤ 16 := by
    intro command bytes sw2 hm
    rcases List.mem_cons.1 hm with heq | hm
    · cases heq
      decide
    · cases List.mem_singleton.1 hm
  constructor
  · have hw : ∀ turn ∈ dialogue.turns (correctingCard 0x05) link, turn.Within :=
      (rations_of_restrained (restrained_correctingCard 0x05) 0).readBinary_within {} 16 rfl
    have hrun : (dialogue.run (correctingCard 0x05) link).1 = .ok data :=
      run_correctingCard {} (by decide) (by decide) 0x05
    have hturns : dialogue.turns (correctingCard 0x05) link =
        [correction (readCommand 0 16) [] 0x05, .granted (readCommand 0 5, data)] := by
      with_unfolding_all rfl
    obtain ⟨hcorrection, hlength, -⟩ := readBinary_amount {} 0 16 hw hrun
    exact ⟨hw, hrun, hcorrection, hlength (hturns ▸ hasked)⟩
  · intro c policy link card
    have hw : ∀ turn ∈ dialogue.turns card link, turn.Within :=
      (rations_of_inner (restrained_correctingInner 0x05) policy
        (by decide)).readBinary_within {} 16
        ⟨c, rfl, rfl⟩
    obtain ⟨hturns, hrun⟩ := run_correctingInner {} (show 0 < 16 by decide)
      (show 0 ≤ maxShortOffset by decide)
      0x05 (rfl : link.channel = some c) (rfl : link.card.channel = c.withPolicy policy) rfl
    obtain ⟨hcorrection, hlength, -⟩ := readBinary_amount {} 0 16 hw hrun
    exact ⟨hw, hrun, hcorrection, hlength (hturns ▸ hasked)⟩

/-- **A card can give more than the caller wants.** It asks for four bytes where two are wanted, and
then the four are the result. -/
theorem corrected_read_exceeds_length :
    let card : Card (List Bytes) := Card.bounded Card.replay
    let link : Link (List Bytes) :=
      ⟨[[0x6C, 0x04], [0xAA, 0xBB, 0xCC, 0xDD, 0x90, 0x00]], none, [], []⟩
    card.Restrained ∧
      ((readBinary {} 0 2).run card link).1 = .ok [0xAA, 0xBB, 0xCC, 0xDD] ∧
      ¬ [0xAA, 0xBB, 0xCC, 0xDD].length ≤ 2 := by
  intro card link
  refine ⟨Card.restrained_bounded _, ?_, by decide⟩
  with_unfolding_all rfl

end File
end TravelDocument

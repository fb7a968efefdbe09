import TravelDocument.File.Reading
import TravelDocument.Proofs.Apdu.Command
import TravelDocument.Proofs.Dialogue.Turns

/-!
# When the card corrects the length of a read

A card that does not like the expected length of a READ BINARY answers `6Cxx`. `Attempts` are the
turns that one read can take. From these follows what a correction leads to: the first one to the
same command with another expected length, the second one to the end of the read (`Corrected`). With
the offset in the header that length is the one the card has asked for. With the offset in the
request data it is not: room for the object around the data is made once more
(`readBinary_corrected`).
-/

namespace TravelDocument.File

/-- A command that is answered with status `6Cxx`. -/
def correction (command : Apdu.Command) (data : Bytes) (sw2 : UInt8) : Turn :=
  .exchange command (.ok ⟨data, ⟨Apdu.StatusWord.wrongLength, sw2⟩⟩)

/-- In this turn the card asks for another length. -/
def Corrects (turn : Turn) : Prop :=
  ∃ command data sw2, turn = correction command data sw2

/-! ## The turns of a read -/

/-- The turns of a read of up to `length` bytes and what it ends with. The flag tells whether the
card has corrected the length before. -/
inductive Attempts (offset : Nat) : Bool → Nat → List Turn → Outcome Bytes → Prop
  | nothing {corrected : Bool} : Attempts offset corrected 0 [] (.ok [])
  | unanswered {corrected : Bool} {length : Nat} {e : Error} :
    Attempts offset corrected (length + 1)
      [.exchange (readCommand offset (length + 1)) (.error e)] (.failed e)
  | read {corrected : Bool} {length : Nat} {data chunk : Bytes} :
    readData offset data = .ok chunk →
    Attempts offset corrected (length + 1) [.granted (readCommand offset (length + 1), data)]
      (.ok chunk)
  | unreadable {corrected : Bool} {length : Nat} {data : Bytes} {e : Error} :
    readData offset data = .error e →
    Attempts offset corrected (length + 1) [.granted (readCommand offset (length + 1), data)]
      (.failed e)
  /-- The file ends before the last byte that was asked for. -/
  | shorter {corrected : Bool} {length : Nat} {data : Bytes} {turns : List Turn}
      {outcome : Outcome Bytes} :
    Attempts offset corrected length turns outcome →
    Attempts offset corrected (length + 1)
      (.exchange (readCommand offset (length + 1)) (.ok ⟨data, .endOfFile⟩) :: turns) outcome
  | corrected {length : Nat} {data : Bytes} {sw2 : UInt8} {turns : List Turn}
    {outcome : Outcome Bytes} :
    Attempts offset true (correctedLength sw2) turns outcome →
    Attempts offset false (length + 1)
      (correction (readCommand offset (length + 1)) data sw2 :: turns) outcome
  | refused {corrected : Bool} {length : Nat} {data : Bytes} {status : Apdu.StatusWord} :
    status ≠ .success → status ≠ .endOfFile →
    (status.sw1 = Apdu.StatusWord.wrongLength → corrected = true) →
    Attempts offset corrected (length + 1)
      [.exchange (readCommand offset (length + 1)) (.ok ⟨data, status⟩)]
      (.failed (.protocolAbort .readBinary status))

variable {σ : Type} {offset length : Nat} {corrected : Bool} {turns before after : List Turn}
  {outcome : Outcome Bytes} {command : Apdu.Command} {data : Bytes} {sw2 : UInt8}

/-- Data ends the attempts, whether it can be read or not. -/
theorem attempts_granted (offset length : Nat) (corrected : Bool) (data : Bytes) (card : Card σ)
    (link : Link σ) :
    Attempts offset corrected (length + 1)
      (.granted (readCommand offset (length + 1), data) ::
        (Dialogue.ofExcept (readData offset data)).turns card link)
      ((Dialogue.ofExcept (readData offset data)).run card link).1 := by
  cases h : readData offset data with
  | error e => exact .unreadable h
  | ok chunk => exact .read h

/-- One command of a read: at the end of the file there is one `again` for a byte less. -/
def attempt (offset length : Nat) (again : Dialogue Bytes)
    (refuse : Apdu.Response → Dialogue Bytes) :
    Dialogue Bytes := do
  let response ← Dialogue.transmit (readCommand offset length)
  if response.status = .success then Dialogue.ofExcept (readData offset response.data)
  else if response.status = .endOfFile then again
  else refuse response

theorem attempts_attempt {card : Card σ} {again : Dialogue Bytes}
    {refuse : Apdu.Response → Dialogue Bytes}
    (hagain : ∀ link, Attempts offset corrected length (again.turns card link)
      (again.run card link).1)
    (hrefuse : ∀ (data : Bytes) (status : Apdu.StatusWord) (link : Link σ),
      status ≠ .success → status ≠ .endOfFile → Attempts offset corrected (length + 1)
        (.exchange (readCommand offset (length + 1)) (.ok ⟨data, status⟩) ::
          (refuse ⟨data, status⟩).turns card link)
        ((refuse ⟨data, status⟩).run card link).1) (link : Link σ) :
    Attempts offset corrected (length + 1)
      ((attempt offset (length + 1) again refuse).turns card link)
      ((attempt offset (length + 1) again refuse).run card link).1 := by
  rw [attempt, Dialogue.transmit, Dialogue.bind_send, Dialogue.turns, Dialogue.run]
  rcases link.transmit card (readCommand offset (length + 1))
    with ⟨_ | ⟨data, status⟩, next⟩
  · exact .unanswered
  · simp only [Dialogue.ofExcept, Dialogue.bind_done]
    split
    · rename_i hs
      rw [hs]
      exact attempts_granted offset length corrected data card next
    · rename_i hs
      split
      · rename_i heof
        rw [heof]
        exact .shorter (hagain next)
      · rename_i heof
        exact hrefuse data status next hs heof

theorem readCorrected_attempts (offset length : Nat) (card : Card σ) (link : Link σ) :
    Attempts offset true length ((readCorrected offset length).turns card link)
      ((readCorrected offset length).run card link).1 := by
  induction length generalizing link with
  | zero => exact .nothing
  | succ length ih =>
    exact attempts_attempt ih (fun _ _ _ hs heof => .refused hs heof fun _ => rfl) link

theorem readUncorrected_attempts (offset length : Nat) (card : Card σ) (link : Link σ) :
    Attempts offset false length ((readUncorrected offset length).turns card link)
      ((readUncorrected offset length).run card link).1 := by
  induction length generalizing link with
  | zero => exact .nothing
  | succ length ih =>
    refine attempts_attempt ih (fun data status next hs heof => ?_) link
    obtain ⟨sw1, sw2⟩ := status
    dsimp only
    split
    · rename_i hwrong
      rw [hwrong]
      exact .corrected (readCorrected_attempts offset (correctedLength sw2) card next)
    · rename_i hwrong
      exact .refused hs heof fun h => absurd h hwrong

/-! ## What follows a correction -/

theorem not_corrects_endOfFile (command : Apdu.Command) (data : Bytes) :
    ¬ Corrects (.exchange command (.ok ⟨data, .endOfFile⟩)) := by
  rintro ⟨_, _, _, h⟩
  cases h

theorem corrects_correction (command : Apdu.Command) (data : Bytes) (sw2 : UInt8) :
    Corrects (correction command data sw2) :=
  ⟨command, data, sw2, rfl⟩

/-- A correction behind the first turn, if that is none. -/
theorem split_cons {turn : Turn} {rest : List Turn} (ht : ¬ Corrects turn)
    (h : turn :: rest = before ++ correction command data sw2 :: after) :
    ∃ later, before = turn :: later ∧ rest = later ++ correction command data sw2 :: after := by
  rcases List.cons_eq_append_iff.1 h with ⟨-, heq⟩ | hlater
  · cases heq
    exact absurd (corrects_correction command data sw2) ht
  · exact hlater

theorem split_singleton {turn : Turn}
    (h : [turn] = before ++ correction command data sw2 :: after) :
    before = [] ∧ turn = correction command data sw2 ∧ after = [] := by
  rcases List.cons_eq_append_iff.1 h with ⟨hb, heq⟩ | ⟨later, -, hnil⟩
  · cases heq
    exact ⟨hb, rfl, rfl⟩
  · exact absurd hnil.symm (List.append_ne_nil_of_right_ne_nil _ (List.cons_ne_nil _ _))

/-- A card asks for at least one byte and for at most 256. -/
theorem correctedLength_bounds (sw2 : UInt8) :
    0 < correctedLength sw2 ∧ correctedLength sw2 ≤ 256 := by
  have h := sw2.toNat_lt
  rw [correctedLength]
  split
  · decide
  · rename_i hne
    exact ⟨Nat.pos_of_ne_zero fun hz => hne (UInt8.toNat.inj hz), by omega⟩

namespace Attempts

/-- The attempts start with a command for the whole length. -/
theorem starts (h : Attempts offset corrected length turns outcome) (hl : 0 < length) :
    ∃ answer rest, turns = .exchange (readCommand offset length) answer :: rest := by
  cases h with
  | nothing => exact absurd hl (Nat.lt_irrefl 0)
  | unanswered | read _ | unreadable _ | shorter _ | corrected _ | refused _ _ _ =>
    exact ⟨_, _, rfl⟩

/-- The first correction is followed by the same read for the length that the card has asked for. -/
theorem first (h : Attempts offset corrected length turns outcome) (hc : corrected = false)
    (hb : ∀ turn ∈ before, ¬ Corrects turn)
    (hs : turns = before ++ correction command data sw2 :: after) :
    (∃ asked, command = readCommand offset asked) ∧
      ∃ answer rest, after = .exchange (readCommand offset (correctedLength sw2)) answer ::
        rest := by
  induction h generalizing before with
  | nothing => exact absurd hs.symm (List.append_ne_nil_of_right_ne_nil _ (List.cons_ne_nil _ _))
  | unanswered | read _ | unreadable _ =>
    obtain ⟨-, ht, -⟩ := split_singleton hs
    cases ht
  | shorter _ ih =>
    obtain ⟨later, rfl, hrest⟩ := split_cons (not_corrects_endOfFile _ _) hs
    exact ih hc (fun turn ht => hb turn (List.mem_cons_of_mem _ ht)) hrest
  | corrected h _ =>
    -- this correction is the one in question, since no earlier turn corrects
    rcases List.cons_eq_append_iff.1 hs with ⟨-, heq⟩ | ⟨later, rfl, -⟩
    · cases heq
      exact ⟨⟨_, rfl⟩, h.starts (correctedLength_bounds _).1⟩
    · exact absurd (corrects_correction _ _ _) (hb _ List.mem_cons_self)
  | refused _ _ hwrong =>
    obtain ⟨-, ht, -⟩ := split_singleton hs
    cases ht
    rw [hwrong rfl] at hc
    cases hc

/-- The next correction is the end. If none is known from before the attempts, one has to come
first. -/
theorem second (h : Attempts offset corrected length turns outcome)
    (hb : corrected = false → ∃ turn ∈ before, Corrects turn)
    (hs : turns = before ++ correction command data sw2 :: after) :
    after = [] ∧ outcome = .failed
      (.protocolAbort .readBinary ⟨Apdu.StatusWord.wrongLength, sw2⟩) := by
  induction h generalizing before with
  | nothing => exact absurd hs.symm (List.append_ne_nil_of_right_ne_nil _ (List.cons_ne_nil _ _))
  | unanswered | read _ | unreadable _ =>
    obtain ⟨-, ht, -⟩ := split_singleton hs
    cases ht
  | shorter _ ih =>
    obtain ⟨later, rfl, hrest⟩ := split_cons (not_corrects_endOfFile _ _) hs
    refine ih (fun hc => ?_) hrest
    obtain ⟨turn, hm, ht⟩ := hb hc
    rcases List.mem_cons.1 hm with rfl | hm
    · exact absurd ht (not_corrects_endOfFile _ _)
    · exact ⟨turn, hm, ht⟩
  | corrected _ ih =>
    rcases List.cons_eq_append_iff.1 hs with ⟨rfl, -⟩ | ⟨later, -, hs⟩
    · -- the first correction has none before it
      obtain ⟨_, hm, -⟩ := hb rfl
      cases hm
    · exact ih (fun h => absurd h (by decide)) hs
  | refused _ _ _ =>
    obtain ⟨-, ht, hafter⟩ := split_singleton hs
    cases ht
    exact ⟨hafter, rfl⟩

end Attempts

/-! ## The length that is asked for -/

/-- The commands of one read have the header in common. -/
theorem header_readCommand (offset a b : Nat) :
    (readCommand offset a).header = (readCommand offset b).header := by
  rw [readCommand, readCommand]
  split <;> rfl

/-- So they have the request data. -/
theorem request_readCommand (offset a b : Nat) :
    (readCommand offset a).body.request = (readCommand offset b).body.request := by
  rw [readCommand, readCommand]
  split
  · exact (Apdu.Body.request_shortest_nil _).trans (Apdu.Body.request_shortest_nil _).symm
  · exact (Apdu.Body.request_shortest_eq _ _).trans (Apdu.Body.request_shortest_eq _ _).symm

theorem expectedLength_readCommand (offset : Nat) {length : Nat} (h : 0 < length) :
    (readCommand offset length).body.expectedLength =
      some (min (if offset ≤ maxShortOffset then length else wrappedLength length)
        Apdu.maxExtendedNe) := by
  rw [readCommand]
  split
  · exact Apdu.Body.expectedLength_shortest _ h
  · have hw : 0 < wrappedLength length := by
      rw [wrappedLength]
      simp only [Apdu.maxShortNe]
      split
      · omega
      · split <;> omega
    exact Apdu.Body.expectedLength_shortest _ hw

/-- The expected length after the card has asked for another one. At a large offset there is room
for the tag and length of the object around the data, for which the card has made room already. -/
def retriedLength (offset : Nat) (sw2 : UInt8) : Nat :=
  if offset ≤ maxShortOffset ∨ sw2 = 0 then Apdu.Body.shortNe sw2
  else min (sw2.toNat + if sw2.toNat ≤ 127 then 2 else 3) 256

theorem retriedLength_eq_iff (offset : Nat) (sw2 : UInt8) :
    retriedLength offset sw2 = Apdu.Body.shortNe sw2 ↔ offset ≤ 0x7FFF ∨ sw2 = 0 := by
  have h := sw2.toNat_lt
  rw [retriedLength]
  split
  · rename_i hs
    exact iff_of_true rfl hs
  · rename_i hs
    refine iff_of_false ?_ hs
    rw [Apdu.Body.shortNe, if_neg fun hz => hs (.inr hz)]
    split <;> omega

theorem expectedLength_retried (offset : Nat) (sw2 : UInt8) :
    (readCommand offset (correctedLength sw2)).body.expectedLength =
      some (retriedLength offset sw2) := by
  have hbounds := correctedLength_bounds sw2
  rw [expectedLength_readCommand offset hbounds.1, retriedLength]
  congr 1
  by_cases hs : offset ≤ maxShortOffset
  · rw [if_pos hs, if_pos (.inl hs)]
    exact Nat.min_eq_left (Nat.le_trans hbounds.2 (by decide))
  · rw [if_neg hs]
    by_cases hz : sw2 = 0
    · rw [if_pos (.inr hz), hz]
      rfl
    · rw [if_neg (not_or.2 ⟨hs, hz⟩), correctedLength, if_neg hz, wrappedLength]
      have := sw2.toNat_lt
      simp only [Apdu.maxShortNe, Apdu.maxExtendedNe]
      split
      · omega
      · split <;> omega

/-! ## Corrections of a read -/

/-- The card may correct the length once, and then the read goes on with the same command for
another `expected` length. -/
structure Corrected (expected : UInt8 → Nat) (turns : List Turn) (outcome : Outcome Bytes) :
    Prop where
  first : ∀ before command data sw2 after, turns = before ++ correction command data
    sw2 :: after →
    (∀ turn ∈ before, ¬ Corrects turn) → ∃ next answer rest,
      after = .exchange next answer :: rest ∧
      next.header = command.header ∧ next.body.request = command.body.request ∧
      next.body.expectedLength = some (expected sw2)
  second : ∀ before command data sw2 after, turns = before ++ correction command data
    sw2 :: after → (∃ turn ∈ before, Corrects turn) →
    after = [] ∧ outcome = .failed
      (.protocolAbort .readBinary ⟨Apdu.StatusWord.wrongLength, sw2⟩)

theorem Attempts.corrections (h : Attempts offset false length turns outcome) :
    Corrected (retriedLength offset) turns outcome := by
  constructor
  · intro before command data sw2 after hs hb
    obtain ⟨⟨asked, rfl⟩, answer, rest, rfl⟩ := h.first rfl hb hs
    exact ⟨_, answer, rest, rfl, header_readCommand _ _ _, request_readCommand _ _ _,
      expectedLength_retried offset sw2⟩
  · intro before command data sw2 after hs hb
    exact h.second (fun _ => hb) hs

/-- **A corrected read is sent once more**, with the same header and the same request data; a second
correction ends it. The card gets to see the length it has asked for if the offset is in the header,
and also if it has asked for 256 bytes, but in no other case. The log has the same commands. -/
theorem readBinary_corrected (config : SessionConfig) (offset length : Nat) {σ : Type}
    (card : Card σ) (link : Link σ) :
    let dialogue := readBinary config offset length
    (∃ events, (dialogue.run card link).2.log = events ++ link.log ∧
      events.reverse.filterMap Event.request? = Turn.commands (dialogue.turns card link)) ∧
    Corrected (retriedLength offset) (dialogue.turns card link) (dialogue.run card link).1 ∧
    ∀ sw2, retriedLength offset sw2 = Apdu.Body.shortNe sw2 ↔
      offset ≤ 0x7FFF ∨ sw2 = 0 := by
  intro dialogue
  obtain ⟨events, hlog, hcommands, -⟩ := dialogue.run_log card link
  exact ⟨⟨events, hlog, hcommands⟩, (readUncorrected_attempts offset _ card link).corrections,
    retriedLength_eq_iff offset⟩

/-- A link to a card that asks for five bytes, and then gives an answer. -/
def correctingLink (answer : Bytes) : Link (List Bytes) :=
  ⟨[[0x6C, 0x05], answer], none, [], []⟩

/-- The offset is in the header, and five bytes are expected the second time. -/
theorem readBinary_corrected_inHeader :
    let dialogue := readBinary {} 0 16
    let link := correctingLink [0x0A, 0x0B, 0x0C, 0x0D, 0x0E, 0x90, 0x00]
    ∃ next answer, dialogue.turns Card.replay link =
        [correction ⟨⟨0x00, 0xB0, 0x00, 0x00⟩, .case2Short 16⟩ [] 0x05,
          .exchange next answer] ∧
      next.header = ⟨0x00, 0xB0, 0x00, 0x00⟩ ∧ next.body.request = none ∧
      next.body.expectedLength = some 5 := by
  intro dialogue link
  have hturns : dialogue.turns Card.replay link =
      [correction ⟨⟨0x00, 0xB0, 0x00, 0x00⟩, .case2Short 16⟩ [] 0x05,
        .granted (⟨⟨0x00, 0xB0, 0x00, 0x00⟩, .case2Short 5⟩,
          [0x0A, 0x0B, 0x0C, 0x0D, 0x0E])] := by
    with_unfolding_all rfl
  obtain ⟨-, hcorrected, hasked⟩ := readBinary_corrected {} 0 16 Card.replay link
  obtain ⟨next, answer, rest, hafter, hheader, hrequest, hlength⟩ :=
    hcorrected.first [] _ _ _ _ hturns fun _ h => absurd h List.not_mem_nil
  cases hafter
  refine ⟨_, _, hturns, hheader, hrequest, ?_⟩
  rw [hlength, (hasked 0x05).2 (.inl (Nat.zero_le _))]
  rfl

/-- **At a large offset the card does not get to see the length it has asked for.** It asks for five
bytes, and the next command expects seven. -/
theorem long_read_not_corrected :
    let dialogue := readBinary {} 0x8000 16
    let link := correctingLink [0x53, 0x03, 0xAA, 0xBB, 0xCC, 0x90, 0x00]
    dialogue.turns Card.replay link =
        [correction
            ⟨⟨0x00, 0xB1, 0x00, 0x00⟩, .case4Short [0x54, 0x02, 0x80, 0x00] 18⟩ [] 0x05,
          .granted (⟨⟨0x00, 0xB1, 0x00, 0x00⟩, .case4Short [0x54, 0x02, 0x80, 0x00] 7⟩,
            [0x53, 0x03, 0xAA, 0xBB, 0xCC])] ∧
      ¬ Corrected Apdu.Body.shortNe (dialogue.turns Card.replay link)
        (dialogue.run Card.replay link).1 := by
  intro dialogue link
  have hturns : dialogue.turns Card.replay link =
      [correction ⟨⟨0x00, 0xB1, 0x00, 0x00⟩, .case4Short [0x54, 0x02, 0x80, 0x00] 18⟩ [] 0x05,
        .granted (⟨⟨0x00, 0xB1, 0x00, 0x00⟩, .case4Short [0x54, 0x02, 0x80, 0x00] 7⟩,
          [0x53, 0x03, 0xAA, 0xBB, 0xCC])] := by
    with_unfolding_all rfl
  refine ⟨hturns, fun h => ?_⟩
  obtain ⟨next, answer, rest, hafter, -, -, hlength⟩ :=
    h.first [] _ _ _ _ hturns fun _ h => absurd h List.not_mem_nil
  cases hafter
  exact absurd hlength (by decide)

end TravelDocument.File

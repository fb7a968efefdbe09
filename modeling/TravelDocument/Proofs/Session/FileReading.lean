import TravelDocument.Proofs.File.Reading
import TravelDocument.Proofs.SecureMessaging.Serving
import TravelDocument.Proofs.Session.Steps

/-!
# Sessions read files as they are

A card holds a file if it answers READ BINARY from it, on its own (`Card.Holds`) or inside a chip at
the other end of a channel (`InnerCard.Holds`). Either way its link serves the file, so a session
that reads it gets its contents (`Session.perform_readContents`).
-/

namespace TravelDocument

variable {σ : Type} {file : Bytes} {selected : σ → Prop}

/-! ## Cards that hold a file -/

/-- In the memories in `selected` the card answers READ BINARY from the file, and stays among
them. -/
def Card.Holds (card : Card σ) (file : Bytes) (selected : σ → Prop) : Prop :=
  ∀ memory, selected memory → ∀ command response, command.header.cla = 0x00 →
    File.Reply file (Instruction.ofCommand command) response →
    ∃ after, card memory command = (.ok response, after) ∧ selected after

/-- The same for a card inside a chip, where the class says that there is Secure Messaging. -/
def InnerCard.Holds (inner : InnerCard σ) (file : Bytes) (selected : σ → Prop) : Prop :=
  ∀ memory, selected memory → ∀ instruction response, instruction.header.cla = 0x0C →
    File.Reply file instruction response →
    ∃ after, inner.answer memory instruction = (response, after) ∧ selected after

theorem Instruction.cla_ofCommand {command : Apdu.Command} (h : command.header.cla = 0x00) :
    (Instruction.ofCommand command).header.cla = 0x0C := by
  show command.header.cla ||| 0x0C = 0x0C
  rw [h]
  rfl

theorem Card.Holds.serves {card : Card σ} (h : card.Holds file selected) :
    File.Serves card file fun link => link.channel = none ∧ selected link.card := by
  rintro ⟨memory, channel, entropy, log⟩ ⟨hc, hm⟩ command response hclass - hreply
  obtain rfl : channel = none := hc
  obtain ⟨after, hcard, hafter⟩ := h memory hm command response hclass hreply
  refine ⟨⟨after, none, entropy, .exchange command command (.ok response) :: log⟩, ?_,
    rfl, hafter⟩
  simp only [Link.transmit, Link.transmitPlain, Link.exchange, hcard, Except.mapError]

theorem InnerCard.Holds.serves {inner : InnerCard σ} (h : inner.Holds file selected)
    (policy : MacPolicy) :
    File.Serves (Chip.respond inner) file fun link => ∃ c, link.channel = some c ∧
      link.card.channel = c.withPolicy policy ∧ selected link.card.inner.memory := by
  rintro link ⟨c, hc, hchip, hm⟩ command response hclass hlength hreply
  obtain ⟨after, hanswer, hafter⟩ := h _ hm _ response (Instruction.cla_ofCommand hclass) hreply
  obtain ⟨next, d, ht, hd, hchip', hmemory⟩ := Chip.transmit_of_answer hc hchip hlength hanswer
  exact ⟨next, ht, d, hd, hchip', hmemory ▸ hafter⟩

/-! ## A card with a file -/

/-- What a card that holds a file and does nothing else answers: to READ BINARY from the file, and
to everything else without data. -/
def File.respond (file : Bytes) (instruction : Instruction) : Apdu.Response :=
  let ne := min (instruction.expected.getD 0) Apdu.maxExtendedNe
  if instruction.header.ins = 0xB0 then
    ⟨(file.drop (256 * instruction.header.p1.toNat + instruction.header.p2.toNat)).take ne,
      .success⟩
  else if instruction.header.ins = 0xB1 then
    match DataObject.single? 0x54 (instruction.request.getD []) with
    | some offset =>
      ⟨(DataObject.encode 0x53 (File.longestPiece (file.drop (Bytes.toNat offset)) ne)).take ne,
        .success⟩
    | none => ⟨[], .success⟩
  else ⟨[], .success⟩

/-- The card on its own, without Secure Messaging. -/
def InnerCard.holding (file : Bytes) : InnerCard Unit where
  answer := fun _ instruction => (File.respond file instruction, ())
  answersTlv := fun _ instruction => instruction.header.ins.toNat % 2 == 1
  length_answer := by
    intro memory instruction
    have hne : min (instruction.expected.getD 0) Apdu.maxExtendedNe ≤ 65536 :=
      Nat.min_le_right _ _
    have htake : ∀ data : Bytes,
        (data.take (min (instruction.expected.getD 0) Apdu.maxExtendedNe)).length < 2 ^ 63 := by
      intro data
      rw [List.length_take]
      omega
    rw [File.respond]
    dsimp only
    split
    · exact htake _
    · split
      · split
        · exact htake _
        · exact Nat.two_pow_pos 63
      · exact Nat.two_pow_pos 63

theorem InnerCard.holds_holding (hl : file.length < UInt64.size) :
    (InnerCard.holding file).Holds file fun _ => True := by
  intro memory _ instruction response _ hreply
  refine ⟨(), Prod.ext ?_ rfl, trivial⟩
  show File.respond file instruction = response
  cases hreply with
  | @short _ p1 p2 ne hp ho hne =>
    have hmin : min ne Apdu.maxExtendedNe = ne := Nat.min_eq_left hne
    simp only [File.respond, ↓reduceIte, Option.getD_some, hmin]
  | @long _ offset ne piece ho hne hpiece =>
    have hmin : min ne Apdu.maxExtendedNe = ne := Nat.min_eq_left hne
    have hins : ¬ (0xB1 : UInt8) = 0xB0 := by decide
    have hoffset : DataObject.single? 0x54 (DataObject.encode 0x54 (Bytes.minimal offset)) =
        some (Bytes.minimal offset) := by
      refine DataObject.single?_encode (DataObject.endsItself_of_lt (by decide) (by decide)) ?_
      have := Bytes.length_minimal_le (Nat.lt_trans ho hl) (show 0 < 8 by decide)
      omega
    have hlongest : File.longestPiece (file.drop offset) ne = piece :=
      (File.isLongestPiece_longestPiece _ hpiece.two_le).unique hpiece
    simp only [File.respond, hins, ↓reduceIte, Option.getD_some, hmin, hoffset,
      Bytes.toNat_minimal, hlongest, List.take_of_length_le hpiece.fits]

theorem InnerCard.Holds.plain {inner : InnerCard σ} (h : inner.Holds file selected) :
    inner.plain.Holds file selected := by
  intro memory hm command response hclass hreply
  obtain ⟨after, hanswer, hafter⟩ :=
    h memory hm _ response (Instruction.cla_ofCommand hclass) hreply
  refine ⟨after, ?_, hafter⟩
  rw [InnerCard.plain, hanswer]

/-! ## Reading a file -/

namespace Session

/-- A session that is not blocked returns what a file is read as. -/
theorem perform_readContents_run {config : SessionConfig} {card : Card σ} {s : Session σ}
    {id : FileIdentifier} {contents : Bytes} {after : Link σ} (hb : s.blocked = false)
    (ho : s.state ≠ .closed)
    (hrun : (File.read config id).run card s.link = (.ok contents, after)) :
    (s.perform config card (.readContents id)).1 = .ok (.bytes contents) := by
  have hstate : ¬ (s.blocked ∨ s.state = .closed) := by simp [hb, ho]
  have hdialogue : Dialogue.run card (do return Value.bytes (← File.read config id)) s.link =
      (.ok (.bytes contents), after) := by
    rw [Dialogue.run_bind, hrun]
    rfl
  rw [perform, Request.plan, execute, runCommand, if_neg hstate, runDialogue_eq, hdialogue]

/-- **A session reads files as they are.** Whatever the configuration says about the length of a
READ BINARY, reading a file from a card that holds it gives exactly the contents of the file, over a
plain link as well as over a channel to a chip with the card inside. -/
theorem perform_readContents {file contents : Bytes} (hf : File.IsContents file contents)
    (config : SessionConfig) (id : FileIdentifier) {σ : Type} (selected : σ → Prop)
    {data : Bytes} {memory : σ} (hm : selected memory) :
    (∀ (card : Card σ) (s : Session σ), s.blocked = false → s.state ≠ .closed →
      s.link.channel = none →
      card s.link.card (File.selectFileCommand id) = (.ok ⟨data, .success⟩, memory) →
      card.Holds file selected →
      (s.perform config card (.readContents id)).1 = .ok (.bytes contents)) ∧
    ∀ (inner : InnerCard σ) (s : Session (Chip σ)) (c : Channel) (policy : MacPolicy),
      s.blocked = false → s.state ≠ .closed → s.link.channel = some c →
      s.link.card.channel = c.withPolicy policy →
      inner.answer s.link.card.inner.memory (Instruction.ofCommand (File.selectFileCommand id)) =
        (⟨data, .success⟩, memory) →
      inner.Holds file selected →
      (s.perform config (Chip.respond inner) (.readContents id)).1 = .ok (.bytes contents) := by
  constructor
  · rintro card ⟨state, blocked, ⟨m, channel, entropy, log⟩⟩ hb ho hc hselect hholds
    obtain rfl : channel = none := hc
    have ht : Link.transmit card (File.selectFileCommand id) ⟨m, none, entropy, log⟩ =
        (.ok ⟨data, .success⟩, ⟨memory, none, entropy, .exchange (File.selectFileCommand id)
          (File.selectFileCommand id) (.ok ⟨data, .success⟩) :: log⟩) := by
      simp only [Link.transmit, Link.transmitPlain, Link.exchange, hselect, Except.mapError]
    -- selected over the plain link, which then serves the file
    obtain ⟨after, hrun, -⟩ := File.read_run hholds.serves config hf ht ⟨rfl, hm⟩
    exact perform_readContents_run hb ho hrun
  · intro inner s c policy hb ho hc hchip hselect hholds
    have hlength : ∀ request ∈ (File.selectFileCommand id).body.request,
        request.length < 2 ^ 63 := by
      intro request hrequest
      change request ∈ (Apdu.Body.shortest (Bytes.be 2 id.toNat) none).request at hrequest
      rw [Apdu.Body.eq_of_mem_request_shortest hrequest, Bytes.length_be]
      decide
    -- both ends move on by the same exchange and stay in step
    obtain ⟨next, d, ht, hd, hchip', hmemory⟩ :=
      Chip.transmit_of_answer hc hchip hlength hselect
    obtain ⟨after, hrun, -⟩ :=
      File.read_run (hholds.serves policy) config hf ht ⟨d, hd, hchip', hmemory ▸ hm⟩
    exact perform_readContents_run hb ho hrun

/-- An object of six bytes with something after it, read one byte at a time. -/
theorem perform_readContents_byteByByte :
    let file : Bytes := [0x60, 0x06, 0x01, 0x02, 0x03, 0x04, 0x05, 0x06, 0xFF]
    let config : SessionConfig := { maxReadLength := 0 }
    let inner := InnerCard.holding file
    let plain : Session Unit := ⟨.open, false, ⟨(), none, [], []⟩⟩
    let secured : Session (Chip Unit) := ⟨.bacAuthenticated, false,
      ⟨⟨Channel.workedExample, ⟨(), []⟩⟩, some Channel.workedExample, [], []⟩⟩
    (plain.perform config inner.plain (.readContents .common)).1 = .ok (.bytes (file.take 8)) ∧
      (secured.perform config (Chip.respond inner) (.readContents .common)).1 =
        .ok (.bytes (file.take 8)) := by
  intro file config inner plain secured
  have hf : File.IsContents file (file.take 8) := by
    refine @File.IsContents.object file [0x60] [0x06] [0x01, 0x02, 0x03, 0x04, 0x05, 0x06] [0xFF]
      rfl
      ?_ ?_ ?_ ?_
    · exact .short (by decide)
    · exact .short (by decide)
    · decide
    · decide
  have hholds : inner.Holds file fun _ => True := InnerCard.holds_holding (by decide)
  obtain ⟨hplain, hprotected⟩ := perform_readContents hf config .common
    (fun _ : Unit => True) trivial
  exact ⟨hplain inner.plain plain rfl nofun rfl rfl hholds.plain,
    hprotected inner secured Channel.workedExample .strict rfl nofun rfl rfl rfl hholds⟩

end Session
end TravelDocument

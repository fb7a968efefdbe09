import TravelDocument.Proofs.File.ReadBounds
import TravelDocument.Proofs.File.Reading
import TravelDocument.Proofs.Session.FailureCauses

/-!
# Files and certificates travel in short commands

Without extended length fields a READ BINARY asks for at most 256 bytes, whatever length the card
corrects it to, and has little request data; a block of a certificate is at most as long as
configured. Such commands are short and stay so under protection (`IsBrief`). `Terms.brief` are the
terms of the dialogues that read files and send certificates, and `perform_short` says what they
come to for a session.
-/

namespace TravelDocument

/-- READ BINARY and PSO:Verify Certificate. -/
def transferInstructions : List UInt8 := [0xB0, 0xB1, 0x2A]

/-- A short command with no more request data than leaves room for protection. -/
structure Apdu.Command.IsBrief (c : Apdu.Command) : Prop where
  isShort : c.IsShort
  length_request_le : ∀ data ∈ c.body.request, data.length ≤ Channel.maxBriefLc

theorem Apdu.Command.IsBrief.of_make {request : Bytes} (hr : request.length ≤ Channel.maxBriefLc)
    {expected : Option Nat} (he : ∀ ne ∈ expected, ne ≤ Apdu.maxShortNe) (cla ins p1 p2 : UInt8) :
    (Apdu.Command.make cla ins p1 p2 request expected).IsBrief where
  isShort := Apdu.isShort_shortest (Nat.le_trans hr (by decide)) he _
  length_request_le _ hdata := by rwa [Apdu.Body.eq_of_mem_request_shortest hdata]

theorem Channel.isShort_wrap_of_isBrief {c : Channel} {command wrapped : Apdu.Command}
    (h : command.IsBrief) (hw : c.wrap command = .ok wrapped) : wrapped.IsShort :=
  isShort_wrap h.length_request_le (Apdu.Body.expectedLength_le_of_short h.isShort.1) hw

/-! ## The commands -/

/-- READ BINARY is brief for up to 256 bytes at an offset of 64 bits: there is room for the object
around the data only as far as a short Le field goes. -/
theorem File.isBrief_readCommand {offset length : Nat} (ho : offset < UInt64.size)
    (hl : length ≤ Apdu.maxShortNe) : (readCommand offset length).IsBrief := by
  rw [readCommand]
  split
  · exact .of_make (Nat.zero_le _) (by rintro _ ⟨⟩; exact hl) ..
  · have hminimal : (Bytes.minimal offset).length ≤ 8 := Bytes.length_minimal_le ho (by decide)
    refine .of_make ?_ ?_ ..
    · have hsize : DataObject.size (Bytes.minimal offset).length ≤
          (Bytes.minimal offset).length + 3 :=
        DataObject.size_le (by omega)
      rw [DataObject.length_encode (by decide), Channel.maxBriefLc]
      omega
    · rintro _ ⟨⟩
      rw [wrappedLength]
      simp only [Apdu.maxShortNe] at hl ⊢
      split
      · omega
      · split <;> omega

theorem TerminalAuthentication.isBrief_verifyCommand (last : Bool) {block : Bytes}
    (h : block.length ≤ Channel.maxBriefLc) : (verifyCommand last block).IsBrief :=
  .of_make h (by rintro _ ⟨⟩) ..

/-! ## Dialogues that send brief commands -/

namespace Dialogue

/-- Files and certificates are sent for and sent in brief commands, if no response is too long for
memory. -/
def Terms.brief : Terms where
  sends command := command.header.ins ∈ transferInstructions → command.IsBrief
  answers _ answer := ∀ response, answer = .ok response → response.data.length < UInt64.size
  signs _ := True
  fails _ := True

variable {α : Type} {command : Apdu.Command}

theorem keeps_brief_pure (a : α) : (pure a : Dialogue α).Keeps .brief fun _ => True :=
  keeps_pure trivial

theorem keeps_brief_ofExcept (r : Except Error α) : (ofExcept r).Keeps .brief fun a => r = .ok a :=
  keeps_ofExcept (fun _ => id) fun _ _ => trivial

theorem keeps_brief_transmit (h : Terms.brief.sends command) :
    (transmit command).Keeps .brief fun response => response.data.length < UInt64.size := by
  refine ⟨h, fun answer hanswer => (keeps_brief_ofExcept answer).mono fun response hr => ?_⟩
  exact hanswer response hr

theorem keeps_brief_expectSuccess (h : Terms.brief.sends command) (operation : Operation) :
    (expectSuccess operation command).Keeps .brief fun _ => True :=
  ⟨h, fun _ _ => (keeps_brief_ofExcept _).mono fun _ _ => trivial⟩

/-- A command that carries no part of a file or certificate. -/
theorem keeps_brief_other (h : command.header.ins ∉ transferInstructions) (operation : Operation) :
    (expectSuccess operation command).Keeps .brief fun _ => True :=
  keeps_brief_expectSuccess (fun hins => absurd hins h) operation

end Dialogue

open Dialogue

namespace File

variable {offset : Nat}

theorem length_readData_lt {data chunk : Bytes} (hd : data.length < UInt64.size)
    (h : readData offset data = .ok chunk) : chunk.length < UInt64.size := by
  rw [readData] at h
  split at h
  · cases h
    exact hd
  · have := (length_unwrapContents h).1
    omega

theorem length?_lt {header : Bytes} {total : Nat} (h : length? header = some total) :
    total < UInt64.size := by
  cases tells_of_length? h with
  | cvca => decide
  | object _ _ _ hn => exact hn

variable (ho : offset < UInt64.size)
include ho

/-- One command of a read, and what its data is taken for. -/
theorem attempt_brief {length : Nat} (hl : length ≤ Apdu.maxShortNe) {again : Dialogue Bytes}
    {refuse : Apdu.Response → Dialogue Bytes}
    (hagain : again.Keeps .brief fun chunk => chunk.length < UInt64.size)
    (hrefuse : ∀ response, (refuse response).Keeps .brief fun chunk => chunk.length <
      UInt64.size) :
    (attempt offset length again refuse).Keeps .brief fun chunk => chunk.length < UInt64.size := by
  refine (keeps_brief_transmit fun _ => isBrief_readCommand ho hl).bind fun response hr => ?_
  split
  · exact (keeps_brief_ofExcept _).mono fun chunk hchunk => length_readData_lt hr hchunk
  split
  · exact hagain
  · exact hrefuse response

theorem readCorrected_brief {length : Nat} (hl : length ≤ Apdu.maxShortNe) :
    (readCorrected offset length).Keeps .brief fun chunk => chunk.length < UInt64.size := by
  induction length with
  | zero => exact keeps_pure (by decide)
  | succ length ih => exact attempt_brief ho hl (ih (Nat.le_of_succ_le hl)) fun _ => trivial

/-- The card may correct the length once, to at most 256 bytes. -/
theorem readUncorrected_brief {length : Nat} (hl : length ≤ Apdu.maxShortNe) :
    (readUncorrected offset length).Keeps .brief fun chunk => chunk.length < UInt64.size := by
  induction length with
  | zero => exact keeps_pure (by decide)
  | succ length ih =>
    refine attempt_brief ho hl (ih (Nat.le_of_succ_le hl)) fun response => ?_
    split
    · exact readCorrected_brief ho (correctedLength_bounds _).2
    · exact trivial

variable {config : SessionConfig} (he : config.extendedLength = false)
include he

theorem readBinary_brief (length : Nat) :
    (readBinary config offset length).Keeps .brief fun chunk => chunk.length < UInt64.size := by
  rw [readBinary, he]
  exact readUncorrected_brief ho (Nat.min_le_right _ _)

omit ho

/-- The offsets stay below the length of the file. -/
theorem readRest_brief {total : Nat} (ht : total < UInt64.size) (contents : Bytes) :
    (readRest config total contents).Keeps .brief fun _ => True := by
  induction hn : total - contents.length using Nat.strongRecOn generalizing contents with
  | ind n ih =>
    rw [readRest]
    split
    · rename_i hlt
      refine (readBinary_brief (Nat.lt_trans hlt ht) he _).bind fun chunk _ => ?_
      cases chunk with
      | nil => exact trivial
      | cons b rest =>
        refine ih _ ?_ _ rfl
        simp only [List.length_append, List.length_cons]
        omega
    · exact keeps_pure trivial

theorem readSelected_brief : (readSelected config).Keeps .brief fun _ => True := by
  refine (readBinary_brief (by decide) he _).bind fun first hfirst => ?_
  split
  · rename_i total ht
    exact readRest_brief he (length?_lt ht) first
  · refine (readBinary_brief hfirst he _).bind fun more _ => ?_
    split
    · rename_i total ht
      exact readRest_brief he (length?_lt ht) _
    · exact trivial

theorem read_brief (file : FileIdentifier) : (read config file).Keeps .brief fun _ => True := by
  have hselect : (selectFile file).Keeps .brief fun _ => True := by
    refine ⟨fun hins => absurd hins (show (0xA4 : UInt8) ∉ transferInstructions by decide),
      fun answer _ => ?_⟩
    dsimp only
    split <;> exact trivial
  exact hselect.bind fun _ _ => readSelected_brief he

end File

namespace TerminalAuthentication

theorem setTemplate_not_transfer (p2 : UInt8) (reference : String) :
    (setTemplateCommand p2 reference).header.ins ∉ transferInstructions :=
  show (0x22 : UInt8) ∉ transferInstructions by decide

variable {size : Nat} (hs : size ≤ Channel.maxBriefLc)
include hs

/-- Blocks of size zero count as blocks of size one. -/
theorem sendBlocks_brief (data : Bytes) : (sendBlocks size data).Keeps .brief fun _ => True := by
  have hmax : max size 1 ≤ Channel.maxBriefLc := Nat.max_le.2 ⟨hs, by decide⟩
  induction hn : data.length using Nat.strongRecOn generalizing data with
  | ind n ih =>
    rw [sendBlocks]
    split
    · rename_i hle
      split
      · exact keeps_pure trivial
      · exact (keeps_brief_expectSuccess
          (fun _ => isBrief_verifyCommand true (Nat.le_trans hle hmax))
          _).bind fun _ _ => keeps_pure trivial
    · have hblock : (data.take (max size 1)).length ≤ Channel.maxBriefLc :=
        Nat.le_trans (List.length_take_le _ _) hmax
      refine (keeps_brief_expectSuccess (fun _ => isBrief_verifyCommand false hblock) _).bind
        fun _ _ => ih _ ?_ _ rfl
      rw [List.length_drop]
      omega

theorem sendCertificates_brief (certificates : List Certificate) :
    (sendCertificates size certificates).Keeps .brief fun _ => True := by
  induction certificates with
  | nil => exact keeps_pure trivial
  | cons c rest ih =>
    rw [sendCertificates, sendCertificate]
    exact Keeps.bind
      ((keeps_brief_other (setTemplate_not_transfer 0xB6 c.authority) _).bind fun _ _ =>
      sendBlocks_brief hs _) fun _ _ => ih

theorem authenticate_brief (chip : ChipAuthentication) (credentials : TerminalCredentials) :
    (authenticate size chip credentials).Keeps .brief fun _ => True := by
  have hauthenticate : ∀ signature, (authenticateCommand signature).header.ins ∉
      transferInstructions :=
    fun _ => show (0x82 : UInt8) ∉ transferInstructions by decide
  rw [authenticate]
  refine (keeps_brief_ofExcept _).bind fun chain _ => ?_
  refine (sendCertificates_brief hs _).bind fun _ _ => ?_
  refine (keeps_brief_ofExcept _).bind fun leaf _ => ?_
  refine (keeps_brief_other (setTemplate_not_transfer _ _) _).bind fun _ _ => ?_
  have hchallenge : Challenge.obtain.Keeps .brief fun _ => True :=
    (keeps_brief_other (by decide) _).bind fun _ _ =>
      (keeps_brief_ofExcept _).mono fun _ _ => trivial
  refine hchallenge.bind fun challenge _ => ?_
  refine (keeps_signature fun _ _ _ => trivial).bind fun signature _ => ?_
  refine (keeps_brief_ofExcept _).bind fun plain _ => ?_
  exact (keeps_brief_other (hauthenticate _) _).bind fun _ _ => keeps_pure trivial

end TerminalAuthentication

/-! ## Sessions -/

/-- The responses of the card fit in memory. -/
def Card.Addressable {σ : Type} (card : Card σ) : Prop :=
  ∀ memory command response, (card memory command).1 = .ok response →
    response.data.length < UInt64.size

/-- Requests that read a file or send certificates; offsets have 64 bits. -/
inductive Request.Transfers : Request → Prop
  | readBinary {offset : Nat} (length : Nat) : offset < UInt64.size →
    Transfers (.readBinary offset length)
  | readContents (file : FileIdentifier) : Transfers (.readContents file)
  | terminalAuthentication (chip : ChipAuthentication) (credentials : TerminalCredentials) :
    Transfers (.terminalAuthentication chip credentials)

variable {σ α : Type} {card : Card σ}

theorem Link.Delivers.length_lt {channel : Option Channel}
    {received : Except TransportError Apdu.Response} {response : Apdu.Response}
    (h : Delivers channel received (.ok response))
    (hr : ∀ r, received = .ok r → r.data.length < UInt64.size) :
    response.data.length < UInt64.size := by
  generalize ha : (Except.ok response : Except Error Apdu.Response) = answer at h
  cases h with
  | failed _ _ => cases ha
  | plain r =>
    cases ha
    exact hr _ rfl
  | unwrapped r _ => exact Nat.lt_of_le_of_lt (Channel.length_unwrap_le ha.symm) (hr r rfl)

/-- The events in which files and certificates travel are exchanges of short commands. -/
def Event.Short (events : List Event) : Prop :=
  ∀ command sent answer, .exchange command sent answer ∈ events →
    command.header.ins ∈ transferInstructions → sent.IsShort

/-- A dialogue on brief terms sends short commands, with or without a channel. -/
theorem Dialogue.Keeps.short {ok : α → Prop} {d : Dialogue α} (hd : d.Keeps .brief ok)
    (hc : card.Addressable) (link : Link σ) :
    ∃ events, (d.run card link).2.log = events ++ link.log ∧ Event.Short events := by
  obtain ⟨events, hlog, hcommands, -⟩ := d.run_log card link
  obtain ⟨traffic, htraffic, ht⟩ := d.run_traffic card link
  obtain rfl : events = traffic := List.append_cancel_right (hlog.symm.trans htraffic)
  obtain ⟨delivered, hdelivered, hanswers⟩ := d.run_delivers card link
  obtain rfl : events = delivered := List.append_cancel_right (hlog.symm.trans hdelivered)
  obtain ⟨-, -, hsends⟩ := hd.run card link (fun command answer hmem response hr => by
    obtain ⟨sent, received, he, hdelivers⟩ := hanswers command answer hmem
    obtain ⟨memory, hcard⟩ := ht.answered_by he
    subst hr
    exact hdelivers.length_lt fun r hreceived => hc memory sent r (hcard.trans hreceived))
    fun _ _ => trivial
  refine ⟨events, hlog, fun command sent answer he hins => ?_⟩
  have hbrief : command.IsBrief := hsends command (hcommands ▸ Event.mem_requests he) hins
  rcases ht.sent_eq_or_wraps he with rfl | ⟨_, hw⟩
  · exact hbrief.isShort
  · exact Channel.isShort_wrap_of_isBrief hbrief hw

namespace Session

variable {config : SessionConfig} {request : Request}

/-- A request that runs a dialogue on brief terms does so. -/
theorem short_runCommand {ok : Value → Prop} {d : Dialogue Value} (hd : d.Keeps .brief ok)
    (hc : card.Addressable) (operation : Operation) (s : Session σ) :
    ∃ events, (s.runCommand card operation d).2.link.log = events ++ s.link.log ∧
      Event.Short events := by
  rw [runCommand]
  split
  · exact ⟨[], rfl, fun _ _ _ h => absurd h List.not_mem_nil⟩
  · rw [runDialogue_eq]
    exact hd.short hc s.link

theorem short_runHandshake {ok : Option Channel × Value → Prop}
    {d : Dialogue (Option Channel × Value)} (hd : d.Keeps .brief ok) (hc : card.Addressable)
    (policy : MacPolicy) (handshake : Handshake) (s : Session σ) :
    ∃ events, (s.runHandshake policy card handshake d).2.link.log = events ++ s.link.log ∧
      Event.Short events := by
  cases hb : s.blocked with
  | true =>
    rw [runHandshake.eq_def, hb]
    exact ⟨[], rfl, fun _ _ _ h => absurd h List.not_mem_nil⟩
  | false =>
    cases hn : s.state.after? handshake with
    | none =>
      rw [runHandshake.eq_def, hb, hn]
      exact ⟨[], rfl, fun _ _ _ h => absurd h List.not_mem_nil⟩
    | some next =>
      rw [log_runHandshake policy card d hb hn]
      exact hd.short hc s.link

/-- **Files and certificates travel in short commands.** Without extended length fields and with
certificate blocks of up to 223 bytes, every READ BINARY and every PSO:Verify Certificate that
reaches the card is in a short case and has at most 261 bytes, whatever the state of the session,
the channel and its suite, and whatever the card has answered. -/
theorem perform_short (he : config.extendedLength = false) (hb : config.certificateBlockSize ≤ 223)
    (hc : card.Addressable) (hr : request.Transfers) (s : Session σ) :
    ∃ events, (s.perform config card request).2.link.log = events ++ s.link.log ∧
      ∀ command sent answer, .exchange command sent answer ∈ events →
        command.header.ins ∈ transferInstructions →
        sent.body.isExtended = false ∧ ∃ bytes, sent.encode = .ok bytes ∧
          bytes.length ≤ 261 := by
  rw [perform]
  cases hr with
  | readBinary length ho =>
    exact short_runCommand ((File.readBinary_brief ho he length).bind fun _ _ =>
      keeps_brief_pure _) hc _ s
  | readContents file =>
    exact short_runCommand ((File.read_brief he file).bind fun _ _ =>
      keeps_brief_pure _) hc _ s
  | terminalAuthentication chip credentials =>
    have hsize : config.blockSize ≤ Channel.maxBriefLc := by
      rw [SessionConfig.blockSize, he]
      exact hb
    exact short_runHandshake
      ((TerminalAuthentication.authenticate_brief hsize chip credentials).bind
      fun _ _ => keeps_brief_pure _) hc _ _ s

/-- A card that answers every command with status `6C00`, as if 256 were the right length. -/
def correctingAlways : Card Unit := fun memory _ => (.ok ⟨[], ⟨0x6C, 0x00⟩⟩, memory)

/-- A session after BAC with the channel of the worked example. -/
def secured : Session Unit :=
  ⟨.bacAuthenticated, false, ⟨(), some Channel.workedExample, [], []⟩⟩

/-- 300 bytes beyond the offsets of the header, under protection. -/
theorem perform_short_correctingAlways : ∃ events,
    (secured.perform {} correctingAlways (.readBinary 0x8000 300)).2.link.log =
      events ++ secured.link.log ∧
    ∀ command sent answer, .exchange command sent answer ∈ events →
      command.header.ins ∈ transferInstructions →
      sent.body.isExtended = false ∧ ∃ bytes, sent.encode = .ok bytes ∧
        bytes.length ≤ 261 := by
  have hc : correctingAlways.Addressable := by
    rintro memory command response h
    cases h
    decide
  exact perform_short rfl (by decide) hc (.readBinary 300 (by decide)) secured

end Session
end TravelDocument

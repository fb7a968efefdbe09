import TravelDocument.Dialogue.Link
import TravelDocument.Proofs.SecureMessaging.Unwrapping
import TravelDocument.Proofs.SecureMessaging.Wrapping

/-!
# An honest chip

`Chip.card` is the other end of a channel. It holds the same keys and counter, verifies and decrypts
the commands it receives, has an inner card without Secure Messaging carry them out and protects
what that answers. What it reads out of a wrapped command is the command (`readCommand?_wrap`), and
what a reader takes out of its responses is the answer of the inner card (`unwrap_seal`).
-/

namespace TravelDocument

/-! ## The inner card -/

/-- A command without Secure Messaging. -/
structure Instruction where
  header : Apdu.Header
  request : Option Bytes
  expected : Option Nat
  deriving DecidableEq, Repr

/-- What is left of a command under Secure Messaging: its header with the class masked, its request
data and its expected length. -/
def Instruction.ofCommand (command : Apdu.Command) : Instruction :=
  ⟨Channel.maskHeader command.header, command.body.request, command.body.expectedLength⟩

/-- A card that carries out instructions. It also chooses whether data is answered in `DO85` or
`DO87`. -/
structure InnerCard (σ : Type) where
  answer : σ → Instruction → Apdu.Response × σ
  answersTlv : σ → Instruction → Bool
  /-- No byte string in memory is longer. -/
  length_answer : ∀ memory instruction, (answer memory instruction).1.data.length < 2 ^ 63

namespace InnerCard

/-- The memory of an inner card and what it has received so far. -/
structure State (σ : Type) where
  memory : σ
  received : List Instruction

variable {σ : Type}

/-- Carries out an instruction. -/
def perform (inner : InnerCard σ) (state : State σ) (instruction : Instruction) :
    Apdu.Response × State σ :=
  let (answer, memory) := inner.answer state.memory instruction
  (answer, ⟨memory, state.received ++ [instruction]⟩)

/-- Carries out instructions one after the other: every answer with the state after it. -/
def performAll (inner : InnerCard σ) :
    List Instruction → State σ → List (Apdu.Response × State σ)
  | [], _ => []
  | instruction :: rest, state =>
    let result := inner.perform state instruction
    result :: inner.performAll rest result.2

end InnerCard

/-! ## Reading commands and protecting answers -/

namespace Channel

/-- The request data in the objects of a command, if any is there: an odd instruction has it in
`DO85`, an even one behind a padding indicator in `DO87`. -/
def readRequest? (c : Channel) (instruction : UInt8) (objects : List DataObject) :
    Option (Option Bytes) :=
  if instruction.toNat % 2 = 1 then
    match objects.find? (·.tag == Tag.encryptedTlv) with
    | none => some none
    | some object => some <$> (c.decrypt object.value).toOption
  else
    match objects.find? (·.tag == Tag.encryptedPadded) with
    | none => some none
    | some object =>
      match object.value with
      | [] => none
      | indicator :: ciphertext =>
        if indicator = 0x01 then some <$> (c.decrypt ciphertext).toOption else none

/-- The expected length in the objects of a command, if any is there: zero in one byte stands for
256, and in two bytes for 65536. -/
def readExpected? (objects : List DataObject) : Option (Option Nat) :=
  match objects.find? (·.tag == Tag.expectedLength) with
  | none => some none
  | some object =>
    let ne := Bytes.toNat object.value
    match object.value.length with
    | 1 => some (some (if ne = 0 then 256 else ne))
    | 2 => some (some (if ne = 0 then 65536 else ne))
    | _ => none

/-- Verifies a command at the present counter and reads the instruction in it. -/
def readCommand? (c : Channel) (command : Apdu.Command) : Option Instruction := do
  let objects ← DataObject.all? (← command.body.request)
  let mac ← objects.find? (·.tag == Tag.mac)
  let others := objects.filter (·.tag != Tag.mac)
  if c.mac (Padding.pad c.suite.blockSize command.header.toBytes ++ others.flatMap (·.raw)) =
      .ok mac.value then
    return ⟨command.header, ← c.readRequest? command.header.ins others,
      ← readExpected? others⟩
  else none

/-- Protects an answer at the present counter. -/
def sealAnswer (c : Channel) (tlv : Bool) (answer : Apdu.Response) :
    Except CryptoError Apdu.Response := do
  let encrypted ←
    if answer.data = [] then .ok [] else (fun e => [cryptogram tlv e]) <$> c.encrypt answer.data
  let objects := encrypted ++ [DataObject.written Tag.status answer.status.toBytes]
  let mac ← c.mac (objects.flatMap (·.raw))
  return ⟨(objects ++ [DataObject.written Tag.mac mac]).flatMap (·.raw), answer.status⟩

end Channel

/-- A chip with an inner card. -/
structure Chip (σ : Type) where
  channel : Channel
  inner : InnerCard.State σ

/-- The chip as a card. It refuses what it cannot verify. -/
def Chip.card {σ : Type} (inner : InnerCard σ) : Card (Chip σ) := fun chip command =>
  match command.encode with
  | .error e => (.error (.write e), chip)
  | .ok _ =>
    let receiving := chip.channel.step
    match receiving.readCommand? command with
    | none => (.ok ⟨[], .secureMessagingIncorrect⟩, { chip with channel := receiving })
    | some instruction =>
      let tlv := inner.answersTlv chip.inner.memory instruction
      let (answer, state) := inner.perform chip.inner instruction
      let answering := receiving.step
      match answering.sealAnswer tlv answer with
      | .ok response => (.ok response, ⟨answering, state⟩)
      | .error _ => (.ok ⟨[], .secureMessagingIncorrect⟩, ⟨answering, state⟩)

/-- The chip without a transport in between: commands reach it whether or not they have a serialized
form. -/
def Chip.respond {σ : Type} (inner : InnerCard σ) : Card (Chip σ) := fun chip command =>
  let receiving := chip.channel.step
  match receiving.readCommand? command with
  | none => (.ok ⟨[], .secureMessagingIncorrect⟩, { chip with channel := receiving })
  | some instruction =>
    let tlv := inner.answersTlv chip.inner.memory instruction
    let (answer, state) := inner.perform chip.inner instruction
    let answering := receiving.step
    match answering.sealAnswer tlv answer with
    | .ok response => (.ok response, ⟨answering, state⟩)
    | .error _ => (.ok ⟨[], .secureMessagingIncorrect⟩, ⟨answering, state⟩)

theorem Chip.card_of_encode {σ : Type} (inner : InnerCard σ) (chip : Chip σ)
    {command : Apdu.Command} {bytes : Bytes} (h : command.encode = .ok bytes) :
    Chip.card inner chip command = Chip.respond inner chip command := by
  simp only [Chip.card, h, Chip.respond]

/-! ## The chip reads what was wrapped -/

namespace Channel

theorem isObject_written {tag : Nat} {value : Bytes}
    (ht : tag ∈ [Tag.encryptedTlv, Tag.encryptedPadded, Tag.expectedLength, Tag.mac, Tag.status])
    (hv : value.length < 2 ^ 64) : (DataObject.written tag value).IsObject :=
  DataObject.isObject_encode (Tag.endsItself ht) hv

theorem isObject_cryptogram {tlv : Bool} {ciphertext : Bytes} (h : ciphertext.length + 1 < 2 ^ 64) :
    (cryptogram tlv ciphertext).IsObject := by
  cases tlv with
  | true => exact isObject_written (by decide) (by omega)
  | false => exact isObject_written (by decide) (by simpa using h)

theorem isObject_lengthField (ne : Nat) : (lengthField ne).IsObject := by
  apply isObject_written (by decide)
  split <;> rw [Bytes.length_be] <;> decide

theorem mem_protectedObjects {instruction : UInt8} {ciphertext : Option Bytes}
    {expected : Option Nat}
    {o : DataObject} : o ∈ protectedObjects instruction ciphertext expected ↔
      (∃ e ∈ ciphertext, cryptogram (instruction.toNat % 2 == 1) e = o) ∨
        ∃ ne ∈ expected, lengthField ne = o := by
  simp [protectedObjects]

theorem isObject_protectedObjects {instruction : UInt8} {ciphertext : Option Bytes}
    {expected : Option Nat} (h : ∀ e ∈ ciphertext, e.length + 1 < 2 ^ 64) :
    ∀ o ∈ protectedObjects instruction ciphertext expected, o.IsObject := by
  intro o ho
  rcases mem_protectedObjects.1 ho with ⟨e, he, rfl⟩ | ⟨ne, -, rfl⟩
  · exact isObject_cryptogram (h e he)
  · exact isObject_lengthField ne

theorem cryptogram_tag (tlv : Bool) (ciphertext : Bytes) :
    (cryptogram tlv ciphertext).tag = if tlv then Tag.encryptedTlv else Tag.encryptedPadded := by
  cases tlv <;> rfl

theorem tag_protectedObjects_ne_mac {instruction : UInt8} {ciphertext : Option Bytes}
    {expected : Option Nat} :
    ∀ o ∈ protectedObjects instruction ciphertext expected, o.tag ≠ Tag.mac := by
  intro o ho
  rcases mem_protectedObjects.1 ho with ⟨e, -, rfl⟩ | ⟨ne, -, rfl⟩
  · rw [cryptogram_tag]
    split <;> decide
  · show Tag.expectedLength ≠ Tag.mac
    decide

theorem readRequest?_protectedObjects {c : Channel} {instruction : UInt8}
    {request ciphertext : Option Bytes} {expected : Option Nat}
    (h : c.Encrypts request ciphertext) :
    c.readRequest? instruction (protectedObjects instruction ciphertext expected) =
      some request := by
  have hlength : ∀ tag ∈ [Tag.encryptedTlv, Tag.encryptedPadded],
      (expected.map lengthField).toList.find? (·.tag == tag) = none := by
    intro tag htag
    cases expected with
    | none => rfl
    | some ne =>
      have : (Tag.expectedLength == tag) = false := by
        revert tag
        decide
      simp [lengthField, this]
  rw [readRequest?, protectedObjects, List.find?_append, List.find?_append, hlength _ (by decide),
    hlength _ (by decide)]
  cases h with
  | none => split <;> rfl
  | some h =>
    by_cases hi : instruction.toNat % 2 = 1
    · simp [hi, cryptogram, h.1, Except.toOption]
    · simp [hi, cryptogram, h.1, Except.toOption, paddingIndicator]

theorem readExpected?_protectedObjects {instruction : UInt8} {ciphertext : Option Bytes}
    {expected : Option Nat} (h : ∀ ne ∈ expected, 0 < ne ∧ ne ≤ 65536) :
    readExpected? (protectedObjects instruction ciphertext expected) = some expected := by
  -- the object with the data is not taken for the one with the length
  have hdata : ((ciphertext.map (cryptogram (instruction.toNat % 2 == 1))).toList.find?
      (·.tag == Tag.expectedLength)) = none := by
    cases ciphertext with
    | none => rfl
    | some e =>
      have : ((cryptogram (instruction.toNat % 2 == 1) e).tag == Tag.expectedLength) = false := by
        rw [cryptogram_tag]
        split <;> decide
      simp [this]
  rw [readExpected?, protectedObjects, List.find?_append, hdata]
  cases expected with
  | none => rfl
  | some ne =>
    obtain ⟨hpos, hle⟩ := h ne rfl
    -- in either width the largest length wraps to zero, which stands for it
    by_cases hs : ne ≤ 256
    · have hn : Bytes.toNat (Bytes.be 1 ne) = ne % 256 := Bytes.toNat_be 1 ne
      simp only [lengthField, Apdu.maxShortNe, hs, Option.map_some,
        Option.toList_some, ↓reduceIte,
        List.find?_cons_of_pos, DataObject.written_tag, BEq.rfl, Option.none_or,
        DataObject.written_value, Bytes.length_be, hn]
      split
      · rw [show ne = 256 by omega]
      · rw [Nat.mod_eq_of_lt (by omega)]
    · have hn : Bytes.toNat (Bytes.be 2 ne) = ne % 65536 := Bytes.toNat_be 2 ne
      simp only [lengthField, Apdu.maxShortNe, hs, Option.map_some,
        Option.toList_some, ↓reduceIte,
        List.find?_cons_of_pos, DataObject.written_tag, BEq.rfl, Option.none_or,
        DataObject.written_value, Bytes.length_be, hn]
      split
      · rw [show ne = 65536 by omega]
      · rw [Nat.mod_eq_of_lt (by omega)]

theorem ciphertextLength_le (suite : CipherSuite) (n : Nat) :
    ciphertextLength suite n ≤ n + 16 := by
  have hb : suite.blockSize ≤ 16 := by
    cases suite <;> decide
  have := Nat.div_mul_le_self n suite.blockSize
  rw [ciphertextLength, Nat.add_mul, Nat.one_mul]
  omega

theorem lt_ciphertextLength (suite : CipherSuite) (n : Nat) : n < ciphertextLength suite n := by
  have := Nat.div_add_mod n suite.blockSize
  have := Nat.mod_lt n suite.blockSize_pos
  rw [ciphertextLength, Nat.add_mul, Nat.one_mul, Nat.mul_comm]
  omega

/-- Encryption makes data longer by a block at most. -/
theorem Encrypts.length_le {c : Channel} {data ciphertext : Option Bytes}
    (h : c.Encrypts data ciphertext) :
    ∀ e ∈ ciphertext, ∃ d ∈ data, e.length ≤ d.length + 16 := by
  rintro e rfl
  cases h with
  | some h =>
    refine ⟨_, rfl, ?_⟩
    rw [h.2]
    exact ciphertextLength_le _ _

/-- **A chip at the same counter reads the command that was wrapped**, if its data fits into
memory. -/
theorem readCommand?_wrap {c : Channel} {command wrapped : Apdu.Command}
    (hl : ∀ data ∈ command.body.request, data.length < 2 ^ 63) (hw : c.wrap command = .ok wrapped) :
    c.readCommand? wrapped = some (Instruction.ofCommand command) := by
  obtain ⟨ciphertext, mac, he, hmac, hm, hw'⟩ := c.wrap_spec command
  rw [hw', Except.ok.injEq] at hw
  subst hw
  -- the body is read back into its objects, and only the last of them is the MAC
  have hobjects : ∀ o ∈ protectedObjects command.header.ins ciphertext
      command.body.expectedLength ++ [DataObject.written Tag.mac mac], o.IsObject := by
    intro o ho
    rcases List.mem_append.1 ho with ho | ho
    · refine isObject_protectedObjects (fun e hm => ?_) o ho
      obtain ⟨data, hdata, hle⟩ := he.length_le e hm
      have := hl data hdata
      omega
    · rw [List.mem_singleton.1 ho]
      exact isObject_written (by decide) (by rw [hmac]; decide)
  -- no protected object has the tag of a MAC, so filtering and searching by that tag split the two
  have hothers : (protectedObjects command.header.ins ciphertext command.body.expectedLength ++
      [DataObject.written Tag.mac mac]).filter (·.tag != Tag.mac) =
      protectedObjects command.header.ins ciphertext command.body.expectedLength := by
    rw [List.filter_append, List.filter_eq_self.2, List.filter_eq_nil_iff.2, List.append_nil]
    · simp
    · intro o ho
      simpa using tag_protectedObjects_ne_mac o ho
  have hfind : (protectedObjects command.header.ins ciphertext command.body.expectedLength ++
      [DataObject.written Tag.mac mac]).find? (·.tag == Tag.mac) =
        some (.written Tag.mac mac) := by
    rw [List.find?_append, List.find?_eq_none.2]
    · rfl
    · intro o ho
      simpa using tag_protectedObjects_ne_mac o ho
  have hne : ∀ ne ∈ command.body.expectedLength, 0 < ne ∧ ne ≤ 65536 :=
    fun _ hne => Apdu.Body.expectedLength_bounds hne
  rw [readCommand?, protectedCommand,
    Apdu.Body.request_shortest (protectedBody_ne_nil _ mac)]
  simp only [Option.bind_eq_bind, Option.bind_some, DataObject.all?_eq_some_iff.2
    ⟨hobjects, rfl⟩, hfind, hothers, DataObject.written_value]
  -- the chip masks the header just as the terminal did, so both compute the same MAC
  refine (if_pos hm).trans ?_
  rw [show (maskHeader command.header).ins = command.header.ins from rfl,
    readRequest?_protectedObjects he, readExpected?_protectedObjects hne]
  rfl

/-- What is carried fits into memory. -/
theorem length_request_of_carries {c : Channel} {command : Apdu.Command} (h : c.Carries command) :
    ∀ data ∈ command.body.request, data.length < 2 ^ 63 := by
  intro data hdata
  have hr : command.body.request = some data := hdata
  have hl := carries_iff.1 h
  rw [protectedLength, hr, Option.elim_some] at hl
  have := lt_ciphertextLength c.suite data.length
  have := DataObject.le_size (ciphertextLength c.suite data.length +
    if command.header.ins.toNat % 2 = 1 then 0 else 1)
  simp only [Apdu.maxExtendedLc] at hl
  omega

/-! ## The reader takes the answer out of the response -/

/-- The objects of a protected answer in front of the MAC. -/
def answerObjects (tlv : Bool) (ciphertext : Option Bytes) (status : Apdu.StatusWord) :
    List DataObject :=
  (ciphertext.map (cryptogram tlv)).toList ++ [DataObject.written Tag.status status.toBytes]

theorem mem_answerObjects {tlv : Bool} {ciphertext : Option Bytes} {status : Apdu.StatusWord}
    {o : DataObject} : o ∈ answerObjects tlv ciphertext status ↔
      (∃ e ∈ ciphertext, cryptogram tlv e = o) ∨ o = .written Tag.status status.toBytes := by
  simp [answerObjects]

theorem isObject_answerObjects {tlv : Bool} {ciphertext : Option Bytes} {status : Apdu.StatusWord}
    (h : ∀ e ∈ ciphertext, e.length + 1 < 2 ^ 64) :
    ∀ o ∈ answerObjects tlv ciphertext status, o.IsObject := by
  intro o ho
  rcases mem_answerObjects.1 ho with ⟨e, he, rfl⟩ | rfl
  · exact isObject_cryptogram (h e he)
  · exact isObject_written (by decide) (show 2 < 2 ^ 64 by decide)

theorem length_answerCiphertext_le {c : Channel} {answer : Apdu.Response}
    {ciphertext : Option Bytes}
    (h : c.Encrypts (if answer.data = [] then none else some answer.data) ciphertext) :
    ∀ e ∈ ciphertext, e.length ≤ answer.data.length + 16 := by
  intro e he
  obtain ⟨d, hd, hle⟩ := h.length_le e he
  split at hd
  · cases hd
  · cases hd
    exact hle

theorem oddObjects_answerObjects (tlv : Bool) (ciphertext : Option Bytes) (status : Apdu.StatusWord)
    (mac : Bytes) :
    oddObjects (answerObjects tlv ciphertext status ++ [DataObject.written Tag.mac mac]) =
      answerObjects tlv ciphertext status := by
  rw [oddObjects, List.filter_append, List.filter_eq_self.2, List.filter_eq_nil_iff.2,
    List.append_nil]
  · simp [Tag.mac]
  · intro o ho
    rcases mem_answerObjects.1 ho with ⟨e, -, rfl⟩ | rfl
    · rw [cryptogram_tag]
      split <;> rfl
    · simp [Tag.status]

theorem responseStatus_answerObjects (tlv : Bool) (ciphertext : Option Bytes)
    (status : Apdu.StatusWord) (mac : Bytes) :
    responseStatus (answerObjects tlv ciphertext status ++ [DataObject.written Tag.mac mac]) =
      .ok status := by
  rw [← responseStatus_oddObjects, oddObjects_answerObjects, answerObjects, responseStatus,
    lastObject?_append_singleton]
  rfl

theorem responseData_answerObjects {c : Channel} {data ciphertext : Option Bytes}
    (h : c.Encrypts data ciphertext) (tlv : Bool) (status : Apdu.StatusWord) (mac : Bytes) :
    c.responseData (answerObjects tlv ciphertext status ++ [DataObject.written Tag.mac mac]) =
      .ok (data.getD []) := by
  rw [← responseData_oddObjects, oddObjects_answerObjects, answerObjects, responseData,
    lastObject?_append_singleton]
  cases h with
  | none => rfl
  | some h =>
    cases tlv with
    | true => exact congrArg liftCrypto h.1
    | false => exact congrArg liftCrypto h.1

/-- Protecting an answer never fails. -/
theorem sealAnswer_spec (c : Channel) (tlv : Bool) (answer : Apdu.Response) :
    ∃ ciphertext mac, c.Encrypts (if answer.data = [] then none else some answer.data)
      ciphertext ∧ mac.length = Mac.size ∧
      c.mac ((answerObjects tlv ciphertext answer.status).flatMap (·.raw)) = .ok mac ∧
      c.sealAnswer tlv answer = .ok
        ⟨(answerObjects tlv ciphertext answer.status ++ [DataObject.written Tag.mac mac]).flatMap
          (·.raw), answer.status⟩ := by
  by_cases hd : answer.data = []
  · obtain ⟨mac, hm, hl⟩ :=
      c.mac_spec ((answerObjects tlv none answer.status).flatMap (·.raw))
    refine ⟨none, mac, by rw [if_pos hd]; exact .none, hl, hm, ?_⟩
    rw [sealAnswer, if_pos hd]
    show (c.mac _ >>= fun _ => _) = _
    rw [show ([] ++ [DataObject.written Tag.status answer.status.toBytes] : List DataObject) =
      answerObjects tlv none answer.status from rfl, hm]
    rfl
  · obtain ⟨e, he, hel, hed⟩ := c.encrypt_spec answer.data
    obtain ⟨mac, hm, hl⟩ :=
      c.mac_spec ((answerObjects tlv (some e) answer.status).flatMap (·.raw))
    refine ⟨some e, mac, by rw [if_neg hd]; exact .some ⟨hed, hel⟩, hl, hm, ?_⟩
    rw [sealAnswer, if_neg hd, he]
    show (c.mac _ >>= fun _ => _) = _
    rw [show ([cryptogram tlv e] ++ [DataObject.written Tag.status answer.status.toBytes]) =
      answerObjects tlv (some e) answer.status from rfl, hm]
    rfl

/-- **A reader at the same counter takes the answer out of the response.** -/
theorem unwrap_seal (c : Channel) (tlv : Bool) {answer : Apdu.Response}
    (hl : answer.data.length < 2 ^ 63) :
    ∃ response, c.sealAnswer tlv answer = .ok response ∧ c.unwrap response = .ok answer := by
  obtain ⟨ciphertext, mac, he, hmac, hm, hs⟩ := c.sealAnswer_spec tlv answer
  refine ⟨_, hs, ?_⟩
  have hobjects : ∀ o ∈ answerObjects tlv ciphertext answer.status ++
      [DataObject.written Tag.mac mac], o.IsObject := by
    intro o ho
    rcases List.mem_append.1 ho with ho | ho
    · refine isObject_answerObjects (fun e hmem => ?_) o ho
      have := length_answerCiphertext_le he e hmem
      omega
    · rw [List.mem_singleton.1 ho]
      exact isObject_written (by decide) (by rw [hmac]; decide)
  have hlast : lastObject? [Tag.mac]
      (answerObjects tlv ciphertext answer.status ++ [DataObject.written Tag.mac mac]) =
      some (.written Tag.mac mac) := by
    rw [lastObject?_append_singleton]
    rfl
  -- the MAC is the last object, and the others are those of the answer
  rw [unwrap_of_objects (protectedBody_ne_nil _ mac)
    (DataObject.all?_eq_some_iff.2 ⟨hobjects, rfl⟩),
    unwrapObjects_of_mac hlast (.inl ?_), responseData_answerObjects he,
      responseStatus_answerObjects]
  · have hd : (if answer.data = [] then none else some answer.data).getD [] = answer.data := by
      split
      · rename_i hd
        exact hd.symm
      · rfl
    rw [hd]
    rfl
  · rw [authenticatedObjects_eq, oddObjects_answerObjects]
    exact hm

end Channel
end TravelDocument

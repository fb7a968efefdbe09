import TravelDocument.Proofs.Apdu.Command
import TravelDocument.Proofs.Encoding.Tlv
import TravelDocument.Proofs.SecureMessaging.Channel

/-!
# What a protected command consists of

Wrapping never fails: `wrap_spec` gives the objects of the protected command, with a ciphertext that
decrypts to the request data and a MAC over header and objects. Their lengths do not depend on keys
or counter (`length_protectedBody`), so neither does whether the protected command has a serialized
form (`carries_iff`). With up to 223 bytes of request data it is a short command (`isShort_wrap`).
-/

namespace TravelDocument

/-- An object as `encode` writes it. -/
def DataObject.written (tag : Nat) (value : Bytes) : DataObject :=
  ⟨tag, value, DataObject.encode tag value⟩

namespace DataObject

@[simp] theorem written_tag (tag : Nat) (value : Bytes) : (written tag value).tag = tag := rfl
@[simp] theorem written_value (tag : Nat) (value : Bytes) : (written tag value).value = value := rfl
@[simp] theorem written_raw (tag : Nat) (value : Bytes) :
    (written tag value).raw = encode tag value := rfl

/-- The number of bytes of an object with a tag of one byte and `n` bytes of value. -/
def size (n : Nat) : Nat :=
  1 + (encodeLength n).length + n

theorem length_encode {tag : Nat} (h : tag < 256) (value : Bytes) :
    (encode tag value).length = size value.length := by
  rw [encode, List.length_append, List.length_append, Bytes.minimal_of_lt h, List.length_singleton,
    size]

theorem le_size (n : Nat) : n ≤ size n := by
  rw [size]
  omega

theorem size_le {n : Nat} (h : n < 256) : size n ≤ n + 3 := by
  have hdigits : (Bytes.digits n).length ≤ 1 := Bytes.length_digits_le h
  rw [size, encodeLength]
  split
  · rw [List.length_singleton]
    omega
  · rw [List.length_cons]
    omega

end DataObject

/-- The tags of Secure Messaging end themselves. -/
theorem Tag.endsItself {tag : Nat}
    (h : tag ∈ [Tag.encryptedTlv, Tag.encryptedPadded, Tag.expectedLength, Tag.mac, Tag.status]) :
    DataObject.EndsItself tag := by
  apply DataObject.endsItself_of_lt
  · revert tag
    decide
  · revert tag
    decide

namespace Channel

/-! ## Objects -/

/-- The object that holds a ciphertext: `DO85` holds it as it is, `DO87` behind a padding
indicator. -/
def cryptogram (tlv : Bool) (ciphertext : Bytes) : DataObject :=
  if tlv then .written Tag.encryptedTlv ciphertext
  else .written Tag.encryptedPadded (paddingIndicator :: ciphertext)

/-- The object that holds an expected length. -/
def lengthField (expected : Nat) : DataObject :=
  .written Tag.expectedLength
    (if expected ≤ Apdu.maxShortNe then Bytes.be 1 expected else Bytes.be 2 expected)

/-- The objects of a protected command in front of the MAC. -/
def protectedObjects (instruction : UInt8) (ciphertext : Option Bytes) (expected : Option Nat) :
    List DataObject :=
  (ciphertext.map (cryptogram (instruction.toNat % 2 == 1))).toList ++
    (expected.map lengthField).toList

/-- A ciphertext is there exactly if there is data, and decrypts to it. -/
def Encrypts (c : Channel) (data ciphertext : Option Bytes) : Prop :=
  Option.Rel (fun d e => c.decrypt e = .ok d ∧ e.length = ciphertextLength c.suite d.length)
    data ciphertext

theorem commandObjects_eq (c : Channel) (instruction : UInt8) (request : Option Bytes)
    (expected : Option Nat) : c.commandObjects instruction request expected = do
      let encrypted ← request.elim (.ok []) (c.encryptedObject instruction)
      return encrypted ++ (expected.map lengthField).toList.flatMap (·.raw) := by
  cases expected with
  | none => cases request <;> rfl
  | some ne =>
    have h : (Option.map lengthField (some ne)).toList.flatMap (·.raw) = lengthObject ne := by
      simp [lengthField, lengthObject]
    rw [h]
    cases request <;> rfl

theorem commandObjects_spec (c : Channel) (instruction : UInt8) (request : Option Bytes)
    (expected : Option Nat) : ∃ ciphertext, c.Encrypts request ciphertext ∧
      c.commandObjects instruction request expected =
        .ok ((protectedObjects instruction ciphertext expected).flatMap (·.raw)) := by
  rw [commandObjects_eq]
  cases request with
  | none => exact ⟨none, .none, rfl⟩
  | some data =>
    obtain ⟨ciphertext, he, hl, hd⟩ := c.encrypt_spec data
    refine ⟨some ciphertext, .some ⟨hd, hl⟩, ?_⟩
    have hobject : c.encryptedObject instruction data =
        .ok (cryptogram (instruction.toNat % 2 == 1) ciphertext).raw := by
      rw [encryptedObject, he, cryptogram]
      by_cases hi : instruction.toNat % 2 = 1
      · simp [hi, bind, Except.bind, pure, Except.pure]
      · simp [hi, bind, Except.bind, pure, Except.pure]
    rw [Option.elim_some, hobject]
    simp [protectedObjects, bind, Except.bind, pure, Except.pure]

/-! ## Commands -/

/-- The expected length of a protected command whose body has `length` bytes. -/
def responseRoom (length : Nat) (expected : Option Nat) : Nat :=
  if Apdu.maxShortLc < length || expected.any (Apdu.maxShortNe < ·) then Apdu.maxExtendedNe
  else Apdu.maxShortNe

/-- The protected command with the given objects. -/
def protectedCommand (header : Apdu.Header) (objects : List DataObject) (expected : Option Nat) :
    Apdu.Command :=
  let body := objects.flatMap (·.raw)
  ⟨maskHeader header, Apdu.Body.shortest body (some (responseRoom body.length expected))⟩

/-- **Wrapping never fails**, and the protected command consists of a cryptogram of the request
data, the expected length and the MAC over these and the header. -/
theorem wrap_spec (c : Channel) (command : Apdu.Command) : ∃ ciphertext mac,
    c.Encrypts command.body.request ciphertext ∧ mac.length = Mac.size ∧
    c.mac (Padding.pad c.suite.blockSize (maskHeader command.header).toBytes ++
      (protectedObjects command.header.ins ciphertext command.body.expectedLength).flatMap
        (·.raw)) = .ok mac ∧
    c.wrap command = .ok (protectedCommand command.header
      (protectedObjects command.header.ins ciphertext command.body.expectedLength ++
        [.written Tag.mac mac]) command.body.expectedLength) := by
  obtain ⟨ciphertext, hc, ho⟩ :=
    c.commandObjects_spec command.header.ins command.body.request command.body.expectedLength
  obtain ⟨mac, hm, hl⟩ := c.mac_spec (Padding.pad c.suite.blockSize
    (maskHeader command.header).toBytes ++
      (protectedObjects command.header.ins ciphertext command.body.expectedLength).flatMap (·.raw))
  refine ⟨ciphertext, mac, hc, hl, hm, ?_⟩
  rw [wrap, show (maskHeader command.header).ins = command.header.ins from rfl, ho]
  show (c.mac _ >>= fun _ => _) = _
  rw [hm, protectedCommand, responseRoom]
  simp [bind, Except.bind, pure, Except.pure]

theorem wrap_ok (c : Channel) (command : Apdu.Command) :
    ∃ wrapped, c.wrap command = .ok wrapped := by
  obtain ⟨_, _, _, _, _, hw⟩ := c.wrap_spec command
  exact ⟨_, hw⟩

/-! ## Lengths -/

/-- The number of bytes in the body of a protected command. -/
def protectedLength (suite : CipherSuite) (command : Apdu.Command) : Nat :=
  (command.body.request.elim 0 fun data => DataObject.size
    (ciphertextLength suite data.length + if command.header.ins.toNat % 2 = 1 then 0 else 1)) +
  (command.body.expectedLength.elim 0 fun ne =>
    DataObject.size (if ne ≤ Apdu.maxShortNe then 1 else 2)) +
  DataObject.size Mac.size

theorem length_cryptogram (tlv : Bool) (ciphertext : Bytes) :
    (cryptogram tlv ciphertext).raw.length =
      DataObject.size (ciphertext.length + if tlv then 0 else 1) := by
  cases tlv with
  | true => exact DataObject.length_encode (by decide) _
  | false => exact DataObject.length_encode (by decide) _

theorem length_lengthField (ne : Nat) : (lengthField ne).raw.length =
    DataObject.size (if ne ≤ Apdu.maxShortNe then 1 else 2) := by
  have : ∀ value, (DataObject.written Tag.expectedLength value).raw.length =
      DataObject.size value.length := fun value => DataObject.length_encode (by decide) value
  rw [lengthField, this]
  split <;> rw [Bytes.length_be]

theorem length_protectedBody {c : Channel} {command : Apdu.Command} {ciphertext : Option Bytes}
    {mac : Bytes} (hc : c.Encrypts command.body.request ciphertext) (hm : mac.length = Mac.size) :
    ((protectedObjects command.header.ins ciphertext command.body.expectedLength ++
      [DataObject.written Tag.mac mac]).flatMap (·.raw)).length =
        protectedLength c.suite command := by
  have hmac : (DataObject.written Tag.mac mac).raw.length = DataObject.size Mac.size := by
    rw [DataObject.written_raw, DataObject.length_encode (by decide), hm]
  -- `DO87` is longer than `DO85` by the padding indicator
  have hdata : ((ciphertext.map (cryptogram (command.header.ins.toNat % 2 == 1))).toList.flatMap
      (·.raw)).length = command.body.request.elim 0 fun data => DataObject.size
        (ciphertextLength c.suite data.length + if command.header.ins.toNat % 2 = 1
          then 0 else 1) := by
    cases hr : command.body.request with
    | none =>
      rw [hr] at hc
      cases hc
      rfl
    | some data =>
      rw [hr] at hc
      cases hc with
      | some h => simp [length_cryptogram, h.2]
  have hexpected : ((command.body.expectedLength.map lengthField).toList.flatMap (·.raw)).length =
      command.body.expectedLength.elim 0 fun ne =>
        DataObject.size (if ne ≤ Apdu.maxShortNe then 1 else 2) := by
    cases command.body.expectedLength with
    | none => rfl
    | some ne => simp [length_lengthField]
  rw [protectedObjects, List.flatMap_append, List.flatMap_append, List.length_append,
    List.length_append, hdata, hexpected, List.flatMap_singleton, hmac, protectedLength]

theorem protectedBody_ne_nil (objects : List DataObject) (mac : Bytes) :
    (objects ++ [DataObject.written Tag.mac mac]).flatMap (·.raw) ≠ [] := by
  have h : 0 < (DataObject.written Tag.mac mac).raw.length := by
    rw [DataObject.written_raw, DataObject.length_encode (by decide), DataObject.size]
    omega
  rw [List.flatMap_append, List.flatMap_singleton]
  exact List.append_ne_nil_of_right_ne_nil _ (List.length_pos_iff.1 h)

/-- The most request data that makes for short commands under protection. -/
def maxBriefLc : Nat := 223

/-- There is room for the data with its padding in what a short command can hold, and for the
expected length and the MAC. -/
theorem protectedLength_le (suite : CipherSuite) {command : Apdu.Command}
    (hr : ∀ data ∈ command.body.request, data.length ≤ maxBriefLc)
    (he : ∀ ne ∈ command.body.expectedLength, ne ≤ Apdu.maxShortNe) :
    protectedLength suite command ≤ Apdu.maxShortLc := by
  -- a block is added at most, and 224 is a multiple of both block sizes
  have hblocks : ∀ n ≤ maxBriefLc, ciphertextLength suite n ≤ 224 := by
    intro n hn
    rw [maxBriefLc] at hn
    cases suite with
    | tdes =>
      have : n / 8 ≤ 27 := by omega
      exact Nat.mul_le_mul_right 8 (Nat.succ_le_succ this)
    | aes128 | aes192 | aes256 =>
      have : n / 16 ≤ 13 := by omega
      exact Nat.mul_le_mul_right 16 (Nat.succ_le_succ this)
  have hdata : (command.body.request.elim 0 fun data => DataObject.size
      (ciphertextLength suite data.length + if command.header.ins.toNat % 2 = 1 then 0 else 1)) ≤
        228 := by
    cases hq : command.body.request with
    | none => exact Nat.zero_le _
    | some data =>
      have hciphertext := hblocks data.length (hr data hq)
      have hvalue : (ciphertextLength suite data.length +
          if command.header.ins.toNat % 2 = 1 then 0 else 1) ≤ 225 := by
        split <;> omega
      exact Nat.le_trans (DataObject.size_le (by omega)) (Nat.add_le_add_right hvalue 3)
  have hexpected : (command.body.expectedLength.elim 0 fun ne =>
      DataObject.size (if ne ≤ Apdu.maxShortNe then 1 else 2)) ≤ 4 := by
    cases hq : command.body.expectedLength with
    | none => exact Nat.zero_le _
    | some ne =>
      rw [Option.elim_some, if_pos (he ne hq)]
      exact DataObject.size_le (by decide)
  have hmac : DataObject.size Mac.size ≤ 11 := DataObject.size_le (by decide)
  rw [protectedLength]
  simp only [Apdu.maxShortLc]
  -- 228 bytes of data, 4 of expected length and 11 of MAC are 243
  omega

/-- **Protection keeps short commands short** that have no more than 223 bytes of request data. -/
theorem isShort_wrap {c : Channel} {command wrapped : Apdu.Command}
    (hr : ∀ data ∈ command.body.request, data.length ≤ maxBriefLc)
    (he : ∀ ne ∈ command.body.expectedLength, ne ≤ Apdu.maxShortNe)
    (hw : c.wrap command = .ok wrapped) :
    wrapped.IsShort := by
  obtain ⟨ciphertext, mac, hc, hl, -, hwrap⟩ := c.wrap_spec command
  rw [hw, Except.ok.injEq] at hwrap
  subst hwrap
  have hbody := length_protectedBody hc hl
  have hle : ((protectedObjects command.header.ins ciphertext command.body.expectedLength ++
      [DataObject.written Tag.mac mac]).flatMap (·.raw)).length ≤ Apdu.maxShortLc :=
    hbody ▸ protectedLength_le c.suite hr he
  -- with a short body and a short Ne the outer Le is the short maximum
  have hroom : responseRoom ((protectedObjects command.header.ins ciphertext
      command.body.expectedLength ++ [DataObject.written Tag.mac mac]).flatMap (·.raw)).length
      command.body.expectedLength = Apdu.maxShortNe := by
    rw [responseRoom, if_neg]
    rw [Bool.or_eq_true, decide_eq_true_eq, Option.any_eq_true, not_or]
    refine ⟨Nat.not_lt.2 hle, ?_⟩
    rintro ⟨ne, hne, h⟩
    exact Nat.not_lt.2 (he ne hne) (of_decide_eq_true h)
  rw [protectedCommand, hroom]
  refine Apdu.isShort_shortest hle (fun ne hne => ?_) _
  cases hne
  exact Nat.le_refl _

/-- The next command of the channel has a serialized form. -/
def Carries (c : Channel) (command : Apdu.Command) : Prop :=
  ∃ wrapped bytes, c.step.wrap command = .ok wrapped ∧ wrapped.encode = .ok bytes

/-- **Whether a protected command has a serialized form** depends on lengths and the cipher only. -/
theorem carries_iff {c : Channel} {command : Apdu.Command} :
    c.Carries command ↔ protectedLength c.suite command ≤ Apdu.maxExtendedLc := by
  obtain ⟨ciphertext, mac, hc, hl, -, hw⟩ := c.step.wrap_spec command
  have hlength := length_protectedBody hc hl
  rw [step_suite] at hlength
  rw [← hlength, ← Apdu.encode_shortest_iff (protectedBody_ne_nil _ mac)]
  constructor
  · rintro ⟨wrapped, bytes, hw', he⟩
    rw [hw, Except.ok.injEq] at hw'
    subst hw'
    exact ⟨bytes, he⟩
  · rintro ⟨bytes, he⟩
    exact ⟨_, bytes, hw, he⟩

end Channel
end TravelDocument

import Mathlib.Data.Nat.ModEq
import TravelDocument.Proofs.SecureMessaging.Authenticity
import TravelDocument.Proofs.SecureMessaging.Wrapping

/-!
# Nothing is authenticated or encrypted twice in the same way

A channel is used by calls, each of which moves the counter on first. `Call.macInput?` is what a
call computes a MAC from (`wrap_of_commandInput`, `unwrap_of_responseInput`), and a call without one
returns an error (`unwrap_of_no_responseInput`). The counter can be read off a MAC input
(`macInput_eq`) and off an initialisation vector of AES (`counter_eq_of_iv`), and no two of fewer
calls than the counter has values see the same one (`add_mod_ne`). So in the life of a channel no
two MAC inputs are equal, and no two initialisation vectors (`callAll_fresh`).
-/

namespace TravelDocument.Channel

/-! ## Calls -/

/-- A call of a channel: one protects a command, the other verifies and decrypts a response. -/
inductive Call where
  | wrap (command : Apdu.Command)
  | unwrap (response : Apdu.Response)

/-- What a call returns. -/
inductive Returned where
  | command (result : Except CryptoError Apdu.Command)
  | response (result : Except Error Apdu.Response)

/-- A call that has been made, and the channel after it. This is also the channel that the call has
worked with, for the counter moves on first. -/
structure Made where
  call : Call
  channel : Channel
  returned : Returned

/-- Makes a call. -/
def makeCall (c : Channel) : Call → Made
  | .wrap command => ⟨.wrap command, c.step, .command (c.step.wrap command)⟩
  | .unwrap response => ⟨.unwrap response, c.step, .response (c.step.unwrap response)⟩

/-- Makes calls one after the other, whatever they return. -/
def callAll : List Call → Channel → List Made
  | [], _ => []
  | call :: rest, c => c.makeCall call :: callAll rest (c.makeCall call).channel

@[simp] theorem makeCall_call (c : Channel) (call : Call) : (c.makeCall call).call = call := by
  cases call <;> rfl

@[simp] theorem makeCall_channel (c : Channel) (call : Call) :
    (c.makeCall call).channel = c.step := by
  cases call <;> rfl

/-- **After so many calls the counter has moved on by as many**, and the keys are the same. -/
theorem callAll_channel {calls : List Call} {c : Channel} {i : Nat} {made : Made}
    (h : (callAll calls c)[i]? = some made) :
    c.SameKeys made.channel ∧
      made.channel.counter = (c.counter + (i + 1)) % c.suite.counterRange := by
  induction calls generalizing c i with
  | nil => simp [callAll] at h
  | cons call rest ih =>
    rw [callAll, makeCall_channel] at h
    cases i with
    | zero =>
      obtain rfl : c.makeCall call = made := by simpa using h
      rw [makeCall_channel]
      exact ⟨c.step_sameKeys, rfl⟩
    | succ i =>
      obtain ⟨hs, hc⟩ := ih (by simpa using h)
      refine ⟨c.step_sameKeys.trans hs, ?_⟩
      rw [hc, step_counter, step_suite, Nat.mod_add_mod]
      congr 1
      omega

theorem length_callAll (calls : List Call) (c : Channel) :
    (callAll calls c).length = calls.length := by
  induction calls generalizing c with
  | nil => rfl
  | cons call rest ih => rw [callAll, List.length_cons, ih, List.length_cons]

/-! ## MAC inputs -/

/-- What the MAC of a command is computed from at the present counter. -/
def commandInput (c : Channel) (command : Apdu.Command) : Except CryptoError Bytes := do
  let objects ← c.commandObjects command.header.ins command.body.request
      command.body.expectedLength
  return c.macInput (Padding.pad c.suite.blockSize (maskHeader command.header).toBytes ++ objects)

/-- What the MAC of a response is computed from at the present counter. There is none to compute if
the response is empty, does not consist of data objects or has no MAC to compare with. -/
def responseInput? (c : Channel) (response : Apdu.Response) : Option Bytes :=
  if response.data.isEmpty then none
  else do
    let objects ← DataObject.all? response.data
    let _ ← lastObject? [Tag.mac] objects
    return c.macInput (authenticatedObjects objects)

/-- What a call computes a MAC from, if it computes one. -/
def Call.macInput? (c : Channel) : Call → Option Bytes
  | .wrap command => (c.commandInput command).toOption
  | .unwrap response => c.responseInput? response

/-- The MAC in a protected command is computed from the input of the command. -/
theorem wrap_of_commandInput (c : Channel) (command : Apdu.Command) : ∃ objects input mac,
    c.commandObjects command.header.ins command.body.request command.body.expectedLength =
      .ok objects ∧
      c.commandInput command = .ok input ∧ c.suite.mac c.keys.mac input = .ok mac ∧
      ∃ wrapped, c.wrap command = .ok wrapped ∧
        wrapped.body.request = some (objects ++ DataObject.encode Tag.mac mac) := by
  obtain ⟨ciphertext, -, ho⟩ :=
    c.commandObjects_spec command.header.ins command.body.request command.body.expectedLength
  generalize (protectedObjects command.header.ins ciphertext command.body.expectedLength).flatMap
    (·.raw) = objects at ho
  obtain ⟨mac, hm, -⟩ := c.mac_spec
    (Padding.pad c.suite.blockSize (maskHeader command.header).toBytes ++ objects)
  have hne : objects ++ DataObject.encode Tag.mac mac ≠ [] := by
    refine List.append_ne_nil_of_right_ne_nil _ (List.length_pos_iff.1 ?_)
    rw [DataObject.length_encode (by decide), DataObject.size]
    omega
  -- `wrap` computes the MAC over just this input
  have hw : c.wrap command = .ok (⟨maskHeader command.header,
      .shortest (objects ++ DataObject.encode Tag.mac mac) (some (responseRoom
        (objects ++ DataObject.encode Tag.mac mac).length command.body.expectedLength))⟩) := by
    rw [wrap, show (maskHeader command.header).ins = command.header.ins from rfl, ho]
    show (c.mac _ >>= fun _ => _) = _
    rw [hm]
    rfl
  refine ⟨objects, _, mac, ho, ?_, hm, _, hw, Apdu.Body.request_shortest hne _⟩
  rw [commandInput, ho]
  rfl

/-- A response that has an input is judged by the MAC of that input and nothing else. -/
theorem unwrap_of_responseInput {c : Channel} {response : Apdu.Response} {input : Bytes}
    (h : c.responseInput? response = some input) : ∃ objects mac,
      DataObject.all? response.data = some objects ∧ IsLast Tag.mac objects mac ∧
      input = c.macInput (authenticatedObjects objects) ∧
      c.unwrap response =
        if c.suite.mac c.keys.mac input = .ok mac.value ∨ c.macPolicy = .lenient then
          (do return ⟨← c.responseData objects, ← responseStatus objects⟩)
        else .error (.integrity .responseMac) := by
  rw [responseInput?] at h
  split at h
  · cases h
  rename_i hd
  simp only [Option.bind_eq_bind, Option.bind_eq_some_iff] at h
  obtain ⟨objects, ho, mac, hl, h⟩ := h
  obtain rfl := Option.some.inj h
  refine ⟨objects, mac, ho, lastObject?_eq_some_iff.1 hl, rfl, ?_⟩
  -- the lenient policy goes on after a wrong MAC, the strict one stops
  rw [unwrap_of_objects (by simpa using hd) ho]
  split
  · rename_i hm
    exact unwrapObjects_of_mac hl hm
  · rename_i hm
    obtain ⟨hm, hp⟩ := not_or.1 hm
    refine unwrapObjects_of_not_mac hl hm ?_
    cases hc : c.macPolicy with
    | strict => rfl
    | lenient => exact absurd hc hp

/-- A response that has no input is refused. -/
theorem unwrap_of_no_responseInput {c : Channel} {response : Apdu.Response}
    (h : c.responseInput? response = none) : ∃ e, c.unwrap response = .error e := by
  rw [unwrap]
  split
  · exact ⟨_, rfl⟩
  rename_i hd
  cases ho : DataObject.all? response.data with
  | none => exact ⟨_, rfl⟩
  | some objects =>
    rw [responseInput?, if_neg hd, ho] at h
    cases hl : lastObject? [Tag.mac] objects with
    | none => exact ⟨_, unwrapObjects_of_missing hl⟩
    | some mac => simp [hl] at h

/-- A MAC input is made at the counter of the channel. -/
theorem exists_macInput {c : Channel} {call : Call} {input : Bytes}
    (h : call.macInput? c = some input) :
    ∃ objects, input = c.macInput objects := by
  cases call with
  | wrap command =>
    obtain ⟨objects, _, _, ho, hi, -⟩ := c.wrap_of_commandInput command
    rw [Call.macInput?, hi, Except.toOption, Option.some.injEq] at h
    rw [commandInput, ho] at hi
    cases hi
    exact ⟨_, h.symm⟩
  | unwrap response =>
    obtain ⟨objects, _, _, _, hi, -⟩ := unwrap_of_responseInput h
    exact ⟨_, hi⟩

/-! ## The counter in MAC inputs and initialisation vectors -/

section

variable {c d : Channel}

theorem counter_lt_pow (c : Channel) : c.counter < 256 ^ c.suite.blockSize := by
  refine Nat.lt_of_lt_of_eq c.counter_lt ?_
  rw [CipherSuite.counterRange, Nat.one_shiftLeft, Nat.pow_mul]

theorem counter_eq_of_counterBlock (h : c.counterBlock = d.counterBlock) :
    c.counter = d.counter := by
  have hn := congrArg Bytes.toNat h
  rw [counterBlock, counterBlock, Bytes.toNat_be, Bytes.toNat_be,
    Nat.mod_eq_of_lt c.counter_lt_pow, Nat.mod_eq_of_lt d.counter_lt_pow] at hn
  exact hn

/-- **A MAC input determines the counter and the objects.** -/
theorem macInput_eq {a b : Bytes} (hs : c.suite = d.suite) (h : c.macInput a = d.macInput b) :
    c.counter = d.counter ∧ a = b := by
  rw [macInput, macInput, hs] at h
  obtain ⟨hblock, hab⟩ := List.append_inj (Padding.pad_inj h) (by simp [hs])
  exact ⟨counter_eq_of_counterBlock hblock, hab⟩

theorem header_eq_of_toBytes {g h : Apdu.Header} (e : g.toBytes = h.toBytes) : g = h := by
  cases g
  cases h
  simpa [Apdu.Header.toBytes] using e

/-- **The MAC input of a command determines the masked header and all data objects** as well. -/
theorem commandInput_eq {command command' : Apdu.Command} {input : Bytes} (hs : c.suite = d.suite)
    (h : c.commandInput command = .ok input) (h' : d.commandInput command' = .ok input) :
    maskHeader command.header = maskHeader command'.header ∧
      c.commandObjects command.header.ins command.body.request command.body.expectedLength =
        d.commandObjects command'.header.ins command'.body.request
          command'.body.expectedLength := by
  obtain ⟨objects, _, _, ho, hi, -⟩ := c.wrap_of_commandInput command
  obtain ⟨objects', _, _, ho', hi', -⟩ := d.wrap_of_commandInput command'
  rw [commandInput, ho] at h
  rw [commandInput, ho'] at h'
  have heq := Except.ok.inj (h.trans h'.symm)
  obtain ⟨-, hab⟩ := macInput_eq hs heq
  have hpos := d.suite.blockSize_pos
  rw [hs] at hab
  obtain ⟨hheader, hobjects⟩ := List.append_inj hab (by
    rw [Padding.length_pad hpos, Padding.length_pad hpos]
    rfl)
  refine ⟨header_eq_of_toBytes (Padding.pad_inj hheader), ?_⟩
  rw [ho, ho', hobjects]

/-- **An initialisation vector of AES determines the counter**, for the block cipher can be
inverted. -/
theorem counter_eq_of_iv (hk : c.SameKeys d) (ha : c.suite.isAes = true) (h : c.iv = d.iv) :
    c.counter = d.counter := by
  have hd : d.suite.isAes = true := hk.suite ▸ ha
  have hblocks : ∀ e : Channel, e.counterBlock.length % e.suite.blockSize = 0 := fun e => by
    rw [length_counterBlock, Nat.mod_self]
  obtain ⟨v, hv, -, hdec⟩ :=
    CipherSuite.encrypt_spec c.length_encryption c.suite.length_zeroIv (hblocks c)
  obtain ⟨w, hw, -, hdec'⟩ :=
    CipherSuite.encrypt_spec d.length_encryption d.suite.length_zeroIv (hblocks d)
  rw [iv, iv, if_pos ha, if_pos hd, hv, hw, Except.ok.injEq] at h
  rw [h, hk.suite, hk.keys, hdec', Except.ok.injEq] at hdec
  exact counter_eq_of_counterBlock hdec.symm

end

/-! ## The life of a channel -/

/-- Two counters that have moved on by different amounts, neither of them more than once around. -/
theorem add_mod_ne {n range i j : Nat} (hi : i < range) (hj : j < range) (h : i ≠ j) :
    (n + (i + 1)) % range ≠ (n + (j + 1)) % range := by
  intro he
  have hmod : i ≡ j [MOD range] := by
    have := Nat.ModEq.add_left_cancel' n (show n + (i + 1) ≡ n + (j + 1) [MOD range] from he)
    exact Nat.ModEq.add_right_cancel' 1 this
  rw [Nat.ModEq, Nat.mod_eq_of_lt hi, Nat.mod_eq_of_lt hj] at hmod
  exact h hmod

/-- Different calls see different counters. -/
theorem counter_ne {calls : List Call} {c : Channel} (hl : calls.length < c.suite.counterRange)
    {i j : Nat} {first second : Made} (hi : (callAll calls c)[i]? = some first)
    (hj : (callAll calls c)[j]? = some second) (h : i ≠ j) :
    first.channel.counter ≠ second.channel.counter := by
  have hlength := length_callAll calls c
  obtain ⟨hilt, -⟩ := List.getElem?_eq_some_iff.1 hi
  obtain ⟨hjlt, -⟩ := List.getElem?_eq_some_iff.1 hj
  rw [(callAll_channel hi).2, (callAll_channel hj).2]
  exact add_mod_ne (by omega) (by omega) h

/-- **Freshness over the life of a channel.** The counter moves on with every call, whatever its
outcome. As long as it has not gone round, no two calls compute a MAC from the same input, and the
initialisation vectors of AES differ. A MAC input determines the counter, and that of a command its
header and its data objects too. -/
theorem callAll_fresh (c : Channel) (calls : List Call)
    (hl : calls.length < if c.suite = .tdes then 2 ^ 64 else 2 ^ 128) :
    (∀ (i : Nat) made, (callAll calls c)[i]? = some made → c.SameKeys made.channel ∧
      made.channel.counter = (c.counter + (i + 1)) % if c.suite = .tdes then 2 ^ 64
        else 2 ^ 128) ∧
    (∀ (i j : Nat) first second, i ≠ j → (callAll calls c)[i]? = some first →
      (callAll calls c)[j]? = some second →
      (∀ a b, first.call.macInput? first.channel = some a →
        second.call.macInput? second.channel = some b → a ≠ b) ∧
      (c.suite.isAes = true → first.channel.iv ≠ second.channel.iv)) ∧
    ∀ d e : Channel, d.suite = c.suite → e.suite = c.suite →
      (∀ (call call' : Call) input, call.macInput? d = some input →
        call'.macInput? e = some input → d.counter = e.counter) ∧
      ∀ (command command' : Apdu.Command) input, d.commandInput command = .ok input →
        e.commandInput command' = .ok input →
        maskHeader command.header = maskHeader command'.header ∧
          d.commandObjects command.header.ins command.body.request command.body.expectedLength =
            e.commandObjects command'.header.ins command'.body.request
              command'.body.expectedLength := by
  rw [← CipherSuite.counterRange_eq] at hl ⊢
  refine ⟨fun i made h => callAll_channel h, ?_, ?_⟩
  · intro i j first second hij hi hj
    obtain ⟨hfirst, -⟩ := callAll_channel hi
    obtain ⟨hsecond, -⟩ := callAll_channel hj
    -- fewer calls than counters, so no two of them see the same one
    have hne := counter_ne hl hi hj hij
    refine ⟨?_, ?_⟩
    · rintro a b ha hb rfl
      obtain ⟨_, ha⟩ := exists_macInput ha
      obtain ⟨_, hb⟩ := exists_macInput hb
      exact hne (macInput_eq (hfirst.suite.symm.trans hsecond.suite) (ha.symm.trans hb)).1
    · intro haes hiv
      have hk : first.channel.SameKeys second.channel :=
        ⟨hfirst.suite.symm.trans hsecond.suite, hfirst.keys.symm.trans hsecond.keys,
          hfirst.macPolicy.symm.trans hsecond.macPolicy⟩
      exact hne (counter_eq_of_iv hk (hfirst.suite ▸ haes) hiv)
  · intro d e hd he
    have hs : d.suite = e.suite := hd.trans he.symm
    refine ⟨?_, fun command command' input h h' => commandInput_eq hs h h'⟩
    intro call call' input h h'
    obtain ⟨_, h⟩ := exists_macInput h
    obtain ⟨_, h'⟩ := exists_macInput h'
    exact (macInput_eq hs (h.symm.trans h')).1

/-- An AES channel whose counter is about to go round. -/
def aboutToWrap : Channel where
  suite := .aes128
  keys := ⟨List.replicate 16 0, List.replicate 16 0⟩
  counter := 2 ^ 128 - 1
  macPolicy := .strict
  length_encryption := rfl
  length_mac := rfl
  counter_lt := by decide

/-- A selection and the response to it: the counter goes round, and MAC inputs and initialisation
vectors differ. -/
theorem callAll_fresh_aboutToWrap :
    let calls : List Call :=
      [.wrap (.make 0x00 0xA4 0x02 0x0C [0x01, 0x1E] none), .unwrap workedResponse]
    calls.length < 2 ^ 128 ∧ ∃ first second, callAll calls aboutToWrap = [first, second] ∧
      first.channel.counter = 0 ∧ second.channel.counter = 1 ∧
      (∃ a b, first.call.macInput? first.channel = some a ∧
        second.call.macInput? second.channel = some b ∧ a ≠ b) ∧
      first.channel.iv ≠ second.channel.iv := by
  intro calls
  have hl : calls.length < if aboutToWrap.suite = .tdes then 2 ^ 64 else 2 ^ 128 := by decide
  obtain ⟨hcounter, hdiffer, -⟩ := callAll_fresh aboutToWrap calls hl
  obtain ⟨hinput, hiv⟩ := hdiffer 0 1 _ _ (by decide) rfl rfl
  refine ⟨by decide, _, _, rfl, rfl, rfl, ?_, hiv rfl⟩
  -- what is left is that both calls compute a MAC at all; a call of `wrap` always does
  obtain ⟨_, a, _, _, ha, -⟩ :=
    aboutToWrap.step.wrap_of_commandInput (.make 0x00 0xA4 0x02 0x0C [0x01, 0x1E] none)
  have ha' : (Call.wrap (.make 0x00 0xA4 0x02 0x0C [0x01, 0x1E] none)).macInput? aboutToWrap.step =
      some a := by
    rw [Call.macInput?, ha]
    rfl
  obtain ⟨b, hb⟩ :
      ∃ b, (Call.unwrap workedResponse).macInput? aboutToWrap.step.step = some b :=
    Option.isSome_iff_exists.1 (by decide +kernel)
  exact ⟨a, b, ha', hb, hinput a b ha' hb⟩

end TravelDocument.Channel

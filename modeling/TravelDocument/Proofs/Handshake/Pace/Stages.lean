import TravelDocument.Proofs.Dialogue.Turns
import TravelDocument.Proofs.Handshake.Pace.Responder

/-!
# The stages of PACE

The terminal comes through five stages with a command each. `Sends` says what it sends at a stage,
`Learns` what an answer brings it to, and `Stuck` and `Rejects` why it goes no further. A run passes
some stages (`Passes`) and ends at one (`Ends`): this is what every run does, over every link
(`establishWith_ends`). The answers alone determine which stages it passes (`Passes.unique`).
-/

namespace TravelDocument.Pace

/-- How far the terminal has come. -/
inductive Stage where
  | start
  | selected
  | decrypted (nonce : Nat)
  | mapped (group : KeyAgreement)
  | agreed (agreed : Agreed)
  /-- The token of the chip was right. -/
  | authenticated (secret : Bytes)

/-! ## Commands, answers and tokens -/

/-- GENERAL AUTHENTICATE with dynamic authentication data. -/
def generalAuthenticate (cla : UInt8) (objects : Bytes) : Apdu.Command :=
  ⟨⟨cla, 0x86, 0x00, 0x00⟩, .shortest (DataObject.encode 0x7C objects) (some 256)⟩

/-- The data is a single object of dynamic authentication data, in which the object with this tag is
found. What follows that one in there may be anything. -/
def HoldsObject (tag : Nat) (data value : Bytes) : Prop :=
  ∃ objects, DataObject.IsSingle 0x7C data objects ∧ DataObject.Finds tag objects value

theorem Step.answer_eq_ok_iff {step : Step} {data value : Bytes} :
    step.answer data = .ok value ↔ HoldsObject step.responseTag data value := by
  constructor
  · intro h
    rw [Step.answer] at h
    split at h
    · cases h
    · rename_i objects hsingle
      split at h
      · cases h
      · rename_i found hfind
        cases h
        exact ⟨objects, DataObject.single?_eq_some_iff.1 hsingle,
          DataObject.find?_eq_some_iff.1 hfind⟩
  · rintro ⟨objects, hsingle, hfind⟩
    simp only [Step.answer, DataObject.single?_eq_some_iff.2 hsingle,
      DataObject.find?_eq_some_iff.2 hfind]

/-- There are two reasons for which an answer has no value. -/
theorem Step.answer_eq_error {step : Step} {data : Bytes} {e : Error}
    (h : step.answer data = .error e) :
    (e = .malformedResponse step.operation .dynamicDataMissing ∧
      ∀ objects, ¬ DataObject.IsSingle 0x7C data objects) ∨
    e = .malformedResponse step.operation .dynamicObjectMissing ∧
      ∃ objects, DataObject.IsSingle 0x7C data objects ∧
        ∀ value, ¬ DataObject.Finds step.responseTag objects value := by
  rw [Step.answer] at h
  split at h
  · rename_i hsingle
    cases h
    refine .inl ⟨rfl, fun objects hs => ?_⟩
    rw [DataObject.single?_eq_some_iff.2 hs] at hsingle
    cases hsingle
  · rename_i objects hsingle
    split at h
    · rename_i hfind
      cases h
      refine .inr ⟨rfl, objects, DataObject.single?_eq_some_iff.1 hsingle, fun value hf => ?_⟩
      rw [DataObject.find?_eq_some_iff.2 hf] at hfind
      cases hfind
    · cases h

theorem HoldsObject.unique {tag : Nat} {data a b : Bytes} (ha : HoldsObject tag data a)
    (hb : HoldsObject tag data b) : a = b := by
  obtain ⟨objects, hsingle, hfind⟩ := ha
  obtain ⟨_, hsingle', hfind'⟩ := hb
  obtain rfl := hsingle.unique hsingle'
  exact hfind.unique hfind'

/-- What a token is the MAC of: `7F49` with the protocol and a public key. It is padded for triple
DES only. -/
def authenticatedObject (params : PaceParameters) (protocol publicKey : Bytes) : Bytes :=
  let keyTag := match params.group with
    | .finiteField _ => 0x84
    | .ellipticCurve _ => 0x86
  let object := DataObject.encode 0x7F49
    (DataObject.encode 0x06 protocol ++ DataObject.encode keyTag publicKey)
  if params.suite = .tdes then Padding.pad 8 object else object

/-- The token over a public key, under the MAC key that comes from a shared secret. -/
def IsToken (params : PaceParameters) (secret publicKey token : Bytes) : Prop :=
  ∃ protocol, encodeProtocol params.protocol = .ok protocol ∧ token.length = 8 ∧
    params.suite.mac (params.suite.deriveSessionKeys secret).mac
      (authenticatedObject params protocol publicKey) = .ok token

theorem tokenInput_eq (params : PaceParameters) (protocol publicKey : Bytes) :
    tokenInput params protocol publicKey = authenticatedObject params protocol publicKey := by
  obtain ⟨protocolId, suite, group⟩ := params
  cases suite <;> cases group <;> rfl

theorem token_eq_ok_iff {params : PaceParameters} {secret publicKey t : Bytes} :
    token params (params.suite.deriveSessionKeys secret).mac publicKey = .ok t ↔
      IsToken params secret publicKey t := by
  constructor
  · intro h
    obtain ⟨protocol, hp, hmac⟩ := Except.bind_eq_ok.1 h
    obtain ⟨t', ht', hl⟩ := token_spec hp secret publicKey
    rw [h] at ht'
    cases ht'
    have hmac' := liftCrypto_eq_ok hmac
    rw [tokenInput_eq] at hmac'
    exact ⟨protocol, hp, hl, hmac'⟩
  · rintro ⟨protocol, hp, -, hmac⟩
    rw [token, hp]
    exact congrArg liftCrypto ((tokenInput_eq params protocol publicKey).symm ▸ hmac)

theorem IsToken.unique {params : PaceParameters} {secret publicKey a b : Bytes}
    (ha : IsToken params secret publicKey a) (hb : IsToken params secret publicKey b) : a = b := by
  have h := token_eq_ok_iff.2 ha
  rw [token_eq_ok_iff.2 hb] at h
  exact (Except.ok.inj h).symm

/-! ## What happens at a stage -/

section
variable (params : PaceParameters) (password : PacePassword) (privateKeys : PrivateKeys)

/-- The command of a stage, and the operation that it belongs to. -/
inductive Sends : Stage → Operation → Apdu.Command → Prop
  | template {protocol : Bytes} : encodeProtocol params.protocol = .ok protocol →
    Sends .start .paceSetAuthenticationTemplate ⟨⟨0x00, 0x22, 0xC1, 0xA4⟩,
      .shortest
        (DataObject.encode 0x80 protocol ++ DataObject.encode 0x83 [password.reference]) none⟩
  | nonce : Sends .selected .paceObtainNonce (generalAuthenticate 0x10 [])
  | mapping {nonce : Nat} {own : Bytes} : params.group.publicKey privateKeys.mapping = .ok own →
    Sends (.decrypted nonce) .paceMapNonce (generalAuthenticate 0x10 (DataObject.encode 0x81 own))
  | agreement {group : KeyAgreement} {own : Bytes} :
    group.publicKey privateKeys.agreement = .ok own →
    Sends (.mapped group) .paceKeyAgreement (generalAuthenticate 0x10 (DataObject.encode 0x83 own))
  | token {agreed : Agreed} {outgoing : Bytes} :
    IsToken params agreed.secret agreed.other outgoing →
    Sends (.agreed agreed) .paceMutualAuthentication
      (generalAuthenticate 0x00 (DataObject.encode 0x85 outgoing))

/-- The command of a stage cannot be computed. -/
inductive Stuck : Stage → Error → Prop
  | template {e : Error} : encodeProtocol params.protocol = .error e → Stuck .start e
  | mapping {nonce : Nat} {e : CryptoError} : params.group.publicKey privateKeys.mapping =
    .error e → Stuck (.decrypted nonce) (.crypto e)
  | agreement {group : KeyAgreement} {e : CryptoError} :
    group.publicKey privateKeys.agreement = .error e → Stuck (.mapped group) (.crypto e)

/-- What an answer with status `9000` brings the terminal to. -/
inductive Learns : Stage → Bytes → Stage → Prop
  | template {data : Bytes} : Learns .start data .selected
  | nonce {data encrypted : Bytes} {nonce : Nat} : HoldsObject 0x80 data encrypted →
    decryptNonce params password encrypted = .ok nonce → Learns .selected data (.decrypted nonce)
  | mapping {nonce : Nat} {data own other : Bytes} {group : KeyAgreement} :
    params.group.publicKey privateKeys.mapping = .ok own → HoldsObject 0x82 data other →
      own ≠ other →
    params.group.mapNonce nonce privateKeys.mapping other = .ok group →
    Learns (.decrypted nonce) data (.mapped group)
  | agreement {group : KeyAgreement} {data own other secret : Bytes} :
    group.publicKey privateKeys.agreement = .ok own → HoldsObject 0x84 data other →
      own ≠ other →
    group.sharedSecret privateKeys.agreement other = .ok secret →
    Learns (.mapped group) data (.agreed ⟨own, other, secret⟩)
  | token {agreed : Agreed} {data incoming : Bytes} : HoldsObject 0x86 data incoming →
    IsToken params agreed.secret agreed.own incoming →
    Learns (.agreed agreed) data (.authenticated agreed.secret)

/-- The object that is awaited after the command of a stage. -/
inductive Awaits : Stage → Operation → Nat → Prop
  | nonce : Awaits .selected .paceObtainNonce 0x80
  | mapping {nonce : Nat} : Awaits (.decrypted nonce) .paceMapNonce 0x82
  | agreement {group : KeyAgreement} : Awaits (.mapped group) .paceKeyAgreement 0x84
  | token {agreed : Agreed} : Awaits (.agreed agreed) .paceMutualAuthentication 0x86

/-- Why an answer with status `9000` brings the terminal nowhere. -/
inductive Rejects : Stage → Bytes → Error → Prop
  | dataMissing {stage : Stage} {operation : Operation} {tag : Nat} {data : Bytes} :
    Awaits stage operation tag → (∀ objects, ¬ DataObject.IsSingle 0x7C data objects) →
    Rejects stage data (.malformedResponse operation .dynamicDataMissing)
  | objectMissing {stage : Stage} {operation : Operation} {tag : Nat} {data objects : Bytes} :
    Awaits stage operation tag → DataObject.IsSingle 0x7C data objects →
    (∀ value, ¬ DataObject.Finds tag objects value) →
    Rejects stage data (.malformedResponse operation .dynamicObjectMissing)
  | nonce {data encrypted : Bytes} {e : CryptoError} : HoldsObject 0x80 data encrypted →
    decryptNonce params password encrypted = .error e → Rejects .selected data (.crypto e)
  | equalMappingKeys {nonce : Nat} {data own : Bytes} :
    params.group.publicKey privateKeys.mapping = .ok own → HoldsObject 0x82 data own →
    Rejects (.decrypted nonce) data (.crypto .equalPublicKeys)
  | mapping {nonce : Nat} {data own other : Bytes} {e : CryptoError} :
    params.group.publicKey privateKeys.mapping = .ok own → HoldsObject 0x82 data other →
      own ≠ other →
    params.group.mapNonce nonce privateKeys.mapping other = .error e →
    Rejects (.decrypted nonce) data (.crypto e)
  | equalAgreementKeys {group : KeyAgreement} {data own : Bytes} :
    group.publicKey privateKeys.agreement = .ok own → HoldsObject 0x84 data own →
    Rejects (.mapped group) data (.crypto .equalPublicKeys)
  | agreement {group : KeyAgreement} {data own other : Bytes} {e : CryptoError} :
    group.publicKey privateKeys.agreement = .ok own → HoldsObject 0x84 data other →
      own ≠ other →
    group.sharedSecret privateKeys.agreement other = .error e →
    Rejects (.mapped group) data (.crypto e)
  | token {agreed : Agreed} {data incoming expected : Bytes} : HoldsObject 0x86 data incoming →
    IsToken params agreed.secret agreed.own expected → incoming ≠ expected →
    Rejects (.agreed agreed) data (.integrity .authenticationToken)

/-! ## Runs -/

/-- Commands are granted, and each answer brings the terminal from one stage to the next. -/
inductive Passes : Stage → List (Apdu.Command × Bytes) → Stage → Prop
  | none {stage : Stage} : Passes stage [] stage
  | next {stage between last : Stage} {operation : Operation} {command : Apdu.Command}
    {data : Bytes}
      {exchanges : List (Apdu.Command × Bytes)} :
    Sends params password privateKeys stage operation command →
    Learns params password privateKeys stage data between → Passes between exchanges last →
    Passes stage ((command, data) :: exchanges) last

/-- A run ends at a stage, with at most one command more. -/
inductive Ends : Stage → List Turn → Outcome Channel → Prop
  | stuck {stage : Stage} {e : Error} : Stuck params privateKeys stage e →
    Ends stage [] (.failed e)
  | unanswered {stage : Stage} {operation : Operation} {command : Apdu.Command} {e : Error} :
    Sends params password privateKeys stage operation command →
    Ends stage [.exchange command (.error e)] (.failed e)
  | refused {stage : Stage} {operation : Operation} {command : Apdu.Command} {data : Bytes}
      {status : Apdu.StatusWord} :
    Sends params password privateKeys stage operation command → status ≠ .success →
    Ends stage [.exchange command (.ok ⟨data, status⟩)]
      (.failed (.protocolAbort operation status))
  | rejected {stage : Stage} {operation : Operation} {command : Apdu.Command}
    {data : Bytes} {e : Error} :
    Sends params password privateKeys stage operation command →
    Rejects params password privateKeys stage data e →
    Ends stage [.granted (command, data)] (.failed e)
  | established {secret : Bytes} {previous : Option Nat} {c : Channel} :
    Channel.make params.suite (params.suite.deriveSessionKeys secret)
      (initialCounter params.suite previous) = .ok c →
    Ends (.authenticated secret) [] (.ok c)

end

variable {params : PaceParameters} {password : PacePassword} {privateKeys : PrivateKeys}
  {stage : Stage} {operation : Operation} {command : Apdu.Command}

/-! ## A stage determines what happens -/

theorem Sends.unique {operation' : Operation} {command' : Apdu.Command}
    (h : Sends params password privateKeys stage operation command)
    (h' : Sends params password privateKeys stage operation' command') : command = command' := by
  cases h with
  | template hp =>
    cases h' with
    | template hp' =>
      rw [hp] at hp'
      cases hp'
      rfl
  | nonce =>
    cases h' with
    | nonce => rfl
  | mapping ho | agreement ho =>
    cases h'
    rename_i ho'
    rw [ho] at ho'
    cases ho'
    rfl
  | token ht =>
    cases h' with
    | token ht' => rw [ht.unique ht']

theorem Learns.unique {data : Bytes} {next next' : Stage}
    (h : Learns params password privateKeys stage data next)
    (h' : Learns params password privateKeys stage data next') : next = next' := by
  -- the stage decides which constructor it is, and every object read from the answer is unique
  cases h with
  | template =>
    cases h' with
    | template => rfl
  | nonce hh hd =>
    cases h' with
    | nonce hh' hd' =>
      obtain rfl := hh.unique hh'
      rw [hd] at hd'
      cases hd'
      rfl
  | mapping _ hh _ hm =>
    cases h' with
    | mapping _ hh' _ hm' =>
      obtain rfl := hh.unique hh'
      rw [hm] at hm'
      cases hm'
      rfl
  | agreement ho hh _ hs =>
    cases h' with
    | agreement ho' hh' _ hs' =>
      obtain rfl := hh.unique hh'
      rw [ho] at ho'
      cases ho'
      rw [hs] at hs'
      cases hs'
      rfl
  | token _ _ =>
    cases h' with
    | token _ _ => rfl

/-- The value of the awaited object, which is there if the answer brings the terminal on. -/
theorem Learns.holds {data : Bytes} {next : Stage} {tag : Nat}
    (h : Learns params password privateKeys stage data next) (ha : Awaits stage operation tag) :
    ∃ value, HoldsObject tag data value := by
  cases ha <;> cases h <;> exact ⟨_, by assumption⟩

/-- No answer both brings the terminal on and is rejected. -/
theorem Learns.not_rejects {data : Bytes} {next : Stage} {e : Error}
    (h : Learns params password privateKeys stage data next) :
    ¬ Rejects params password privateKeys stage data e := by
  intro hr
  -- one case for each check; what it found wrong is what the same check let pass in `h`
  cases hr with
  | dataMissing ha hn =>
    obtain ⟨_, objects, hsingle, -⟩ := h.holds ha
    exact hn objects hsingle
  | objectMissing ha hsingle hn =>
    obtain ⟨value, objects, hsingle', hfind⟩ := h.holds ha
    obtain rfl := hsingle.unique hsingle'
    exact hn value hfind
  | nonce hh hd =>
    -- both decrypt the same object, since an answer holds one of each tag
    cases h with
    | nonce hh' hd' =>
      obtain rfl := hh.unique hh'
      rw [hd] at hd'
      cases hd'
  | equalMappingKeys ho hh =>
    cases h with
    | mapping ho' hh' hne _ =>
      rw [ho] at ho'
      cases ho'
      exact hne (hh.unique hh')
  | mapping _ hh _ hm =>
    cases h with
    | mapping _ hh' _ hm' =>
      obtain rfl := hh.unique hh'
      rw [hm] at hm'
      cases hm'
  | equalAgreementKeys ho hh =>
    cases h with
    | agreement ho' hh' hne _ =>
      rw [ho] at ho'
      cases ho'
      exact hne (hh.unique hh')
  | agreement _ hh _ hs =>
    cases h with
    | agreement _ hh' _ hs' =>
      obtain rfl := hh.unique hh'
      rw [hs] at hs'
      cases hs'
  | token hh ht hne =>
    cases h with
    | token hh' ht' => exact hne ((hh.unique hh').trans (ht'.unique ht))

/-- **The answers determine the stages** that are passed and the commands that are sent. -/
theorem Passes.unique {last last' : Stage} {exchanges exchanges' : List (Apdu.Command × Bytes)}
    (h : Passes params password privateKeys stage exchanges last)
    (h' : Passes params password privateKeys stage exchanges' last')
    (ha : exchanges.map Prod.snd = exchanges'.map Prod.snd) :
    exchanges = exchanges' ∧ last = last' := by
  induction h generalizing exchanges' with
  | none =>
    cases h' with
    | none => exact ⟨rfl, rfl⟩
    | next _ _ _ => cases ha
  | next hs hl _ ih =>
    cases h' with
    | none => cases ha
    | next hs' hl' hp' =>
      rw [List.map_cons, List.map_cons, List.cons.injEq] at ha
      obtain ⟨hdata, ha⟩ := ha
      dsimp only at hdata
      subst hdata
      -- the same answer at the same stage gives the same command and the same next stage
      obtain rfl := hs.unique hs'
      obtain rfl := hl.unique hl'
      obtain ⟨rfl, rfl⟩ := ih hp' ha
      exact ⟨rfl, rfl⟩

/-! ## Every run passes stages and ends at one -/

variable {σ : Type} {card : Card σ}

/-- From this stage on the dialogue passes stages and ends at one, over every link. -/
def Continues (params : PaceParameters) (password : PacePassword) (privateKeys : PrivateKeys)
    (card : Card σ) (stage : Stage) (dialogue : Dialogue Channel) : Prop :=
  ∀ link, ∃ exchanges last rest, Passes params password privateKeys stage exchanges last ∧
    Ends params password privateKeys last rest (dialogue.run card link).1 ∧
    dialogue.turns card link = exchanges.map .granted ++ rest

theorem continues_stuck {e : Error} (h : Stuck params privateKeys stage e) :
    Continues params password privateKeys card stage (.fail e) :=
  fun _ => ⟨[], stage, [], .none, .stuck h, rfl⟩

/-- A command of a stage, after which every answer brings the terminal on or is rejected. -/
theorem continues_send {k : Apdu.Response → Dialogue Channel}
    (hs : Sends params password privateKeys stage operation command)
    (hk : ∀ data,
      (∃ e, Rejects params password privateKeys stage data e ∧
        k ⟨data, .success⟩ = .fail e) ∨
      ∃ next, Learns params password privateKeys stage data next ∧
        Continues params password privateKeys card next (k ⟨data, .success⟩)) :
    Continues params password privateKeys card stage
      (Dialogue.expectSuccess operation command >>= k) := by
  intro link
  rcases Dialogue.expectSuccess_bind_cases operation command k card link with
    ⟨data, after, hrun, hturns⟩ | ⟨e, after, hrun, hturns⟩ | ⟨data, status, after, hne,
      hrun, hturns⟩
  · rw [hrun, hturns]
    rcases hk data with ⟨e, hr, hfail⟩ | ⟨next, hl, hc⟩
    · rw [hfail]
      exact ⟨[], stage, _, .none, .rejected hs hr, rfl⟩
    · obtain ⟨exchanges, last, rest, hp, he, ht⟩ := hc after
      refine ⟨(command, data) :: exchanges, last, rest, .next hs hl hp, he, ?_⟩
      rw [ht, List.map_cons, List.cons_append]
  · rw [hrun, hturns]
    exact ⟨[], stage, _, .none, .unanswered hs, rfl⟩
  · rw [hrun, hturns]
    exact ⟨[], stage, _, .none, .refused hs hne, rfl⟩

/-- A step of GENERAL AUTHENTICATE, after which every value of the awaited object brings the
terminal on or is rejected. -/
theorem continues_exchange {step : Step} {objects : Bytes} {k : Bytes → Dialogue Channel}
    (hs : Sends params password privateKeys stage step.operation (step.command objects))
    (ha : Awaits stage step.operation step.responseTag)
    (hk : ∀ data value, HoldsObject step.responseTag data value →
      (∃ e, Rejects params password privateKeys stage data e ∧ k value = .fail e) ∨
      ∃ next, Learns params password privateKeys stage data next ∧
        Continues params password privateKeys card next (k value)) :
    Continues params password privateKeys card stage (step.exchange objects >>= k) := by
  rw [Step.exchange, bind_assoc]
  refine continues_send hs fun data => ?_
  cases hanswer : step.answer data with
  | error e =>
    refine .inl ⟨e, ?_, rfl⟩
    rcases Step.answer_eq_error hanswer with ⟨rfl, hn⟩ | ⟨rfl, objects, hsingle, hn⟩
    · exact .dataMissing ha hn
    · exact .objectMissing ha hsingle hn
  | ok value => exact hk data value (Step.answer_eq_ok_iff.1 hanswer)

theorem continues_authenticated (secret : Bytes) :
    Continues params password privateKeys card (.authenticated secret) (do
      let previous ← Dialogue.activeCounter
      Dialogue.ofCrypto (Channel.make params.suite (params.suite.deriveSessionKeys secret)
        (initialCounter params.suite previous))) := by
  intro link
  obtain ⟨c, hmake, -⟩ := Channel.make_derived params.suite secret
    (initialCounter params.suite (link.channel.map (·.counter)))
  refine ⟨[], .authenticated secret, [], .none, ?_, ?_⟩
  · simp only [Dialogue.activeCounter, Dialogue.bind_counter, Dialogue.bind_done,
      Dialogue.run, hmake]
    exact .established hmake
  · simp only [Dialogue.activeCounter, Dialogue.bind_counter, Dialogue.bind_done,
      Dialogue.turns, hmake]
    rfl

/-- The tokens are there once the protocol identifier has an encoding. -/
theorem continues_agreed {protocol : Bytes} (hp : encodeProtocol params.protocol = .ok protocol)
    (agreed : Agreed) {k : Unit → Dialogue Channel}
    (hk : Continues params password privateKeys card (.authenticated agreed.secret) (k ())) :
    Continues params password privateKeys card (.agreed agreed)
      (authenticate params (params.suite.deriveSessionKeys agreed.secret).mac agreed >>= k) := by
  obtain ⟨outgoing, ho, -⟩ := token_spec hp agreed.secret agreed.other
  obtain ⟨expected, he, -⟩ := token_spec hp agreed.secret agreed.own
  rw [authenticate, ho, he]
  simp only [Dialogue.ofExcept, Dialogue.bind_done, bind_assoc]
  refine continues_exchange (.token (token_eq_ok_iff.1 ho)) .token fun data incoming hh => ?_
  split
  · rename_i heq
    subst heq
    exact .inr ⟨_, .token hh (token_eq_ok_iff.1 he), hk⟩
  · rename_i hne
    exact .inl ⟨_, .token hh (token_eq_ok_iff.1 he) hne, rfl⟩

/-- An exchange of public keys: the one of the chip has to be another one, and something is computed
from it. -/
theorem continues_keys {α : Type} {step : Step} {tag : Nat} {own : Bytes}
    {compute : Bytes → Except CryptoError α} {k : Bytes → α → Dialogue Channel}
    (hs : Sends params password privateKeys stage step.operation
      (step.command (DataObject.encode tag own)))
    (ha : Awaits stage step.operation step.responseTag)
    (hequal : ∀ data, HoldsObject step.responseTag data own →
      Rejects params password privateKeys stage data (.crypto .equalPublicKeys))
    (herror : ∀ data other e, HoldsObject step.responseTag data other → own ≠ other →
      compute other = .error e → Rejects params password privateKeys stage data (.crypto e))
    (hok : ∀ data other a, HoldsObject step.responseTag data other → own ≠ other →
      compute other = .ok a → ∃ next, Learns params password privateKeys stage data next ∧
        Continues params password privateKeys card next (k other a)) :
    Continues params password privateKeys card stage (do
      let other ← step.exchange (DataObject.encode tag own)
      Dialogue.ofCrypto (checkDifferent own other)
      let a ← Dialogue.ofCrypto (compute other)
      k other a) := by
  refine continues_exchange hs ha fun data other hh => ?_
  rw [checkDifferent]
  by_cases hne : own = other
  · subst hne
    rw [if_pos rfl]
    exact .inl ⟨_, hequal data hh, rfl⟩
  · rw [if_neg hne]
    cases hc : compute other with
    | error e => exact .inl ⟨_, herror data other e hh hne hc, rfl⟩
    | ok a => exact .inr (hok data other a hh hne hc)

theorem continues_mapped (group : KeyAgreement) {k : Agreed → Dialogue Channel}
    (hk : ∀ agreed, Continues params password privateKeys card (.agreed agreed) (k agreed)) :
    Continues params password privateKeys card (.mapped group)
      (agree group privateKeys.agreement >>= k) := by
  rw [agree]
  cases ho : group.publicKey privateKeys.agreement with
  | error e => exact continues_stuck (.agreement ho)
  | ok own =>
    simp only [bind_assoc, pure_bind]
    exact continues_keys (.agreement ho) .agreement (fun _ => .equalAgreementKeys ho)
      (fun _ _ _ => .agreement ho) fun _ _ _ hh hne hs => ⟨_, .agreement ho hh hne hs, hk _⟩

theorem continues_decrypted (nonce : Nat) {k : KeyAgreement → Dialogue Channel}
    (hk : ∀ group, Continues params password privateKeys card (.mapped group) (k group)) :
    Continues params password privateKeys card (.decrypted nonce)
      (mapNonce params.group nonce privateKeys.mapping >>= k) := by
  rw [mapNonce]
  cases ho : params.group.publicKey privateKeys.mapping with
  | error e => exact continues_stuck (.mapping ho)
  | ok own =>
    simp only [bind_assoc]
    exact continues_keys (.mapping ho) .mapping (fun _ => .equalMappingKeys ho)
      (fun _ _ _ => .mapping ho) fun _ _ group hh hne hm => ⟨_, .mapping ho hh hne hm, hk group⟩

theorem continues_selected {k : Nat → Dialogue Channel}
    (hk : ∀ nonce, Continues params password privateKeys card (.decrypted nonce) (k nonce)) :
    Continues params password privateKeys card .selected (obtainNonce params password >>= k) := by
  rw [obtainNonce, bind_assoc]
  refine continues_exchange .nonce .nonce fun data encrypted hh => ?_
  cases hd : decryptNonce params password encrypted with
  | error e => exact .inl ⟨_, .nonce hh hd, rfl⟩
  | ok nonce => exact .inr ⟨_, .nonce hh hd, hk nonce⟩

/-- **Every run of PACE passes stages and ends at one.** -/
theorem continues_establishWith (params : PaceParameters) (password : PacePassword)
    (privateKeys : PrivateKeys) (card : Card σ) :
    Continues params password privateKeys card .start
      (establishWith params password privateKeys) := by
  rw [establishWith, setTemplate]
  cases hp : encodeProtocol params.protocol with
  | error e => exact continues_stuck (.template hp)
  | ok protocol =>
    simp only [Dialogue.ofExcept, Dialogue.bind_done, bind_assoc]
    refine continues_send (.template hp) fun data => .inr ⟨_, .template, ?_⟩
    refine continues_selected fun nonce => continues_decrypted nonce fun group => ?_
    refine continues_mapped group fun agreed => continues_agreed hp agreed ?_
    exact continues_authenticated agreed.secret

end TravelDocument.Pace

import TravelDocument.Proofs.Handshake.Pace.Stages

/-!
# PACE accepts exactly the right token

What holds of every run of PACE, as a consequence of its stages (`Staged`): the commands are the
first ones of five, nothing follows an answer that brings the terminal nowhere, and a run succeeds
if and only if it has passed all stages. Once the terminal has got to the last command, the token of
the chip decides.
-/

namespace TravelDocument.Pace

variable {params : PaceParameters} {password : PacePassword} {privateKeys : PrivateKeys}
  {stage last last' : Stage} {operation : Operation} {command : Apdu.Command}
  {exchanges exchanges' : List (Apdu.Command × Bytes)} {rest more : List Turn}
    {outcome : Outcome Channel}

/-! ## The five commands -/

/-- MSE:Set AT and four steps of GENERAL AUTHENTICATE, of which only the last one is not chained. A
protocol identifier without an encoding stands here for the empty one; nothing is sent with it. -/
def fiveCommands (params : PaceParameters) (password : PacePassword)
    (ownMapping own outgoing : Bytes) :
    List Apdu.Command :=
  let protocol := (ObjectIdentifier.encode? params.protocol).getD []
  [⟨⟨0x00, 0x22, 0xC1, 0xA4⟩,
      .shortest
        (DataObject.encode 0x80 protocol ++ DataObject.encode 0x83 [password.reference]) none⟩,
    generalAuthenticate 0x10 [],
    generalAuthenticate 0x10 (DataObject.encode 0x81 ownMapping),
    generalAuthenticate 0x10 (DataObject.encode 0x83 own),
    generalAuthenticate 0x00 (DataObject.encode 0x85 outgoing)]

/-- The number of commands that have been granted. -/
def Stage.index : Stage → Nat
  | .start => 0
  | .selected => 1
  | .decrypted _ => 2
  | .mapped _ => 3
  | .agreed _ => 4
  | .authenticated _ => 5

theorem Learns.index {data : Bytes} {next : Stage}
    (h : Learns params password privateKeys stage data next) : next.index = stage.index + 1 := by
  cases h <;> rfl

theorem Passes.index (h : Passes params password privateKeys stage exchanges last) :
    last.index = stage.index + exchanges.length := by
  induction h with
  | none => rfl
  | next _ hl _ ih =>
    rw [ih, hl.index, List.length_cons]
    omega

/-- The commands are the first ones of those that are left after `n`. -/
def AreFirst (params : PaceParameters) (password : PacePassword) (n : Nat)
    (commands : List Apdu.Command) : Prop :=
  ∃ ownMapping own outgoing,
    commands <+: (fiveCommands params password ownMapping own outgoing).drop n

theorem areFirst_nil (params : PaceParameters) (password : PacePassword) (n : Nat) :
    AreFirst params password n [] :=
  ⟨[], [], [], List.nil_prefix⟩

theorem encode?_eq_some_of_encodeProtocol {protocol : ObjectIdentifier} {b : Bytes}
    (h : encodeProtocol protocol = .ok b) : ObjectIdentifier.encode? protocol = some b := by
  rw [encodeProtocol] at h
  split at h
  · rename_i hb
    cases h
    exact hb
  · cases h

/-- The command of a stage comes before those of the later stages. What each of these carries does
not matter to the others. -/
theorem Sends.areFirst_cons (hs : Sends params password privateKeys stage operation command)
    {commands : List Apdu.Command} (h : AreFirst params password (stage.index + 1) commands) :
    AreFirst params password stage.index (command :: commands) := by
  obtain ⟨ownMapping, own, outgoing, hfirst⟩ := h
  cases hs with
  | template hp =>
    refine ⟨ownMapping, own, outgoing, List.cons_prefix_cons.2 ⟨?_, hfirst⟩⟩
    rw [encode?_eq_some_of_encodeProtocol hp]
    rfl
  | nonce => exact ⟨ownMapping, own, outgoing, List.cons_prefix_cons.2 ⟨rfl, hfirst⟩⟩
  | mapping _ => exact ⟨_, own, outgoing, List.cons_prefix_cons.2 ⟨rfl, hfirst⟩⟩
  | agreement _ => exact ⟨ownMapping, _, outgoing, List.cons_prefix_cons.2 ⟨rfl, hfirst⟩⟩
  | token _ => exact ⟨ownMapping, own, _, List.cons_prefix_cons.2 ⟨rfl, hfirst⟩⟩

theorem Ends.areFirst (h : Ends params password privateKeys stage rest outcome) :
    AreFirst params password stage.index (Turn.commands rest) := by
  cases h with
  | stuck _ | established _ => exact areFirst_nil params password _
  | unanswered hs | refused hs _ | rejected hs _ =>
    exact hs.areFirst_cons (areFirst_nil params password _)

theorem Passes.areFirst (h : Passes params password privateKeys stage exchanges last)
    (hr : AreFirst params password last.index (Turn.commands rest)) :
    AreFirst params password stage.index (Turn.commands (exchanges.map .granted ++ rest)) := by
  induction h with
  | none => exact hr
  | next hs hl _ ih =>
    rw [List.map_cons, List.cons_append, Turn.commands_granted_cons]
    apply hs.areFirst_cons
    rw [← hl.index]
    exact ih hr

/-! ## Where a run stops -/

theorem Ends.length_le (h : Ends params password privateKeys stage rest outcome) :
    rest.length ≤ 1 := by
  cases h with
  | stuck _ | established _ => exact Nat.zero_le 1
  | unanswered _ | refused _ _ | rejected _ _ => exact Nat.le_refl 1

/-- A stage that is passed is not where the run ends. -/
theorem Ends.ne_granted {data : Bytes} {next : Stage}
    (h : Ends params password privateKeys stage rest outcome)
    (hl : Learns params password privateKeys stage data next) :
    rest ≠ .granted (command, data) :: more := by
  rintro rfl
  cases h with
  | refused _ hne => exact hne rfl
  | rejected _ hr => exact hl.not_rejects hr

/-- A command after which there is another turn has brought the terminal on. -/
theorem Passes.split (h : Passes params password privateKeys stage exchanges last)
    (hl : rest.length ≤ 1) {before after : List Turn} {answer : Except Error Apdu.Response}
    {another : Turn}
    (ht : exchanges.map .granted ++ rest = before ++ .exchange command answer :: another :: after) :
    ∃ passed between operation data next, before = passed.map .granted ∧
      answer = .ok ⟨data, .success⟩ ∧
        Passes params password privateKeys stage passed between ∧
      Sends params password privateKeys between operation command ∧
      Learns params password privateKeys between data next := by
  induction h generalizing before with
  | none =>
    -- two turns are more than are left at the end
    have hlength := congrArg List.length ht
    rw [List.map_nil, List.nil_append, List.length_append, List.length_cons, List.length_cons]
      at hlength
    omega
  | next hs hlearns hp ih =>
    rw [List.map_cons, List.cons_append, List.cons_eq_append_iff] at ht
    rcases ht with ⟨rfl, ht⟩ | ⟨before, rfl, ht⟩
    · obtain ⟨hhead, -⟩ := List.cons.inj ht
      cases hhead
      exact ⟨[], _, _, _, _, rfl, rfl, .none, hs, hlearns⟩
    · obtain ⟨passed, between, operation, data, next, rfl, rfl,
        hpassed, hsends, hnext⟩ := ih ht
      exact ⟨_ :: passed, between, operation, data, next, rfl, rfl, .next hs hlearns hpassed,
        hsends, hnext⟩

/-- A run that has passed some stages goes on from the last of them. -/
theorem Passes.follow (h : Passes params password privateKeys stage exchanges last)
    (h' : Passes params password privateKeys stage exchanges' last')
    (he : Ends params password privateKeys last' rest outcome)
    (ht : exchanges'.map .granted ++ rest = exchanges.map .granted ++ more) :
    ∃ later, Passes params password privateKeys last later last' ∧
      later.map .granted ++ rest = more := by
  induction h generalizing exchanges' with
  | none => exact ⟨exchanges', h', ht⟩
  | next hs hl hp ih =>
    cases h' with
    | none => exact absurd ht (he.ne_granted hl)
    | next hs' hl' hp' =>
      -- the first exchange is the same, and so is the stage that it leads to
      rw [List.map_cons, List.map_cons, List.cons_append, List.cons_append, List.cons.injEq] at ht
      obtain ⟨hhead, ht⟩ := ht
      cases hhead
      obtain rfl := hl.unique hl'
      exact ih hp' ht

theorem Passes.eq_of_authenticated {secret : Bytes}
    (h : Passes params password privateKeys (.authenticated secret) exchanges last) :
    exchanges = [] ∧ last = .authenticated secret := by
  cases h with
  | none => exact ⟨rfl, rfl⟩
  | next hs _ _ => cases hs

/-- At the end of all stages there is a channel. -/
theorem Ends.ok_of_authenticated {secret : Bytes}
    (h : Ends params password privateKeys (.authenticated secret) rest outcome) :
    rest = [] ∧ ∃ c, outcome = .ok c := by
  cases h with
  | stuck h => cases h
  | unanswered hs | refused hs _ | rejected hs _ => cases hs
  | established _ => exact ⟨rfl, _, rfl⟩

/-! ## Runs -/

/-- **A run of PACE goes stage by stage.** -/
structure Staged (params : PaceParameters) (password : PacePassword) (privateKeys : PrivateKeys)
    (turns : List Turn) (outcome : Outcome Channel) : Prop where
  /-- The run passes some stages and ends at one, if not with a channel then with the failure that
  belongs to that stage. -/
  ends : ∃ exchanges last rest, Passes params password privateKeys .start exchanges last ∧
    Ends params password privateKeys last rest outcome ∧ turns = exchanges.map .granted ++ rest
  /-- The commands are the first ones of five. -/
  commands : ∃ ownMapping own outgoing,
    Turn.commands turns <+: fiveCommands params password ownMapping own outgoing
  /-- Nothing follows a command that is not answered, not with status `9000`, or not so that the
  terminal can go on. -/
  stops : ∀ before command answer another after,
    turns = before ++ .exchange command answer :: another :: after →
    ∃ passed stage operation data next, before = passed.map .granted ∧
      answer = .ok ⟨data, .success⟩ ∧
      Passes params password privateKeys .start passed stage ∧
      Sends params password privateKeys stage operation command ∧
      Learns params password privateKeys stage data next ∧
      ∀ e, ¬ Rejects params password privateKeys stage data e
  /-- What has been sent, and how far the terminal has come, depends on nothing but the answers. -/
  determined : ∀ exchanges exchanges' last last',
    Passes params password privateKeys .start exchanges last →
    Passes params password privateKeys .start exchanges' last' →
    exchanges.map Prod.snd = exchanges'.map Prod.snd → exchanges = exchanges' ∧ last = last'
  /-- A run succeeds if and only if it has passed all stages, and then it has sent five commands. -/
  succeeds : (∃ c, outcome = .ok c) ↔ ∃ exchanges secret, exchanges.length = 5 ∧
    Passes params password privateKeys .start exchanges (.authenticated secret) ∧
    turns = exchanges.map .granted
  /-- The token of the chip is compared with the one over the terminal's own key. -/
  token : ∀ exchanges agreed command data incoming,
    Passes params password privateKeys .start exchanges (.agreed agreed) →
    turns = exchanges.map .granted ++ [.granted (command, data)] →
      HoldsObject 0x86 data incoming →
    ∃ expected, IsToken params agreed.secret agreed.own expected ∧
      (incoming = expected → ∃ c, outcome = .ok c) ∧
      (incoming ≠ expected → outcome = .failed (.integrity .authenticationToken))

/-- After the last command the token decides. -/
theorem Ends.token {agreed : Agreed} {data incoming : Bytes}
    (h : Passes params password privateKeys .start exchanges (.agreed agreed))
    (h' : Passes params password privateKeys .start exchanges' last)
    (he : Ends params password privateKeys last rest outcome)
    (ht : exchanges'.map .granted ++ rest = exchanges.map .granted ++ [.granted (command, data)])
    (hh : HoldsObject 0x86 data incoming) :
    ∃ expected, IsToken params agreed.secret agreed.own expected ∧
      (incoming = expected → ∃ c, outcome = .ok c) ∧
      (incoming ≠ expected → outcome = .failed (.integrity .authenticationToken)) := by
  obtain ⟨later, hlater, ht⟩ := h.follow h' he ht
  -- the run ends with the last answer, or the answer leads to the last stage
  cases hlater with
  | none =>
    obtain rfl : rest = _ := ht
    cases he with
    | refused _ hne => exact absurd rfl hne
    | rejected _ hr =>
      cases hr with
      | dataMissing _ hn =>
        obtain ⟨objects, hsingle, -⟩ := hh
        exact absurd hsingle (hn objects)
      | objectMissing ha hsingle hn =>
        cases ha
        obtain ⟨objects, hsingle', hfind⟩ := hh
        obtain rfl := hsingle.unique hsingle'
        exact absurd hfind (hn incoming)
      | token hh' ht hne =>
        obtain rfl := hh.unique hh'
        exact ⟨_, ht, fun heq => absurd heq hne, fun _ => rfl⟩
  | next _ hl hp =>
    cases hl with
    | token hh' htoken =>
      obtain ⟨rfl, rfl⟩ := hp.eq_of_authenticated
      cases ht
      obtain rfl := hh.unique hh'
      exact ⟨_, htoken, fun _ => he.ok_of_authenticated.2, fun hne => absurd rfl hne⟩

/-- **PACE accepts exactly the right token, after five commands**, whatever the parameters, the
password, the private keys and the card. The log has the same commands. -/
theorem establishWith_staged (params : PaceParameters) (password : PacePassword)
    (privateKeys : PrivateKeys) {σ : Type} (card : Card σ) (link : Link σ) :
    let dialogue := establishWith params password privateKeys
    (∃ events, (dialogue.run card link).2.log = events ++ link.log ∧
      events.reverse.filterMap Event.request? = Turn.commands (dialogue.turns card link)) ∧
    Staged params password privateKeys (dialogue.turns card link) (dialogue.run card link).1 := by
  intro dialogue
  obtain ⟨events, hlog, hcommands, -⟩ := dialogue.run_log card link
  refine ⟨⟨events, hlog, hcommands⟩, ?_⟩
  obtain ⟨exchanges, last, rest, hp, he, ht⟩ :=
    continues_establishWith params password privateKeys card link
  -- the run passes some stages and ends at one; every part is about where this is
  refine ⟨⟨exchanges, last, rest, hp, he, ht⟩, ?_, ?_, ?_, ⟨?_, ?_⟩, ?_⟩
  · rw [ht]
    exact hp.areFirst he.areFirst
  · intro before command answer another after hturns
    rw [ht] at hturns
    obtain ⟨passed, stage, operation, data, next, hbefore, hanswer, hpassed, hsends, hlearns⟩ :=
      hp.split he.length_le hturns
    exact ⟨passed, stage, operation, data, next, hbefore, hanswer, hpassed, hsends, hlearns,
      fun _ => hlearns.not_rejects⟩
  · exact fun _ _ _ _ h h' => h.unique h'
  · rintro ⟨c, hc⟩
    rw [hc] at he
    cases he with
    | established _ =>
      have hindex := hp.index
      exact ⟨exchanges, _, by simpa [Stage.index] using hindex.symm, hp,
        by rw [ht, List.append_nil]⟩
  · rintro ⟨passed, secret, -, hpassed, hturns⟩
    rw [ht, ← List.append_nil (passed.map _)] at hturns
    obtain ⟨later, hlater, -⟩ := hpassed.follow hp he hturns
    obtain ⟨-, rfl⟩ := hlater.eq_of_authenticated
    exact he.ok_of_authenticated.2
  · intro passed agreed command data incoming hpassed hturns hh
    rw [ht] at hturns
    exact Ends.token hpassed hp he hturns hh

end TravelDocument.Pace

import TravelDocument.Proofs.Session.Steps

/-!
# What the MAC policy changes

Two runs of one script are compared, the one strict and the other lenient. A lenient channel wraps
as a strict one does, and unwraps as that does unless that rejects the MAC
(`Channel.unwrap_lenient`). The policy enters nowhere else: no dialogue depends on it
(`Request.plan_relaxed`), so BAC and PACE check their own MACs in either run. What is observed of
two such runs is the same up to the first response that is rejected for its MAC, or throughout if
there is none (`Session.strict_until_rejection`).
-/

namespace TravelDocument

variable {σ α : Type}

/-! ## Channels and links -/

theorem MacPolicy.eq_strict {policy : MacPolicy} (h : policy ≠ .lenient) : policy = .strict := by
  cases policy with
  | strict => rfl
  | lenient => exact absurd rfl h

/-- A lenient channel unwraps a response as any channel does, unless that one rejects the MAC. -/
theorem Channel.unwrap_lenient (c : Channel) (response : Apdu.Response) :
    (c.withPolicy .lenient).unwrap response = c.unwrap response ∨
      c.unwrap response = .error (.integrity .responseMac) := by
  rw [unwrap, unwrap]
  split
  · exact .inl rfl
  split
  · exact .inl rfl
  rename_i objects _
  cases hl : lastObject? [Tag.mac] objects with
  | none =>
    rw [unwrapObjects_of_missing hl, unwrapObjects_of_missing hl]
    exact .inl rfl
  | some mac =>
    by_cases hm : c.mac (authenticatedObjects objects) = .ok mac.value ∨ c.macPolicy = .lenient
    · rw [unwrapObjects_of_mac hl hm, unwrapObjects_of_mac hl (.inr rfl)]
      exact .inl rfl
    · obtain ⟨hm, hp⟩ := not_or.1 hm
      exact .inr (unwrapObjects_of_not_mac hl hm (MacPolicy.eq_strict hp))

/-- A status with an empty MAC. -/
example :
    let response : Apdu.Response := ⟨[0x99, 0x02, 0x90, 0x00, 0x8E, 0x00], .success⟩
    Channel.workedExample.unwrap response = .error (.integrity .responseMac) ∧
      (Channel.workedExample.withPolicy .lenient).unwrap response = .ok ⟨[], .success⟩ := by
  decide +kernel

namespace Link

/-- The link with a lenient channel in place of its own. -/
def relaxed (link : Link σ) : Link σ :=
  { link with channel := link.channel.map (·.withPolicy .lenient) }

/-- **A transmission over the lenient channel** leaves the link as over any other, and it is
answered with the same unless the other channel rejects the MAC. -/
theorem transmit_relaxed (card : Card σ) (command : Apdu.Command) (link : Link σ) :
    (link.relaxed.transmit card command).2 = (link.transmit card command).2.relaxed ∧
      ((link.relaxed.transmit card command).1 = (link.transmit card command).1 ∨
        (link.transmit card command).1 = .error (.integrity .responseMac)) := by
  obtain ⟨memory, channel, entropy, log⟩ := link
  cases channel with
  | none => exact ⟨rfl, .inl rfl⟩
  | some c =>
    obtain ⟨wrapped, hw⟩ := c.step.wrap_ok command
    have hw' : (c.withPolicy .lenient).step.wrap command = .ok wrapped := hw
    rcases hc : card memory wrapped with ⟨answer, after⟩
    simp only [relaxed, Option.map_some, transmit, transmitWrapped, hw, hw', exchange, hc]
    cases answer with
    | error e => exact ⟨rfl, .inl rfl⟩
    | ok response => exact ⟨rfl, c.step.step.unwrap_lenient response⟩

theorem counter_relaxed (link : Link σ) :
    link.relaxed.channel.map (·.counter) = link.channel.map (·.counter) := by
  rw [relaxed, Option.map_map]
  rfl

theorem takeEntropy?_relaxed (link : Link σ) (count : Nat) :
    link.relaxed.takeEntropy? count =
      (link.takeEntropy? count).map fun drawn => (drawn.1, drawn.2.relaxed) := by
  have hentropy : link.relaxed.entropy = link.entropy := rfl
  rw [takeEntropy?, takeEntropy?, hentropy]
  split <;> rfl

end Link

/-! ## Observations -/

/-- Where a session stands: its state, what it has sent and received, and the counter of its
channel. -/
structure Standing where
  state : SessionState
  blocked : Bool
  log : List Event
  counter : Option Nat

/-- What can be observed of a session. -/
inductive Observation where
  /-- After a transmission: what it was answered with. -/
  | answered (answer : Except Error Apdu.Response) (standing : Standing)
  /-- After a request: what has become of it. -/
  | finished (outcome : Outcome Value) (standing : Standing)

namespace Observation

/-- The response was unwrapped and its MAC rejected. -/
def Rejects : Observation → Prop
  | .answered answer _ => answer = .error (.integrity .responseMac)
  | .finished _ _ => False

/-- The same but for what was made of the response. -/
def withAnswer (answer : Except Error Apdu.Response) : Observation → Observation
  | .answered _ standing => .answered answer standing
  | .finished outcome standing => .finished outcome standing

def isAnswered : Observation → Bool
  | .answered _ _ => true
  | .finished _ _ => false

/-- The second list is the same as the first up to where that rejects a MAC for the first time. Both
know the same of the response then, except for what was made of it. -/
inductive Agree : List Observation → List Observation → Prop
  | nil : Agree [] []
  | cons {o : Observation} {a b : List Observation} : ¬ o.Rejects → Agree a b →
    Agree (o :: a) (o :: b)
  | rejected {o : Observation} (answer : Except Error Apdu.Response) (a b : List Observation) :
    o.Rejects → Agree (o :: a) (o.withAnswer answer :: b)

variable {a b c d : List Observation}

/-- What comes later matters only if nothing has been rejected before. -/
theorem Agree.append (h : Agree a b) (h' : (∀ o ∈ a, ¬ o.Rejects) → Agree c d) :
    Agree (a ++ c) (b ++ d) := by
  induction h with
  | nil => exact h' (by simp)
  | cons ho _ ih => exact .cons ho (ih fun ha => h' (List.forall_mem_cons.2 ⟨ho, ha⟩))
  | rejected answer _ _ ho => exact .rejected answer _ _ ho

theorem Agree.eq (h : Agree a b) (ha : ∀ o ∈ a, ¬ o.Rejects) : b = a := by
  induction h with
  | nil => rfl
  | cons _ _ ih => rw [ih (List.forall_mem_cons.1 ha).2]
  | rejected _ _ _ ho => exact absurd ho (List.forall_mem_cons.1 ha).1

/-- The first rejection is in the same place of both lists. -/
theorem Agree.split {before after : List Observation} {o : Observation} (h : Agree a b)
    (ha : a = before ++ o :: after) (hb : ∀ x ∈ before, ¬ x.Rejects) (ho : o.Rejects) :
    ∃ answer later, b = before ++ o.withAnswer answer :: later := by
  induction h generalizing before with
  | nil => exact absurd ha (by simp)
  | cons hx _ ih =>
    rcases List.cons_eq_append_iff.1 ha with ⟨-, ha⟩ | ⟨rest, rfl, ha⟩
    · cases ha
      exact absurd ho hx
    · obtain ⟨answer, later, rfl⟩ := ih (List.cons.inj ha).2 (List.forall_mem_cons.1 hb).2
      exact ⟨answer, later, rfl⟩
  | rejected answer _ later hx =>
    rcases List.cons_eq_append_iff.1 ha with ⟨rfl, ha⟩ | ⟨rest, rfl, -⟩
    · cases ha
      exact ⟨answer, later, rfl⟩
    · exact absurd hx (List.forall_mem_cons.1 hb).1

end Observation

open Observation

namespace Session

def standing (s : Session σ) : Standing :=
  ⟨s.state, s.blocked, s.link.log, s.link.channel.map (·.counter)⟩

/-- The session with a lenient channel in place of its own. -/
def relaxed (s : Session σ) : Session σ :=
  { s with link := s.link.relaxed }

@[simp] theorem relaxed_state (s : Session σ) : s.relaxed.state = s.state := rfl
@[simp] theorem relaxed_blocked (s : Session σ) : s.relaxed.blocked = s.blocked := rfl
@[simp] theorem relaxed_link (s : Session σ) : s.relaxed.link = s.link.relaxed := rfl

theorem standing_relaxed (s : Session σ) : s.relaxed.standing = s.standing := by
  rw [standing, standing, relaxed, Link.counter_relaxed]
  rfl

end Session

/-! ## Dialogues -/

namespace Dialogue

/-- What is observed of a dialogue that a session runs. -/
def observe (card : Card σ) : Dialogue α → Session σ → List Observation
  | .done _, _ | .fail _, _ => []
  | .send command next, s =>
    let (answer, link) := s.link.transmit card command
    let s := { s with link := link }
    .answered answer s.standing :: (next answer).observe card s
  | .draw count next, s =>
    match s.link.takeEntropy? count with
    | none => []
    | some (bytes, link) => (next bytes).observe card { s with link := link }
  | .sign data next, s => next.observe card { s with link.log := .signing data :: s.link.log }
  | .counter next, s => (next (s.link.channel.map (·.counter))).observe card s

variable {card : Card σ}

/-- The first rejection is observed in the same place over a lenient channel. -/
theorem observe_relaxed (d : Dialogue α) (s : Session σ) :
    Agree (d.observe card s) (d.observe card s.relaxed) := by
  induction d generalizing s with
  | done a => exact .nil
  | fail e => exact .nil
  | send command next ih =>
    obtain ⟨hlink, hanswer⟩ := s.link.transmit_relaxed card command
    rw [observe, observe]
    rcases ht : s.link.transmit card command with ⟨answer, link⟩
    rcases ht' : s.relaxed.link.transmit card command with ⟨answer', link'⟩
    change s.link.relaxed.transmit card command = _ at ht'
    rw [ht, ht'] at hlink hanswer
    obtain rfl : link' = link.relaxed := hlink
    have hstanding : Session.standing { s.relaxed with link := link.relaxed } =
        Session.standing { s with link := link } := Session.standing_relaxed { s with link := link }
    -- the two runs part at a response with a wrong MAC, and not before
    rcases Classical.em (answer = .error (.integrity .responseMac)) with hr | hr
    · dsimp only
      rw [hstanding]
      exact .rejected (o := .answered answer _) answer' _ _ hr
    · obtain rfl : answer' = answer := hanswer.resolve_right hr
      dsimp only
      rw [hstanding]
      exact .cons hr (ih answer' { s with link := link })
  | draw count next ih =>
    rw [observe, observe, Session.relaxed, Link.takeEntropy?_relaxed]
    cases s.link.takeEntropy? count with
    | none => exact .nil
    | some drawn => exact ih drawn.1 { s with link := drawn.2 }
  | sign data next ih => exact ih { s with link.log := .signing data :: s.link.log }
  | counter next ih =>
    rw [observe, observe, Session.relaxed, Link.counter_relaxed]
    exact ih _ s

/-- **A run over a lenient channel** is the same run, if nothing is rejected. -/
theorem run_relaxed (d : Dialogue α) (s : Session σ) (h : ∀ o ∈ d.observe card s, ¬ o.Rejects) :
    d.run card s.link.relaxed = ((d.run card s.link).1, (d.run card s.link).2.relaxed) := by
  induction d generalizing s with
  | done a => rfl
  | fail e => rfl
  | send command next ih =>
    obtain ⟨hlink, hanswer⟩ := s.link.transmit_relaxed card command
    rw [observe] at h
    rw [run, run]
    rcases ht : s.link.transmit card command with ⟨answer, link⟩
    rcases ht' : s.link.relaxed.transmit card command with ⟨answer', link'⟩
    rw [ht] at h
    rw [ht, ht'] at hlink hanswer
    obtain rfl : link' = link.relaxed := hlink
    -- this answer is not such a rejection, so both runs go on with it
    obtain ⟨hr, hrest⟩ := List.forall_mem_cons.1 h
    obtain rfl : answer' = answer := hanswer.resolve_right hr
    exact ih answer' { s with link := link } hrest
  | draw count next ih =>
    rw [observe] at h
    rw [run, run, Link.takeEntropy?_relaxed]
    cases ht : s.link.takeEntropy? count with
    | none => rfl
    | some drawn =>
      rw [ht] at h
      exact ih drawn.1 { s with link := drawn.2 } h
  | sign data next ih => exact ih { s with link.log := .signing data :: s.link.log } h
  | counter next ih =>
    rw [run, run, Link.counter_relaxed]
    exact ih _ s h

/-- Every command that is sent is observed, and nothing else. -/
theorem countP_observe (d : Dialogue α) (s : Session σ) :
    (d.observe card s).countP isAnswered = (Turn.commands (d.turns card s.link)).length := by
  induction d generalizing s with
  | done a => rfl
  | fail e => rfl
  | send command next ih =>
    rw [observe, turns, Turn.commands_exchange, List.countP_cons, List.length_cons]
    exact congrArg (· + 1) (ih _ { s with link := (s.link.transmit card command).2 })
  | draw count next ih =>
    rw [observe, turns]
    cases s.link.takeEntropy? count with
    | none => rfl
    | some drawn => exact ih drawn.1 { s with link := drawn.2 }
  | sign data next ih => exact ih { s with link.log := .signing data :: s.link.log }
  | counter next ih => exact ih _ s

end Dialogue

/-! ## Requests -/

/-- The same settings with the lenient policy. -/
def SessionConfig.relaxed (config : SessionConfig) : SessionConfig :=
  { config with macPolicy := .lenient }

theorem File.readRest_relaxed (config : SessionConfig) (total : Nat) (contents : Bytes) :
    readRest config.relaxed total contents = readRest config total contents := by
  induction hn : total - contents.length using Nat.strongRecOn generalizing contents with
  | ind n ih =>
    rw [readRest, readRest]
    split
    · refine congrArg (readBinary config _ _ >>= ·) (funext fun chunk => ?_)
      cases chunk with
      | nil => rfl
      | cons b rest =>
        refine ih _ ?_ _ rfl
        simp only [List.length_append, List.length_cons]
        omega
    · rfl

/-- No dialogue depends on the policy. -/
theorem Request.plan_relaxed (config : SessionConfig) (request : Request) :
    request.plan config.relaxed = request.plan config := by
  cases request with
  | readContents file =>
    have hread : File.read config.relaxed file = File.read config file := by
      rw [File.read, File.read, File.readSelected, File.readSelected]
      simp only [File.readRest_relaxed]
      rfl
    rw [plan, plan, hread]
  | _ => rfl

namespace Session

variable {card : Card σ}

/-- What is observed of a request while it is carried out. -/
def exchanges (card : Card σ) (plan : Plan) (s : Session σ) : List Observation :=
  match plan with
  | .opening | .closing => []
  | .command _ dialogue =>
    if s.blocked ∨ s.state = .closed then [] else dialogue.observe card s
  | .handshake handshake dialogue =>
    match s.blocked, s.state.after? handshake with
    | true, _ | _, none => []
    | false, some _ => dialogue.observe card s

/-- What is observed of a request. -/
def observe (config : SessionConfig) (card : Card σ) (request : Request) (s : Session σ) :
    List Observation :=
  s.exchanges card (request.plan config) ++
    [.finished (s.perform config card request).1 (s.perform config card request).2.standing]

theorem exchanges_relaxed (plan : Plan) (s : Session σ) :
    Agree (s.exchanges card plan) (s.relaxed.exchanges card plan) := by
  cases plan with
  | opening | closing => exact .nil
  | command operation dialogue =>
    rw [exchanges, exchanges, relaxed_blocked, relaxed_state]
    split
    · exact .nil
    · exact dialogue.observe_relaxed s
  | handshake handshake dialogue =>
    rw [exchanges.eq_def, exchanges.eq_def]
    dsimp only
    rw [relaxed_blocked, relaxed_state]
    split
    · exact .nil
    · exact .nil
    · exact dialogue.observe_relaxed s

theorem runDialogue_relaxed (d : Dialogue α) (s : Session σ)
    (h : ∀ o ∈ d.observe card s, ¬ o.Rejects) :
    s.relaxed.runDialogue card d =
      ((s.runDialogue card d).1, (s.runDialogue card d).2.relaxed) := by
  rw [runDialogue_eq, runDialogue_eq, relaxed_link, d.run_relaxed s h]
  rfl

/-- What a handshake installs is lenient if the policy is. -/
theorem advance_relaxed (policy : MacPolicy) (state : SessionState) (new : Option Channel)
    (s : Session σ) :
    s.relaxed.advance .lenient state new = (s.advance policy state new).relaxed := by
  cases new <;> rfl

theorem runHandshake_relaxed (policy : MacPolicy) (handshake : Handshake)
    (d : Dialogue (Option Channel × Value)) (s : Session σ)
    (h : ∀ o ∈ s.exchanges card (.handshake handshake d), ¬ o.Rejects) :
    s.relaxed.runHandshake .lenient card handshake d =
      ((s.runHandshake policy card handshake d).1,
        (s.runHandshake policy card handshake d).2.relaxed) := by
  rw [exchanges.eq_def] at h
  rw [runHandshake.eq_def, runHandshake.eq_def, relaxed_blocked, relaxed_state]
  cases hb : s.blocked with
  | true => rfl
  | false =>
    cases hn : s.state.after? handshake with
    | none => rfl
    | some next =>
      simp only [hb, hn] at h
      dsimp only
      rw [runDialogue_relaxed d s h]
      rcases s.runDialogue card d with ⟨outcome, after⟩
      cases outcome with
      | ok made => exact congrArg _ (advance_relaxed policy next made.1 after)
      | failed e => rfl
      | interrupted => rfl

/-- **A request to the lenient session** is carried out in the same way, if nothing is rejected. -/
theorem execute_relaxed (policy : MacPolicy) (plan : Plan) (s : Session σ)
    (h : ∀ o ∈ s.exchanges card plan, ¬ o.Rejects) :
    s.relaxed.execute .lenient card plan =
      ((s.execute policy card plan).1, (s.execute policy card plan).2.relaxed) := by
  cases plan with
  | opening =>
    rw [execute, execute, opened, opened, relaxed_blocked, relaxed_state]
    split <;> rfl
  | closing => rfl
  | command operation dialogue =>
    rw [exchanges] at h
    rw [execute, execute, runCommand, runCommand, relaxed_blocked, relaxed_state]
    split
    · rfl
    · rename_i hs
      rw [if_neg hs] at h
      exact runDialogue_relaxed dialogue s h
  | handshake handshake dialogue => exact runHandshake_relaxed policy handshake dialogue s h

theorem perform_relaxed (config : SessionConfig) (request : Request) (s : Session σ)
    (h : ∀ o ∈ s.exchanges card (request.plan config), ¬ o.Rejects) :
    s.relaxed.perform config.relaxed card request =
      ((s.perform config card request).1, (s.perform config card request).2.relaxed) := by
  rw [perform, perform, Request.plan_relaxed]
  exact execute_relaxed config.macPolicy (request.plan config) s h

theorem observe_relaxed (config : SessionConfig) (card : Card σ) (request : Request)
    (s : Session σ) :
    Agree (s.observe config card request) (s.relaxed.observe config.relaxed card request) := by
  rw [observe, observe, Request.plan_relaxed]
  refine (exchanges_relaxed _ s).append fun h => ?_
  rw [perform_relaxed config request s h, standing_relaxed]
  exact .cons id .nil

/-- What a dialogue adds to the log is as many commands as are observed to be answered. -/
theorem log_observe (card : Card σ) (d : Dialogue α) (s : Session σ) : ∃ events,
    (d.run card s.link).2.log = events ++ s.link.log ∧
      Event.commands events = (d.observe card s).countP isAnswered := by
  obtain ⟨events, hlog, hcommands, -⟩ := d.run_log card s.link
  refine ⟨events, hlog, ?_⟩
  rw [d.countP_observe, ← hcommands, List.filterMap_reverse, List.length_reverse,
    List.length_filterMap_eq_countP, Event.commands]
  congr 1
  funext event
  cases event <;> rfl

theorem log_exchanges (card : Card σ) (policy : MacPolicy) (plan : Plan) (s : Session σ) :
    ∃ events, (s.execute policy card plan).2.link.log = events ++ s.link.log ∧
      Event.commands events = (s.exchanges card plan).countP isAnswered := by
  cases plan with
  | opening =>
    rw [execute, opened]
    split
    · exact ⟨[], rfl, rfl⟩
    · exact ⟨[], rfl, rfl⟩
  | closing => exact ⟨[], rfl, rfl⟩
  | command operation dialogue =>
    rw [execute, runCommand, exchanges]
    split
    · exact ⟨[], rfl, rfl⟩
    · rw [runDialogue_eq]
      exact log_observe card dialogue s
  | handshake handshake dialogue =>
    rw [execute, exchanges.eq_def]
    dsimp only
    -- without its turn a handshake sends nothing, and nothing is observed
    cases hb : s.blocked with
    | true =>
      rw [runHandshake.eq_def, hb]
      exact ⟨[], rfl, rfl⟩
    | false =>
      cases hn : s.state.after? handshake with
      | none =>
        rw [runHandshake.eq_def, hb, hn]
        exact ⟨[], rfl, rfl⟩
      | some next =>
        rw [log_runHandshake policy card dialogue hb hn]
        exact log_observe card dialogue s

/-- **No command goes unobserved.** -/
theorem commands_observe (config : SessionConfig) (card : Card σ) (request : Request)
    (s : Session σ) :
    ∃ events, (s.perform config card request).2.link.log = events ++ s.link.log ∧
      Event.commands events = (s.observe config card request).countP isAnswered := by
  obtain ⟨events, hlog, hcommands⟩ :=
    log_exchanges card config.macPolicy (request.plan config) s
  refine ⟨events, hlog, ?_⟩
  rw [observe, List.countP_append, hcommands]
  rfl

/-! ## Scripts -/

/-- A session that is asked a number of requests, each chosen by a script after what has been
observed so far: what is observed of it, and the session after that. -/
def play (config : SessionConfig) (card : Card σ) (script : List Observation → Request) :
    Nat → List Observation → Session σ → List Observation × Session σ
  | 0, _, s => ([], s)
  | n + 1, seen, s =>
    let here := s.observe config card (script seen)
    let rest := play config card script n (seen ++ here) (s.perform config card (script seen)).2
    (here ++ rest.1, rest.2)

variable (config : SessionConfig) (script : List Observation → Request)

/-- Until something has been rejected the lenient run is asked the same. -/
theorem play_agree (n : Nat) (seen : List Observation) (s : Session σ) :
    Agree (s.play config card script n seen).1
      (s.relaxed.play config.relaxed card script n seen).1 := by
  induction n generalizing seen s with
  | zero => exact .nil
  | succ n ih =>
    have hhere := observe_relaxed config card (script seen) s
    refine hhere.append fun h => ?_
    rw [hhere.eq h, perform_relaxed config (script seen) s fun o ho =>
      h o (List.mem_append_left _ ho)]
    exact ih _ _

theorem play_relaxed (n : Nat) (seen : List Observation) (s : Session σ)
    (h : ∀ o ∈ (s.play config card script n seen).1, ¬ o.Rejects) :
    (s.relaxed.play config.relaxed card script n seen).2 =
      (s.play config card script n seen).2.relaxed := by
  induction n generalizing seen s with
  | zero => rfl
  | succ n ih =>
    obtain ⟨hhere, hrest⟩ := List.forall_mem_append.1 h
    rw [play, play]
    dsimp only
    rw [(observe_relaxed config card (script seen) s).eq hhere,
      perform_relaxed config (script seen) s fun o ho => hhere o (List.mem_append_left _ ho)]
    exact ih _ _ hrest

/-- **The lenient policy only adds acceptance.** A script that is run on two new sessions, one
strict and one lenient, with the same card and the same random bytes, is observed to do the same up
to the first response that the strict session rejects for its MAC; that response has been received
by both after the same commands. If there is none, then the script does the same throughout, and the
sessions it leaves differ in nothing but the policy of their channels. -/
theorem strict_until_rejection (n : Nat) (memory : σ) (entropy : Bytes) :
    let strict := (Session.new memory entropy).play { config with macPolicy := .strict }
      card script n []
    let lenient := (Session.new memory entropy).play { config with macPolicy := .lenient }
      card script n []
    (∀ before o after, strict.1 = before ++ o :: after → (∀ x ∈ before, ¬ x.Rejects) →
      o.Rejects → ∃ answer later, lenient.1 = before ++ o.withAnswer answer :: later) ∧
    ((∀ o ∈ strict.1, ¬ o.Rejects) → lenient.1 = strict.1 ∧
      lenient.2 = strict.2.relaxed) := by
  intro strict lenient
  have hagree : Agree strict.1 lenient.1 :=
    play_agree { config with macPolicy := .strict } script n [] (Session.new memory entropy)
  refine ⟨fun before o after hs hb ho => hagree.split hs hb ho, fun h => ⟨hagree.eq h, ?_⟩⟩
  exact play_relaxed { config with macPolicy := .strict } script n [] (Session.new memory entropy) h

end Session
end TravelDocument

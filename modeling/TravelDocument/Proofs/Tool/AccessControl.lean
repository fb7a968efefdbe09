import Mathlib.Data.List.Basic
import TravelDocument.Proofs.Tool.Course

/-!
# The tool does not fall back silently

BAC comes in place of PACE only if PACE is not wanted or the chip does not offer any that is
supported (`AccessCourse.bac`), and PACE uses the first supported offer (`AccessCourse.pace`). A
request that fails ends the run (`ReadCourse.accounted`), and no run ends without a cause
(`ReadCourse.caused`). A run that gets to the files has been authenticated
(`AccessCourse.authenticated`).
-/

namespace TravelDocument

/-- The request has not succeeded, and it was not for a file that is not there. -/
def Entry.Ends (e : Entry) : Prop :=
  (∀ value, e.outcome ≠ .ok value) ∧
    ∀ file, e.request = .readContents file → e.outcome ≠ .failed .fileNotFound

theorem Entry.not_ends_ok (request : Request) (value : Value) :
    ¬ (⟨request, .ok value⟩ : Entry).Ends :=
  fun h => h.1 value rfl

theorem Entry.not_ends_absent (file : FileIdentifier) :
    ¬ (⟨.readContents file, .failed .fileNotFound⟩ : Entry).Ends :=
  fun h => h.2 file rfl rfl

namespace Tool

/-- The failure of the session that is reported. -/
def Failure.reason? : Failure → Option Error
  | .session e | .during _ e => some e
  | .settings | .noService _ | .noReaderList _ | .noReader _ | .noConnection _ | .accessKey _
  | .paceWithoutPassword | .bacWithoutKey | .interrupted => none

namespace Work

variable {σ α β : Type} {entries later : List Entry} {lines more : List String}
  {options : ReadOptions}
  {key : Option Mrz.AccessKey}

/-! ## A request that fails is the last one -/

/-- Only the last request may end the run, and then it is the failure that is reported. -/
def Accounted (entries : List Entry) (r : Except Failure α) : Prop :=
  (∀ e ∈ entries, ¬ e.Ends) ∨ ∃ before e f, entries = before ++ [e] ∧
    (∀ x ∈ before, ¬ x.Ends) ∧
    r = .error f ∧ ∀ reason, e.outcome = .failed reason → f.reason? = some reason

namespace Accounted

theorem of_ok {request : Request} {value : Value} {r : Except Failure α} :
    Accounted [⟨request, .ok value⟩] r :=
  .inl (by simpa using Entry.not_ends_ok request value)

theorem of_absent {file : FileIdentifier} {r : Except Failure α} :
    Accounted [⟨.readContents file, .failed .fileNotFound⟩] r :=
  .inl (by simpa using Entry.not_ends_absent file)

theorem of_stops {failure : Error → Failure} {outcome : Outcome Value} {f : Failure}
    (h : Stops failure outcome f) (hf : ∀ e, (failure e).reason? = some e) (request : Request) :
    Accounted [⟨request, outcome⟩] (.error f : Except Failure α) := by
  refine .inr ⟨[], _, f, rfl, by simp, rfl, ?_⟩
  cases h with
  | failed e =>
    rintro _ ⟨⟩
    exact hf e
  | interrupted => exact nofun

theorem clean {a : α} (h : Accounted entries (.ok a : Except Failure α)) :
    ∀ e ∈ entries, ¬ e.Ends := by
  rcases h with h | ⟨_, _, _, -, -, hr, -⟩
  · exact h
  · cases hr

/-- What comes first must not end the run. -/
theorem append {r : Except Failure α} (h' : Accounted later r) (h : ∀ e ∈ entries, ¬ e.Ends) :
    Accounted (entries ++ later) r := by
  rcases h' with h' | ⟨before, e, f, rfl, hbefore, hr, hreason⟩
  · exact .inl (List.forall_mem_append.2 ⟨h, h'⟩)
  · exact .inr ⟨entries ++ before, e, f, (List.append_assoc _ _ _).symm,
      List.forall_mem_append.2 ⟨h, hbefore⟩, hr, hreason⟩

theorem cons {e : Entry} {r : Except Failure α} (h : ¬ e.Ends) (h' : Accounted later r) :
    Accounted (e :: later) r :=
  h'.append (List.forall_mem_singleton.2 h)

/-- The kind of result does not matter. -/
theorem error {f : Failure} (h : Accounted entries (.error f : Except Failure α)) :
    Accounted entries (.error f : Except Failure β) := by
  rcases h with h | ⟨before, e, _, he, hb, ⟨⟩, hreason⟩
  · exact .inl h
  · exact .inr ⟨before, e, f, he, hb, rfl, hreason⟩

/-- Nothing follows a request that ends the run. -/
theorem last {r : Except Failure α} (h : Accounted entries r) {before after : List Entry}
    {e : Entry} (hs : entries = before ++ e :: after) (he : e.Ends) :
    after = [] ∧ ∃ f, r = .error f ∧ ∀ reason, e.outcome = .failed reason →
      f.reason? = some reason := by
  rcases h with h | ⟨init, last, f, rfl, hinit, hr, hreason⟩
  · exact absurd he (h e (by simp [hs]))
  · rcases List.eq_nil_or_concat after with rfl | ⟨middle, x, rfl⟩
    · obtain ⟨-, hlast⟩ := List.append_inj' hs rfl
      rw [List.cons.injEq] at hlast
      exact ⟨rfl, f, hr, hlast.1 ▸ hreason⟩
    · -- the request would come before the last one
      rw [List.concat_eq_append, ← List.cons_append, ← List.append_assoc] at hs
      obtain ⟨rfl, -⟩ := List.append_inj' hs rfl
      exact absurd he (hinit e (by simp))

end Accounted

theorem reason?_during (activity : Activity) (e : Error) :
    (Failure.during activity e).reason? = some e := rfl

theorem reason?_session (e : Error) : (Failure.session e).reason? = some e := rfl

theorem Discovery.accounted {r : Except Failure (Option PaceParameters)}
    (h : Discovery entries lines r) :
    Accounted entries r := by
  cases h with
  | absent => exact .of_absent
  | unread hs _ => exact .of_stops hs (reason?_during _) _
  | undecoded _ | decoded _ => exact .of_ok

theorem PaceCourse.accounted {r : Except Failure Bool}
    (h : PaceCourse options key entries lines r) :
    Accounted entries r := by
  cases h with
  | unwanted _ | unusable _ _ => exact .inl (by simp)
  | undiscovered hd => exact hd.accounted.error
  | unavailable hd => exact .inl hd.accounted.clean
  | failed _ _ hd hs => exact (Accounted.of_stops hs (reason?_during _) _).append hd.accounted.clean
  | succeeded _ _ _ hd => exact Accounted.of_ok.append hd.accounted.clean

theorem EnterCourse.accounted {paceDone : Bool} {r : Except Failure Unit}
    (h : EnterCourse key paceDone entries lines r) : Accounted entries r := by
  cases h with
  | unselected hs => exact .of_stops hs (reason?_during _) _
  | keyless _ _ _ | afterPace _ _ => exact .of_ok
  | failed value _ _ hs =>
    exact (Accounted.of_stops hs (reason?_during _) _).cons (Entry.not_ends_ok _ _)
  | succeeded value done _ _ => exact Accounted.of_ok.cons (Entry.not_ends_ok _ _)

theorem FilesCourse.accounted {files : List FileIdentifier} {r : Except Failure Unit}
    (h : FilesCourse files entries lines r) : Accounted entries r := by
  induction h with
  | done => exact .inl (by simp)
  | present b _ ih => exact ih.cons (Entry.not_ends_ok _ _)
  | absent _ ih => exact ih.cons (Entry.not_ends_absent _)
  | stopped hs _ => exact .of_stops hs (reason?_during _) _

theorem AccessCourse.accounted {r : Except Failure Unit}
    (h : AccessCourse options entries lines r) :
    Accounted entries r := by
  cases h with
  | unopened hs => exact .of_stops hs reason?_session _
  | badKey _ _ => exact .of_ok
  | withoutPace _ _ hp => exact hp.accounted.error.cons (Entry.not_ends_ok _ _)
  | entering _ _ hp hm =>
    exact (hm.accounted.append hp.accounted.clean).cons (Entry.not_ends_ok _ _)

theorem ReadCourse.accounted {access reads closing : List Entry} {r : Except Failure Unit}
    (h : ReadCourse options access reads closing lines more r) :
    Accounted (access ++ reads ++ closing) r := by
  cases h with
  | noAccess ha => simpa using ha.accounted
  | unread ha hr =>
    rw [List.append_nil]
    exact hr.accounted.append ha.accounted.clean
  | read ha hr hc =>
    have hclosing : Accounted closing r := by
      cases hc with
      | ok value => exact .of_ok
      | stopped hs => exact .of_stops hs reason?_session _
    rw [List.append_assoc]
    exact (hclosing.append hr.accounted.clean).append ha.accounted.clean

/-! ## What the chip offers -/

/-- The chip does not offer PACE: there is no EF.CardAccess, or nothing in it is supported. -/
def Unoffered (entries : List Entry) : Prop :=
  ⟨.readContents .cardAccess, .failed .fileNotFound⟩ ∈ entries ∨
    ∃ file infos, ⟨.readContents .cardAccess, .ok (.bytes file)⟩ ∈ entries ∧
      CardAccess.decode file = .ok infos ∧ ∀ info ∈ infos, ∀ params,
        info.parameters ≠ .ok params

/-- These parameters are the ones of the first offer in EF.CardAccess that is supported. -/
def Offers (entries : List Entry) (params : PaceParameters) : Prop :=
  ∃ file skipped info others, ⟨.readContents .cardAccess, .ok (.bytes file)⟩ ∈ entries ∧
    CardAccess.decode file = .ok (skipped ++ info :: others) ∧
    (∀ x ∈ skipped, ∀ other, x.parameters ≠ .ok other) ∧ info.parameters = .ok params

theorem Unoffered.mono (h : Unoffered entries) (hs : entries ⊆ later) : Unoffered later := by
  rcases h with h | ⟨file, infos, h, hrest⟩
  · exact .inl (hs h)
  · exact .inr ⟨file, infos, hs h, hrest⟩

theorem Offers.mono {params : PaceParameters} (h : Offers entries params) (hs : entries ⊆ later) :
    Offers later params := by
  obtain ⟨file, skipped, info, others, h, hrest⟩ := h
  exact ⟨file, skipped, info, others, hs h, hrest⟩

theorem toOption_eq_none {ε : Type} {r : Except ε α} (h : r.toOption = none) (a : α) :
    r ≠ .ok a := by
  rintro rfl
  cases h

theorem toOption_eq_some {ε : Type} {r : Except ε α} {a : α} (h : r.toOption = some a) :
    r = .ok a := by
  cases r with
  | error _ => cases h
  | ok _ =>
    cases h
    rfl

theorem Discovery.unoffered (h : Discovery entries lines (.ok none)) : Unoffered entries := by
  generalize hr : (Except.ok none : Except Failure (Option PaceParameters)) = r at h
  cases h with
  | absent => exact .inl (by simp)
  | unread _ _ | undecoded _ => cases hr
  | @decoded file infos hd =>
    have hn : firstSupported? infos = none := (Except.ok.inj hr).symm
    rw [firstSupported?, List.findSome?_eq_none_iff] at hn
    exact .inr ⟨file, infos, by simp, hd, fun info hi params =>
      toOption_eq_none (hn info hi) params⟩

theorem Discovery.offers {params : PaceParameters}
    (h : Discovery entries lines (.ok (some params))) :
    Offers entries params := by
  generalize hr : (Except.ok (some params) : Except Failure (Option PaceParameters)) = r at h
  cases h with
  | absent | unread _ _ | undecoded _ => cases hr
  | @decoded file infos hd =>
    have hs : firstSupported? infos = some params := (Except.ok.inj hr).symm
    rw [firstSupported?, List.findSome?_eq_some_iff] at hs
    obtain ⟨skipped, info, others, rfl, hparams, hskipped⟩ := hs
    exact ⟨file, skipped, info, others, by simp, hd,
      fun x hx other => toOption_eq_none (hskipped x hx) other, toOption_eq_some hparams⟩

/-! ## BAC and PACE -/

/-- What is asked of the session before files are. -/
inductive ForAccess (options : ReadOptions) : Request → Prop
  | opening : ForAccess options .open
  | discovery : ForAccess options (.readContents .cardAccess)
  | pace {key : Option Mrz.AccessKey} {p : PacePassword} (params : PaceParameters) :
    accessKey? options = .ok key → password options key = .ok p →
      ForAccess options (.pace params p)
  | selection : ForAccess options (.selectApplet applicationIdentifier)
  | bac {key : Mrz.AccessKey} : accessKey? options = .ok (some key) → ForAccess options (.bac key)

theorem Discovery.request_eq {r : Except Failure (Option PaceParameters)}
    (h : Discovery entries lines r)
    {e : Entry} (he : e ∈ entries) : e.request = .readContents .cardAccess := by
  cases h <;> rw [List.mem_singleton.1 he]

theorem PaceCourse.forAccess {r : Except Failure Bool} (hk : accessKey? options = .ok key)
    (h : PaceCourse options key entries lines r) {e : Entry} (he : e ∈ entries) :
    ForAccess options e.request ∧ ∀ k, e.request ≠ .bac k := by
  have hdiscovery : ∀ {entries lines} {r : Except Failure (Option PaceParameters)},
      Discovery entries lines r → e ∈ entries →
        ForAccess options e.request ∧ ∀ k, e.request ≠ .bac k := by
    intro _ _ _ hd he
    rw [hd.request_eq he]
    exact ⟨.discovery, nofun⟩
  cases h with
  | unwanted _ | unusable _ _ => cases he
  | undiscovered hd | unavailable hd => exact hdiscovery hd he
  | failed _ hp hd _ | succeeded _ _ hp hd =>
    rcases List.mem_append.1 he with he | he
    · exact hdiscovery hd he
    · rw [List.mem_singleton.1 he]
      exact ⟨.pace _ hk hp, nofun⟩

theorem EnterCourse.forAccess {paceDone : Bool} {r : Except Failure Unit}
    (hk : accessKey? options = .ok key) (h : EnterCourse key paceDone entries lines r) {e : Entry}
    (he : e ∈ entries) :
    ForAccess options e.request ∧ ∀ params p, e.request ≠ .pace params p := by
  cases h with
  | unselected _ | keyless _ _ _ | afterPace _ _ =>
    rw [List.mem_singleton.1 he]
    exact ⟨.selection, nofun⟩
  | failed _ _ hkey _ | succeeded _ _ _ hkey =>
    subst hkey
    rcases List.mem_pair.1 he with rfl | rfl
    · exact ⟨.selection, nofun⟩
    · exact ⟨.bac hk, nofun⟩

theorem AccessCourse.forAccess {r : Except Failure Unit} (h : AccessCourse options entries lines r)
    {e : Entry} (he : e ∈ entries) : ForAccess options e.request := by
  cases h with
  | unopened _ | badKey _ _ =>
    rw [List.mem_singleton.1 he]
    exact .opening
  | withoutPace _ hk hp =>
    rcases List.mem_cons.1 he with rfl | he
    · exact .opening
    · exact (hp.forAccess hk he).1
  | entering _ hk hp hm =>
    rcases List.mem_cons.1 he with rfl | he
    · exact .opening
    · rcases List.mem_append.1 he with he | he
      · exact (hp.forAccess hk he).1
      · exact (hm.forAccess hk he).1

/-- An entry that comes last and only there. -/
theorem eq_of_split {before after : List Entry} {e last : Entry}
    (hs : entries ++ [last] = before ++ e :: after)
    (he : e ∉ entries) : before = entries ∧ e = last ∧ after = [] := by
  obtain ⟨rfl, rfl, rfl⟩ := (List.append_cons_inj_of_notMem he List.not_mem_nil).1 hs
  exact ⟨rfl, rfl, rfl⟩

/-- BAC is the last step of access control. -/
theorem EnterCourse.bac {paceDone : Bool} {r : Except Failure Unit}
    (h : EnterCourse key paceDone later more r) {k : Mrz.AccessKey} {outcome : Outcome Value}
    (he : ⟨.bac k, outcome⟩ ∈ later) : paceDone = false ∧
      ∃ value, later = [⟨.selectApplet applicationIdentifier, .ok value⟩,
        ⟨.bac k, outcome⟩] := by
  cases h with
  | unselected _ | keyless _ _ _ | afterPace _ _ => simp at he
  | failed value hdone _ _ | succeeded value _ hdone _ =>
    rcases List.mem_pair.1 he with he | he
    · cases he
    · cases he
      exact ⟨hdone, value, rfl⟩

/-- The run goes on without PACE if that is not wanted or not there. -/
theorem PaceCourse.unoffered (h : PaceCourse options key entries lines (.ok false)) :
    wantsPace options = false ∨ Unoffered entries := by
  cases h with
  | unwanted hw => exact .inl hw
  | unavailable hd => exact .inr hd.unoffered

/-- **BAC is a fallback only from a chip without PACE.** -/
theorem AccessCourse.bac {r : Except Failure Unit} (h : AccessCourse options entries lines r)
    {before after : List Entry} {k : Mrz.AccessKey} {outcome : Outcome Value}
    (hs : entries = before ++ ⟨.bac k, outcome⟩ :: after) :
    wantsPace options = false ∨ Unoffered before := by
  have he : ⟨.bac k, outcome⟩ ∈ entries := by simp [hs]
  cases h with
  | unopened _ | badKey _ _ => simp at he
  | withoutPace _ hk hp =>
    rcases List.mem_cons.1 he with he | he
    · cases he
    · exact absurd rfl ((hp.forAccess hk he).2 k)
  | @entering _ _ _ entries later _ _ _ hk hp hm =>
    have hpace : ⟨.bac k, outcome⟩ ∉ entries := fun he => (hp.forAccess hk he).2 k rfl
    have hlater : ⟨.bac k, outcome⟩ ∈ later := by simpa [hpace] using he
    obtain ⟨rfl, value, rfl⟩ := hm.bac hlater
    obtain ⟨rfl, -, -⟩ := @eq_of_split (⟨.open, .ok _⟩ :: (entries ++ [_])) before after _ _
      (by simpa using hs) (by simp [hpace])
    refine hp.unoffered.imp_right (·.mono fun e he => ?_)
    exact List.mem_cons_of_mem _ (List.mem_append_left _ he)

theorem PaceCourse.pace {r : Except Failure Bool} (h : PaceCourse options key entries lines r)
    {params : PaceParameters} {p : PacePassword} {outcome : Outcome Value}
    (he : ⟨.pace params p, outcome⟩ ∈ entries) : wantsPace options = true ∧ ∃ found,
      entries = found ++ [⟨.pace params p, outcome⟩] ∧
        ⟨.pace params p, outcome⟩ ∉ found ∧
      Offers found params := by
  have hdiscovery : ∀ {entries lines} {r : Except Failure (Option PaceParameters)},
      Discovery entries lines r → (⟨.pace params p, outcome⟩ : Entry) ∉ entries := by
    intro _ _ _ hd he
    cases hd.request_eq he
  cases h with
  | unwanted _ | unusable _ _ => cases he
  | undiscovered hd | unavailable hd => exact absurd he (hdiscovery hd)
  | failed hw _ hd _ | succeeded _ hw _ hd =>
    rcases List.mem_append.1 he with he | he
    · exact absurd he (hdiscovery hd)
    · cases List.mem_singleton.1 he
      exact ⟨hw, _, rfl, hdiscovery hd, hd.offers⟩

/-- **PACE uses the first supported offer.** -/
theorem AccessCourse.pace {r : Except Failure Unit} (h : AccessCourse options entries lines r)
    {before after : List Entry} {params : PaceParameters} {p : PacePassword}
    {outcome : Outcome Value} (hs : entries = before ++ ⟨.pace params p, outcome⟩ :: after) :
    wantsPace options = true ∧ Offers before params := by
  have he : ⟨.pace params p, outcome⟩ ∈ entries := by simp [hs]
  cases h with
  | unopened _ | badKey _ _ => simp at he
  | withoutPace _ _ hp =>
    obtain ⟨hw, found, rfl, hfound, hoffers⟩ := hp.pace (by simpa using he)
    obtain ⟨rfl, -, -⟩ := @eq_of_split (⟨.open, .ok _⟩ :: found) before after _ _
      (by simpa using hs) (by simp [hfound])
    exact ⟨hw, hoffers.mono (List.subset_cons_self _ _)⟩
  | @entering value _ _ entries later _ _ _ hk hp hm =>
    -- what follows tries no PACE, so the split falls into the first part
    have hlater : ⟨.pace params p, outcome⟩ ∉ later :=
      fun he => (hm.forAccess hk he).2 params p rfl
    obtain ⟨hw, found, rfl, hfound, hoffers⟩ := hp.pace (by simpa [hlater] using he)
    refine ⟨hw, hoffers.mono ?_⟩
    have hs' : (⟨.open, .ok value⟩ :: found) ++ ⟨.pace params p, outcome⟩ :: later =
        before ++ ⟨.pace params p, outcome⟩ :: after := by simpa using hs
    obtain ⟨rfl, -, -⟩ := (List.append_cons_inj_of_notMem (by simp [hfound]) hlater).1 hs'
    exact List.subset_cons_self _ _

/-- An EF.CardAccess that cannot be decoded is the last thing that is read. -/
theorem Discovery.undecodable {r : Except Failure (Option PaceParameters)}
    (h : Discovery entries lines r)
    {file : Bytes} {e : Error} (he : ⟨.readContents .cardAccess, .ok (.bytes file)⟩ ∈ entries)
    (hd : CardAccess.decode file = .error e) :
    entries = [⟨.readContents .cardAccess, .ok (.bytes file)⟩] ∧ r = .error (.session e) := by
  cases h with
  | absent => simp at he
  | unread hs _ =>
    cases List.mem_singleton.1 he
    cases hs
  | undecoded hd' =>
    cases List.mem_singleton.1 he
    rw [hd, Except.error.injEq] at hd'
    exact ⟨rfl, hd' ▸ rfl⟩
  | decoded hd' =>
    cases List.mem_singleton.1 he
    rw [hd] at hd'
    cases hd'

theorem PaceCourse.undecodable {r : Except Failure Bool}
    (h : PaceCourse options key entries lines r)
    {file : Bytes} {e : Error} (he : ⟨.readContents .cardAccess, .ok (.bytes file)⟩ ∈ entries)
    (hd : CardAccess.decode file = .error e) :
    entries = [⟨.readContents .cardAccess, .ok (.bytes file)⟩] ∧ r = .error (.session e) := by
  cases h with
  | unwanted _ | unusable _ _ => cases he
  | undiscovered hdiscovery =>
    obtain ⟨hentries, hr⟩ := hdiscovery.undecodable he hd
    exact ⟨hentries, congrArg _ (Except.error.inj hr)⟩
  | unavailable hdiscovery => cases (hdiscovery.undecodable he hd).2
  | failed _ _ hdiscovery _ | succeeded _ _ _ hdiscovery =>
    cases (hdiscovery.undecodable (by simpa using he) hd).2

/-- An EF.CardAccess that cannot be decoded ends the run. -/
theorem AccessCourse.undecodable {r : Except Failure Unit}
    (h : AccessCourse options entries lines r)
    {before after : List Entry} {file : Bytes} {e : Error}
    (hs : entries = before ++ ⟨.readContents .cardAccess, .ok (.bytes file)⟩ :: after)
    (hd : CardAccess.decode file = .error e) : after = [] ∧ r = .error (.session e) := by
  have he : ⟨.readContents .cardAccess, .ok (.bytes file)⟩ ∈ entries := by simp [hs]
  cases h with
  | unopened _ | badKey _ _ => simp at he
  | withoutPace value _ hp =>
    obtain ⟨rfl, hr⟩ := hp.undecodable (by simpa using he) hd
    obtain ⟨-, -, rfl⟩ := @eq_of_split [⟨.open, .ok value⟩] before after _ _ hs (by simp)
    exact ⟨rfl, congrArg _ (Except.error.inj hr)⟩
  | @entering _ _ _ entries _ _ _ _ _ hp hm =>
    -- the run does not go on after it
    have hpace : ⟨.readContents .cardAccess, .ok (.bytes file)⟩ ∉ entries :=
      fun he => nomatch (hp.undecodable he hd).2
    cases hm <;> simp [hpace] at he

/-! ## What ends a run -/

theorem Stops.ends {failure : Error → Failure} {outcome : Outcome Value} {f : Failure}
    (h : Stops failure outcome f) {request : Request}
    (hne : ∀ file, request = .readContents file → outcome ≠ .failed .fileNotFound) :
    (⟨request, outcome⟩ : Entry).Ends := by
  refine ⟨fun value hv => ?_, hne⟩
  cases h <;> cases hv

/-- Why a run ends in which no request has failed. -/
inductive Hindrance (options : ReadOptions) (entries : List Entry) : Failure → Prop
  | badKey {f : Failure} : accessKey? options = .error f → Hindrance options entries f
  | noPassword {key : Option Mrz.AccessKey} {f : Failure} : accessKey? options = .ok key →
    wantsPace options = true → password options key = .error f → Hindrance options entries f
  | undecodable {file : Bytes} {e : Error} :
    ⟨.readContents .cardAccess, .ok (.bytes file)⟩ ∈ entries →
      CardAccess.decode file = .error e →
    Hindrance options entries (.session e)
  | noKey : accessKey? options = .ok none → wantsPace options = false ∨ Unoffered entries →
    Hindrance options entries .bacWithoutKey

theorem Hindrance.mono {f : Failure} (h : Hindrance options entries f) (hs : entries ⊆ later) :
    Hindrance options later f := by
  cases h with
  | badKey hk => exact .badKey hk
  | noPassword hk hw hp => exact .noPassword hk hw hp
  | undecodable hfile hd => exact .undecodable (hs hfile) hd
  | noKey hk ho => exact .noKey hk (ho.imp_right (·.mono hs))

/-- A failure is that of a request, or there is a hindrance. -/
def Caused (options : ReadOptions) (entries : List Entry) (f : Failure) : Prop :=
  (∃ e ∈ entries, e.Ends) ∨ Hindrance options entries f

theorem Caused.mono {f : Failure} (h : Caused options entries f) (hs : entries ⊆ later) :
    Caused options later f := by
  rcases h with ⟨e, he, hends⟩ | h
  · exact .inl ⟨e, hs he, hends⟩
  · exact .inr (h.mono hs)

theorem Stops.caused {failure : Error → Failure} {outcome : Outcome Value} {f : Failure}
    (h : Stops failure outcome f) {request : Request} (he : ⟨request, outcome⟩ ∈ entries)
    (hne : ∀ file, request = .readContents file → outcome ≠ .failed .fileNotFound) :
    Caused options entries f :=
  .inl ⟨_, he, h.ends hne⟩

theorem PaceCourse.caused {f : Failure} (h : PaceCourse options key entries lines (.error f))
    (hk : accessKey? options = .ok key) : Caused options entries f := by
  cases h with
  | unusable hw hp => exact .inr (.noPassword hk hw hp)
  | undiscovered hd =>
    cases hd with
    | unread hs hne => exact hs.caused (List.mem_singleton_self _) fun _ _ => hne
    | undecoded hd => exact .inr (.undecodable (by simp) hd)
  | failed _ _ _ hs => exact hs.caused (List.mem_append_right _ (List.mem_singleton_self _)) nofun

theorem EnterCourse.caused {paceDone : Bool} {f : Failure}
    (h : EnterCourse key paceDone entries lines (.error f)) :
    Caused options entries f ∨ (paceDone = false ∧ key = none ∧ f = .bacWithoutKey) := by
  cases h with
  | unselected hs => exact .inl (hs.caused (List.mem_singleton_self _) nofun)
  | keyless _ hdone hkey => exact .inr ⟨hdone, hkey, rfl⟩
  | failed _ _ _ hs =>
    exact .inl (hs.caused (List.mem_cons_of_mem _ (List.mem_singleton_self _)) nofun)

/-- **Access control fails only for a cause.** -/
theorem AccessCourse.caused {f : Failure} (h : AccessCourse options entries lines (.error f)) :
    Caused options entries f := by
  cases h with
  | unopened hs => exact hs.caused (List.mem_singleton_self _) nofun
  | badKey _ hk => exact .inr (.badKey hk)
  | withoutPace _ hk hp => exact (hp.caused hk).mono (List.subset_cons_self _ _)
  | entering _ hk hp hm =>
    rcases hm.caused with hcaused | ⟨rfl, rfl, rfl⟩
    · exact hcaused.mono fun e he => List.mem_cons_of_mem _ (List.mem_append_right _ he)
    · refine .inr (.noKey hk (hp.unoffered.imp_right (·.mono fun e he => ?_)))
      exact List.mem_cons_of_mem _ (List.mem_append_left _ he)

theorem FilesCourse.ends {files : List FileIdentifier} {f : Failure}
    (h : FilesCourse files entries lines (.error f)) : ∃ e ∈ entries, e.Ends := by
  generalize hr : (Except.error f : Except Failure Unit) = r at h
  induction h with
  | done => cases hr
  | present b _ ih | absent _ ih =>
    obtain ⟨e, he, hends⟩ := ih hr
    exact ⟨e, List.mem_cons_of_mem _ he, hends⟩
  | stopped hs hne => exact ⟨_, List.mem_singleton_self _, hs.ends fun _ _ => hne⟩

/-- **No run ends for nothing.** -/
theorem ReadCourse.caused {access reads closing : List Entry} {f : Failure}
    (h : ReadCourse options access reads closing lines more (.error f)) :
    Caused options (access ++ reads ++ closing) f := by
  cases h with
  | noAccess ha => simpa using ha.caused
  | unread _ hr =>
    obtain ⟨e, he, hends⟩ := hr.ends
    exact .inl ⟨e, by simp [he], hends⟩
  | read _ _ hc =>
    cases hc with
    | stopped hs => exact hs.caused (List.mem_append_right _ (List.mem_singleton_self _)) nofun

/-! ## Authentication -/

/-- Access control has succeeded, and nothing has come after it that changes the state. -/
theorem AccessCourse.authenticated (h : AccessCourse options entries lines (.ok ())) :
    ∃ before request value after, entries = before ++ ⟨request, .ok value⟩ :: after ∧
      (request.handshake? = some .bac ∨ request.handshake? = some .pace) ∧
      ∀ e ∈ after, e.request.handshake? = none ∧ e.request ≠ .open ∧
        e.request ≠ .close := by
  generalize hr : (Except.ok () : Except Failure Unit) = r at h
  cases h with
  | unopened _ | badKey _ _ | withoutPace _ _ _ => cases hr
  | @entering opened _ _ entries _ _ _ _ hk hp hm =>
    subst hr
    -- the last handshake is BAC with the applet selected first, or PACE before selecting it
    cases hm with
    | @succeeded value done k _ _ =>
      refine ⟨⟨.open, .ok opened⟩ ::
        (entries ++ [⟨.selectApplet applicationIdentifier, .ok value⟩]),
        .bac k, done, [], ?_, .inl rfl, by simp⟩
      simp
    | afterPace value hdone =>
      subst hdone
      cases hp with
      | @succeeded found _ params p paced _ _ _ =>
        refine ⟨⟨.open, .ok opened⟩ :: found, .pace params p, paced,
          [⟨.selectApplet applicationIdentifier, .ok value⟩], ?_, .inr rfl, ?_⟩
        · simp
        · simp [Request.handshake?]

end Work
end Tool
end TravelDocument

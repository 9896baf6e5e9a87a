import Provision.Proofs.Run.Account
import Provision.Proofs.Run.Alike
import Provision.Proofs.Run.Scene

/-!
# Interrupted runs

An interrupt that arrives with the `n`-th call of a run cuts the run off. Up to the end of the step
that makes this call the run does what it does undisturbed, and then it ends without going on to the
next step or the next unit.
-/

namespace Provision

/-! ## The interrupt -/

/-- The same collaborators, but no interrupt arrives. -/
def Collaborators.undisturbed (collaborators : Collaborators) : Collaborators where
  respond calls call files := { collaborators.respond calls call files with signals := [] }

/-- The same collaborators, but an interrupt arrives while the `n`-th call is at work. -/
def Collaborators.interruptedAt (collaborators : Collaborators) (n : Nat) : Collaborators where
  respond calls call files :=
    { collaborators.respond calls call files with
      signals := if calls.length + 1 = n then [.interrupt] else [] }

def Setting.undisturbed (setting : Setting) : Setting :=
  { setting with collaborators := setting.collaborators.undisturbed }

def Setting.interruptedAt (setting : Setting) (n : Nat) : Setting :=
  { setting with collaborators := setting.collaborators.interruptedAt n }

/-- The same session with an interrupt, if it has come to its `n`-th call. -/
def Session.interruptedAt (session : Session) (n : Nat) : Session :=
  { session with interrupted := decide (n ≤ session.calls.length) }

theorem Session.note_interruptedAt (session : Session) (n : Nat) {event : Event}
    (h : event.call? = none) :
    (session.interruptedAt n).note event = (session.note event).interruptedAt n := by
  unfold interruptedAt
  rw [calls_note, h]
  simp [note]

def Work.interruptedAt (work : Work) (n : Nat) : Work :=
  { work with session := work.session.interruptedAt n }

/-- No interrupt has arrived in the first session, and the second one has that of call `n`. -/
def CallFor (n : Nat) (session twin : Session) : Prop :=
  session.interrupted = false ∧ twin = session.interruptedAt n

theorem alike_callFor_iff {n : Nat} {work twin : Work} : work.Alike (CallFor n) twin ↔
    work.session.interrupted = false ∧ twin = work.interruptedAt n := by
  constructor
  · rintro ⟨hunit, hforced, hactions, hfree, hsession⟩
    obtain ⟨unit, session, forced, actions⟩ := twin
    simp only at hunit hforced hactions hsession
    exact ⟨hfree, by rw [hunit, hforced, hactions, hsession]; rfl⟩
  · rintro ⟨hfree, rfl⟩
    exact ⟨rfl, rfl, rfl, hfree, rfl⟩

theorem agree_callFor_iff {n : Nat} {ran twin : Work × Option Stop} : Agree (CallFor n) ran twin ↔
    ran.1.session.interrupted = false ∧ twin = (ran.1.interruptedAt n, ran.2) := by
  obtain ⟨ranWork, stop⟩ := ran
  obtain ⟨twinWork, twinStop⟩ := twin
  constructor
  · rintro ⟨halike, hstop⟩
    obtain ⟨hfree, htwin⟩ := alike_callFor_iff.mp halike
    exact ⟨hfree, Prod.ext htwin hstop⟩
  · rintro ⟨hfree, htwin⟩
    obtain ⟨rfl, rfl⟩ := Prod.mk.inj htwin
    exact ⟨alike_callFor_iff.mpr ⟨hfree, rfl⟩, rfl⟩

theorem callFor_request {n : Nat} {session twin : Session} (h : CallFor n session twin)
    (collaborators : Collaborators) (call : Call) :
    CallFor n (session.request collaborators.undisturbed call).1
        (twin.request (collaborators.interruptedAt n) call).1 ∧
      (twin.request (collaborators.interruptedAt n) call).2 =
        (session.request collaborators.undisturbed call).2 := by
  obtain ⟨hfree, rfl⟩ := h
  have hquiet : Signal.fatal? (decide (n ≤ session.calls.length))
      (if session.calls.length + 1 = n then [.interrupt] else []) = none := by
    split
    · next hnow => simp [Signal.fatal?, ← hnow]
    · exact Signal.fatal?_nil _
  have harrives : (decide (n ≤ session.calls.length) ||
        !(if session.calls.length + 1 = n then [Signal.interrupt] else []).isEmpty) =
      decide (n ≤ session.calls.length + 1) := by
    rw [Bool.eq_iff_iff]
    split <;> simp <;> omega
  refine ⟨⟨?_, ?_⟩, rfl⟩
  · simp [Session.request, Session.note, Collaborators.undisturbed, Response.interrupt, hfree]
  · have hcalls := Session.calls_request session collaborators.undisturbed call
    have hlater : ((session.interruptedAt n).request (collaborators.interruptedAt n) call).1 =
        { (session.request collaborators.undisturbed call).1 with
          interrupted := decide (n ≤ session.calls.length) ||
            !(if session.calls.length + 1 = n then [Signal.interrupt] else []).isEmpty } := by
      simp only [Session.request, Session.interruptedAt, Collaborators.undisturbed,
        Collaborators.interruptedAt, Signal.fatal?_nil, Session.endBy_none]
      rw [show ({ session with interrupted := decide (n ≤ session.calls.length) } : Session).calls =
        session.calls from rfl, hquiet, Session.endBy_none]
      rfl
    rw [hlater, harrives, Session.interruptedAt, hcalls, List.length_append, List.length_singleton]

theorem callFor_note {n : Nat} {work : Work} {files : Files} {event : Event} {stop? : Option Stop}
    (hfree : work.session.interrupted = false) (hevent : event.call? = none) :
    Agree (CallFor n)
      ({ work with session := { work.session with files }.note event }, stop?)
      ({ work.interruptedAt n with
        session := { (work.interruptedAt n).session with files }.note event }, stop?) := by
  refine agree_callFor_iff.mpr ⟨hfree, ?_⟩
  have hnote := Session.note_interruptedAt { work.session with files } n hevent
  unfold Work.interruptedAt
  rw [← hnote]
  rfl

/-- Up to its next step a unit cannot tell whether an interrupt has arrived. -/
theorem lockstep_interruptedAt (setting : Setting) (n : Nat) (unit : Installable) :
    Lockstep (CallFor n) setting.undisturbed (setting.interruptedAt n) unit where
  dryRun := rfl
  snapshot := rfl
  markers := rfl
  request h call := callFor_request h setting.collaborators call
  present h _ _ := by rw [h.2]; rfl
  marked h _ := by rw [h.2]; rfl
  source {work _} h entry _ := by
    obtain ⟨hfree, rfl⟩ := alike_callFor_iff.mp h
    unfold Work.putSource
    rw [show (work.interruptedAt n).session.files = work.session.files from rfl]
    split
    · exact agree_callFor_iff.mpr ⟨hfree, rfl⟩
    · split
      · exact callFor_note hfree rfl
      · exact agree_callFor_iff.mpr ⟨hfree, rfl⟩
  marker {work _} h _ phase := by
    obtain ⟨hfree, rfl⟩ := alike_callFor_iff.mp h
    unfold Work.leaveMarker
    rw [show (work.interruptedAt n).session.files = work.session.files from rfl,
      show (work.interruptedAt n).unit = work.unit from rfl,
      show (setting.interruptedAt n).markers = setting.undisturbed.markers from rfl]
    split
    · exact callFor_note hfree rfl
    · exact agree_callFor_iff.mpr ⟨hfree, rfl⟩

theorem runTasks_interruptedAt (setting : Setting) (n : Nat) (step : Step) (work : Work)
    (hfree : work.session.interrupted = false) :
    (Work.runTasks setting.undisturbed (step.tasks work.unit) work).1.session.interrupted = false ∧
      Work.runTasks (setting.interruptedAt n) (step.tasks work.unit) (work.interruptedAt n) =
        ((Work.runTasks setting.undisturbed (step.tasks work.unit) work).1.interruptedAt n,
          (Work.runTasks setting.undisturbed (step.tasks work.unit) work).2) :=
  agree_callFor_iff.mp ((lockstep_interruptedAt setting n work.unit).runTasks
    (alike_callFor_iff.mpr ⟨hfree, rfl⟩) rfl fun _ => id)

/-! ## One scene -/

/-- All calls from the `n`-th on are made in one scene. -/
def OneScene (n : Nat) (trace : List Event) : Prop :=
  ∃ here, ∀ call ∈ (placed trace).drop (n - 1), call.1 = here

theorem OneScene.snoc {n : Nat} {trace : List Event} {event : Event} (h : OneScene n trace)
    (hevent : event.call? = none) : OneScene n (trace ++ [event]) := by
  unfold OneScene at *
  rw [placed_append_singleton, hevent]
  simpa using h

theorem oneScene_of_sameScene {n : Nat} {session : Session} {after : List Event}
    (hlt : session.calls.length < n) (h : SameScene session.trace after) : OneScene n after := by
  obtain ⟨made, hmade, hcalls⟩ := h.calls
  refine ⟨scene session.trace, fun call hcall => hcalls call ?_⟩
  have hle : (placed session.trace).length ≤ n - 1 := by
    rw [length_placed]
    omega
  rw [hmade, List.drop_append, List.drop_eq_nil_of_le hle, List.nil_append] at hcall
  exact List.mem_of_mem_drop hcall

/-! ## Markers that cannot be left -/

/-- The `n`-th call was a script that succeeded, and its marker could not be left. -/
def Unmarkable (markers : MarkerStore) (n : Nat) (session : Session) (message : String) : Prop :=
  session.calls.length = n ∧ ∃ unit phase before text answer shown files failure,
    session.trace = before ++ [.called (.runScript text) (.ok answer) shown] ∧
    scene before = ⟨some unit, some (.ofPhase phase)⟩ ∧
    markers.create files unit phase = (session.files, .error failure) ∧ message = failure.text

theorem runScript_eq_fatal {setting : Setting} {phase : Phase} {work final : Work}
    {error : RunError} (h : work.runScript setting phase = (final, some (.fatal error))) :
    ∃ text answer shown files failure,
      final.session.trace = work.session.trace ++ [.called (.runScript text) (.ok answer) shown] ∧
      setting.markers.create files work.unit.name phase = (final.session.files, .error failure) ∧
      error = .environment failure.text := by
  unfold Work.runScript at h
  split at h
  · cases h
  · next text hscript =>
    simp only at h
    split at h
    · cases h
    · obtain ⟨-, hact⟩ := Work.really_eq_some h
      rcases Goes.tell_cases setting (.ofPhase phase) (.runScript text) work with
        ⟨answer, htell, before, shown, htrace⟩ | ⟨failure, htell⟩
      · rw [htell] at hact
        simp only at hact
        split at hact
        · rcases (work.called setting (.runScript text)).leaveMarker_cases setting phase with
            ⟨files, path, hleave, -⟩ | ⟨files, failure, hleave, hcreate⟩
          · rw [hleave] at hact
            cases hact
          · rw [hleave] at hact
            obtain ⟨rfl, hstop⟩ := Prod.mk.inj hact
            cases hstop
            obtain ⟨rfl, -⟩ := List.append_inj' htrace rfl
            exact ⟨text, answer, shown, _, failure, htrace, hcreate, rfl⟩
        · cases hact
      · rw [htell] at hact
        cases hact

/-! ## Steps -/

/-- A session that has noticed the interrupt of its `n`-th call, as the first part of another one. -/
structure Session.CutAt (n : Nat) (cut whole : Session) : Prop where
  trace : cut.trace <+: whole.trace
  reached : n ≤ cut.calls.length
  oneScene : OneScene n cut.trace
  interrupted : cut.interrupted = true

theorem cutAt_of_reached {n : Nat} {session whole : Session} (hreached : n ≤ session.calls.length)
    (hlate : OneScene n session.trace) (htrace : session.trace <+: whole.trace) :
    (session.interruptedAt n).CutAt n whole :=
  ⟨htrace, hreached, hlate, decide_eq_true hreached⟩

/-- What may end the work on a unit in the step in which the interrupt arrives, and is no failure. -/
inductive Outlasts (markers : MarkerStore) (n : Nat) (session : Session) : Stop → Prop
  | skipped (cause : SkipCause) : Outlasts markers n session (.skipped cause)
  | unmarked {message : String} (unmarkable : Unmarkable markers n session message) :
      Outlasts markers n session (.fatal (.environment message))

/-- How the work on a unit goes with the interrupt, beside the work that none disturbs. -/
inductive Parts (markers : MarkerStore) (n : Nat) (whole : Work × Option Stop) :
    Work × Option Stop → Prop
  | together (late : OneScene n whole.1.session.trace)
      (ends : n ≤ whole.1.session.calls.length → ∀ stop, whole.2 = some stop →
        Outlasts markers n whole.1.session stop) :
      Parts markers n whole (whole.1.interruptedAt n, whole.2)
  | cut {work : Work} (cut : work.session.CutAt n whole.1.session) :
      Parts markers n whole (work, some (.fatal .interrupted))

theorem unmarkable_of_step {setting : Setting} {step : Step} {work final : Work} {n : Nat}
    {error : RunError} (hunit : (scene work.session.trace).unit? = some work.unit.name)
    (hlt : work.session.calls.length < n) (hreached : n ≤ final.session.calls.length)
    (h : Work.runTasks setting (step.tasks work.unit) (work.enter step) =
      (final, some (.fatal error))) :
    ∃ message, error = .environment message ∧
      Unmarkable setting.markers n final.session message := by
  have hends := (goes_step setting step work).ends (.fatal error) (by rw [h])
  cases hends with
  | @unmarked phase message =>
    have htasks : (Step.ofPhase phase).tasks work.unit = [.runScript phase] := by
      cases phase <;> rfl
    rw [htasks] at h
    unfold Work.runTasks at h
    split at h
    · cases h
    · next ran stop hran =>
      obtain ⟨rfl, hstop⟩ := Prod.mk.inj h
      obtain rfl := Option.some.inj hstop
      obtain ⟨text, answer, shown, files, failure, htrace, hcreate, herror⟩ :=
        runScript_eq_fatal hran
      have hcalls : ran.session.calls.length = work.session.calls.length + 1 := by
        unfold Session.calls
        rw [htrace]
        simp [Work.enter, Session.note, Event.call?, List.filterMap_cons]
      have hscene : scene (work.enter (.ofPhase phase)).session.trace =
          ⟨some work.unit.name, some (.ofPhase phase)⟩ := by
        rw [scene_enter, ← hunit]
      exact ⟨message, rfl, by omega, _, phase, _, text, answer, shown, files, failure, htrace,
        hscene, hcreate, by simpa using herror⟩

theorem runSteps_undisturbed (setting : Setting) (steps : List Step) {work : Work}
    (hfree : work.session.interrupted = false) :
    (Work.runSteps setting.undisturbed steps work).1.session.interrupted = false := by
  induction steps generalizing work with
  | nil => exact hfree
  | cons step rest ih =>
    have hran := (runTasks_interruptedAt setting 0 step (work.enter step) hfree).1
    rw [runSteps_cons_of_free hfree]
    split
    · next ran heq =>
      rw [show (work.enter step).unit = work.unit from rfl, heq] at hran
      exact ih hran
    · next ran stop heq =>
      rw [show (work.enter step).unit = work.unit from rfl, heq] at hran
      exact hran

/-- A step that stops does so in both, but for a failure after the interrupt. -/
theorem parts_settle {markers : MarkerStore} {n : Nat} {ran : Work} {stop : Stop}
    (hfree : ran.session.interrupted = false) (hlate : OneScene n ran.session.trace)
    (hfatal : n ≤ ran.session.calls.length → ∀ error, stop = .fatal error →
      ∃ message, error = .environment message ∧ Unmarkable markers n ran.session message) :
    Parts markers n (ran, some (ran.settle stop))
      (ran.interruptedAt n, some ((ran.interruptedAt n).settle stop)) := by
  cases stop with
  | failed fault =>
    by_cases hreached : n ≤ ran.session.calls.length
    · have hsettle : (ran.interruptedAt n).settle (.failed fault) = .fatal .interrupted := by
        simp [Work.settle, Work.interruptedAt, Session.interruptedAt, hreached]
      rw [hsettle]
      exact .cut (cutAt_of_reached hreached hlate List.prefix_rfl)
    · have hsettle : (ran.interruptedAt n).settle (.failed fault) = ran.settle (.failed fault) := by
        simp [Work.settle, Work.interruptedAt, Session.interruptedAt, hreached, hfree]
      rw [hsettle]
      exact .together hlate (absurd · hreached)
  | skipped cause =>
    refine .together hlate fun _ stop hstop => ?_
    obtain rfl := Option.some.inj hstop
    exact .skipped cause
  | fatal error =>
    refine .together hlate fun hreached stop hstop => ?_
    obtain rfl := Option.some.inj hstop
    obtain ⟨message, rfl, hunmarkable⟩ := hfatal hreached error rfl
    exact .unmarked hunmarkable

theorem runSteps_interruptedAt (setting : Setting) (n : Nat) (steps : List Step) (work : Work)
    (hfree : work.session.interrupted = false) (hlate : OneScene n work.session.trace)
    (hunit : (scene work.session.trace).unit? = some work.unit.name) :
    Parts setting.markers n (Work.runSteps setting.undisturbed steps work)
      (Work.runSteps (setting.interruptedAt n) steps (work.interruptedAt n)) := by
  induction steps generalizing work with
  | nil => exact .together hlate fun _ stop hstop => by cases hstop
  | cons step rest ih =>
    by_cases hreached : n ≤ work.session.calls.length
    · -- The interrupt is noticed before the step begins.
      have hkept := runSteps_kept setting.undisturbed (step :: rest) work
      have harrived : (work.interruptedAt n).session.interrupted = true := decide_eq_true hreached
      have hstops : Work.runSteps (setting.interruptedAt n) (step :: rest) (work.interruptedAt n) =
          (work.interruptedAt n, some (.fatal .interrupted)) := by
        rw [Work.runSteps, if_pos harrived]
      rw [hstops]
      exact .cut (cutAt_of_reached hreached hlate hkept.trace)
    · have hlt : work.session.calls.length < n := by omega
      have hlocked : (work.interruptedAt n).session.interrupted = false := decide_eq_false hreached
      have henters : (work.interruptedAt n).enter step = (work.enter step).interruptedAt n := by
        unfold Work.enter Work.interruptedAt
        rw [← Session.note_interruptedAt _ n rfl]
      have hmoves := (goes_step setting.undisturbed step work).moves
      have hsame := runTasks_interruptedAt setting n step (work.enter step) hfree
      rw [show (work.enter step).unit = work.unit from rfl] at hsame
      rw [runSteps_cons_of_free hfree, runSteps_cons_of_free hlocked, henters,
        show (work.interruptedAt n).unit = work.unit from rfl, hsame.2]
      cases hrun : Work.runTasks setting.undisturbed (step.tasks work.unit) (work.enter step) with
      | mk ran stop? =>
        rw [hrun] at hmoves hsame
        have hscene := hmoves.sameScene
        have hlate : OneScene n ran.session.trace := by
          refine oneScene_of_sameScene ?_ hscene
          simpa [Work.enter, Event.call?] using hlt
        cases stop? with
        | none =>
          have hname : ran.unit.name = work.unit.name := by
            rw [← Installable.name_declared, hmoves.kept.declared]
            rfl
          refine ih ran hsame.1 hlate ?_
          rw [hscene.here, hname, scene_enter]
          exact hunit
        | some stop =>
          refine parts_settle hsame.1 hlate fun hreached error herror => ?_
          rw [herror] at hrun
          exact @unmarkable_of_step setting.undisturbed _ _ _ _ _ hunit hlt hreached hrun

/-! ## Visits -/

/-- How a visit goes with the interrupt, beside the visit that none disturbs. -/
inductive Visit.Parts (markers : MarkerStore) (n : Nat) (whole : Visit) : Visit → Prop
  | together (late : OneScene n whole.session.trace)
      (ok : n ≤ whole.session.calls.length → ∀ result, whole.result = .ok result →
        result.outcome.isFailed = false)
      (error : n ≤ whole.session.calls.length → ∀ error, whole.result = .error error →
        ∃ message, error = .environment message ∧ Unmarkable markers n whole.session message) :
      Parts markers n whole { whole with session := whole.session.interruptedAt n }
  | cut {visit : Visit} (cut : visit.session.CutAt n whole.session)
      (error : visit.result = .error .interrupted) : Parts markers n whole visit

theorem conclude_of_outlasts {markers : MarkerStore} {n : Nat} {work : Work} {stop? : Option Stop}
    (hends : ∀ stop, stop? = some stop → Outlasts markers n work.session stop)
    (unit : Installable) :
    (∀ result, work.conclude unit stop? = .ok result → result.outcome.isFailed = false) ∧
      ∀ error, work.conclude unit stop? = .error error →
        ∃ message, error = .environment message ∧ Unmarkable markers n work.session message := by
  cases stop? with
  | none =>
    refine ⟨fun result hresult => ?_, fun error herror => by cases herror⟩
    obtain rfl := Except.ok.inj hresult
    rfl
  | some stop =>
    cases hends stop rfl with
    | skipped cause =>
      refine ⟨fun result hresult => ?_, fun error herror => by cases herror⟩
      obtain rfl := Except.ok.inj hresult
      rfl
    | unmarked unmarkable =>
      refine ⟨fun result hresult => (by cases hresult), fun error herror => ?_⟩
      exact ⟨_, (Except.error.inj herror).symm, unmarkable⟩

section

variable {setting : Setting} {n : Nat} {session : Session} {unit : Installable}

variable (setting unit) in
theorem visit_undisturbed (hfree : session.interrupted = false) :
    (setting.undisturbed.visit session unit).session.interrupted = false := by
  cases hdecision : setting.undisturbed.criteria.judge unit setting.undisturbed.snapshot
      setting.undisturbed.hostname with
  | skip cause =>
    rw [visit_of_skip hfree hdecision]
    exact hfree
  | install forced =>
    rw [visit_of_install hfree hdecision]
    exact runSteps_undisturbed setting Step.all hfree

variable (setting unit) in
theorem visit_interruptedAt (hfree : session.interrupted = false)
    (hlate : OneScene n session.trace) :
    Visit.Parts setting.markers n (setting.undisturbed.visit session unit)
      ((setting.interruptedAt n).visit (session.interruptedAt n) unit) := by
  have hbegan := Session.note_interruptedAt session n
    (show (Event.began unit.name).call? = none from rfl)
  have hsnoc : OneScene n (session.note (.began unit.name)).trace := hlate.snoc rfl
  have hsame : (session.note (.began unit.name)).calls = session.calls := by simp [Event.call?]
  by_cases hreached : n ≤ session.calls.length
  · have harrived : (session.interruptedAt n).interrupted = true := decide_eq_true hreached
    rw [visit_of_interrupted harrived, hbegan]
    exact .cut (cutAt_of_reached (by rwa [hsame]) hsnoc (began_prefix_visit _ _ _)) rfl
  · have hopen : (session.interruptedAt n).interrupted = false := decide_eq_false hreached
    cases hdecision : setting.undisturbed.criteria.judge unit setting.undisturbed.snapshot
        setting.undisturbed.hostname with
    | skip cause =>
      rw [visit_of_skip hfree hdecision,
        @visit_of_skip (setting.interruptedAt n) _ _ _ hopen hdecision, hbegan]
      exact .together hsnoc (fun h => absurd (hsame ▸ h) hreached)
        (fun h => absurd (hsame ▸ h) hreached)
    | install forced =>
      have hbegin : Work.begin (session.interruptedAt n) unit forced =
          (Work.begin session unit forced).interruptedAt n := by
        rw [Work.begin, hbegan]
        rfl
      have hparts := runSteps_interruptedAt setting n Step.all (.begin session unit forced)
        hfree hsnoc (by simp [Work.begin, Session.note, Scene.next])
      rw [visit_of_install hfree hdecision,
        @visit_of_install (setting.interruptedAt n) _ _ _ hopen hdecision, hbegin]
      generalize Work.runSteps setting.undisturbed Step.all (.begin session unit forced) = whole at *
      generalize Work.runSteps (setting.interruptedAt n) Step.all _ = twin at *
      obtain ⟨work, stop?⟩ := whole
      cases hparts with
      | together late ends =>
        exact .together late (fun hreached => (conclude_of_outlasts (ends hreached) unit).1)
          fun hreached => (conclude_of_outlasts (ends hreached) unit).2
      | cut cut => exact .cut cut rfl

/-! ## Tours -/

variable (setting) in
/-- A tour with the interrupt ends when it has noticed it, as long as there is anything to do. -/
theorem tour_interruptedAt {strict : Bool} {units : List Installable}
    (hfree : session.interrupted = false) (hlate : OneScene n session.trace)
    (hreached : n ≤ (tour setting.undisturbed strict units session).session.calls.length) :
    (tour (setting.interruptedAt n) strict units (session.interruptedAt n)).session.CutAt n
        (tour setting.undisturbed strict units session).session ∧
      ∀ error, (tour (setting.interruptedAt n) strict units
          (session.interruptedAt n)).error? = some error → error = .interrupted ∨
        ∃ message, error = .environment message ∧ Unmarkable setting.markers n
          (tour (setting.interruptedAt n) strict units (session.interruptedAt n)).session message := by
  induction units generalizing session with
  | nil =>
    exact ⟨cutAt_of_reached hreached hlate List.prefix_rfl, fun error herror => by cases herror⟩
  | cons unit rest ih =>
    have hparts := visit_interruptedAt setting unit hfree hlate
    have hvisited := visit_undisturbed setting unit hfree
    have hprefix := @visit_prefix_tour setting.undisturbed strict session unit rest
    simp only [tour] at hreached hprefix ⊢
    generalize setting.undisturbed.visit session unit = whole at *
    generalize (setting.interruptedAt n).visit (session.interruptedAt n) unit = twin at *
    cases hparts with
    | cut cut error =>
      rw [error]
      refine ⟨⟨cut.trace.trans hprefix, cut.reached, cut.oneScene, cut.interrupted⟩, ?_⟩
      exact fun other hother => .inl (Option.some.inj hother).symm
    | together late ok error =>
      cases hresult : whole.result with
      | error stop =>
        simp only [hresult] at hreached ⊢
        obtain ⟨message, rfl, hunmarkable⟩ := error hreached stop hresult
        refine ⟨cutAt_of_reached hreached late List.prefix_rfl, fun other hother => ?_⟩
        exact .inr ⟨message, (Option.some.inj hother).symm, hunmarkable⟩
      | ok result =>
        have hreport := Session.note_interruptedAt whole.session n
          (show (Event.reported result).call? = none from rfl)
        cases habort : RunState.abort? strict result with
        | some stop =>
          -- Nothing that lasts after the interrupt is a failure.
          simp only [hresult, habort] at hreached
          have hcalls : n ≤ whole.session.calls.length := by simpa [Event.call?] using hreached
          obtain ⟨-, fault, houtcome, -⟩ := isFailed_of_abort? habort
          have hnot := ok hcalls result hresult
          rw [houtcome] at hnot
          cases hnot
        | none =>
          simp only [hresult, habort, hreport] at hreached ⊢
          exact ih hvisited (late.snoc rfl) hreached

end

/-! ## Runs -/

/-- A run that the interrupt of its `n`-th call has cut off, beside the run that none disturbs. -/
structure CutOff (markers : MarkerStore) (n : Nat)
    (cut whole : RunState × Except RunError Report) : Prop where
  trace : cut.1.session.trace <+: whole.1.session.trace
  calls : cut.1.session.calls <+: whole.1.session.calls
  /-- The call with which the interrupt arrives is made. -/
  reached : n ≤ cut.1.session.calls.length
  /-- Later calls are made in its step of its unit. -/
  oneScene : OneScene n cut.1.session.trace
  none_before : n = 0 → cut.1.session.calls = []
  reports : cut.1.progress.report.units <+: whole.1.progress.report.units
  result : cut.2 = .error .interrupted ∨
    ∃ message, cut.2 = .error (.environment message) ∧ Unmarkable markers n cut.1.session message

/-- An interrupt cuts every run of a document off, wherever it arrives. -/
theorem cutOff_of_interrupt {sourcesDir : Path} {text : List Char} {catalog : Catalog}
    (h : Document.parse sourcesDir text = .ok catalog) (setting : Setting) (strict : Bool)
    (files : Files) (n : Nat)
    (hn : n ≤ (RunState.run setting.undisturbed strict
      { catalog, session := { files } }).1.session.calls.length) :
    CutOff setting.markers n
      (RunState.run (setting.interruptedAt n) strict
        { catalog, session := { files, interrupted := decide (n = 0) } })
      (RunState.run setting.undisturbed strict { catalog, session := { files } }) := by
  have hcatalog := Document.wellFormed_of_parse h
  have hstart : ({ files, interrupted := decide (n = 0) } : Session) =
      ({ files } : Session).interruptedAt n := by
    simp [Session.interruptedAt, Session.calls]
  have hcut := ledBy_of_fresh hcatalog (setting.interruptedAt n) strict files (decide (n = 0))
  have hwhole := ledBy_of_fresh hcatalog setting.undisturbed strict files false
  have hend := snd_of_fresh hcatalog (setting.interruptedAt n) strict files (decide (n = 0))
  have hreports := results_of_fresh hcatalog (setting.interruptedAt n) strict files (decide (n = 0))
  rw [hwhole.session] at hn
  obtain ⟨hcutAt, hends⟩ := tour_interruptedAt setting rfl ⟨{}, by simp [placed, placedFrom]⟩ hn
  rw [← hstart, ← hcut.session] at hcutAt
  rw [← hstart, ← hcut.session] at hends
  rw [← hwhole.session] at hcutAt
  refine ⟨hcutAt.trace, hcutAt.trace.filterMap _, hcutAt.reached, hcutAt.oneScene, ?_, ?_, ?_⟩
  · rintro rfl
    rw [hcut.session, (idle_tour_of_interrupted rfl).calls]
    rfl
  · rw [← hreports, ← results_of_fresh hcatalog setting.undisturbed strict files false]
    exact hcutAt.trace.filterMap _
  · rw [hend]
    split
    · next error herror =>
      rcases hends error herror with rfl | ⟨message, rfl, hunmarkable⟩
      · exact .inl rfl
      · exact .inr ⟨message, rfl, hunmarkable⟩
    · rw [if_pos hcutAt.interrupted]
      exact .inl rfl

/-- A host on which every call succeeds. -/
def Setting.obliging : Setting where
  collaborators := ⟨fun _ _ files => { result := .ok "", files }⟩
  hostname := "host"

/-- The catalog of a document with two repositories in its first unit. -/
def Catalog.ofRepositories : Catalog :=
  ⟨[⟨1, { name := "a", repositories := ["r", "s"] }⟩, ⟨4, { name := "b" }⟩]⟩

/-- An interrupt that arrives while the first of two repositories is added: the second one is added
as well, and nothing more. -/
theorem cutOff_of_interrupt_between_repositories :
    Document.parse Document.defaultSourcesDir "a:\n  repo: r\n  repo: s\nb\n".toList =
      .ok .ofRepositories ∧
    1 ≤ (RunState.run Setting.obliging.undisturbed false
      { catalog := .ofRepositories, session := { files := {} } }).1.session.calls.length ∧
    CutOff Setting.obliging.markers 1
      (RunState.run (Setting.obliging.interruptedAt 1) false
        { catalog := .ofRepositories
          session := { files := {}, interrupted := decide (1 = 0) } })
      (RunState.run Setting.obliging.undisturbed false
        { catalog := .ofRepositories, session := { files := {} } }) := by
  have h : Document.parse Document.defaultSourcesDir "a:\n  repo: r\n  repo: s\nb\n".toList =
      .ok .ofRepositories := by
    decide +kernel
  have hn : 1 ≤ (RunState.run Setting.obliging.undisturbed false
      { catalog := .ofRepositories, session := { files := {} } }).1.session.calls.length := by
    decide +kernel
  exact ⟨h, hn, cutOff_of_interrupt h _ _ _ _ hn⟩

end Provision

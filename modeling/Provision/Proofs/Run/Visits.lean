import Provision.Proofs.Run.Moves

/-!
# What comes of a visit

The work on a unit is its steps one after the other, and what the moves keep a whole visit keeps.
What may be reported about a unit follows from what was decided about it.
-/

namespace Provision

/-! ## Steps -/

theorem goes_step (setting : Setting) (step : Step) (work : Work) :
    Goes setting step (work.enter step)
      (Work.runTasks setting (step.tasks work.unit) (work.enter step)) :=
  Goes.runTasks fun _ => id

theorem runTasks_singleton (setting : Setting) (task : Task) (work : Work) :
    Work.runTasks setting [task] work = task.run setting work := by
  unfold Work.runTasks
  split
  · next ran heq => exact heq.symm
  · next ran stop heq => exact heq.symm

theorem runSteps_cons_of_free {setting : Setting} {step : Step} {rest : List Step} {work : Work}
    (hfree : work.session.interrupted = false) :
    Work.runSteps setting (step :: rest) work =
      match Work.runTasks setting (step.tasks work.unit) (work.enter step) with
      | (ran, none) => Work.runSteps setting rest ran
      | (ran, some stop) => (ran, some (ran.settle stop)) := by
  rw [Work.runSteps]
  exact if_neg (by simp [hfree])

theorem runSteps_of_interrupted {setting : Setting} (steps : List Step) {work : Work}
    (h : work.session.interrupted = true) : (Work.runSteps setting steps work).1 = work := by
  cases steps with
  | nil => rfl
  | cons step rest => rw [Work.runSteps, if_pos h]

theorem runSteps_cons_cases (setting : Setting) (step : Step) (rest : List Step) (work : Work) :
    Work.runSteps setting (step :: rest) work = (work, some (.fatal .interrupted)) ∨
    ∃ ran stop?, Work.runTasks setting (step.tasks work.unit) (work.enter step) = (ran, stop?) ∧
      Work.runSteps setting (step :: rest) work =
        match stop? with
        | none => Work.runSteps setting rest ran
        | some stop => (ran, some (ran.settle stop)) := by
  by_cases harrived : work.session.interrupted = true
  · exact .inl (by rw [Work.runSteps, if_pos harrived])
  · refine .inr ⟨_, _, rfl, ?_⟩
    rw [Bool.not_eq_true] at harrived
    rw [runSteps_cons_of_free harrived]
    split <;> simp_all

theorem runSteps_append (setting : Setting) (front back : List Step) (work : Work) :
    Work.runSteps setting (front ++ back) work =
      match Work.runSteps setting front work with
      | (ran, none) => Work.runSteps setting back ran
      | (ran, some stop) => (ran, some stop) := by
  induction front generalizing work with
  | nil => rfl
  | cons step rest ih =>
    simp only [List.cons_append, Work.runSteps]
    split
    · rfl
    · split
      · exact ih _
      · rfl

theorem moves_tasks (setting : Setting) (step : Step) (work : Work) :
    Moves setting step work (Work.runTasks setting (step.tasks work.unit) work).1 :=
  (Goes.runTasks fun _ => id).moves

/-- What holds of a unit at work from step to step. While a step is under way `P` holds. -/
theorem runSteps_induction_of_tasks {setting : Setting} {Q : Work → Prop} {P : Step → Work → Prop}
    {steps : List Step} (enter : ∀ step work, Q work → P step (work.enter step))
    (tasks : ∀ step ∈ steps, ∀ work, P step work →
      P step (Work.runTasks setting (step.tasks work.unit) work).1)
    (leave : ∀ step work, P step work → Q work) {work : Work} (h : Q work) :
    Q (Work.runSteps setting steps work).1 := by
  induction steps generalizing work with
  | nil => exact h
  | cons step rest ih =>
    rw [List.forall_mem_cons] at tasks
    have hran : P step (Work.runTasks setting (step.tasks work.unit) (work.enter step)).1 :=
      tasks.1 (work.enter step) (enter step work h)
    unfold Work.runSteps
    split
    · exact h
    · split
      · next ran heq =>
        rw [heq] at hran
        exact ih tasks.2 (leave step ran hran)
      · next ran stop heq =>
        rw [heq] at hran
        exact leave step ran hran

theorem runSteps_induction {setting : Setting} {Q : Work → Prop} {P : Step → Work → Prop}
    (enter : ∀ step work, Q work → P step (work.enter step))
    (move : ∀ step work next, P step work → Move setting work step next → P step next)
    (leave : ∀ step work, P step work → Q work) {steps : List Step} {work : Work} (h : Q work) :
    Q (Work.runSteps setting steps work).1 :=
  runSteps_induction_of_tasks enter
    (fun step _ work hwork => (moves_tasks setting step work).preserves (move step) hwork) leave h

theorem kept_enter (step : Step) (work : Work) : Move.Kept work (work.enter step) := .note rfl

theorem runSteps_kept (setting : Setting) (steps : List Step) (work : Work) :
    Move.Kept work (Work.runSteps setting steps work).1 :=
  runSteps_induction (Q := Move.Kept work) (P := fun _ => Move.Kept work)
    (fun step _ h => h.trans (kept_enter step _)) (fun _ _ _ h hmove => h.trans hmove.kept)
    (fun _ _ => id) (.refl work)

/-- Why the work on a unit ended before its last step. -/
inductive Settled (setting : Setting) (work final : Work) : Stop → Prop
  | interrupted (arrived : final.session.interrupted = true) :
      Settled setting work final (.fatal .interrupted)
  | ended {step : Step} {stop : Stop} (ends : Ends setting work step stop) :
      Settled setting work final stop

theorem settled_settle {setting : Setting} {work final : Work} {step : Step} {stop : Stop}
    (h : Ends setting work step stop) : Settled setting work final (final.settle stop) := by
  unfold Work.settle
  split
  · split
    · next harrived => exact .interrupted harrived
    · exact .ended h
  · exact .ended h

theorem runSteps_settled {setting : Setting} {steps : List Step} {work final : Work} {stop : Stop}
    (h : Work.runSteps setting steps work = (final, some stop)) :
    Settled setting work final stop := by
  induction steps generalizing work with
  | nil => cases h
  | cons step rest ih =>
    have hgoes := goes_step setting step work
    have hkept := (kept_enter step work).trans hgoes.moves.kept
    unfold Work.runSteps at h
    split at h
    · next harrived =>
      obtain ⟨rfl, hstop⟩ := Prod.mk.inj h
      obtain rfl := Option.some.inj hstop
      exact .interrupted harrived
    · split at h
      · next ran heq =>
        rw [heq] at hkept
        cases ih h with
        | interrupted arrived => exact .interrupted arrived
        | ended ends => exact .ended (ends.of_kept hkept)
      · next ran early heq =>
        rw [heq] at hgoes
        obtain ⟨rfl, hstop⟩ := Prod.mk.inj h
        obtain rfl := Option.some.inj hstop
        exact settled_settle ((hgoes.ends early rfl).of_kept (kept_enter step work))

/-! ## Visits -/

/-- Nothing has happened outside. -/
structure Idle (before after : Session) : Prop where
  files : after.files = before.files
  interrupted : after.interrupted = before.interrupted
  calls : after.calls = before.calls

namespace Idle

theorem refl (session : Session) : Idle session session := ⟨rfl, rfl, rfl⟩

theorem trans {a b c : Session} (hab : Idle a b) (hbc : Idle b c) : Idle a c :=
  ⟨hbc.files.trans hab.files, hbc.interrupted.trans hab.interrupted, hbc.calls.trans hab.calls⟩

theorem note (session : Session) {event : Event} (h : event.call? = none) :
    Idle session (session.note event) :=
  ⟨rfl, rfl, by rw [Session.calls_note, h]; simp⟩

end Idle

/-- What may become of a unit that is decided about. -/
inductive Foreseen (setting : Setting) (unit : Installable) : Decision → Outcome → Prop
  | skipped {cause : SkipCause} : Foreseen setting unit (.skip cause) (.skipped cause)
  | completed {forced : Bool} : Foreseen setting unit (.install forced) .completed
  | failed {forced : Bool} {fault : StepFault} :
      Foreseen setting unit (.install forced) (.failed fault)
  | installed {url package : String} (declared : unit.url? = some url)
      (real : setting.dryRun = false) (found : setting.snapshot.has package = true) :
      Foreseen setting unit (.install false) (.skipped (.archiveInstalled package))

section Visit

variable {setting : Setting} {session : Session} {unit : Installable}

theorem visit_of_interrupted (h : session.interrupted = true) :
    setting.visit session unit = ⟨unit, session.note (.began unit.name), .error .interrupted⟩ := by
  simp [Setting.visit, Session.note, h]

theorem visit_of_skip {cause : SkipCause} (h : session.interrupted = false)
    (hskip : setting.criteria.judge unit setting.snapshot setting.hostname = .skip cause) :
    setting.visit session unit =
      ⟨unit, session.note (.began unit.name), .ok (unit.result (.skipped cause) [])⟩ := by
  simp [Setting.visit, Session.note, h, hskip]

def Work.begin (session : Session) (unit : Installable) (forced : Bool) : Work :=
  { unit, session := session.note (.began unit.name), forced }

theorem visit_of_install {forced : Bool} (h : session.interrupted = false)
    (hinstall : setting.criteria.judge unit setting.snapshot setting.hostname = .install forced) :
    setting.visit session unit =
      ⟨(Work.runSteps setting Step.all (.begin session unit forced)).1.unit,
        (Work.runSteps setting Step.all (.begin session unit forced)).1.session,
        (Work.runSteps setting Step.all (.begin session unit forced)).1.conclude unit
          (Work.runSteps setting Step.all (.begin session unit forced)).2⟩ := by
  simp [Setting.visit, Session.note, h, hinstall, Work.begin]

/-- How a visit goes: it is over at once, or the unit goes through its steps. -/
inductive Visited (setting : Setting) (session : Session) (unit : Installable) : Visit → Prop
  | interrupted (arrived : session.interrupted = true) : Visited setting session unit
      ⟨unit, session.note (.began unit.name), .error .interrupted⟩
  | skipped {cause : SkipCause} (free : session.interrupted = false)
      (decided : setting.criteria.judge unit setting.snapshot setting.hostname = .skip cause) :
      Visited setting session unit
        ⟨unit, session.note (.began unit.name), .ok (unit.result (.skipped cause) [])⟩
  | worked {forced : Bool} {final : Work} {stop? : Option Stop} (free : session.interrupted = false)
      (decided : setting.criteria.judge unit setting.snapshot setting.hostname = .install forced)
      (ran : Work.runSteps setting Step.all (.begin session unit forced) = (final, stop?)) :
      Visited setting session unit ⟨final.unit, final.session, final.conclude unit stop?⟩

theorem visited (setting : Setting) (session : Session) (unit : Installable) :
    Visited setting session unit (setting.visit session unit) := by
  by_cases harrived : session.interrupted = true
  · rw [visit_of_interrupted harrived]
    exact .interrupted harrived
  · rw [Bool.not_eq_true] at harrived
    cases hdecision : setting.criteria.judge unit setting.snapshot setting.hostname with
    | skip cause =>
      rw [visit_of_skip harrived hdecision]
      exact .skipped harrived hdecision
    | install forced =>
      rw [visit_of_install harrived hdecision]
      exact .worked harrived hdecision rfl

theorem visit_kept (setting : Setting) (session : Session) (unit : Installable) :
    Move.Kept { unit, session }
      { unit := (setting.visit session unit).unit
        session := (setting.visit session unit).session } := by
  have hbegin : Move.Kept { unit, session } { unit, session := session.note (.began unit.name) } :=
    .note rfl
  have hvisited := visited setting session unit
  generalize setting.visit session unit = visit at hvisited ⊢
  cases hvisited with
  | interrupted | skipped => exact hbegin
  | @worked forced final stop? free decided ran =>
    have hkept := runSteps_kept setting Step.all (.begin session unit forced)
    rw [ran] at hkept
    exact ⟨hkept.declared, rfl, hkept.results.trans hbegin.results,
      hbegin.trace.trans hkept.trace, fun h => hkept.interrupted (hbegin.interrupted h)⟩

theorem visit_preserves {P : Session → Prop} (h : P session)
    (began : ∀ session, P session → P (session.note (.began unit.name)))
    (enter : ∀ step session, P session → P (session.note (.entered step)))
    (move : ∀ step work next, P work.session → Move setting work step next → P next.session) :
    P (setting.visit session unit).session := by
  have hbegan := began session h
  have hvisited := visited setting session unit
  generalize setting.visit session unit = visit at hvisited ⊢
  cases hvisited with
  | interrupted | skipped => exact hbegan
  | @worked forced final stop? free decided ran =>
    have hfinal : P (Work.runSteps setting Step.all (.begin session unit forced)).1.session :=
      runSteps_induction (Q := fun work => P work.session) (P := fun _ work => P work.session)
        (fun step work => enter step work.session) move (fun _ _ => id) hbegan
    rwa [ran] at hfinal

theorem began_prefix_visit (setting : Setting) (session : Session) (unit : Installable) :
    (session.note (.began unit.name)).trace <+: (setting.visit session unit).session.trace := by
  have hvisited := visited setting session unit
  generalize setting.visit session unit = visit at hvisited ⊢
  cases hvisited with
  | interrupted | skipped => exact List.prefix_rfl
  | @worked forced final stop? free decided ran =>
    have hkept := runSteps_kept setting Step.all (.begin session unit forced)
    rw [ran] at hkept
    exact hkept.trace

theorem visit_eq_ok {result : UnitResult} (h : (setting.visit session unit).result = .ok result) :
    result.name = unit.name ∧ result.bucket = unit.bucket ∧ Foreseen setting unit
      (setting.criteria.judge unit setting.snapshot setting.hostname) result.outcome := by
  have hvisited := visited setting session unit
  generalize setting.visit session unit = visit at hvisited h
  cases hvisited with
  | interrupted => cases h
  | skipped free decided =>
    obtain rfl := Except.ok.inj h
    exact ⟨rfl, rfl, decided ▸ .skipped⟩
  | @worked forced final stop? free decided ran =>
    rw [decided]
    cases stop? with
    | none =>
      obtain rfl := Except.ok.inj h
      exact ⟨rfl, rfl, .completed⟩
    | some stop =>
      cases runSteps_settled ran with
      | interrupted => cases h
      | ended ends =>
        cases ends with
        | failed =>
          obtain rfl := Except.ok.inj h
          exact ⟨rfl, rfl, .failed⟩
        | installed declared real unforced found =>
          obtain rfl := Except.ok.inj h
          obtain rfl : forced = false := unforced
          exact ⟨rfl, rfl, .installed declared real found⟩
        | unmarked => cases h

theorem visit_eq_error {error : RunError} (h : (setting.visit session unit).result = .error error) :
    error = .interrupted ∧ (setting.visit session unit).session.interrupted = true ∨
      ∃ message, error = .environment message := by
  have hvisited := visited setting session unit
  generalize setting.visit session unit = visit at hvisited h ⊢
  cases hvisited with
  | interrupted arrived => exact .inl ⟨(Except.error.inj h).symm, arrived⟩
  | skipped => cases h
  | @worked forced final stop? free decided ran =>
    cases stop? with
    | none => cases h
    | some stop =>
      cases runSteps_settled ran with
      | interrupted arrived => exact .inl ⟨(Except.error.inj h).symm, arrived⟩
      | ended ends =>
        cases ends with
        | failed => cases h
        | installed => cases h
        | unmarked => exact .inr ⟨_, (Except.error.inj h).symm⟩

end Visit

end Provision

import Provision.Proofs.Run.Log

/-!
# The pass of a unit

A real visit takes its unit through steps, one after the other. Every step leaves its log between
its own beginning and that of the next, so what events mean in their steps can be read off one log
at a time.
-/

namespace Provision

/-! ## Events in their scenes -/

/-- The event belongs to the step that is under way. -/
def Event.Still (event : Event) : Prop := ∀ here : Scene, here.next event = here

theorem Deed.still {step : Step} {event : Event} (h : Deed step event) : event.Still := by
  intro here
  cases h <;> rfl

theorem Halts.still {final : Work} {step : Step} {last : List Event} {stop? : Option Stop}
    (h : Halts final step last stop?) : ∀ event ∈ last, event.Still := by
  intro event hevent
  cases h with
  | refused call failure shown =>
    obtain rfl := List.mem_singleton.mp hevent
    exact fun _ => rfl
  | _ => cases hevent

theorem Log.still {step : Step} {work : Work} {ran : Work × Option Stop} {deeds last : List Event}
    (h : Log step work ran deeds last) : ∀ event ∈ deeds ++ last, event.Still :=
  List.forall_mem_append.mpr ⟨fun event hevent => (h.done event hevent).still, h.halts.still⟩

theorem foldl_next_of_still {here : Scene} {events : List Event}
    (h : ∀ event ∈ events, event.Still) : events.foldl Scene.next here = here := by
  induction events with
  | nil => rfl
  | cons event rest ih =>
    rw [List.forall_mem_cons] at h
    rw [List.foldl_cons, h.1, ih h.2]

/-- What events give, each in the scene that it happens in. -/
def gather {α : Type} (f : Scene → Event → Option α) (here : Scene) : List Event → List α
  | [] => []
  | event :: rest => (f here event).toList ++ gather f (here.next event) rest

section Gather

variable {α : Type} {f : Scene → Event → Option α} {here : Scene} {events more : List Event}

theorem gather_append_of_still (h : ∀ event ∈ events, event.Still) :
    gather f here (events ++ more) = events.filterMap (f here) ++ gather f here more := by
  induction events with
  | nil => rfl
  | cons event rest ih =>
    rw [List.forall_mem_cons] at h
    rw [List.cons_append, gather, h.1, ih h.2]
    cases hgiven : f here event <;> simp [hgiven]

theorem gather_entered {step : Step} (hentered : f here (.entered step) = none)
    (h : ∀ event ∈ events, event.Still) :
    gather f here (.entered step :: (events ++ more)) =
      events.filterMap (f { here with step? := some step }) ++
        gather f { here with step? := some step } more := by
  rw [gather, hentered, Scene.next, gather_append_of_still h]
  rfl

end Gather

/-! ## Steps one after the other -/

/-- What happens while a real run takes a unit through steps. What has halted goes through no more
of them, nor does what has been interrupted. -/
inductive Pass : List Step → Work × Option Stop → List Event → Work × Option Stop → Prop
  | done {work : Work} : Pass [] (work, none) [] (work, none)
  | halted {steps : List Step} {work : Work} {stop : Stop} :
      Pass steps (work, some stop) [] (work, some stop)
  | interrupted {steps : List Step} {work : Work} (arrived : work.session.interrupted = true) :
      Pass steps (work, none) [] (work, some (.fatal .interrupted))
  | step {step : Step} {rest : List Step} {work : Work} {mid ran : Work × Option Stop}
      {deeds last more : List Event} (log : Log step (work.enter step) mid deeds last)
      (asks : step.Asks work.unit (answered (deeds ++ last)))
      (refresh : step = .refreshIndex →
        (answered (deeds ++ last) ≠ [] ↔ work.unit.refreshDue = true))
      (declared : mid.1.unit.declared = work.unit.declared) (next : Pass rest mid more ran) :
      Pass (step :: rest) (work, none) (.entered step :: (deeds ++ last ++ more)) ran

/-- The steps of a real run are a pass, and an interrupt may outdo the stop in which it ends. -/
theorem exists_pass {setting : Setting} (hreal : setting.dryRun = false) (steps : List Step)
    (work : Work) : ∃ events stop?,
      Pass steps (work, none) events ((Work.runSteps setting steps work).1, stop?) ∧
        (Work.runSteps setting steps work).2 =
          stop?.map (Work.runSteps setting steps work).1.settle := by
  induction steps generalizing work with
  | nil => exact ⟨[], none, .done, rfl⟩
  | cons step rest ih =>
    have hdeclared := (goes_step setting step work).moves.kept.declared
    obtain ⟨deeds, last, hlog, hasks, hrefresh⟩ := Log.of_step hreal step (work.enter step)
    have htasks : step.tasks (work.enter step).unit = step.tasks work.unit := rfl
    rw [htasks] at hlog
    cases harrived : work.session.interrupted with
    | true =>
      rw [Work.runSteps, if_pos harrived]
      exact ⟨[], _, .interrupted harrived, rfl⟩
    | false =>
      rw [runSteps_cons_of_free harrived]
      generalize Work.runTasks setting (step.tasks work.unit) (work.enter step) = ran at *
      obtain ⟨mid, stop?⟩ := ran
      cases stop? with
      | none =>
        obtain ⟨more, stop?, hmore, hsettled⟩ := ih mid
        exact ⟨_, stop?, .step hlog hasks hrefresh hdeclared hmore, hsettled⟩
      | some stop => exact ⟨_, some stop, .step hlog hasks hrefresh hdeclared .halted, rfl⟩

theorem settle_of_free {work : Work} (h : work.session.interrupted = false) :
    work.settle = id := by
  funext stop
  cases stop <;> simp [Work.settle, h]

namespace Pass

variable {steps : List Step} {start ran : Work × Option Stop} {events : List Event}

theorem trace (h : Pass steps start events ran) :
    ran.1.session.trace = start.1.session.trace ++ events := by
  induction h with
  | done | halted | interrupted => simp
  | step log _ _ _ _ ih =>
    rw [ih, log.trace]
    simp [Work.enter, Session.note]

theorem declared (h : Pass steps start events ran) :
    ran.1.unit.declared = start.1.unit.declared := by
  induction h with
  | done | halted | interrupted => rfl
  | step _ _ _ declared _ ih => exact ih.trans declared

end Pass

end Provision

import Provision.Proofs.Run.Pass

/-!
# The course of a visit

The steps of a real visit come in one order, and each has its own calls to make. So the calls of a
visit come in one order as well, the package index is refreshed if there is something new in it, and
a call that fails is the last thing that happens.
-/

namespace Provision

/-! ## Calls in their steps -/

abbrev callsFrom (step : Step) : Scene → List Event → List Answered :=
  gather fun here event => if here.step? = some step then event.answered? else none

/-- The calls among the events of a visit that are made in a step. -/
def callsIn (step : Step) (events : List Event) : List Answered := callsFrom step {} events

theorem Log.not_entered {step other : Step} {work : Work} {ran : Work × Option Stop}
    {deeds last : List Event} (h : Log step work ran deeds last) :
    .entered other ∉ deeds ++ last := by
  intro hmem
  have hsame := h.still _ hmem {}
  cases hsame

theorem Halts.any_renews {final : Work} {step : Step} {last : List Event} {stop? : Option Stop}
    (h : Halts final step last stop?) : last.any Event.renews = false := by
  cases h with
  | refused call failure shown => cases call <;> rfl
  | _ => rfl

theorem Log.any_renews {step : Step} {work : Work} {ran : Work × Option Stop}
    {deeds last : List Event} (h : Log step work ran deeds last) :
    (deeds ++ last).any Event.renews = deeds.any Event.renews := by
  rw [List.any_append, h.halts.any_renews, Bool.or_false]

theorem Log.any_renews_eq_false {step : Step} {work : Work} {ran : Work × Option Stop}
    {deeds last : List Event} (h : Log step work ran deeds last)
    (hrepositories : step ≠ .repositories) (hsources : step ≠ .sources) :
    (deeds ++ last).any Event.renews = false := by
  rw [h.any_renews, List.any_eq_false]
  intro event hevent
  cases h.done event hevent with
  | added => exact absurd rfl hrepositories
  | wrote => exact absurd rfl hsources
  | _ => simp [Event.renews]

theorem callsFrom_entered {step other : Step} {here : Scene} {events more : List Event}
    (h : ∀ event ∈ events, event.Still) :
    callsFrom step here (.entered other :: (events ++ more)) =
      (if other = step then answered events else []) ++
        callsFrom step { here with step? := some other } more := by
  rw [callsFrom, gather_entered (by simp [Event.answered?]) h]
  by_cases hother : other = step <;> simp [hother, answered]

/-! ## Steps one after the other -/

namespace Pass

variable {steps : List Step} {start ran : Work × Option Stop} {events : List Event} {step : Step}

theorem callsFrom_of_not_mem (h : Pass steps start events ran) (hstep : step ∉ steps)
    (here : Scene) : callsFrom step here events = [] := by
  induction h generalizing here with
  | done | halted | interrupted => rfl
  | step log _ _ _ _ ih =>
    rw [List.mem_cons, not_or] at hstep
    rw [callsFrom_entered log.still, if_neg (Ne.symm hstep.1), List.nil_append, ih hstep.2]

theorem asks (h : Pass steps start events ran) (hnodup : steps.Nodup) (step : Step)
    (here : Scene) : step.Asks start.1.unit (callsFrom step here events) := by
  induction h generalizing here with
  | done | halted | interrupted => exact step.asks_nil _
  | @step first rest work mid ran deeds last more log asks refresh declared next ih =>
    rw [List.nodup_cons] at hnodup
    rw [callsFrom_entered log.still]
    by_cases hfirst : first = step
    · subst hfirst
      rw [if_pos rfl, next.callsFrom_of_not_mem hnodup.1, List.append_nil]
      exact asks
    · rw [if_neg hfirst, List.nil_append, ← Step.asks_declared, ← declared, Step.asks_declared]
      exact ih hnodup.2 _

theorem order (h : Pass steps start events ran) (hnodup : steps.Nodup) (here : Scene) :
    answered events = steps.flatMap (callsFrom · here events) := by
  induction h generalizing here with
  | done | halted | interrupted => simp [answered, gather]
  | @step first rest work mid ran deeds last more log asks refresh declared next ih =>
    rw [List.nodup_cons] at hnodup
    have hrest : rest.flatMap (callsFrom · here (.entered first :: (deeds ++ last ++ more))) =
        rest.flatMap (callsFrom · { here with step? := some first } more) := by
      refine List.flatMap_congr fun step hstep => ?_
      have hne : first ≠ step := fun heq => hnodup.1 (heq ▸ hstep)
      rw [callsFrom_entered log.still, if_neg hne, List.nil_append]
    rw [List.flatMap_cons, hrest, ← ih hnodup.2, callsFrom_entered log.still, if_pos rfl,
      next.callsFrom_of_not_mem hnodup.1, List.append_nil, ← answered_append]
    rfl

theorem renews_eq_false (h : Pass steps start events ran) (hrepositories : .repositories ∉ steps)
    (hsources : .sources ∉ steps) : events.any Event.renews = false := by
  induction h with
  | done | halted | interrupted => rfl
  | @step first rest work mid ran deeds last more log asks refresh declared next ih =>
    rw [List.mem_cons, not_or] at hrepositories hsources
    rw [List.any_cons, List.any_append, ih hrepositories.2 hsources.2,
      log.any_renews_eq_false (Ne.symm hrepositories.1) (Ne.symm hsources.1)]
    rfl

/-- The index is refreshed, once the visit has come so far, just if something in it is new. -/
theorem refresh (h : Pass steps start events ran) (hfree : start.2 = none)
    (horder : steps.Pairwise fun earlier later =>
      earlier = .refreshIndex → later ≠ .repositories ∧ later ≠ .sources ∧ later ≠ .refreshIndex)
    (here : Scene) :
    callsFrom .refreshIndex here events ≠ [] ↔ .entered .refreshIndex ∈ events ∧
      (start.1.unit.refreshDue = true ∨ events.any Event.renews = true) := by
  induction h generalizing here with
  | done | interrupted => simp [gather]
  | halted => cases hfree
  | @step first rest work mid ran deeds last more log asks refresh declared next ih =>
    rw [List.pairwise_cons] at horder
    rw [callsFrom_entered log.still, List.any_cons, List.any_append]
    -- Before the refresh the unit carries what is due; after it nothing is renewed any more.
    by_cases hfirst : first = .refreshIndex
    · subst hfirst
      have hlater := fun step hstep => horder.1 step hstep rfl
      have hrepositories : .repositories ∉ rest := fun hmem => (hlater _ hmem).1 rfl
      have hsources : .sources ∉ rest := fun hmem => (hlater _ hmem).2.1 rfl
      have hagain : .refreshIndex ∉ rest := fun hmem => (hlater _ hmem).2.2 rfl
      rw [if_pos rfl, next.callsFrom_of_not_mem hagain, List.append_nil, refresh rfl,
        log.any_renews_eq_false (by decide) (by decide),
        next.renews_eq_false hrepositories hsources]
      simp [Event.renews]
    · have hentered : Event.entered .refreshIndex ∈
          .entered first :: (deeds ++ last ++ more) ↔ .entered .refreshIndex ∈ more := by
        have hnot : Event.entered .refreshIndex ∉ deeds ++ last := log.not_entered
        rw [List.mem_cons, List.mem_append]
        simp [hnot, Ne.symm hfirst]
      rw [if_neg hfirst, List.nil_append, hentered, log.any_renews]
      obtain ⟨mid, stop?⟩ := mid
      cases stop? with
      | none =>
        have hdue : mid.unit.refreshDue = (work.unit.refreshDue || _) := log.due
        rw [ih rfl horder.2, hdue]
        simp [Event.renews, or_assoc]
      | some stop =>
        cases next
        simp [gather]

/-- A visit ends with the step that halts, and nothing has failed before. -/
theorem ends (h : Pass steps start events ran) (hfree : start.2 = none) (here : Scene) :
    ∃ good last step, events = good ++ last ∧
      (∀ call failure shown, .called call (.error failure) shown ∉ good) ∧
      Halts ran.1 step last ran.2 ∧
      (last ≠ [] → (good.foldl Scene.next here).step? = some step) := by
  induction h generalizing here with
  | done => exact ⟨[], [], .repositories, rfl, by simp, .done, by simp⟩
  | interrupted => exact ⟨[], [], .repositories, rfl, by simp, .fatal _, by simp⟩
  | halted => cases hfree
  | @step first rest work mid ran deeds last more log asks refresh declared next ih =>
    have hstill : ∀ event ∈ deeds, event.Still := fun event hevent => (log.done event hevent).still
    have hgood : ∀ call failure shown,
        Event.called call (.error failure) shown ∉ .entered first :: deeds := by
      intro call failure shown hmem
      have hdeed := log.done _ ((List.mem_cons.mp hmem).resolve_left (by simp))
      cases hdeed
    obtain ⟨mid, stop?⟩ := mid
    cases stop? with
    | none =>
      obtain rfl := log.last_eq_nil
      obtain ⟨good, last, step, rfl, hlater, hhalts, hscene⟩ :=
        ih rfl { here with step? := some first }
      refine ⟨.entered first :: deeds ++ good, last, step, by simp, ?_, hhalts, ?_⟩
      · intro call failure shown hmem
        rcases List.mem_append.mp hmem with hmem | hmem
        · exact hgood call failure shown hmem
        · exact hlater call failure shown hmem
      · intro hlast
        rw [List.foldl_append, List.foldl_cons, foldl_next_of_still hstill]
        exact hscene hlast
    | some stop =>
      cases next
      refine ⟨.entered first :: deeds, last, first, by simp, hgood, log.halts, fun _ => ?_⟩
      rw [List.foldl_cons, foldl_next_of_still hstill]
      rfl

end Pass

/-! ## Visits -/

theorem split_of_short {α : Type} {good last front back : List α} {a : α}
    (h : good ++ last = front ++ a :: back) (ha : a ∉ good) (hlast : last.length ≤ 1) :
    good = front ∧ last = [a] ∧ back = [] := by
  rcases List.append_eq_append_iff.mp h with ⟨more, rfl, rfl⟩ | ⟨more, rfl, hrest⟩
  · have hlength : (more ++ a :: back).length = more.length + back.length + 1 := by simp; omega
    obtain rfl : more = [] := List.eq_nil_of_length_eq_zero (by omega)
    obtain rfl : back = [] := List.eq_nil_of_length_eq_zero (by omega)
    exact ⟨by simp, rfl, rfl⟩
  · cases more with
    | nil =>
      obtain rfl : last = a :: back := hrest.symm
      obtain rfl : back = [] := List.eq_nil_of_length_eq_zero (by simpa using hlast)
      exact ⟨by simp, rfl, rfl⟩
    | cons b more =>
      obtain ⟨rfl, -⟩ := List.cons.inj hrest
      exact absurd (by simp) ha

theorem Halts.length_le {final : Work} {step : Step} {last : List Event} {stop? : Option Stop}
    (h : Halts final step last stop?) : last.length ≤ 1 := by
  cases h <;> simp

/-- What a real visit does that no interrupt disturbs. The calls come step by step. The index is
refreshed, if the visit comes so far, just if it was out of date or the visit has made it so. A call
that fails is the last event, and the unit fails with it; else it fails only because of a source
file. -/
structure Course (setting : Setting) (session : Session) (unit : Installable)
    (events : List Event) : Prop where
  trace : (setting.visit session unit).session.trace =
    session.trace ++ .began unit.name :: events
  order : answered events = Step.all.flatMap (callsIn · events)
  calls : ∀ step : Step, step.Asks unit (callsIn step events)
  refresh : callsIn .refreshIndex events ≠ [] ↔ .entered .refreshIndex ∈ events ∧
    (unit.refreshDue = true ∨ ∃ event ∈ events, event.renews = true)
  failed : ∀ front call failure shown back,
    events = front ++ .called call (.error failure) shown :: back →
      back = [] ∧ ∃ step actions, (scene front).step? = some step ∧
        (setting.visit session unit).result =
          .ok (unit.result (.failed ⟨step, failure.text⟩) actions)
  failure : ∀ result fault, (setting.visit session unit).result = .ok result →
    result.outcome = .failed fault →
      (∃ front call failure shown, events = front ++ [.called call (.error failure) shown]) ∨
        fault.step = .sources ∧ ∃ entry ∈ unit.sources, ∃ before : Files,
          before.exists? entry.path = false ∧
            Unwritten entry before (setting.visit session unit).session.files fault.message

theorem Pass.course {setting : Setting} {session : Session} {unit : Installable} {forced : Bool}
    {events : List Event} {final : Work} {stop? : Option Stop}
    (h : Pass Step.all (.begin session unit forced, none) events (final, stop?))
    (hvisit : setting.visit session unit =
      ⟨final.unit, final.session, final.conclude unit stop?⟩) :
    Course setting session unit events := by
  obtain ⟨good, last, step, rfl, hgood, hhalts, hscene⟩ := h.ends rfl {}
  constructor
  case trace =>
    rw [hvisit, h.trace]
    simp [Work.begin, Session.note]
  case order => exact h.order (by decide) {}
  case calls => exact fun step => h.asks (by decide) step {}
  case refresh =>
    rw [callsIn, h.refresh rfl (by decide), List.any_eq_true]
    rfl
  case failed =>
    intro front call failure shown back hsplit
    obtain ⟨rfl, rfl, rfl⟩ := split_of_short hsplit (hgood call failure shown) hhalts.length_le
    cases hhalts
    exact ⟨rfl, step, final.actions, hscene (by simp), by rw [hvisit]; rfl⟩
  case failure =>
    intro result fault hresult houtcome
    rw [hvisit] at hresult ⊢
    obtain rfl : stop? = some (.failed fault) := by
      cases stop? with
      | none =>
        obtain rfl := Except.ok.inj hresult
        cases houtcome
      | some stop =>
        cases stop with
        | skipped =>
          obtain rfl := Except.ok.inj hresult
          cases houtcome
        | failed other =>
          obtain rfl := Except.ok.inj hresult
          rw [Outcome.failed.inj houtcome]
        | fatal => cases hresult
    have hsources : final.unit.sources = unit.sources :=
      Installable.eq_of_declared_eq h.declared _ fun _ => rfl
    cases hhalts with
    | refused call failure shown => exact .inl ⟨good, call, failure, shown, rfl⟩
    | @unwritten entry before message declared missing written =>
      exact .inr ⟨rfl, entry, hsources ▸ declared, before, missing, written⟩

theorem course_of_skip {setting : Setting} {session : Session} {unit : Installable}
    {cause : SkipCause} (hvisit : setting.visit session unit =
      ⟨unit, session.note (.began unit.name), .ok (unit.result (.skipped cause) [])⟩) :
    Course setting session unit [] := by
  constructor
  case trace => rw [hvisit, Session.note]
  case order => rfl
  case calls => exact fun step => step.asks_nil unit
  case refresh => simp [callsIn, gather]
  case failed =>
    intro front call failure shown back hsplit
    simp at hsplit
  case failure =>
    intro result fault hresult houtcome
    rw [hvisit] at hresult
    obtain rfl := Except.ok.inj hresult
    cases houtcome

/-- A real visit that no interrupt disturbs takes its course, whatever the unit, the files and the
collaborators are. -/
theorem exists_course {setting : Setting} {session : Session} {unit : Installable}
    (hreal : setting.dryRun = false)
    (hfree : (setting.visit session unit).session.interrupted = false) :
    ∃ events, Course setting session unit events := by
  cases harrived : session.interrupted with
  | true =>
    rw [visit_of_interrupted harrived] at hfree
    exact absurd (harrived.symm.trans hfree) (by simp)
  | false =>
    cases hdecision : setting.criteria.judge unit setting.snapshot setting.hostname with
    | skip cause => exact ⟨[], course_of_skip (visit_of_skip harrived hdecision)⟩
    | install forced =>
      have hvisit := visit_of_install harrived hdecision
      rw [hvisit] at hfree
      obtain ⟨events, stop?, hpass, hsettled⟩ := exists_pass hreal Step.all _
      rw [settle_of_free hfree, Option.map_id] at hsettled
      rw [hsettled] at hvisit
      exact ⟨events, hpass.course hvisit⟩

/-- All calls are answered but those that install packages. -/
def Setting.withoutPackages : Setting where
  collaborators := ⟨fun _ call files =>
    { result := match call with
        | .reinstall package => .error ⟨"no candidate", [package]⟩
        | _ => .ok ""
      files }⟩
  hostname := "host"

def unitOfTwoRepositories : Installable :=
  { name := "a", repositories := ["r", "s"], preScript? := some "true", postScript? := some "sync" }

theorem exists_course_without_packages :
    Setting.withoutPackages.dryRun = false ∧
    (Setting.withoutPackages.visit { files := {} } unitOfTwoRepositories).session.interrupted =
      false ∧
    (Setting.withoutPackages.visit { files := {} } unitOfTwoRepositories).session.calls =
      [.addRepository "r", .addRepository "s", .refreshIndex, .runScript "true", .reinstall "a"] ∧
    ∃ events, Course .withoutPackages { files := {} } unitOfTwoRepositories events := by
  have hfree : (Setting.withoutPackages.visit { files := {} }
      unitOfTwoRepositories).session.interrupted = false := by decide +kernel
  exact ⟨rfl, hfree, by decide +kernel, exists_course rfl hfree⟩

end Provision
